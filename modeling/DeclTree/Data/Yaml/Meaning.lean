import DeclTree.Data.Yaml.Node
import DeclTree.Data.Yaml.Resolve
import DeclTree.Text.Base64

/-!
# What scalars and keys mean

A scalar in quotes is a text, and one without stands for what its spelling says. A tag of the usual
ones asks for a sort of value, which the spelling has to be of; any other tag leaves a text as it
is. Two keys of a record are one key twice if they are written alike, whatever they mean.
-/

set_option autoImplicit false
set_option relaxedAutoImplicit false

namespace DeclTree.Yaml

/-- What a scalar means; numbers and points in time only count by their spelling. -/
inductive Meaning where
  | null
  | flag (b : Bool)
  | text (s : String)
  | other
  deriving DecidableEq, Repr

/-- The text of the key that merges. -/
def mergeMark : String := "<<"

namespace Meaning

def ofSense (text : String) : Sense → Meaning
  | .null => .null
  | .bool b => .flag b
  | .str => .text text
  | .int _ => .other
  | .float => .other
  | .timestamp => .other

/-- What a spelling means where nothing is said on it. -/
def ofPlain (text : String) : Meaning := ofSense text (resolve text)

/-- Whether a spelling is of the sort that a tag asks for. A whole number of 64 bits is also of the
other numbers. -/
def agrees (tag : String) : Sense → Bool
  | .null => tag = "!!null"
  | .bool _ => tag = "!!bool"
  | .int n => tag = "!!int" || tag = "!!float" && Number.least ≤ n && n ≤ Number.largest
  | .float => tag = "!!float"
  | .timestamp => tag = "!!timestamp"
  | .str => false

/-- The tags that ask for a sort of value other than texts. -/
def sortTags : List String := ["!!null", "!!bool", "!!int", "!!float", "!!timestamp"]

/-- What a scalar means, unless its tag and its text disagree. -/
def of? (tag? : Option String) (isPlain : Bool) (text : String) : Option Meaning :=
  let tag := tag?.getD "!"
  if tag = "!" then some (if isPlain then ofPlain text else .text text)
  else if sortTags.contains tag then
    let sense := resolve text
    if agrees tag sense then some (ofSense text sense) else none
  else if tag = "!!binary" then
    (Text.Base64.decode? text).map fun bytes => .text (Text.ofBytes bytes)
  else some (.text text)

end Meaning

namespace Node

def isRecord : Node → Bool
  | .record .. => true
  | _ => false

/-- Whether a key merges other records into its own. -/
def isMerge : Node → Bool
  | .scalar tag? isPlain text =>
    let tag := tag?.getD "!"
    text = mergeMark && (tag = "!!merge" || tag = "!" && isPlain)
  | _ => false

/-- Whether a node may be merged as it is: a record, or the name of one. -/
def isMergeable : Node → Bool
  | .record .. => true
  | .alias _ target => target.isRecord
  | .inside _ isRecord => isRecord
  | _ => false

/-- A key as it is written. Lists are all alike, and so are records. -/
inductive KeyMark where
  | scalar (text : String)
  | list
  | record
  | alias (name : String)
  deriving DecidableEq, Repr

def keyMark : Node → KeyMark
  | .scalar _ _ text => .scalar text
  | .list .. => .list
  | .record .. => .record
  | .alias name _ => .alias name
  | .inside name _ => .alias name

/-- Whether a record has a key twice. -/
def repeatsKey (entries : List (Node × Node)) : Bool :=
  !(entries.map fun entry => entry.1.keyMark).Nodup

end Node

end DeclTree.Yaml
