import DeclTree.Data.Yaml.Scalar
import DeclTree.Number.Integer

/-!
# Tags and directives

A tag is written in full between `!<` and `>`, or with a handle that stands for the beginning of
its name: `!`, `!!` or a word between exclamation marks. A directive is a line before a document; it
tells the version of the format, or the beginning that a handle stands for. `Tag.read?` and
`Directive.read?` give what they read and what follows, or refuse it.
-/

set_option autoImplicit false
set_option relaxedAutoImplicit false

namespace DeclTree.Yaml

/-- The characters of names. -/
def isNameChar (c : Char) : Bool := c.isAlphanum || c = '_' || c = '-'

/-- The characters of tags. -/
def isTagChar (c : Char) : Bool := isNameChar c || ";/?:@&=+$,.!~*'()[]%".toList.contains c

/-- How many bytes a character has that begins with a given byte. -/
def width? (byte : Nat) : Option Nat :=
  if byte < 0x80 then some 1
  else if 0xC0 ≤ byte ∧ byte < 0xE0 then some 2
  else if 0xE0 ≤ byte ∧ byte < 0xF0 then some 3
  else if 0xF0 ≤ byte ∧ byte < 0xF8 then some 4
  else none

/-- The text of a tag, backwards, where a percent sign stands before the two digits of a byte. Of
the character at hand `missing` bytes are still to come. A byte beyond those of a text in plain
letters counts as a character of its own. -/
def tagText (missing : Nat) (text : List Char) : List Spot → Option (List Char × List Spot)
  | [] => if missing = 0 then some (text, []) else none
  | s :: rest =>
    if s.char = '%' then
      match rest with
      | high :: low :: rest => do
        let byte := (← Json.hexValue? high.char) * 16 + (← Json.hexValue? low.char)
        if missing = 0 then tagText ((← width? byte) - 1) (Char.ofNat byte :: text) rest
        else if 0x80 ≤ byte ∧ byte < 0xC0 then
          tagText (missing - 1) (Char.ofNat byte :: text) rest
        else none
      | _ => none
    else if missing ≠ 0 then none
    else if isTagChar s.char then tagText 0 (s.char :: text) rest
    else some (text, s :: rest)

/-- A text that is not empty, as `tagText` reads it. -/
def tagWord? (spots : List Spot) : Option (String × List Spot) :=
  match tagText 0 [] spots with
  | some ([], _) => none
  | some (text, rest) => some (String.ofList text.reverse, rest)
  | none => none

/-- A name, which may be empty, and what follows it. -/
def name (spots : List Spot) : String × List Spot :=
  (String.ofList ((spots.takeWhile fun s => isNameChar s.char).map Spot.char),
    spots.dropWhile fun s => isNameChar s.char)

/-- A tag as it is written: a handle, which is empty where the tag is given in full, and the rest of
its name. -/
structure Tag where
  handle : String
  rest : String
  deriving DecidableEq, Repr

namespace Tag

/-- The tag that says nothing. -/
def bare : Tag := ⟨"", "!"⟩

/-- A tag in full, behind its opening. -/
def full? (spots : List Spot) : Option (Tag × List Spot) := do
  let (text, rest) ← tagWord? spots
  if rest.head?.any fun s => s.char = '>' then some (⟨"", text⟩, rest.tail) else none

/-- A tag with a handle, behind its first exclamation mark. The mark may also stand alone. -/
def short? (spots : List Spot) : Option (Tag × List Spot) := do
  let (word, after) := name spots
  if after.head?.any fun s => s.char = '!' then
    let (text, rest) ← tagWord? after.tail
    return (⟨"!" ++ word ++ "!", text⟩, rest)
  else
    let (text, rest) ← tagText 0 word.toList.reverse after
    return (if text.isEmpty then bare else ⟨"!", String.ofList text.reverse⟩, rest)

/-- A tag behind its first exclamation mark; nothing may be attached to it. -/
def read? (spots : List Spot) : Option (Tag × List Spot) := do
  let (tag, after) ←
    if spots.head?.any fun s => s.char = '<' then full? spots.tail else short? spots
  if Spot.isClear after then some (tag, after) else none

/-- How the names of the usual tags begin. -/
def usualLead : String := "tag:yaml.org,2002:"

/-- The beginnings that handles stand for where nothing else is said. -/
def usualHandles : List (String × String) := [("!", "!"), ("!!", usualLead)]

/-- The name of a tag, if its handle stands for something; the usual tags have short names. -/
def name? (handles : List (String × String)) (tag : Tag) : Option String := do
  let lead ← if tag.handle = "" then some "" else handles.lookup tag.handle
  let full := (lead ++ tag.rest).toList
  let usual := usualLead.toList
  return if usual.isPrefixOf full then "!!" ++ String.ofList (full.drop usual.length)
    else String.ofList full

end Tag

inductive Directive where
  | version (major minor : Nat)
  | handle (name lead : String)
  deriving DecidableEq, Repr

namespace Directive

/-- A number of one or two digits. -/
def number? (spots : List Spot) : Option (Nat × List Spot) := do
  let digits := spots.takeWhile fun s => s.char.isDigit
  let n ← Number.natOfDigits? 10 (digits.map Spot.char)
  if 2 < digits.length then none else some (n, spots.drop digits.length)

def version? (spots : List Spot) : Option (Directive × List Spot) := do
  let (major, rest) ← number? (spots.dropWhile Spot.isGap)
  match rest with
  | dot :: rest =>
    let (minor, rest) ← number? rest
    if dot.char = '.' then some (.version major minor, rest) else none
  | [] => none

/-- A handle: one exclamation mark, two, or a word between them. -/
def handle? : List Spot → Option (String × List Spot)
  | mark :: rest =>
    let (word, after) := Yaml.name rest
    if mark.char ≠ '!' then none
    else if after.head?.any fun s => s.char = '!' then some ("!" ++ word ++ "!", after.tail)
    else if word = "" then some ("!", after)
    else none
  | [] => none

def lead? (spots : List Spot) : Option (Directive × List Spot) := do
  let (name, rest) ← handle? (spots.dropWhile Spot.isGap)
  if rest.head?.any Spot.isGap then
    let (lead, rest) ← tagWord? (rest.dropWhile Spot.isGap)
    if Spot.isClear rest then some (.handle name lead, rest) else none
  else none

/-- A directive behind its percent sign, with the line that it stands on. -/
def read? (spots : List Spot) : Option (Directive × List Spot) := do
  let (word, rest) := Yaml.name spots
  if !Spot.isClear rest then none
  else
    let (directive, rest) ←
      if word = "YAML" then version? rest
      else if word = "TAG" then lead? rest
      else none
    return (directive, (← skipComment? rest).drop 1)

end Directive

end DeclTree.Yaml
