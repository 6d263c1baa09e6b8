import DeclTree.Config.Validate
import DeclTree.Data.Toml.Reader
import DeclTree.FileTree
import DeclTree.Text.Lowercase

/-!
# Settings

Where the values of a configuration come from: environment variables first, then files, then the
defaults. Files are merged key by key. Values are taken for what a setting needs where that makes
sense: a number in a text, a truth value as a number, one text for a list.
-/

set_option autoImplicit false
set_option relaxedAutoImplicit false

namespace DeclTree.Config

open Toml (Value Table Floating)

/-!
## Values as what is needed
-/

/-- What stands for a number that is out of range. -/
def outOfRange : Int := Number.least

def floatingInt : Floating → Int
  | .finite isNegative size =>
    let n : Int := if isNegative then -(size.truncate : Int) else size.truncate
    if Number.least ≤ n ∧ n ≤ Number.largest then n else outOfRange
  | _ => outOfRange

def floatingText : Floating → String
  | .finite isNegative size => (if isNegative then "-" else "") ++ size.shortest.render
  | .infinite isNegative => if isNegative then "-Inf" else "+Inf"
  | .notNumber => "NaN"

def floatingFlag : Floating → Bool
  | .finite _ size => !size.isZero
  | _ => true

def flagOfText? (s : String) : Option Bool :=
  if ["1", "t", "T", "true", "TRUE", "True"].contains s then some true
  else if ["0", "f", "F", "false", "FALSE", "False"].contains s then some false
  else none

def asInt? : Value → Option Int
  | .int n => some n
  | .real x => some (floatingInt x)
  | .flag b => some (if b then 1 else 0)
  | .text s => if s = "" then some 0 else (Number.parseInt s).toOption
  | _ => none

def asFlag? : Value → Option Bool
  | .flag b => some b
  | .int n => some (n ≠ 0)
  | .real x => some (floatingFlag x)
  | .text s => if s = "" then some false else flagOfText? s
  | _ => none

def asText? : Value → Option String
  | .text s => some s
  | .int n => some (toString n)
  | .real x => some (floatingText x)
  | .flag b => some (if b then "1" else "0")
  | _ => none

/-- A list of texts; a text by itself is split at its commas, and an empty table is no text. -/
def asTexts? : Value → Option (List String)
  | .text s => some (if s = "" then [] else Text.splitAt ',' s)
  | .list items => items.mapM asText?
  | .table [] => some []
  | v => (asText? v).map fun s => [s]

/-!
## Files
-/

/-- A key in lower case, and whether it was written so. -/
structure Spelled where
  key : String
  isLower : Bool

def Spelled.of (key : String) : Spelled := ⟨Text.lowercase key, Text.lowercase key = key⟩

/-- The entries by their keys in lower case. A key that is written with capital letters counts
before one that is not. -/
def dropOutspelled (entries : List (Spelled × Value)) : List (String × Value) :=
  let kept := entries.filter fun (k, _) =>
    !(k.isLower && entries.any fun (other, _) => !other.isLower && other.key = k.key)
  kept.map fun (k, v) => (k.key, v)

mutual

/-- A value with the keys of its tables in lower case. -/
def lowered : Value → Value
  | .table entries => .table (dropOutspelled (loweredAll entries))
  | .list items => .list items
  | .text s => .text s
  | .int n => .int n
  | .real x => .real x
  | .flag b => .flag b
  | .moment => .moment

def loweredAll : List (String × Value) → List (Spelled × Value)
  | [] => []
  | (key, v) :: rest => (Spelled.of key, lowered v) :: loweredAll rest

end

/-- The settings in a file; the case of keys does not count. -/
def readFile? (text : String) : Option Table :=
  (Toml.read? text).map fun t => dropOutspelled (loweredAll t)

mutual

/-- What is set in a value under a name, by the full names. -/
def leaves (name : String) : Value → List (String × Value)
  | .table entries => leavesAll (name ++ ".") entries
  | .list items => [(name, .list items)]
  | .text s => [(name, .text s)]
  | .int n => [(name, .int n)]
  | .real x => [(name, .real x)]
  | .flag b => [(name, .flag b)]
  | .moment => [(name, .moment)]

def leavesAll (lead : String) : List (String × Value) → List (String × Value)
  | [] => []
  | (key, v) :: rest => leaves (lead ++ key) v ++ leavesAll lead rest

end

/-- What a file sets below a name. -/
def below (t : Table) (name : String) : Table :=
  let lead := (name ++ ".").toList
  (leavesAll "" t).filterMap fun (full, v) =>
    if lead.isPrefixOf full.toList then some (String.ofList (full.toList.drop lead.length), v)
    else none

/-- The value of a setting: under its full name, or in the table of its section, or as a table of
what is set below it. -/
def find? (t : Table) (sectionName key : String) : Option Value :=
  let name := sectionName ++ "." ++ key
  let inside := match t.lookup sectionName with
    | some (.table entries) => entries.lookup key
    | _ => none
  match (t.lookup name).or inside with
  | some v => some v
  | none =>
    match below t name with
    | [] => none
    | entries => some (.table entries)

/-- The sections and their settings. -/
def layout : List (String × List String) :=
  [("pipeline", ["passes", "workers", "flatten"]),
    ("escape", ["reserved_words", "special_characters", "quote", "fail_on_collision"]),
    ("this_type", ["top_type"]),
    ("log", ["json", "verbosity"])]

/-- What a section is given as, if that is not a table. -/
def misplaced? (t : Table) (sectionName : String) : Option Value :=
  match t.lookup sectionName with
  | some (.table _) => none
  | other => other

/-- Whether a value holds anything but empty tables. -/
def isFilled (v : Value) : Bool := !(leaves "" v).isEmpty

/-- What a file says on the settings that there are, section by section. -/
def relevant (t : Table) : Table :=
  layout.filterMap fun (sectionName, keys) =>
    match misplaced? t sectionName with
    | some v => some (sectionName, v)
    | none =>
      if (below t sectionName).isEmpty then none
      else
        some (sectionName, .table (keys.filterMap fun key =>
          match find? t sectionName key with
          | some v => if isFilled v then some (key, v) else none
          | none => none))

/-- Sets a key of a table; a new key goes to the end. -/
def setKey (key : String) (v : Value) : Table → Table
  | [] => [(key, v)]
  | (k, old) :: rest => if k = key then (k, v) :: rest else (k, old) :: setKey key v rest

/-- Merges settings over others; a table gives way to a table only. -/
def mergeKeys (under : Table) : Table → Table
  | [] => under
  | (key, v) :: rest =>
    match under.lookup key with
    | some (.table _) =>
      match v with
      | .table _ => mergeKeys (setKey key v under) rest
      | _ => mergeKeys under rest
    | _ => mergeKeys (setKey key v under) rest

/-- Merges sections over others, key by key. -/
def mergeSections (under : Table) : Table → Table
  | [] => under
  | (sectionName, v) :: rest =>
    match under.lookup sectionName with
    | some (.table entries) =>
      match v with
      | .table more =>
        mergeSections (setKey sectionName (.table (mergeKeys entries more)) under) rest
      | _ => mergeSections under rest
    | _ => mergeSections (setKey sectionName v under) rest

/-!
## All sources together
-/

/-- The environment variable of a setting or of a section. -/
def variableName (parts : List String) : String :=
  Text.joined "_" ("DECLOWER" :: parts.map String.toUpper)

/-- The sources of settings: files, and environment variables where they count. -/
structure Sources where
  files : Table
  given? : String → Option String

namespace Sources

/-- What the sources make of a section: its settings count; it has none, because a point in time
stands in its place; or it cannot be taken. -/
inductive State where
  | usable
  | emptied
  | unusable
  deriving DecidableEq, Repr

def state (s : Sources) (sectionName : String) : State :=
  match misplaced? s.files sectionName with
  | none => .usable
  | some .moment => if (s.given? (variableName [sectionName])).isSome then .unusable else .emptied
  | some _ => .unusable

/-- What the sources say on a setting: a value, nothing, or that there is none because something
has taken the place of the section. -/
inductive Word where
  | value (v : Value)
  | silent
  | hidden

def word (s : Sources) (sectionName key : String) : Word :=
  if s.state sectionName ≠ .usable then .hidden
  else
    match s.given? (variableName [sectionName, key]) with
    | some text => .value (.text text)
    | none =>
      match s.given? (variableName [sectionName]) with
      | some _ => .hidden
      | none =>
        match find? s.files sectionName key with
        | some v => .value v
        | none => .silent

/-- A setting as what is needed, by default or without a value. -/
def get {α : Type} (s : Sources) (as? : Value → Option α) (default none : α)
    (sectionName key : String) : Option α :=
  match s.word sectionName key with
  | .value v => as? v
  | .silent => some default
  | .hidden => some none

def isHidden (s : Sources) (sectionName key : String) : Bool :=
  match s.word sectionName key with
  | .hidden => true
  | _ => false

/-- The configuration that the sources give, unless a value cannot be taken. -/
def config? (s : Sources) : Option Config :=
  let d := Config.default
  if layout.any fun (sectionName, _) => s.state sectionName = .unusable then none
  else do
    return {
      passes := ← s.get asTexts? d.passes [] "pipeline" "passes"
      workers := ← s.get asInt? d.workers 0 "pipeline" "workers"
      flatten := ← s.get asFlag? d.flatten false "pipeline" "flatten"
      profile :=
        { reserved := ← s.get asTexts? d.profile.reserved [] "escape" "reserved_words"
          special := ← s.get asText? d.profile.special "" "escape" "special_characters"
          quote := ← s.get asText? d.profile.quote "" "escape" "quote" }
      hasReserved := !s.isHidden "escape" "reserved_words"
      failOnCollision := ← s.get asFlag? d.failOnCollision false "escape" "fail_on_collision"
      topType := ← s.get asText? d.topType "" "this_type" "top_type"
      logJson := ← s.get asFlag? d.logJson false "log" "json"
      verbosity := ← s.get asInt? d.verbosity 0 "log" "verbosity" }

end Sources

end DeclTree.Config
