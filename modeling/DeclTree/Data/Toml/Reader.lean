import DeclTree.Data.Toml.Scalar
import DeclTree.Data.Toml.Slot

/-!
# Reading TOML

`Toml.read?` gives the table that a text describes. The text is a sequence of headers and of keys
with values, each on a line of its own.
-/

set_option autoImplicit false
set_option relaxedAutoImplicit false

namespace DeclTree.Toml

def skipBlanks (cs : List Char) : List Char := cs.dropWhile fun c => c = ' ' || c = '\t'

/-- A comment up to the end of its line. -/
def comment? : List Char → Option (List Char)
  | [] => some []
  | '\n' :: rest => some ('\n' :: rest)
  | '\r' :: '\n' :: rest => some ('\r' :: '\n' :: rest)
  | c :: rest => if isControl c then none else comment? rest

/-- Blanks and a comment up to the end of a line, which has to come. -/
def lineEnd? (cs : List Char) : Option (List Char) :=
  match skipBlanks cs with
  | [] => some []
  | '\n' :: rest => some rest
  | '\r' :: '\n' :: rest => some rest
  | '#' :: rest =>
    match comment? rest with
    | some ('\n' :: rest) => some rest
    | some ('\r' :: '\n' :: rest) => some rest
    | some _ => some []
    | none => none
  | _ => none

/-- Blanks, comments and line breaks. -/
def skipLines? : Nat → List Char → Option (List Char)
  | 0, _ => none
  | fuel + 1, cs =>
    match skipBlanks cs with
    | '\n' :: rest => skipLines? fuel rest
    | '\r' :: '\n' :: rest => skipLines? fuel rest
    | '#' :: rest => (comment? rest).bind (skipLines? fuel)
    | rest => some rest

def isBareChar (c : Char) : Bool := c.isAlphanum || c = '_' || c = '-'

/-- One part of a key. -/
def simpleKey? (cs : List Char) : Option (String × List Char) :=
  match cs with
  | '"' :: rest =>
    (basicText? (rest.length + 1) rest).map fun (s, rest) => (String.ofList s, rest)
  | '\'' :: rest => (literalText? rest).map fun (s, rest) => (String.ofList s, rest)
  | _ =>
    let bare := cs.takeWhile isBareChar
    if bare.isEmpty then none else some (String.ofList bare, cs.dropWhile isBareChar)

/-- A key of one or more parts with dots between them. -/
def key? : Nat → List Char → Option ((String × List String) × List Char)
  | 0, _ => none
  | fuel + 1, cs =>
    match simpleKey? cs with
    | none => none
    | some (first, rest) =>
      match skipBlanks rest with
      | '.' :: rest =>
        (key? fuel (skipBlanks rest)).map fun ((second, more), rest) =>
          ((first, second :: more), rest)
      | rest => some ((first, []), rest)

mutual

def value? : Nat → List Char → Option (Value × List Char)
  | 0, _ => none
  | fuel + 1, cs =>
    match cs with
    | '"' :: rest => (doubleQuoted? rest).map fun (s, rest) => (.text (String.ofList s), rest)
    | '\'' :: rest => (singleQuoted? rest).map fun (s, rest) => (.text (String.ofList s), rest)
    | '[' :: rest => (items? fuel true rest).map fun (items, rest) => (.list items, rest)
    | '{' :: rest =>
      (fields? fuel true [] rest).map fun (slots, rest) => (.table (Slot.toEntries slots), rest)
    | 't' :: 'r' :: 'u' :: 'e' :: rest => some (.flag true, rest)
    | 'f' :: 'a' :: 'l' :: 's' :: 'e' :: rest => some (.flag false, rest)
    | _ => if beginsMoment cs then moment? cs else number? cs

/-- The items of a list up to its closing bracket; a comma may stand behind the last. -/
def items? : Nat → Bool → List Char → Option (List Value × List Char)
  | 0, _, _ => none
  | fuel + 1, isFirst, cs =>
    let item := fun (cs : List Char) =>
      match cs with
      | ']' :: rest => some ([], rest)
      | _ =>
        match value? fuel cs with
        | none => none
        | some (v, rest) => (items? fuel false rest).map fun (vs, rest) => (v :: vs, rest)
    match skipLines? (cs.length + 1) cs with
    | none => none
    | some (']' :: rest) => some ([], rest)
    | some (',' :: rest) =>
      if isFirst then none else (skipLines? (rest.length + 1) rest).bind item
    | some rest => if isFirst then item rest else none

/-- The entries of a table on one line, up to its closing brace. -/
def fields? : Nat → Bool → Slots → List Char → Option (Slots × List Char)
  | 0, _, _, _ => none
  | fuel + 1, isFirst, slots, cs =>
    let field := fun (cs : List Char) =>
      match keyValue? fuel cs with
      | none => none
      | some ((first, more), v, rest) =>
        match Slots.insert v first more slots with
        | none => none
        | some slots => fields? fuel false slots rest
    match skipBlanks cs with
    | '}' :: rest => some (slots, rest)
    | ',' :: rest => if isFirst then none else field (skipBlanks rest)
    | rest => if isFirst then field rest else none

/-- A key, an equals sign and a value. -/
def keyValue? : Nat → List Char → Option ((String × List String) × Value × List Char)
  | 0, _ => none
  | fuel + 1, cs =>
    match key? (cs.length + 1) cs with
    | none => none
    | some (key, rest) =>
      match skipBlanks rest with
      | '=' :: rest => (value? fuel (skipBlanks rest)).map fun (v, rest) => (key, v, rest)
      | _ => none

end

/-- The tables so far, and the path of the one that keys go to. -/
structure Reading where
  slots : Slots
  path : List String

/-- Opens a table by its header; the tables that dotted keys have made are closed. -/
def Reading.header (r : Reading) (isList : Bool) (key : String × List String) : Option Reading :=
  let path := (key.1 :: key.2).dropLast
  let last := (key.1 :: key.2).getLastD key.1
  let slots := Slot.sealedAll r.slots
  let opened := if isList then Slots.openNext slots path last else Slots.openTable slots path last
  opened.map fun slots => ⟨slots, path ++ [last]⟩

/-- Sets a key in the table of the last header. -/
def Reading.set (r : Reading) (key : String × List String) (v : Value) : Option Reading :=
  (Slots.changeAt (Slots.insert v key.1 key.2) r.path r.slots).map fun slots => { r with slots }

/-- One line: a header, or a key with its value. -/
def line? (r : Reading) (cs : List Char) : Option (Reading × List Char) := do
  match cs with
  | '[' :: '[' :: rest =>
    let rest := skipBlanks rest
    let (key, rest) ← key? (rest.length + 1) rest
    match rest with
    | ']' :: ']' :: rest => return (← r.header true key, rest)
    | _ => none
  | '[' :: rest =>
    let rest := skipBlanks rest
    let (key, rest) ← key? (rest.length + 1) rest
    match rest with
    | ']' :: rest => return (← r.header false key, rest)
    | _ => none
  | _ =>
    let (key, v, rest) ← keyValue? (2 * cs.length + 2) cs
    return (← r.set key v, rest)

def lines? : Nat → Reading → List Char → Option Reading
  | 0, _, _ => none
  | fuel + 1, r, cs =>
    match skipLines? (cs.length + 1) cs with
    | none => none
    | some [] => some r
    | some cs =>
      match line? r cs with
      | none => none
      | some (r, rest) =>
        match lineEnd? rest with
        | none => none
        | some rest => lines? fuel r rest

/-- The table that a text describes. -/
def read? (text : String) : Option Table :=
  let cs := text.toList
  (lines? (cs.length + 1) ⟨[], []⟩ cs).map fun r => Slot.toEntries r.slots

end DeclTree.Toml
