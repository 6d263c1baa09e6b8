import DeclTree.Data.Basic
import DeclTree.Text.Quoted

/-!
# JSON text

`Json.render` writes data over several lines, indented by two spaces a level. Angle brackets, the
ampersand and the two line separators are written by their numbers. `Json.inline` writes data on one
line and is told how characters are written and what stands behind commas and colons.
-/

set_option autoImplicit false
set_option relaxedAutoImplicit false

namespace DeclTree.Json

/-- The characters that are never written as they are. -/
def escape? (c : Char) : Option (List Char) :=
  if c = '"' then some ['\\', '"']
  else if c = '\\' then some ['\\', '\\']
  else if c = '\n' then some ['\\', 'n']
  else if c = '\r' then some ['\\', 'r']
  else if c = '\t' then some ['\\', 't']
  else if c.toNat = 8 then some ['\\', 'b']
  else if c.toNat = 12 then some ['\\', 'f']
  else if c.toNat < 32 then some ('\\' :: 'u' :: Text.hexDigits 4 c.toNat)
  else none

/-- The characters that are written by number where the text may end up in a page. -/
def isUnsafe (c : Char) : Bool :=
  c == '<' || c == '>' || c == '&' || c.toNat == 0x2028 || c.toNat == 0x2029

def encodeChar (c : Char) : List Char :=
  match escape? c with
  | some cs => cs
  | none => if isUnsafe c then '\\' :: 'u' :: Text.hexDigits 4 c.toNat else [c]

/-- A text between double quotes. -/
def quote (encode : Char → List Char) (s : String) : String :=
  String.ofList ('"' :: s.toList.flatMap encode ++ ['"'])

def quoted (s : String) : String := quote encodeChar s

def scalar : Data → String
  | .flag true => "true"
  | .flag false => "false"
  | .number digits => digits
  | .text s => quoted s
  | _ => "null"

/-- A line break and the indentation of a level. -/
def newline (level : Nat) : String := "\n" ++ String.ofList (List.replicate (2 * level) ' ')

mutual

def renderAt (level : Nat) : Data → String
  | .list [] => "[]"
  | .list (item :: items) =>
    "[" ++ newline (level + 1) ++ renderAt (level + 1) item ++ renderItems (level + 1) items ++
      newline level ++ "]"
  | .record [] => "\x7b\x7d"
  | .record ((key, value) :: entries) =>
    "\x7b" ++ newline (level + 1) ++ quoted key ++ ": " ++ renderAt (level + 1) value ++
      renderEntries (level + 1) entries ++ newline level ++ "\x7d"
  | .null => scalar .null
  | .flag b => scalar (.flag b)
  | .number digits => scalar (.number digits)
  | .text s => scalar (.text s)

def renderItems (level : Nat) : List Data → String
  | [] => ""
  | item :: items => "," ++ newline level ++ renderAt level item ++ renderItems level items

def renderEntries (level : Nat) : List (String × Data) → String
  | [] => ""
  | (key, value) :: entries =>
    "," ++ newline level ++ quoted key ++ ": " ++ renderAt level value ++
      renderEntries level entries

end

/-- Data as indented text, without a line break at the end. -/
def render (d : Data) : String := renderAt 0 d

mutual

/-- Data on one line, with `gap` behind each comma and colon. -/
def inline (encode : Char → List Char) (gap : String) : Data → String
  | .null => "null"
  | .flag true => "true"
  | .flag false => "false"
  | .number digits => digits
  | .text s => quote encode s
  | .list items => "[" ++ ("," ++ gap).intercalate (inlineItems encode gap items) ++ "]"
  | .record entries =>
    "\x7b" ++ ("," ++ gap).intercalate (inlineEntries encode gap entries) ++ "\x7d"

def inlineItems (encode : Char → List Char) (gap : String) : List Data → List String
  | [] => []
  | item :: items => inline encode gap item :: inlineItems encode gap items

def inlineEntries (encode : Char → List Char) (gap : String) :
    List (String × Data) → List String
  | [] => []
  | (key, value) :: entries =>
    (quote encode key ++ ":" ++ gap ++ inline encode gap value) ::
      inlineEntries encode gap entries

end

/-- Data on one line without blanks. -/
def compact (d : Data) : String := inline encodeChar "" d

end DeclTree.Json
