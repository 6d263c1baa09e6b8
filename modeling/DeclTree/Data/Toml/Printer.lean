import DeclTree.Data.Basic
import DeclTree.Data.Toml.Scalar
import DeclTree.Text.Quoted

/-!
# TOML text

Writes a record of records as sections, one entry a line. A text stands in single quotes unless it
holds one or a control character; then it stands in double quotes and is escaped.
-/

set_option autoImplicit false
set_option relaxedAutoImplicit false

namespace DeclTree.Toml

/-- The last `width` hexadecimal digits of a number in upper case. -/
def upperDigits (width n : Nat) : List Char := (Text.hexDigits width n).map Char.toUpper

def escapeChar (c : Char) : List Char :=
  if c = '"' then ['\\', '"']
  else if c = '\\' then ['\\', '\\']
  else if c.toNat = 8 then ['\\', 'b']
  else if c.toNat = 12 then ['\\', 'f']
  else if c = '\n' then ['\\', 'n']
  else if c = '\r' then ['\\', 'r']
  else if c = '\t' then ['\\', 't']
  else if isControl c then '\\' :: 'u' :: upperDigits 4 c.toNat
  else [c]

def quoted (s : String) : String :=
  if s.toList.any fun c => c = '\'' || isControl c then
    String.ofList ('"' :: s.toList.flatMap escapeChar ++ ['"'])
  else "'" ++ s ++ "'"

def scalar : Data → String
  | .flag b => if b then "true" else "false"
  | .number digits => digits
  | .text s => quoted s
  | _ => ""

/-- A value on one line. -/
def inline : Data → String
  | .list items => "[" ++ ", ".intercalate (items.map scalar) ++ "]"
  | d => scalar d

def entryLine (entry : String × Data) : String := entry.1 ++ " = " ++ inline entry.2 ++ "\n"

def sectionText (entry : String × Data) : String :=
  "[" ++ entry.1 ++ "]\n" ++
    match entry.2 with
    | .record entries => String.join (entries.map entryLine)
    | _ => ""

/-- The sections of a record, with an empty line between two. -/
def render : Data → String
  | .record sections => "\n".intercalate (sections.map sectionText)
  | _ => ""

end DeclTree.Toml
