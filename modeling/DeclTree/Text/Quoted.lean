import DeclTree.Text.Printable

/-!
# Quoted text

A text between double quotes on one line. The quote and the backslash are escaped, seven control
characters have letters of their own, the other characters without a visible form are written by
their number, and every other character stands for itself.
-/

set_option autoImplicit false
set_option relaxedAutoImplicit false

namespace DeclTree.Text

/-- The last `width` hexadecimal digits of `n` in lower case. -/
def hexDigits : Nat → Nat → List Char
  | 0, _ => []
  | width + 1, n => hexDigits width (n / 16) ++ [Nat.digitChar (n % 16)]

namespace Quoted

/-- The letter that follows the backslash for the control characters that have one. -/
def letter? : Char → Option Char
  | '"' => some '"'
  | '\\' => some '\\'
  | '\n' => some 'n'
  | '\r' => some 'r'
  | '\t' => some 't'
  | c =>
    match c.toNat with
    | 7 => some 'a'
    | 8 => some 'b'
    | 11 => some 'v'
    | 12 => some 'f'
    | _ => none

/-- A character by its number: two digits below 128, four in the first plane, else eight. -/
def byNumber (c : Char) : List Char :=
  if c.toNat < 128 then '\\' :: 'x' :: hexDigits 2 c.toNat
  else if c.toNat < 0x10000 then '\\' :: 'u' :: hexDigits 4 c.toNat
  else '\\' :: 'U' :: hexDigits 8 c.toNat

def encodeChar (c : Char) : List Char :=
  match letter? c with
  | some l => ['\\', l]
  | none => if isPrintable c then [c] else byNumber c

end Quoted

/-- The text in double quotes. -/
def quoted (s : String) : String :=
  String.ofList ('"' :: s.toList.flatMap Quoted.encodeChar ++ ['"'])

/-- One character in single quotes, where a double quote stands for itself. -/
def quotedChar (c : Char) : String :=
  let inner := match c with
    | '\'' => ['\\', '\'']
    | '"' => ['"']
    | _ => Quoted.encodeChar c
  String.ofList ('\'' :: inner ++ ['\''])

end DeclTree.Text
