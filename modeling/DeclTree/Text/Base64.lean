/-!
# Bytes as text

`Base64.decode?` reads bytes that are written with the letters, the digits, `+` and `/`, four
characters for three bytes, and with `=` where the last bytes are missing. `ofBytes` makes a text of
bytes; a byte that belongs to no character becomes the replacement character.
-/

set_option autoImplicit false
set_option relaxedAutoImplicit false

namespace DeclTree.Text

namespace Base64

/-- The six bits that a character stands for. -/
def bits? (c : Char) : Option Nat :=
  if 'A' ≤ c ∧ c ≤ 'Z' then some (c.toNat - 'A'.toNat)
  else if 'a' ≤ c ∧ c ≤ 'z' then some (c.toNat - 'a'.toNat + 26)
  else if c.isDigit then some (c.toNat - '0'.toNat + 52)
  else if c = '+' then some 62
  else if c = '/' then some 63
  else none

/-- The bytes of groups of four characters. Bits that a short last group leaves over do not
count. -/
def groups? : List Char → Option (List UInt8)
  | [] => some []
  | a :: b :: c :: d :: rest => do
    let a ← bits? a
    let b ← bits? b
    let first := UInt8.ofNat (a * 4 + b / 16)
    if c = '=' && d = '=' && rest.isEmpty then return [first]
    let c ← bits? c
    let second := UInt8.ofNat (b % 16 * 16 + c / 4)
    if d = '=' && rest.isEmpty then return [first, second]
    let d ← bits? d
    let more ← groups? rest
    return first :: second :: UInt8.ofNat (c % 4 * 64 + d) :: more
  | _ => none

/-- The bytes that a text stands for; line breaks in it do not count. -/
def decode? (s : String) : Option (List UInt8) :=
  groups? (s.toList.filter fun c => c ≠ '\n' && c ≠ '\r')

end Base64

/-- The characters of bytes from an index on, at most as many as given. -/
def charsFrom (bytes : ByteArray) : Nat → Nat → List Char
  | 0, _ => []
  | count + 1, i =>
    if i < bytes.size then
      match bytes.utf8DecodeChar? i with
      | some c => c :: charsFrom bytes count (i + c.utf8Size)
      | none => Char.ofNat 0xFFFD :: charsFrom bytes count (i + 1)
    else []

/-- Bytes as a text. A text holds characters and no bytes, so a byte that belongs to no character is
not kept: the replacement character stands for it. -/
def ofBytes (bytes : List UInt8) : String :=
  String.ofList (charsFrom ⟨bytes.toArray⟩ bytes.length 0)

end DeclTree.Text
