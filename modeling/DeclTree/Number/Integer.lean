/-!
# Written integers

Digits of a base, marks for the base in front of them, and signs. An integer is only read if it
fits into 64 bits.
-/

set_option autoImplicit false
set_option relaxedAutoImplicit false

namespace DeclTree.Number

def digitValue? (c : Char) : Option Nat :=
  if c.isDigit then some (c.toNat - '0'.toNat)
  else if 'a' ≤ c ∧ c ≤ 'f' then some (c.toNat - 'a'.toNat + 10)
  else if 'A' ≤ c ∧ c ≤ 'F' then some (c.toNat - 'A'.toNat + 10)
  else none

/-- Puts the digits behind a number, if all of them are digits of the base. -/
def appendDigits? (base n : Nat) : List Char → Option Nat
  | [] => some n
  | c :: rest =>
    match digitValue? c with
    | some d => if d < base then appendDigits? base (n * base + d) rest else none
    | none => none

/-- The number that digits of a base stand for; there has to be one. -/
def natOfDigits? (base : Nat) (cs : List Char) : Option Nat :=
  if cs.isEmpty then none else appendDigits? base 0 cs

/-- Why a text is no integer of 64 bits. -/
inductive Flaw where
  | malformed
  | tooLarge
  deriving DecidableEq, Repr

/-- The largest integer of 64 bits with a sign. -/
def largest : Nat := 9223372036854775807

/-- The least integer of 64 bits with a sign. -/
def least : Int := -9223372036854775808

/-- The largest integer of 64 bits without a sign. -/
def largestUnsigned : Nat := 18446744073709551615

/-- Puts digits of a base behind a number, one after the other, up to the first that is none or
that makes the number too large for 64 bits. Underscores between them do not count. -/
def readDigits (base n : Nat) : List Char → Except Flaw Nat
  | [] => .ok n
  | c :: rest =>
    if c = '_' then readDigits base n rest
    else
      match digitValue? c with
      | some d =>
        if base ≤ d then .error .malformed
        else if largestUnsigned < n * base + d then .error .tooLarge
        else readDigits base (n * base + d) rest
      | none => .error .malformed

/-- A number without its sign: a mark of the base first, or an octal number after a zero. -/
def magnitude : List Char → Except Flaw Nat
  | [] => .error .malformed
  | '0' :: 'x' :: d :: ds => readDigits 16 0 (d :: ds)
  | '0' :: 'X' :: d :: ds => readDigits 16 0 (d :: ds)
  | '0' :: 'b' :: d :: ds => readDigits 2 0 (d :: ds)
  | '0' :: 'B' :: d :: ds => readDigits 2 0 (d :: ds)
  | '0' :: 'o' :: d :: ds => readDigits 8 0 (d :: ds)
  | '0' :: 'O' :: d :: ds => readDigits 8 0 (d :: ds)
  | '0' :: ds => readDigits 8 0 ds
  | ds => readDigits 10 0 ds

/-- A number with a sign that may be left out, in 64 bits. -/
def signed (isNegative : Bool) : Option Nat → Except Flaw Int
  | none => .error .malformed
  | some n =>
    if isNegative then if n ≤ largest + 1 then .ok (-(n : Int)) else .error .tooLarge
    else if n ≤ largest then .ok n else .error .tooLarge

/-- The sign in front of a text, and the rest. -/
def splitSign : List Char → Bool × List Char
  | '-' :: rest => (true, rest)
  | '+' :: rest => (false, rest)
  | cs => (false, cs)

/-- Whether every underscore stands between two digits, or between the mark of a base and a
digit. -/
def underscoresFit (isAfterDigit : Bool) : List Char → Bool
  | [] => true
  | '_' :: c :: rest => isAfterDigit && c ≠ '_' && underscoresFit false (c :: rest)
  | ['_'] => false
  | _ :: rest => underscoresFit true rest

/-- An integer as it is written in settings and flags: with a sign or without, in any base, with
underscores between the digits. A number that is too large is told before what is wrong behind. -/
def parseInt (s : String) : Except Flaw Int := do
  let (isNegative, body) := splitSign s.toList
  let n ← magnitude body
  if underscoresFit false body then signed isNegative (some n) else throw .malformed

end DeclTree.Number
