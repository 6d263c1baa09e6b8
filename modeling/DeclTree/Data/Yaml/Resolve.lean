import DeclTree.Number.Binary
import DeclTree.Text.Pieces

/-!
# What a plain scalar stands for

A scalar without quotes may stand for null, a truth value, a number or a point in time rather than
for its text. `Yaml.resolve` tells which, by the spelling alone.
-/

set_option autoImplicit false
set_option relaxedAutoImplicit false

namespace DeclTree.Yaml

/-- What a scalar stands for. -/
inductive Sense where
  | null
  | bool (b : Bool)
  | int (n : Int)
  | float
  | timestamp
  | str
  deriving DecidableEq, Repr

def isOneOf (words : List String) (s : String) : Bool := words.contains s

def digitsOnly (cs : List Char) : Bool := !cs.isEmpty && cs.all Char.isDigit

/-- A whole number of 64 bits behind a sign or without one; the largest ones need to be without. -/
def signedInt? (read : List Char → Option Nat) : List Char → Option Int
  | '-' :: ds => (read ds).bind fun n => if n ≤ Number.largest + 1 then some (-(n : Int)) else none
  | '+' :: ds => (read ds).bind fun n => if n ≤ Number.largest then some n else none
  | ds => (read ds).bind fun n => if n ≤ Number.largestUnsigned then some n else none

/-- The whole number that a text spells. A sign may stand before the mark of the base, and before
the digits of a binary or an octal number. -/
def intValue? (cs : List Char) : Option Int :=
  match signedInt? (fun ds => (Number.magnitude ds).toOption) cs with
  | some n => some n
  | none =>
    match cs with
    | '0' :: 'b' :: ds => signedInt? (Number.natOfDigits? 2) ds
    | '0' :: 'o' :: ds => signedInt? (Number.natOfDigits? 8) ds
    | _ => none

/-- Whether every underscore stands between two digits. -/
def underscoresSplit (isAfterDigit : Bool) : List Char → Bool
  | [] => true
  | '_' :: c :: rest => isAfterDigit && c.isDigit && underscoresSplit true rest
  | ['_'] => false
  | c :: rest => underscoresSplit c.isDigit rest

def withoutUnderscores (cs : List Char) : List Char := cs.filter fun c => c ≠ '_'

/-- Decimal numbers within the range of doubles. -/
def isFloat (cs : List Char) : Bool :=
  ((Number.decimal? (Number.splitSign cs).2).bind Number.Binary.ofDecimal?).isSome

/-!
## Points in time
-/

/-- One or two digits as a number, and what follows them. -/
def shortNumber? : List Char → Option (Nat × List Char)
  | a :: b :: rest =>
    if !a.isDigit then none
    else if b.isDigit then
      some ((a.toNat - '0'.toNat) * 10 + (b.toNat - '0'.toNat), rest)
    else some (a.toNat - '0'.toNat, b :: rest)
  | [a] => if a.isDigit then some (a.toNat - '0'.toNat, []) else none
  | [] => none

def isLeap (year : Nat) : Bool := year % 4 = 0 && (year % 100 ≠ 0 || year % 400 = 0)

def daysOf (year month : Nat) : Nat :=
  if month = 2 then if isLeap year then 29 else 28
  else if month = 4 ∨ month = 6 ∨ month = 9 ∨ month = 11 then 30
  else 31

/-- A date, and what follows it. -/
def date? (cs : List Char) : Option (List Char) :=
  if (cs.takeWhile Char.isDigit).length ≠ 4 then none
  else
    match cs.drop 4 with
    | '-' :: rest => do
      let year ← Number.natOfDigits? 10 (cs.take 4)
      let (month, rest) ← shortNumber? rest
      match rest with
      | '-' :: rest =>
        let (day, rest) ← shortNumber? rest
        if 1 ≤ month ∧ month ≤ 12 ∧ 1 ≤ day ∧ day ≤ daysOf year month then some rest else none
      | _ => none
    | _ => none

/-- A time of day with a fraction of a second or without, and what follows it. -/
def time? (cs : List Char) : Option (List Char) := do
  let (hour, rest) ← shortNumber? cs
  match rest with
  | ':' :: rest =>
    let (minute, rest) ← shortNumber? rest
    match rest with
    | ':' :: rest =>
      let (second, rest) ← shortNumber? rest
      if hour < 24 ∧ minute < 60 ∧ second < 60 then
        match rest with
        | p :: d :: more =>
          if (p = '.' ∨ p = ',') ∧ d.isDigit then some (more.dropWhile Char.isDigit)
          else some rest
        | _ => some rest
      else none
    | _ => none
  | _ => none

/-- A zone: a letter, or a sign with hours and minutes. -/
def isZone : List Char → Bool
  | ['Z'] => true
  | [sign, a, b, ':', c, d] =>
    (sign = '+' || sign = '-') && digitsOnly [a, b, c, d] &&
      (Number.natOfDigits? 10 [a, b]).any (· ≤ 24) && (Number.natOfDigits? 10 [c, d]).any (· ≤ 60)
  | _ => false

/-- A date, with a time of day behind blanks or with a time of day and a zone behind a `T`. -/
def isTimestamp (cs : List Char) : Bool :=
  match date? cs with
  | none => false
  | some [] => true
  | some (' ' :: rest) => time? (rest.dropWhile fun c => c = ' ') = some []
  | some (sep :: rest) => (sep = 'T' || sep = 't') && (time? rest).any isZone

/-!
## Resolution
-/

def nullWords : List String := ["", "~", "null", "Null", "NULL"]

def trueWords : List String := ["true", "True", "TRUE"]

def falseWords : List String := ["false", "False", "FALSE"]

def floatWords : List String :=
  [".nan", ".NaN", ".NAN", ".inf", ".Inf", ".INF", "+.inf", "+.Inf", "+.INF", "-.inf", "-.Inf",
    "-.INF"]

/-- What a plain scalar stands for. -/
def resolve (s : String) : Sense :=
  if isOneOf nullWords s then .null
  else if isOneOf trueWords s then .bool true
  else if isOneOf falseWords s then .bool false
  else if isOneOf floatWords s then .float
  else
    match s.toList with
    | [] => .null
    | '.' :: rest =>
      if underscoresSplit false rest && isFloat ('.' :: withoutUnderscores rest) then .float
      else .str
    | c :: rest =>
      if c.isDigit || c = '+' || c = '-' then
        let plain := withoutUnderscores (c :: rest)
        if isTimestamp (c :: rest) then .timestamp
        else
          match intValue? plain with
          | some n => .int n
          | none => if isFloat plain then .float else .str
      else .str

/-- Words that were truth values in an older version of the format. -/
def oldTrueWords : List String := ["y", "Y", "yes", "Yes", "YES", "on", "On", "ON"]

def oldFalseWords : List String := ["n", "N", "no", "No", "NO", "off", "Off", "OFF"]

/-- One piece of a number in base sixty behind its first colon. -/
def isSixtieth : List Char → Bool
  | [a] => a.isDigit
  | [a, b] => '0' ≤ a && a ≤ '5' && b.isDigit
  | _ => false

/-- Numbers in base sixty, such as a time of day. -/
def isBase60 (s : String) : Bool :=
  let unsigned := match s.toList with
    | '-' :: rest => rest
    | '+' :: rest => rest
    | rest => rest
  let main := unsigned.takeWhile fun c => c ≠ '.'
  let fraction := unsigned.dropWhile fun c => c ≠ '.'
  let isTail := fun (c : Char) => c.isDigit || c = '_'
  match Text.pieces ':' main with
  | (first :: more) :: second :: rest =>
    first.isDigit && more.all isTail && (second :: rest).all isSixtieth &&
      (fraction.drop 1).all isTail
  | _ => false

end DeclTree.Yaml
