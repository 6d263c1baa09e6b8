import DeclTree.Number.Integer

/-!
# Binary floating point

Numbers `mantissa * 2 ^ exponent` with a mantissa of at most 53 bits. `Binary.ofDecimal?` gives the
nearest one to a decimal number, an even mantissa where two are equally near, and none where the
number is too large. `Binary.shortest` gives the fewest decimal digits that read back as the
number; of two such it takes the nearer.
-/

set_option autoImplicit false
set_option relaxedAutoImplicit false

namespace DeclTree.Number

/-- A decimal number: digits, and the power of ten that they are multiplied by. -/
structure Decimal where
  digits : Nat
  exponent : Int
  deriving DecidableEq, Repr

structure Binary where
  mantissa : Nat
  exponent : Int
  deriving DecidableEq, Repr

/-- A fraction of two positive numbers. -/
structure Ratio where
  num : Nat
  den : Nat

/-- A fraction multiplied by a power of a base. -/
def Ratio.scale (r : Ratio) (base : Nat) (power : Int) : Ratio :=
  if 0 ≤ power then ⟨r.num * Nat.pow base power.natAbs, r.den⟩
  else ⟨r.num, r.den * Nat.pow base power.natAbs⟩

/-- The whole number nearest to a fraction, the even one of two. -/
def Ratio.nearest (r : Ratio) : Nat :=
  let whole := r.num / r.den
  let twice := 2 * (r.num % r.den)
  if r.den < twice || (twice = r.den && whole % 2 = 1) then whole + 1 else whole

namespace Binary

def zero : Binary := ⟨0, 0⟩

/-- The exponent of the numbers closest to zero. -/
def leastExponent : Int := -1074

def greatestExponent : Int := 971

/-- The least mantissa of 53 bits. -/
def leastMantissa : Nat := 4503599627370496

/-- The nearest number of at most 53 bits to a positive fraction. -/
def ofRatio? (r : Ratio) : Option Binary :=
  let bits : Int := (Nat.log2 r.num : Int) - Nat.log2 r.den
  let guess := bits - 52
  let exponent :=
    if (r.scale 2 (-guess)).num < leastMantissa * (r.scale 2 (-guess)).den then guess - 1 else guess
  let exponent := max exponent leastExponent
  let mantissa := (r.scale 2 (-exponent)).nearest
  let (mantissa, exponent) :=
    if mantissa = 2 * leastMantissa then (leastMantissa, exponent + 1) else (mantissa, exponent)
  if greatestExponent < exponent then none else some ⟨mantissa, exponent⟩

/-- The nearest number to a decimal one, unless that is too large. -/
def ofDecimal? (d : Decimal) : Option Binary :=
  let size := d.exponent + (toString d.digits).length
  if d.digits = 0 then some zero
  else if size < -400 then some ⟨0, leastExponent⟩
  else if 400 < size then none
  else ofRatio? (Ratio.scale ⟨d.digits, 1⟩ 10 d.exponent)

def ratio (b : Binary) : Ratio := Ratio.scale ⟨b.mantissa, 1⟩ 2 b.exponent

/-- The number without its fraction. -/
def truncate (b : Binary) : Nat := b.ratio.num / b.ratio.den

def isZero (b : Binary) : Bool := b.mantissa = 0

/-- How many decimal places a positive fraction has before its point; zero or less where it is
below a tenth. A fraction of a power of two is never a negative power of ten. -/
def places (r : Ratio) : Int :=
  if r.den ≤ r.num then (toString (r.num / r.den)).length
  else 1 - (toString (r.den / r.num)).length

/-- Whether a decimal number reads back as the given one. -/
def readsBack (b : Binary) (d : Decimal) : Bool := ofDecimal? d = some b

/-- The candidates with a number of digits: the two neighbours of the number on that grid, the
nearer first. -/
def candidates (b : Binary) (count : Nat) : List Decimal :=
  let exponent := places b.ratio - count
  let scaled := b.ratio.scale 10 (-exponent)
  let below := scaled.num / scaled.den
  let isLow := 2 * (scaled.num % scaled.den) ≤ scaled.den
  if isLow then [⟨below, exponent⟩, ⟨below + 1, exponent⟩]
  else [⟨below + 1, exponent⟩, ⟨below, exponent⟩]

/-- The fewest digits that read back as the number. -/
def shortest (b : Binary) : Decimal :=
  if b.isZero then ⟨0, 0⟩
  else
    (((List.range 17).flatMap fun n => b.candidates (n + 1)).find? b.readsBack).getD ⟨0, 0⟩

end Binary

/-- A decimal number without an exponent, the zeros at the end of its fraction left out. -/
def Decimal.render (d : Decimal) : String :=
  let digits := (toString d.digits).toList
  if 0 ≤ d.exponent then
    if d.digits = 0 then "0" else String.ofList (digits ++ List.replicate d.exponent.natAbs '0')
  else
    let width := d.exponent.natAbs
    let padded := List.replicate (width + 1 - digits.length) '0' ++ digits
    let whole := padded.take (padded.length - width)
    let fraction := ((padded.drop (padded.length - width)).reverse.dropWhile (· = '0')).reverse
    String.ofList (if fraction.isEmpty then whole else whole ++ '.' :: fraction)

/-- The exponent behind its mark. -/
def exponentPart? : List Char → Option Int
  | [] => some 0
  | e :: rest =>
    if e = 'e' ∨ e = 'E' then
      let (isNegative, ds) := splitSign rest
      (natOfDigits? 10 ds).map fun n => if isNegative then -(n : Int) else n
    else none

/-- Digits with at most one point among them, and an exponent. -/
def decimal? (cs : List Char) : Option Decimal :=
  let whole := cs.takeWhile Char.isDigit
  match cs.dropWhile Char.isDigit with
  | '.' :: rest =>
    let fraction := rest.takeWhile Char.isDigit
    if whole.isEmpty && fraction.isEmpty then none
    else do
      let e ← exponentPart? (rest.dropWhile Char.isDigit)
      let n ← natOfDigits? 10 (whole ++ fraction)
      return ⟨n, e - fraction.length⟩
  | rest =>
    if whole.isEmpty then none
    else do
      let e ← exponentPart? rest
      let n ← natOfDigits? 10 whole
      return ⟨n, e⟩

end DeclTree.Number
