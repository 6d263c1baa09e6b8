import DeclTree.Data.Json.Reader
import DeclTree.Data.Toml.Basic

/-!
# Texts, numbers and points in time

The parts of TOML that hold no other values. Each reader gives what it read and what follows, or
refuses the text.
-/

set_option autoImplicit false
set_option relaxedAutoImplicit false

namespace DeclTree.Toml

/-- Control characters other than the tab. -/
def isControl (c : Char) : Bool := (c.toNat < 32 && c ≠ '\t') || c.toNat = 127

/-!
## Texts
-/

/-- The character with the code that the digits give, and what follows them. -/
def codeChar? (width : Nat) (cs : List Char) : Option (Char × List Char) := do
  let digits ← (cs.take width).mapM Json.hexValue?
  if digits.length < width then none
  else
    let code := digits.foldl (fun n d => n * 16 + d) 0
    if h : code.isValidChar then some (Char.ofNatAux code h, cs.drop width) else none

/-- The character behind a backslash, and what follows it. -/
def escaped? : List Char → Option (Char × List Char)
  | '"' :: rest => some ('"', rest)
  | '\\' :: rest => some ('\\', rest)
  | 'b' :: rest => some (Char.ofNat 8, rest)
  | 'e' :: rest => some (Char.ofNat 27, rest)
  | 'f' :: rest => some (Char.ofNat 12, rest)
  | 'n' :: rest => some ('\n', rest)
  | 'r' :: rest => some ('\r', rest)
  | 't' :: rest => some ('\t', rest)
  | 'u' :: rest => codeChar? 4 rest
  | 'U' :: rest => codeChar? 8 rest
  | _ => none

/-- A text on one line up to the closing double quote. -/
def basicText? : Nat → List Char → Option (List Char × List Char)
  | 0, _ => none
  | _, [] => none
  | _ + 1, '"' :: rest => some ([], rest)
  | fuel + 1, '\\' :: rest =>
    match escaped? rest with
    | none => none
    | some (c, rest) => (basicText? fuel rest).map fun (s, rest) => (c :: s, rest)
  | fuel + 1, c :: rest =>
    if isControl c then none else (basicText? fuel rest).map fun (s, rest) => (c :: s, rest)

/-- A text on one line up to the closing single quote, nothing escaped. -/
def literalText? : List Char → Option (List Char × List Char)
  | [] => none
  | '\'' :: rest => some ([], rest)
  | c :: rest =>
    if isControl c then none else (literalText? rest).map fun (s, rest) => (c :: s, rest)

/-- The end of a text over several lines: three quotes, and up to two before them that belong to
the text. -/
def closing? (quote : Char) (cs : List Char) : Option (List Char × List Char) :=
  let count := (cs.takeWhile fun c => c = quote).length
  if count < 3 || 5 < count then none
  else some (List.replicate (count - 3) quote, cs.drop count)

/-- What follows a backslash at the end of a line: blanks and line breaks are left out. -/
def afterContinuation? (cs : List Char) : Option (List Char) :=
  let isBlank := fun c => c = ' ' || c = '\t'
  let isGap := fun c => isBlank c || c = '\n' || c = '\r'
  match cs.dropWhile isBlank with
  | '\n' :: rest => some (rest.dropWhile isGap)
  | '\r' :: '\n' :: rest => some (rest.dropWhile isGap)
  | _ => none

/-- A text over several lines up to three closing double quotes. -/
def longBasicText? : Nat → List Char → Option (List Char × List Char)
  | 0, _ => none
  | _, [] => none
  | fuel + 1, '\\' :: rest =>
    match afterContinuation? rest with
    | some rest => longBasicText? fuel rest
    | none =>
      match escaped? rest with
      | none => none
      | some (c, rest) => (longBasicText? fuel rest).map fun (s, rest) => (c :: s, rest)
  | fuel + 1, '\r' :: '\n' :: rest =>
    (longBasicText? fuel rest).map fun (s, rest) => ('\r' :: '\n' :: s, rest)
  | fuel + 1, '\n' :: rest => (longBasicText? fuel rest).map fun (s, rest) => ('\n' :: s, rest)
  | fuel + 1, '"' :: rest =>
    if ['"', '"'].isPrefixOf rest then closing? '"' ('"' :: rest)
    else (longBasicText? fuel rest).map fun (s, rest) => ('"' :: s, rest)
  | fuel + 1, c :: rest =>
    if isControl c then none else (longBasicText? fuel rest).map fun (s, rest) => (c :: s, rest)

/-- A text over several lines up to three closing single quotes. -/
def longLiteralText? : List Char → Option (List Char × List Char)
  | [] => none
  | '\r' :: '\n' :: rest => (longLiteralText? rest).map fun (s, rest) => ('\r' :: '\n' :: s, rest)
  | '\n' :: rest => (longLiteralText? rest).map fun (s, rest) => ('\n' :: s, rest)
  | '\'' :: rest =>
    if ['\'', '\''].isPrefixOf rest then closing? '\'' ('\'' :: rest)
    else (longLiteralText? rest).map fun (s, rest) => ('\'' :: s, rest)
  | c :: rest =>
    if isControl c then none else (longLiteralText? rest).map fun (s, rest) => (c :: s, rest)

/-- A line break right behind the opening quotes does not count. -/
def dropFirstBreak : List Char → List Char
  | '\n' :: rest => rest
  | '\r' :: '\n' :: rest => rest
  | cs => cs

/-- A text behind its first quote. -/
def doubleQuoted? (rest : List Char) : Option (List Char × List Char) :=
  match rest with
  | '"' :: '"' :: rest => longBasicText? (rest.length + 1) (dropFirstBreak rest)
  | _ => basicText? (rest.length + 1) rest

def singleQuoted? (rest : List Char) : Option (List Char × List Char) :=
  match rest with
  | '\'' :: '\'' :: rest => longLiteralText? (dropFirstBreak rest)
  | _ => literalText? rest

/-!
## Numbers
-/

/-- The digits without the underscores, each of which has to stand between two digits. -/
def withoutUnderscores? (isDigit : Char → Bool) (isAfterDigit : Bool) :
    List Char → Option (List Char)
  | [] => some []
  | '_' :: c :: rest =>
    if isAfterDigit && isDigit c then
      (withoutUnderscores? isDigit true rest).map fun ds => c :: ds
    else none
  | ['_'] => none
  | c :: rest => (withoutUnderscores? isDigit (isDigit c) rest).map fun ds => c :: ds

def int? (isNegative : Bool) (n : Option Nat) : Option Value :=
  match Number.signed isNegative n with
  | .ok n => some (.int n)
  | .error _ => none

def isBaseDigit (base : Nat) (c : Char) : Bool := (Number.digitValue? c).any (· < base)

/-- A number behind the mark of its base. -/
def based? (base : Nat) (cs : List Char) : Option (Value × List Char) := do
  let isPart := fun c => isBaseDigit base c || c = '_'
  let ds ← withoutUnderscores? (isBaseDigit base) false (cs.takeWhile isPart)
  let value ← int? false (Number.natOfDigits? base ds)
  return (value, cs.dropWhile isPart)

def isNumberPart (c : Char) : Bool :=
  c.isDigit || c = '+' || c = '-' || c = '_' || c = '.' || c = 'e' || c = 'E'

/-- Whether a number begins with a zero that is not its only digit before the point. -/
def hasLeadingZero : List Char → Bool
  | '0' :: c :: _ => c.isDigit
  | _ => false

/-- Whether digits stand before and behind the point. -/
def pointFits (cs : List Char) : Bool :=
  match cs.dropWhile Char.isDigit with
  | '.' :: c :: _ => (cs.head?.any Char.isDigit) && c.isDigit
  | ['.'] => false
  | _ => true

/-- A decimal number: whole, or with a fraction or an exponent. -/
def decimalValue? (cs : List Char) : Option Value := do
  let (isNegative, body) := Number.splitSign cs
  let ds ← withoutUnderscores? Char.isDigit false body
  if hasLeadingZero ds then none
  else if ds.any fun c => c = '.' || c = 'e' || c = 'E' then
    if pointFits ds then
      let d ← Number.decimal? ds
      let size ← Number.Binary.ofDecimal? d
      return .real (.finite isNegative size)
    else none
  else int? isNegative (Number.natOfDigits? 10 ds)

/-- A number, or one of the words for what is none. -/
def number? (cs : List Char) : Option (Value × List Char) :=
  let (isNegative, body) := Number.splitSign cs
  match body with
  | 'i' :: 'n' :: 'f' :: rest => some (.real (.infinite isNegative), rest)
  | 'n' :: 'a' :: 'n' :: rest => some (.real .notNumber, rest)
  | _ =>
    match cs with
    | '0' :: 'x' :: rest => based? 16 rest
    | '0' :: 'o' :: rest => based? 8 rest
    | '0' :: 'b' :: rest => based? 2 rest
    | _ =>
      (decimalValue? (cs.takeWhile isNumberPart)).map fun v => (v, cs.dropWhile isNumberPart)

/-!
## Points in time
-/

/-- A number of so many digits, within bounds, and what follows it. -/
def field? (width least greatest : Nat) (cs : List Char) : Option (Nat × List Char) := do
  let ds := cs.take width
  if ds.length < width || !ds.all Char.isDigit then none
  else
    let n ← Number.natOfDigits? 10 ds
    if least ≤ n ∧ n ≤ greatest then some (n, cs.drop width) else none

def mark? (c : Char) : List Char → Option (List Char)
  | d :: rest => if d = c then some rest else none
  | [] => none

def daysOf (year month : Nat) : Nat :=
  if month = 2 then
    if year % 4 = 0 && (year % 100 ≠ 0 || year % 400 = 0) then 29 else 28
  else if month = 4 ∨ month = 6 ∨ month = 9 ∨ month = 11 then 30
  else 31

def date? (cs : List Char) : Option (List Char) := do
  let (year, cs) ← field? 4 0 9999 cs
  let cs ← mark? '-' cs
  let (month, cs) ← field? 2 1 12 cs
  let cs ← mark? '-' cs
  let (_, cs) ← field? 2 1 (daysOf year month) cs
  return cs

/-- A time of day, with a fraction of a second or without. -/
def time? (cs : List Char) : Option (List Char) := do
  let (_, cs) ← field? 2 0 23 cs
  let cs ← mark? ':' cs
  let (_, cs) ← field? 2 0 59 cs
  let cs ← mark? ':' cs
  let (_, cs) ← field? 2 0 60 cs
  match cs with
  | '.' :: rest => if rest.head?.any Char.isDigit then some (rest.dropWhile Char.isDigit) else none
  | _ => some cs

/-- The hours and minutes behind the sign of a zone. -/
def offset? (cs : List Char) : Option (List Char) := do
  let (_, cs) ← field? 2 0 23 cs
  let cs ← mark? ':' cs
  let (_, cs) ← field? 2 0 59 cs
  return cs

/-- A zone, if one is given. -/
def zone? : List Char → Option (List Char)
  | 'Z' :: rest => some rest
  | 'z' :: rest => some rest
  | '+' :: rest => offset? rest
  | '-' :: rest => offset? rest
  | cs => some cs

def isMomentPart (c : Char) : Bool :=
  c.isDigit || c = '-' || c = ':' || c = '.' || c = '+' || c = 'T' || c = 't' || c = 'Z' || c = 'z'

/-- What follows a point in time must not look like a part of one. -/
def momentEnd (cs : List Char) : Option (Value × List Char) :=
  if cs.head?.any isMomentPart then none else some (.moment, cs)

/-- A date, a time of day, or both with a letter or a blank between them. -/
def moment? (cs : List Char) : Option (Value × List Char) :=
  if (cs.drop 2).head? = some ':' then (time? cs).bind momentEnd
  else do
    let rest ← date? cs
    match rest with
    | sep :: d :: more =>
      if sep = 'T' || sep = 't' || (sep = ' ' && d.isDigit) then
        let rest ← time? (d :: more)
        let rest ← zone? rest
        momentEnd rest
      else momentEnd rest
    | _ => momentEnd rest

/-- Whether a point in time begins here rather than a number. -/
def beginsMoment (cs : List Char) : Bool :=
  ((cs.take 2).length = 2 && (cs.take 2).all Char.isDigit && (cs.drop 2).head? = some ':') ||
    ((cs.take 4).length = 4 && (cs.take 4).all Char.isDigit && (cs.drop 4).head? = some '-')

end DeclTree.Toml
