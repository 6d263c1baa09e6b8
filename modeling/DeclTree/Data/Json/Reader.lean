import DeclTree.Data.Basic

/-!
# Reading JSON text

`Json.read` reads the first value of a text and ignores what follows it. Blank text holds no value;
anything else that does not begin with a value is malformed.
-/

set_option autoImplicit false
set_option relaxedAutoImplicit false

namespace DeclTree.Json

def isSpace (c : Char) : Bool := c == ' ' || c == '\t' || c == '\n' || c == '\r'

def skip (cs : List Char) : List Char := cs.dropWhile isSpace

def hexValue? (c : Char) : Option Nat :=
  if '0' ≤ c ∧ c ≤ '9' then some (c.toNat - '0'.toNat)
  else if 'a' ≤ c ∧ c ≤ 'f' then some (c.toNat - 'a'.toNat + 10)
  else if 'A' ≤ c ∧ c ≤ 'F' then some (c.toNat - 'A'.toNat + 10)
  else none

/-- Four hexadecimal digits as a number, and what follows them. -/
def hex4? : List Char → Option (Nat × List Char)
  | a :: b :: c :: d :: rest => do
    let a ← hexValue? a
    let b ← hexValue? b
    let c ← hexValue? c
    let d ← hexValue? d
    return (((a * 16 + b) * 16 + c) * 16 + d, rest)
  | _ => none

/-- Stands for half of a pair that has no other half. -/
def replacement : Char := Char.ofNat 0xFFFD

def isHigh (n : Nat) : Bool := 0xD800 ≤ n && n < 0xDC00

def isLow (n : Nat) : Bool := 0xDC00 ≤ n && n < 0xE000

/-- The second half of a pair, where one follows. -/
def low? : List Char → Option (Nat × List Char)
  | '\\' :: 'u' :: rest =>
    match hex4? rest with
    | some (n, rest) => if isLow n then some (n, rest) else none
    | none => none
  | _ => none

/-- The character after a backslash and what follows it. -/
def escaped? : List Char → Option (Char × List Char)
  | '"' :: rest => some ('"', rest)
  | '\\' :: rest => some ('\\', rest)
  | '/' :: rest => some ('/', rest)
  | 'b' :: rest => some (Char.ofNat 8, rest)
  | 'f' :: rest => some (Char.ofNat 12, rest)
  | 'n' :: rest => some ('\n', rest)
  | 'r' :: rest => some ('\r', rest)
  | 't' :: rest => some ('\t', rest)
  | 'u' :: rest =>
    match hex4? rest with
    | none => none
    | some (n, rest) =>
      if isHigh n then
        match low? rest with
        | some (m, rest) => some (Char.ofNat (0x10000 + (n - 0xD800) * 0x400 + (m - 0xDC00)), rest)
        | none => some (replacement, rest)
      else if isLow n then some (replacement, rest)
      else some (Char.ofNat n, rest)
  | _ => none

/-- The characters up to the closing quote, and what follows it. -/
def string? : Nat → List Char → Option (List Char × List Char)
  | 0, _ => none
  | _, [] => none
  | _ + 1, '"' :: rest => some ([], rest)
  | fuel + 1, '\\' :: rest =>
    match escaped? rest with
    | none => none
    | some (c, rest) => (string? fuel rest).map fun (s, rest) => (c :: s, rest)
  | fuel + 1, c :: rest =>
    if c.toNat < 32 then none else (string? fuel rest).map fun (s, rest) => (c :: s, rest)

def digits (cs : List Char) : List Char × List Char :=
  (cs.takeWhile Char.isDigit, cs.dropWhile Char.isDigit)

/-- One digit at least. -/
def digits1? (cs : List Char) : Option (List Char × List Char) :=
  match digits cs with
  | ([], _) => none
  | (ds, rest) => some (ds, rest)

def integer? : List Char → Option (List Char × List Char)
  | '0' :: rest => some (['0'], rest)
  | cs => digits1? cs

def fraction? : List Char → Option (List Char × List Char)
  | '.' :: rest => (digits1? rest).map fun (ds, rest) => ('.' :: ds, rest)
  | cs => some ([], cs)

def exponent? (cs : List Char) : Option (List Char × List Char) :=
  match cs with
  | e :: rest =>
    if e = 'e' ∨ e = 'E' then
      match rest with
      | sign :: more =>
        if sign = '+' ∨ sign = '-' then
          (digits1? more).map fun (ds, rest) => (e :: sign :: ds, rest)
        else (digits1? rest).map fun (ds, rest) => (e :: ds, rest)
      | [] => none
    else some ([], cs)
  | [] => some ([], [])

def unsigned? (cs : List Char) : Option (List Char × List Char) := do
  let (whole, rest) ← integer? cs
  let (fraction, rest) ← fraction? rest
  let (exponent, rest) ← exponent? rest
  return (whole ++ fraction ++ exponent, rest)

def number? : List Char → Option (List Char × List Char)
  | '-' :: rest => (unsigned? rest).map fun (ds, rest) => ('-' :: ds, rest)
  | cs => unsigned? cs

/-- The text after a given word. -/
def after? (word : String) (cs : List Char) : Option (List Char) :=
  if word.toList.isPrefixOf cs then some (cs.drop word.toList.length) else none

/-- How deeply values may lie in one another. -/
def maxDepth : Nat := 10000

mutual

/-- The value at the beginning of a text without leading blanks. -/
def value? : Nat → Nat → List Char → Option (Data × List Char)
  | 0, _, _ => none
  | fuel + 1, depth, cs =>
    match cs with
    | '"' :: rest =>
      (string? fuel rest).map fun (s, rest) => (.text (String.ofList s), rest)
    | '[' :: rest =>
      if maxDepth < depth + 1 then none
      else
        match skip rest with
        | ']' :: rest => some (.list [], rest)
        | rest => (items? fuel (depth + 1) rest).map fun (items, rest) => (.list items, rest)
    | '{' :: rest =>
      if maxDepth < depth + 1 then none
      else
        match skip rest with
        | '}' :: rest => some (.record [], rest)
        | rest =>
          (entries? fuel (depth + 1) rest).map fun (entries, rest) => (.record entries, rest)
    | 'n' :: _ => (after? "null" cs).map fun rest => (.null, rest)
    | 't' :: _ => (after? "true" cs).map fun rest => (.flag true, rest)
    | 'f' :: _ => (after? "false" cs).map fun rest => (.flag false, rest)
    | _ => (number? cs).map fun (ds, rest) => (.number (String.ofList ds), rest)

/-- The items of a list from a first one on, to the closing bracket. -/
def items? : Nat → Nat → List Char → Option (List Data × List Char)
  | 0, _, _ => none
  | fuel + 1, depth, cs =>
    match value? fuel depth cs with
    | none => none
    | some (item, rest) =>
      match skip rest with
      | ']' :: rest => some ([item], rest)
      | ',' :: rest =>
        (items? fuel depth (skip rest)).map fun (items, rest) => (item :: items, rest)
      | _ => none

/-- The entries of a record from a first one on, to the closing brace. -/
def entries? : Nat → Nat → List Char → Option (List (String × Data) × List Char)
  | 0, _, _ => none
  | fuel + 1, depth, cs =>
    match cs with
    | '"' :: rest =>
      match string? fuel rest with
      | none => none
      | some (key, rest) =>
        match skip rest with
        | ':' :: rest =>
          match value? fuel depth (skip rest) with
          | none => none
          | some (value, rest) =>
            match skip rest with
            | '}' :: rest => some ([(String.ofList key, value)], rest)
            | ',' :: rest =>
              (entries? fuel depth (skip rest)).map fun (entries, rest) =>
                ((String.ofList key, value) :: entries, rest)
            | _ => none
        | _ => none
    | _ => none

end

/-- What a text holds. -/
inductive Reading where
  | blank
  | malformed
  | value (d : Data)

def read (text : String) : Reading :=
  match skip text.toList with
  | [] => .blank
  | cs =>
    match value? (2 * cs.length + 1) 0 cs with
    | none => .malformed
    | some (d, _) => .value d

end DeclTree.Json
