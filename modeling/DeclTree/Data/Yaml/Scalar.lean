import DeclTree.Data.Yaml.Spot
import DeclTree.Data.Json.Reader

/-!
# The text of scalars

A scalar may run over several lines. Where it does, one line break between two lines of text counts
as a space, and further ones are kept. `plainText`, `singleText`, `doubleText` and `blockText` give
the text of a scalar and what follows it, or refuse it.
-/

set_option autoImplicit false
set_option relaxedAutoImplicit false

namespace DeclTree.Yaml

/-- What lies between two pieces of text: nothing, blanks, or line breaks. The first break is absent
where it was escaped. -/
inductive Gap where
  | none
  | blanks (cs : List Char)
  | breaks (first : Option Char) (more : List Char)
  deriving DecidableEq, Repr

namespace Gap

def isBroken : Gap → Bool
  | .breaks .. => true
  | _ => false

def addBlank (c : Char) : Gap → Gap
  | .none => .blanks [c]
  | .blanks cs => .blanks (cs ++ [c])
  | .breaks first more => .breaks first more

def addBreak (c : Char) : Gap → Gap
  | .breaks first more => .breaks first (more ++ [c])
  | _ => .breaks (some c) []

/-- The text that stands for a gap. -/
def text : Gap → List Char
  | .none => []
  | .blanks cs => cs
  | .breaks (some first) more =>
    if first = '\n' then if more.isEmpty then [' '] else more else first :: more
  | .breaks .none more => more

end Gap

/-- Characters that end a scalar inside brackets and braces. -/
def isFlowMark (c : Char) : Bool :=
  c = ',' || c = '?' || c = '[' || c = ']' || c = '{' || c = '}'

/-- Whether a scalar without quotes ends before the spot. -/
def endsPlain (inFlow : Bool) (s : Spot) (rest : List Spot) : Bool :=
  (s.char = ':' && Spot.isClear rest) || (inFlow && isFlowMark s.char)

/-- A scalar without quotes: its text backwards, and the gap behind it. -/
def plainText (inFlow : Bool) (indent : Nat) (gap : Gap) (text : List Char) :
    List Spot → Option (List Char × Gap × List Spot)
  | [] => some (text, gap, [])
  | s :: rest =>
    if s.isGap then
      if gap.isBroken && s.column < indent && s.char = '\t' then none
      else plainText inFlow indent (gap.addBlank s.char) text rest
    else if s.isBreak then plainText inFlow indent (gap.addBreak s.char) text rest
    else if gap ≠ .none &&
        ((!inFlow && s.column < indent) || Spot.isBoundary (s :: rest) || s.char = '#') then
      some (text, gap, s :: rest)
    else if endsPlain inFlow s rest then some (text, gap, s :: rest)
    else plainText inFlow indent .none (s.char :: (gap.text.reverse ++ text)) rest

/-- The text in single quotes, where two quotes stand for one; backwards. -/
def singleText (gap : Gap) (text : List Char) : List Spot → Option (List Char × List Spot)
  | [] => none
  | s :: rest =>
    if s.isGap then singleText (gap.addBlank s.char) text rest
    else if s.isBreak then singleText (gap.addBreak s.char) text rest
    else if Spot.isBoundary (s :: rest) then none
    else if s.char = '\'' then
      match rest with
      | q :: rest =>
        if q.char = '\'' then singleText .none ('\'' :: (gap.text.reverse ++ text)) rest
        else some (gap.text.reverse ++ text, q :: rest)
      | [] => some (gap.text.reverse ++ text, [])
    else singleText .none (s.char :: (gap.text.reverse ++ text)) rest

/-- What a letter behind a backslash stands for. -/
def escapeChar? : Char → Option Char
  | '0' => some (Char.ofNat 0)
  | 'a' => some (Char.ofNat 7)
  | 'b' => some (Char.ofNat 8)
  | 't' => some '\t'
  | '\t' => some '\t'
  | 'n' => some '\n'
  | 'v' => some (Char.ofNat 11)
  | 'f' => some (Char.ofNat 12)
  | 'r' => some '\r'
  | 'e' => some (Char.ofNat 27)
  | ' ' => some ' '
  | '"' => some '"'
  | '\'' => some '\''
  | '\\' => some '\\'
  | 'N' => some (Char.ofNat 0x85)
  | '_' => some (Char.ofNat 0xA0)
  | 'L' => some (Char.ofNat 0x2028)
  | 'P' => some (Char.ofNat 0x2029)
  | _ => none

/-- How many hexadecimal digits a letter behind a backslash announces. -/
def escapeWidth? : Char → Option Nat
  | 'x' => some 2
  | 'u' => some 4
  | 'U' => some 8
  | _ => none

/-- The character with the code that the digits give, and what follows them. -/
def codeChar? (width : Nat) (spots : List Spot) : Option (Char × List Spot) := do
  let digits ← (spots.take width).mapM fun s => Json.hexValue? s.char
  if digits.length < width then none
  else
    let code := digits.foldl (fun n d => n * 16 + d) 0
    if h : code.isValidChar then some (Char.ofNatAux code h, spots.drop width) else none

/-- The character behind a backslash, and what follows it. -/
def escapedChar? : List Spot → Option (Char × List Spot)
  | [] => none
  | s :: rest =>
    match escapeChar? s.char with
    | some c => some (c, rest)
    | none =>
      match escapeWidth? s.char with
      | some width => codeChar? width rest
      | none => none

/-- The text in double quotes, backwards. -/
def doubleText : Nat → Gap → List Char → List Spot → Option (List Char × List Spot)
  | 0, _, _, _ => none
  | _ + 1, _, _, [] => none
  | fuel + 1, gap, text, s :: rest =>
    if s.isGap then doubleText fuel (gap.addBlank s.char) text rest
    else if s.isBreak then doubleText fuel (gap.addBreak s.char) text rest
    else if Spot.isBoundary (s :: rest) then none
    else
      let text := gap.text.reverse ++ text
      if s.char = '"' then some (text, rest)
      else if s.char = '\\' then
        match rest with
        | b :: more =>
          if b.isBreak then doubleText fuel (.breaks none []) text more
          else
            match escapedChar? rest with
            | some (c, rest) => doubleText fuel .none (c :: text) rest
            | none => none
        | [] => none
      else doubleText fuel .none (s.char :: text) rest

/-!
## Blocks of lines
-/

/-- What becomes of the line breaks behind a block. -/
inductive Chomp where
  | strip
  | clip
  | keep
  deriving DecidableEq, Repr

def chomp? : Char → Option Chomp
  | '+' => some .keep
  | '-' => some .strip
  | _ => none

/-- The marks behind the sign of a block: what to do with its end, and how far it is indented. -/
def blockMarks? : List Spot → Option (Chomp × Nat × List Spot)
  | [] => some (.clip, 0, [])
  | s :: rest =>
    match chomp? s.char with
    | some chomp =>
      match rest with
      | d :: more =>
        if d.char.isDigit then
          if d.char = '0' then none else some (chomp, d.char.toNat - '0'.toNat, more)
        else some (chomp, 0, rest)
      | [] => some (chomp, 0, [])
    | none =>
      if s.char.isDigit then
        if s.char = '0' then none
        else
          let width := s.char.toNat - '0'.toNat
          match rest with
          | c :: more =>
            match chomp? c.char with
            | some chomp => some (chomp, width, more)
            | none => some (.clip, width, rest)
          | [] => some (.clip, width, [])
      else some (.clip, 0, s :: rest)

/-- The rest of a line that may hold a comment only, up to its end. -/
def skipComment? (spots : List Spot) : Option (List Spot) :=
  match spots.dropWhile Spot.isGap with
  | [] => some []
  | s :: rest =>
    if s.char = '#' then some (rest.dropWhile fun s => !s.isBreak)
    else if s.isBreak then some (s :: rest)
    else none

/-- The empty lines and the indentation before a line of a block: the breaks passed, the largest
column reached, and the rest. Indentation ends at a given column, unless that is zero. A tab cannot
indent. -/
def blockBreaks (indent : Nat) (breaks : List Char) (reached : Nat) :
    List Spot → Option (List Char × Nat × List Spot)
  | [] => some (breaks, reached, [])
  | s :: rest =>
    let within := indent = 0 || s.column < indent
    if within && s.char = ' ' then blockBreaks indent breaks (max reached (s.column + 1)) rest
    else if within && s.char = '\t' then none
    else if s.isBreak then blockBreaks indent (breaks ++ [s.char]) (max reached s.column) rest
    else some (breaks, max reached s.column, s :: rest)

/-- The lines of a block that is indented to a column. `lead` is the break behind the line before,
`breaks` those of the empty lines since, and `wasIndented` says whether that line begins with a
blank. The text is backwards. -/
def blockLines (isLiteral : Bool) (chomp : Chomp) (indent : Nat) :
    Nat → List Char → Option Char → List Char → Bool → List Spot →
      Option (List Char × List Spot)
  | 0, _, _, _, _, _ => none
  | fuel + 1, text, lead, breaks, wasIndented, spots =>
    let finished :=
      (if chomp = .keep then breaks.reverse else []) ++
        (if chomp = .strip then [] else lead.toList) ++ text
    match spots with
    | [] => some (finished, [])
    | s :: rest =>
      if s.column ≠ indent then some (finished, s :: rest)
      else
        let isIndented := s.isGap
        let joined :=
          if !isLiteral && !wasIndented && !isIndented && lead = some '\n' then
            if breaks.isEmpty then [' '] else []
          else lead.toList
        let line := (s :: rest).takeWhile fun s => !s.isBreak
        let text := (line.map Spot.char).reverse ++ (breaks.reverse ++ (joined ++ text))
        match (s :: rest).dropWhile fun s => !s.isBreak with
        | [] => blockLines isLiteral chomp indent fuel text none [] isIndented []
        | b :: rest =>
          match blockBreaks indent [] 0 rest with
          | none => none
          | some (breaks, _, rest) =>
            blockLines isLiteral chomp indent fuel text (some b.char) breaks isIndented rest

/-- The text of a block behind its sign, and what follows it; `parent` is the column that holds the
block, if one does. -/
def blockText (isLiteral : Bool) (parent : Option Nat) (spots : List Spot) :
    Option (String × List Spot) := do
  let (chomp, width, rest) ← blockMarks? spots
  let rest ← skipComment? rest
  let rest := rest.drop 1
  let least := match parent with
    | some column => column + 1
    | none => 0
  let given := if width = 0 then 0 else parent.getD 0 + width
  let (breaks, reached, rest) ← blockBreaks given [] 0 rest
  let indent := if given = 0 then max 1 (max reached least) else given
  let (text, rest) ←
    blockLines isLiteral chomp indent (rest.length + 1) [] none breaks false rest
  return (String.ofList text.reverse, rest)

end DeclTree.Yaml
