import DeclTree.Data.Basic
import DeclTree.Data.Yaml.Resolve
import DeclTree.Data.Yaml.Spot
import DeclTree.Text.Quoted

/-!
# YAML text

`Yaml.render` writes data in block style, indented by two spaces a level. A text is written plain
where it reads back as that text; with line breaks it becomes a literal block, else it is quoted
singly, or doubly where single quotes do not do.
-/

set_option autoImplicit false
set_option relaxedAutoImplicit false

namespace DeclTree.Yaml

/-- The characters that may stand in a text without an escape. -/
def isPrintable (c : Char) : Bool :=
  let n := c.toNat
  n == 10 || (0x20 ≤ n && n ≤ 0x7E) || (0xA0 ≤ n && n ≤ 0xD7FF) ||
    (0xE000 ≤ n && n ≤ 0xFFFD && n != 0xFEFF)

/-- Whether some pair of neighbours satisfies a condition. -/
def anyPair (p : Char → Char → Bool) : List Char → Bool
  | a :: b :: rest => p a b || anyPair p (b :: rest)
  | _ => false

/-- Which styles a text allows in block context. -/
structure Analysis where
  plain : Bool
  single : Bool
  literal : Bool

/-- The first characters that never begin a plain scalar. -/
def isIndicator (c : Char) : Bool :=
  "#,[]\x7b\x7d&*!|>'\"%@`".toList.contains c

/-- Whether a text would be taken for structure if it stood plain in block context. -/
def hasIndicator (cs : List Char) : Bool :=
  let starts := match cs with
    | '-' :: '-' :: '-' :: _ => true
    | '.' :: '.' :: '.' :: _ => true
    | c :: rest =>
      isIndicator c ||
        ((c = '?' || c = ':' || c = '-') && (match rest with
          | [] => true
          | d :: _ => isGap d))
    | [] => false
  starts || cs.getLast? == some ':' && 1 < cs.length ||
    anyPair (fun a b => a = ':' && isGap b) (cs.drop 1) ||
    anyPair (fun a b => (isGap a || isBreak a) && b = '#') cs

def analyze (cs : List Char) : Analysis :=
  let leading := cs.head?.any fun c => c = ' ' || isBreak c
  let trailing := cs.getLast?.any fun c => c = ' ' || isBreak c
  let trailingSpace := cs.getLast? == some ' '
  let breakSpace := anyPair (fun a b => isBreak a && b = ' ') cs
  let spaceBreak := anyPair (fun a b => a = ' ' && isBreak b) cs
  let tabs := cs.contains '\t'
  let special := cs.any fun c => c ≠ '\t' && !isPrintable c
  let single := !breakSpace && !spaceBreak && !tabs && !special
  { plain := single && !leading && !trailing && !cs.any isBreak && !hasIndicator cs
    single
    literal := !trailingSpace && !spaceBreak && !special }

/-- The last `width` hexadecimal digits of a number in upper case. -/
def upperHex (width n : Nat) : List Char := (Text.hexDigits width n).map Char.toUpper

/-- A character by its escape between double quotes. -/
def escapeChar (c : Char) : List Char :=
  '\\' :: match c.toNat with
    | 0 => ['0']
    | 7 => ['a']
    | 8 => ['b']
    | 9 => ['t']
    | 10 => ['n']
    | 11 => ['v']
    | 12 => ['f']
    | 13 => ['r']
    | 0x1B => ['e']
    | 0x22 => ['"']
    | 0x5C => ['\\']
    | 0x85 => ['N']
    | 0xA0 => ['_']
    | 0x2028 => ['L']
    | 0x2029 => ['P']
    | n =>
      if n ≤ 0xFF then 'x' :: upperHex 2 n
      else if n ≤ 0xFFFF then 'u' :: upperHex 4 n
      else 'U' :: upperHex 8 n

/-- Between double quotes; behind a byte order mark every character is escaped. -/
def doubleQuoted (cs : List Char) : List Char :=
  let all := cs.head?.any fun c => c.toNat = 0xFEFF
  let encode := fun (c : Char) =>
    if all || !isPrintable c || isBreak c || c = '"' || c = '\\' then escapeChar c else [c]
  '"' :: cs.flatMap encode ++ ['"']

def spaces (n : Nat) : List Char := List.replicate n ' '

/-- The characters of a single-quoted text; after a line separator the next line is indented. -/
def singleBody (indent : Nat) : Bool → List Char → List Char
  | _, [] => []
  | afterBreak, c :: rest =>
    if isBreak c then c :: singleBody indent true rest
    else if c = ' ' then c :: singleBody indent afterBreak rest
    else
      (if afterBreak then spaces indent else []) ++
        (if c = '\'' then ['\'', '\''] else [c]) ++ singleBody indent false rest

def singleQuoted (indent : Nat) (cs : List Char) : List Char :=
  '\'' :: singleBody indent false cs ++ ['\'']

/-- The lines of a literal block; a line is indented where it holds something. -/
def literalBody (indent : Nat) : Bool → List Char → List Char
  | _, [] => []
  | atStart, c :: rest =>
    if isBreak c then c :: literalBody indent true rest
    else (if atStart then spaces indent else []) ++ c :: literalBody indent false rest

/-- How a literal block treats the line breaks at its end. -/
def chomp (cs : List Char) : List Char :=
  match cs.reverse with
  | [] => ['-']
  | [c] => if isBreak c then ['+'] else ['-']
  | c :: d :: _ => if isBreak c then if isBreak d then ['+'] else [] else ['-']

/-- A literal block with its header. -/
def literal (indent : Nat) (cs : List Char) : List Char :=
  let hint := if cs.head?.any fun c => c = ' ' || isBreak c then ['2'] else []
  let body := literalBody indent true cs
  let gap := if cs.head?.any isBreak then [] else ['\n']
  '|' :: hint ++ chomp cs ++ gap ++ body

/-- Whether a text reads back as a text when it stands plain. -/
def readsBack (s : String) : Bool :=
  resolve s = .str && !isBase60 s && !isOneOf oldTrueWords s && !isOneOf oldFalseWords s

/-- A text as a scalar; `indent` is the indentation of its further lines. -/
def scalar (indent : Nat) (s : String) : List Char :=
  let cs := s.toList
  let a := analyze cs
  if cs.contains '\n' then if a.literal then literal indent cs else doubleQuoted cs
  else if !readsBack s then doubleQuoted cs
  else if a.plain then cs
  else if a.single then singleQuoted indent cs
  else doubleQuoted cs

/-- A line break unless the text has just made one, of whatever kind. -/
def endLine (cs : List Char) : List Char :=
  if cs.getLast?.any isBreak then cs else cs ++ ['\n']

def inlineScalar (indent : Nat) : Data → List Char
  | .null => "null".toList
  | .flag b => (if b then "true" else "false").toList
  | .number digits => digits.toList
  | .text s => scalar indent s
  | .list _ => "[]".toList
  | .record _ => "\x7b\x7d".toList

mutual

/-- The value behind a key, with the line break at its end. -/
def valueLines (indent : Nat) : Data → List Char
  | .list (item :: items) => '\n' :: itemLines (indent + 2) (item :: items)
  | .record (entry :: entries) =>
    '\n' :: spaces (indent + 2) ++ entryLines (indent + 2) (entry :: entries)
  | .list [] => ' ' :: endLine (inlineScalar (indent + 2) (.list []))
  | .record [] => ' ' :: endLine (inlineScalar (indent + 2) (.record []))
  | .null => ' ' :: endLine (inlineScalar (indent + 2) .null)
  | .flag b => ' ' :: endLine (inlineScalar (indent + 2) (.flag b))
  | .number digits => ' ' :: endLine (inlineScalar (indent + 2) (.number digits))
  | .text s => ' ' :: endLine (inlineScalar (indent + 2) (.text s))

/-- The entries of a record; the first stands where the line has got to. -/
def entryLines (indent : Nat) : List (String × Data) → List Char
  | [] => []
  | [(key, value)] => scalar indent key ++ ':' :: valueLines indent value
  | (key, value) :: entry :: entries =>
    scalar indent key ++ ':' :: valueLines indent value ++ spaces indent ++
      entryLines indent (entry :: entries)

/-- The items of a list, each on a line of its own. -/
def itemLines (indent : Nat) : List Data → List Char
  | [] => []
  | item :: items =>
    spaces indent ++ '-' :: ' ' :: itemBody (indent + 2) item ++ itemLines indent items

/-- An item behind its dash. -/
def itemBody (indent : Nat) : Data → List Char
  | .record (entry :: entries) => entryLines indent (entry :: entries)
  | .list (item :: items) => (itemLines indent (item :: items)).drop indent
  | .record [] => endLine (inlineScalar indent (.record []))
  | .list [] => endLine (inlineScalar indent (.list []))
  | .null => endLine (inlineScalar indent .null)
  | .flag b => endLine (inlineScalar indent (.flag b))
  | .number digits => endLine (inlineScalar indent (.number digits))
  | .text s => endLine (inlineScalar indent (.text s))

end

/-- Data as a document. -/
def render : Data → String
  | .record (entry :: entries) => String.ofList (entryLines 0 (entry :: entries))
  | .list (item :: items) => String.ofList (itemLines 0 (item :: items))
  | d => String.ofList (endLine (inlineScalar 2 d))

end DeclTree.Yaml
