/-!
# Characters and their places

A text is read as characters that know their line and column. Every kind of line break but the two
separators of Unicode becomes one newline, and a mark of the byte order in front is dropped. A text
is read piece by piece; it can be read up to the first piece with a control character in it.
-/

set_option autoImplicit false
set_option relaxedAutoImplicit false

namespace DeclTree.Yaml

structure Spot where
  char : Char
  line : Nat
  column : Nat
  deriving DecidableEq, Repr

def isAllowed (c : Char) : Bool :=
  let n := c.toNat
  n = 0x09 || n = 0x0A || n = 0x0D || (0x20 ≤ n && n ≤ 0x7E) || n = 0x85 ||
    (0xA0 ≤ n && n ≤ 0xFFFD) || 0x10000 ≤ n

def isBreak (c : Char) : Bool :=
  c == '\n' || c == '\r' || c.toNat == 0x85 || c.toNat == 0x2028 || c.toNat == 0x2029

def isGap (c : Char) : Bool := c == ' ' || c == '\t'

def isMark (c : Char) : Bool := c.toNat = 0xFEFF

/-- One newline for every kind of line break that is not a separator of Unicode. -/
def unifyBreaks : List Char → List Char
  | [] => []
  | '\r' :: '\n' :: rest => '\n' :: unifyBreaks rest
  | c :: rest =>
    (if c = '\r' ∨ c.toNat = 0x85 then '\n' else c) :: unifyBreaks rest

def place (line column : Nat) : List Char → List Spot
  | [] => []
  | c :: rest =>
    ⟨c, line, column⟩ ::
      (if isBreak c then place (line + 1) 0 rest else place line (column + 1) rest)

/-- How many bytes a piece of a text has at most. -/
def pieceSize : Nat := 512

/-- The characters before the first piece that cannot be read, and whether there is one. `size`
bytes of the piece at hand are in `piece`, backwards, and what comes before it is in `done`. -/
def readable (done piece : List Char) (size : Nat) : List Char → List Char × Bool
  | [] => ((piece ++ done).reverse, false)
  | c :: rest =>
    if pieceSize < size + c.utf8Size then
      if isAllowed c then readable (piece ++ done) [c] c.utf8Size rest
      else ((piece ++ done).reverse, true)
    else if isAllowed c then readable done (c :: piece) (size + c.utf8Size) rest
    else (done.reverse, true)

/-- A text to be read: its characters with their places, whether it goes on with something that
cannot be read, and whether it begins with a second mark of the byte order. -/
structure Source where
  spots : List Spot
  isCut : Bool
  isMarked : Bool

def Source.ofText (text : String) : Source :=
  let (cs, isCut) := readable [] [] 0 text.toList
  let cs := if cs.head?.any isMark then cs.tail else cs
  ⟨place 0 0 (unifyBreaks cs), isCut, cs.head?.any isMark⟩

namespace Spot

def isGap (s : Spot) : Bool := Yaml.isGap s.char

def isBreak (s : Spot) : Bool := Yaml.isBreak s.char

/-- Whether a text ends here, or a blank or a line break follows. -/
def isClear : List Spot → Bool
  | [] => true
  | s :: _ => s.isGap || s.isBreak

/-- Three dashes or three dots at the beginning of a line, with nothing attached. -/
def isBoundary : List Spot → Bool
  | a :: b :: c :: rest =>
    a.column = 0 && (a.char = '-' || a.char = '.') && b.char = a.char && c.char = a.char &&
      isClear rest
  | _ => false

/-- What is left of a line behind its last comment, if it has one behind blanks; else all of it. -/
def dropComment (spots : List Spot) : List Spot :=
  match spots.dropWhile Spot.isGap with
  | s :: rest => if s.char = '#' then rest.dropWhile fun s => !s.isBreak else spots
  | [] => spots

end Spot

end DeclTree.Yaml
