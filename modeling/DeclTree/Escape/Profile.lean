import DeclTree.Name

/-!
# Escaping identifiers

A profile says what the target language does not take as a bare identifier: reserved words,
characters, and identifiers of underscores alone. Such an identifier is put between quotes;
one that is between quotes already is left alone.
-/

set_option autoImplicit false
set_option relaxedAutoImplicit false

namespace DeclTree

structure Profile where
  reserved : List String
  special : String
  quote : String
  deriving DecidableEq, Repr

namespace Profile

def defaultReserved : List String :=
  ["as", "fun", "in", "interface", "is", "object", "package", "typealias", "typeof", "val", "var",
    "when"]

def defaultSpecial : String := "$"

def defaultQuote : String := "`"

def default : Profile := ⟨defaultReserved, defaultSpecial, defaultQuote⟩

/-- The quote in use: the usual one where the profile names none. -/
def mark (p : Profile) : String := if p.quote = "" then defaultQuote else p.quote

/-- Whether a text stands between quotes that do not overlap. -/
def isQuoted (p : Profile) (s : String) : Bool :=
  2 * p.mark.toList.length ≤ s.toList.length && p.mark.toList.isPrefixOf s.toList &&
    p.mark.toList.isSuffixOf s.toList

def hasSpecial (p : Profile) (s : String) : Bool :=
  s.toList.any fun c => p.special.toList.contains c

def onlyUnderscores (s : String) : Bool := s ≠ "" && s.toList.all fun c => c == '_'

/-- Whether a text that is not quoted may not stand as it is. -/
def mustQuote (p : Profile) (s : String) : Bool :=
  p.reserved.contains s || p.hasSpecial s || onlyUnderscores s

def escape (p : Profile) (s : String) : String :=
  if p.isQuoted s then s
  else if p.mustQuote s then p.mark ++ s ++ p.mark
  else s

/-- Escapes each identifier of a name. -/
def escapeName (p : Profile) (name : Name) : Name := name.map p.escape

/-- Escapes the pieces between the dots of a written name. -/
def escapeDotted (p : Profile) (text : String) : String :=
  Text.joined "." ((Text.splitAt '.' text).map p.escape)

end Profile

end DeclTree
