/-!
# Version information

What is known of a build. Its short commit is the first seven bytes of the commit; a character that
does not fit whole leaves a replacement for each of its bytes that do.
-/

set_option autoImplicit false
set_option relaxedAutoImplicit false

namespace DeclTree

structure Version where
  version : String
  commit : String
  built : String
  deriving DecidableEq, Repr

namespace Version

/-- A build about which nothing was recorded. -/
def unrecorded : Version := ⟨"dev", "dev", "unknown"⟩

/-- The first bytes of a text. -/
def firstBytes : Nat → List Char → List Char
  | 0, _ => []
  | _, [] => []
  | n, c :: rest =>
    if c.utf8Size ≤ n then c :: firstBytes (n - c.utf8Size) rest
    else List.replicate n (Char.ofNat 0xFFFD)

/-- The commit in short. -/
def short (v : Version) : String := String.ofList (firstBytes 7 v.commit.toList)

/-- One line about the build. -/
def text (v : Version) : String :=
  "declower " ++ v.version ++ " (commit " ++ v.short ++ ", built " ++ v.built ++ ")"

end Version

end DeclTree
