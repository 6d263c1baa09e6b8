/-!
# Provenance

Why a node exists: the tags that were put on it, each once, in the order in which they came.
-/

set_option autoImplicit false
set_option relaxedAutoImplicit false

namespace DeclTree

structure Provenance where
  tags : List String
  deriving DecidableEq, Repr

namespace Provenance

def empty : Provenance := ⟨[]⟩

/-- Puts a tag at the end of a list unless it is there already. -/
def insert (tags : List String) (tag : String) : List String :=
  if tags.contains tag then tags else tags ++ [tag]

/-- The tags of a list, each at its first place. -/
def ofList (tags : List String) : Provenance := ⟨tags.foldl insert []⟩

def has (p : Provenance) (tag : String) : Bool := p.tags.contains tag

def isEmpty (p : Provenance) : Bool := p.tags.isEmpty

/-- The provenance with one more tag. -/
def add (p : Provenance) (tag : String) : Provenance := ofList (p.tags ++ [tag])

/-- The tag of a type that stands in for a self type. -/
def selfType : String := "this_type"

end Provenance

end DeclTree
