/-!
# Pieces of a text

A text cut at every occurrence of a separator, and the pieces put together again.
-/

set_option autoImplicit false
set_option relaxedAutoImplicit false

namespace DeclTree.Text

/-- The pieces of a list between the occurrences of a separator; never empty. -/
def pieces {α : Type} [BEq α] (sep : α) : List α → List (List α)
  | [] => [[]]
  | c :: cs =>
    if c == sep then [] :: pieces sep cs
    else
      match pieces sep cs with
      | [] => [[c]]
      | p :: ps => (c :: p) :: ps

/-- The pieces of a text between the occurrences of a character. -/
def splitAt (sep : Char) (s : String) : List String :=
  (pieces sep s.toList).map String.ofList

/-- The texts one after the other with a separator between neighbours. -/
def joined (sep : String) : List String → String
  | [] => ""
  | [s] => s
  | s :: rest => s ++ sep ++ joined sep rest

end DeclTree.Text
