import DeclTree.Number.Binary

/-!
# Values of TOML

Texts, numbers, truth values, points in time, lists and tables. Of a point in time only its presence
counts. A number with a fraction or an exponent is binary.
-/

set_option autoImplicit false
set_option relaxedAutoImplicit false

namespace DeclTree.Toml

inductive Floating where
  | finite (isNegative : Bool) (size : Number.Binary)
  | infinite (isNegative : Bool)
  | notNumber
  deriving DecidableEq, Repr

inductive Value where
  | text (s : String)
  | int (n : Int)
  | real (x : Floating)
  | flag (b : Bool)
  | moment
  | list (items : List Value)
  | table (entries : List (String × Value))

abbrev Table := List (String × Value)

end DeclTree.Toml
