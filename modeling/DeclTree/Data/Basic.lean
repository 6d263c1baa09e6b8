/-!
# Plain data

What text formats carry: null, truth values, numbers by their digits, texts, lists, and records
whose entries keep their order.
-/

set_option autoImplicit false
set_option relaxedAutoImplicit false

namespace DeclTree

inductive Data where
  | null
  | flag (b : Bool)
  | number (digits : String)
  | text (s : String)
  | list (items : List Data)
  | record (entries : List (String × Data))

namespace Data

def ofInt (n : Int) : Data := .number (toString n)

def ofTexts (texts : List String) : Data := .list (texts.map .text)

end Data

end DeclTree
