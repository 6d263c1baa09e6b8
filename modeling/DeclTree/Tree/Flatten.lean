import DeclTree.Tree.Basic

/-!
# Flattening

A module and its submodules as a flat list in source order: modules without declarations are left
out and the others stand without their submodules. `Module.countDeclarations` counts what
flattening keeps.
-/

set_option autoImplicit false
set_option relaxedAutoImplicit false

namespace DeclTree

/-- A module without its submodules, unless it declares nothing. -/
def Module.alone (head : ModuleHead) (declarations : List Decl) : List Module :=
  if declarations.isEmpty then [] else [⟨head, declarations, []⟩]

mutual

def Module.flatten : Module → List Module
  | ⟨head, declarations, submodules⟩ =>
    Module.alone head declarations ++ Module.flattenAll submodules

def Module.flattenAll : List Module → List Module
  | [] => []
  | m :: ms => Module.flatten m ++ Module.flattenAll ms

end

mutual

/-- The declarations held directly by a module and by its submodules. -/
def Module.countDeclarations : Module → Nat
  | ⟨_, declarations, submodules⟩ =>
    declarations.length + Module.countAllDeclarations submodules

def Module.countAllDeclarations : List Module → Nat
  | [] => 0
  | m :: ms => Module.countDeclarations m + Module.countAllDeclarations ms

end

/-- The roots of a source set, each flattened, in order. -/
def SourceSet.flatten (set : SourceSet) : List Module :=
  set.sources.flatMap fun source => (source.root.map Module.flatten).getD []

end DeclTree
