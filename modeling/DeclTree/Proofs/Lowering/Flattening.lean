import DeclTree.Proofs.Lowering.Stages
import DeclTree.Proofs.Tree.Flatten

/-!
# Flattening before or after lowering

A submodule is lowered below the modules around it, or on its own once the tree is flat. No module
opens a scope of self types, so nothing that a stage reads from outside reaches into a module, and
no stage empties a list of declarations or fills one. A rewritten tree is therefore flattened into
the rewritten modules of the flat tree, `Module.flatten_rewrite`, and so it is for a pipeline,
`Stage.flatten_applyAll`.
-/

set_option autoImplicit false
set_option relaxedAutoImplicit false

namespace DeclTree

/-! ### Flattening a rewritten tree -/

theorem Module.alone_rewrite (w : Rewriting) (head : ModuleHead) (declarations : List Decl) :
    Module.alone (head.rename w.rename) (declarations.map (Decl.rewrite w none)) =
      (Module.alone head declarations).map fun m ↦ m.rewrite w none := by
  cases declarations with
  | nil => rfl
  | cons d ds =>
    have hrewrite : (Module.mk head (d :: ds) []).rewrite w none =
        ⟨head.rename w.rename, (d :: ds).map (Decl.rewrite w none), []⟩ := by
      rw [Module.rewrite, Decl.rewriteAll_eq_map]
      rfl
    exact congrArg List.singleton hrewrite.symm

theorem Module.flatten_rewrite (w : Rewriting) (m : Module) :
    (m.rewrite w none).flatten = m.flatten.map fun x ↦ x.rewrite w none := by
  induction m using Module.induct with
  | step head declarations submodules ih =>
    rw [Module.rewrite, Decl.rewriteAll_eq_map, Module.rewriteAll_eq_map, Module.flatten_mk,
      Module.flatten_mk, List.map_append, Module.alone_rewrite, List.flatMap_map, List.map_flatMap,
      List.flatMap_congr ih]

theorem Module.isKnown_of_mem_flatten {m x : Module} (hm : m.IsKnown) (hx : x ∈ m.flatten) :
    x.IsKnown := by
  induction m using Module.induct with
  | step head declarations submodules ih =>
    obtain ⟨hnode, hdeclarations, hsubmodules⟩ := Module.every_iff.mp hm
    rw [Module.flatten_mk, List.mem_append] at hx
    rcases hx with hx | hx
    · rw [Module.alone] at hx
      split at hx
      · exact nomatch hx
      · obtain rfl := List.mem_singleton.mp hx
        exact Module.every_iff.mpr ⟨hnode, hdeclarations, nofun⟩
    · obtain ⟨s, hs, hx⟩ := List.mem_flatMap.mp hx
      exact ih s hs (hsubmodules s hs) hx

namespace Stage

theorem flatten_applyAll (stages : List Stage) (m : Module) :
    (applyAll stages m).flatten = m.flatten.map (applyAll stages) := by
  induction stages generalizing m with
  | nil => exact (List.map_id m.flatten).symm
  | cons s stages ih =>
    rw [applyAll_cons, ih, apply, Module.flatten_rewrite, List.map_map]
    rfl

/-- Flattening what a pipeline of stages makes of a known tree gives what the pipeline makes of the
modules of the flat tree, each on its own, in the same order; it fails for none of them. -/
theorem flatten_lowered (level : Int) (stages : List Stage) {m : Module} (hknown : m.IsKnown) :
    ∃ m', (Pipeline.lower level (stages.map pass) (some m)).outcome = .ok m' ∧
      m.flatten.map (fun x ↦ (Pipeline.lower level (stages.map pass) (some x)).outcome) =
        m'.flatten.map .ok := by
  refine ⟨applyAll stages m, outcome_lower level stages hknown, ?_⟩
  rw [flatten_applyAll, List.map_map]
  exact List.map_congr_left fun x hx ↦
    outcome_lower level stages (Module.isKnown_of_mem_flatten hknown hx)

/-- The class and the submodule of the tree are resolved, escaped and renamed apart. -/
theorem flatten_lowered_boxTree :
    (SelfType.boxTree (.self true ⟨[]⟩) (.self false ⟨[]⟩)).IsKnown ∧
      ∃ m', (Pipeline.lower 0 [SelfType.pass (.ident "Any") 1 0, Escape.pass .default false 2 0,
            ({ Rules.empty "suffix" with rename := (· ++ "_") } : Rules).pass]
          (some (SelfType.boxTree (.self true ⟨[]⟩) (.self false ⟨[]⟩)))).outcome = .ok m' ∧
        m'.flatten.length = 2 ∧
        (SelfType.boxTree (.self true ⟨[]⟩) (.self false ⟨[]⟩)).flatten.map (fun x ↦
            (Pipeline.lower 0 [SelfType.pass (.ident "Any") 1 0, Escape.pass .default false 2 0,
              ({ Rules.empty "suffix" with rename := (· ++ "_") } : Rules).pass]
              (some x)).outcome) = m'.flatten.map .ok := by
  have hknown : (SelfType.boxTree (.self true ⟨[]⟩) (.self false ⟨[]⟩)).IsKnown := by decide
  obtain ⟨m', hlower, hflat⟩ := flatten_lowered 0
    [.selfTypes (.ident "Any") 1 0, .escape .default 2 0, .rename "suffix" (· ++ "_") 1 0] hknown
  refine ⟨hknown, m', hlower, ?_, hflat⟩
  have hlength := congrArg List.length hflat
  rw [List.length_map, List.length_map] at hlength
  exact hlength.symm

end Stage

end DeclTree
