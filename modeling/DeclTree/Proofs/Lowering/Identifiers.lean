import DeclTree.Proofs.Lowering.Composition
import DeclTree.Proofs.Lowering.Stages

/-!
# Renaming identifiers is functorial

A registry that only renames makes of a known tree the tree with its identifiers changed by a
function, `Module.mapIdentifiers`, whatever its name and its number of workers. Changing identifiers
respects composition and identity, so a row of such registries, however long, is as good
as a single one, `Pipeline.takes_renames`.
-/

set_option autoImplicit false
set_option relaxedAutoImplicit false

namespace DeclTree

/-! ### Trees with their identifiers changed -/

namespace Module

/-- A tree with its identifiers changed by a function, and all else as it was, tokens included. -/
def mapIdentifiers (f : String → String) (m : Module) : Module := m.rewrite (.identifiers f) none

theorem mapIdentifiers_id (m : Module) : m.mapIdentifiers id = m := m.renamed_id

theorem mapIdentifiers_mapIdentifiers (f g : String → String) (m : Module) :
    (m.mapIdentifiers f).mapIdentifiers g = m.mapIdentifiers (g ∘ f) :=
  (Module.rewrite_rewrite_eq_iff rfl rfl m).mpr fun _ _ _ _ _ ↦ rfl

theorem isKnown_mapIdentifiers (f : String → String) {m : Module} (hm : m.IsKnown) :
    (m.mapIdentifiers f).IsKnown :=
  (Stage.rename "" f 1 0).isKnown_apply hm

end Module

/-! ### Registries that only rename -/

namespace Rules.Renames

variable {r : Rules} {f : String → String} {m : Module}

theorem outcome_lower (hr : r.Renames f) (hm : m.IsKnown) :
    (r.lower (some m)).outcome = .ok (m.mapIdentifiers f) :=
  hr.carriesOut.outcome_lower hm

/-- As a pass the registry takes a known tree to the tree with its identifiers changed. -/
theorem takes (hr : r.Renames f) (hm : m.IsKnown) : r.pass.Takes m (m.mapIdentifiers f) :=
  Run.outcome_map_of_ok (hr.outcome_lower hm) some

end Rules.Renames

theorem Rules.renames_empty (name : String) : (Rules.empty name).Renames id where
  noRule _ := rfl
  noFallback := rfl
  rename := rfl

/-! ### Registries in a row -/

/-- Functions one after the other, the first of them first. -/
def composed (fs : List (String → String)) : String → String := fs.foldr (fun f rest ↦ rest ∘ f) id

/-- Registries that rename, one after the other, rename by one function after the other. -/
theorem Pipeline.takes_renames {rs : List Rules} {fs : List (String → String)}
    (hrs : List.Forall₂ Rules.Renames rs fs) {m : Module} (hm : m.IsKnown) :
    Takes (rs.map Rules.pass) m (m.mapIdentifiers (composed fs)) := by
  induction hrs generalizing m with
  | nil =>
    have hsame : m.mapIdentifiers (composed []) = m := m.mapIdentifiers_id
    rw [hsame]
    exact .nil m
  | @cons r f rs fs hr _ ih =>
    have hrest := ih (Module.isKnown_mapIdentifiers f hm)
    rw [Module.mapIdentifiers_mapIdentifiers] at hrest
    exact .cons (hr.takes hm) hrest

/-- Renaming is functorial. On every known tree a registry that renames by one function and then one
that renames by another do what a single one does that renames by their composition, by themselves
and as passes of a pipeline, and so does any number of registries in a row. A registry that renames
by the identity gives the tree back, and a registry without rules is one of that sort. -/
theorem Rules.renaming_functorial {m : Module} (hm : m.IsKnown) :
    (∀ (f g : String → String) (r s t : Rules), r.Renames f → s.Renames g → t.Renames (g ∘ f) →
      ∃ m₁ m₂, (r.lower (some m)).outcome = .ok m₁ ∧ (s.lower (some m₁)).outcome = .ok m₂ ∧
        (t.lower (some m)).outcome = .ok m₂) ∧
      (∀ (rs : List Rules) (fs : List (String → String)) (t : Rules) (level : Int),
        List.Forall₂ Rules.Renames rs fs → t.Renames (composed fs) →
          ∃ m', (Pipeline.lower level (rs.map Rules.pass) (some m)).outcome = .ok m' ∧
            (t.lower (some m)).outcome = .ok m') ∧
      (∀ e : Rules, e.Renames id → (e.lower (some m)).outcome = .ok m) ∧
      ∀ name, ((Rules.empty name).lower (some m)).outcome = .ok m := by
  have hidentity : ∀ e : Rules, e.Renames id → (e.lower (some m)).outcome = .ok m := by
    intro e he
    rw [he.outcome_lower hm, m.mapIdentifiers_id]
  refine ⟨?_, ?_, hidentity, fun name ↦ hidentity _ (renames_empty name)⟩
  · intro f g r s t hr hs ht
    have hsecond := hs.outcome_lower (Module.isKnown_mapIdentifiers f hm)
    rw [Module.mapIdentifiers_mapIdentifiers] at hsecond
    exact ⟨_, _, hr.outcome_lower hm, hsecond, ht.outcome_lower hm⟩
  · intro rs fs t level hrs ht
    have hpipeline : (Pipeline.lower level (rs.map Rules.pass) (some m)).outcome =
        .ok (m.mapIdentifiers (composed fs)) :=
      Pipeline.outcome_lower_eq_ok_iff.mpr ⟨m, rfl, Pipeline.takes_renames hrs hm⟩
    exact ⟨_, hpipeline, ht.outcome_lower hm⟩

/-- The registry that puts a suffix behind every identifier. -/
def Rules.suffixing (suffix : String) : Rules :=
  { Rules.empty suffix with rename := fun text ↦ text ++ suffix, workers := 2 }

/-- Tokens keep their text, and the suffixes stand in the order of the registries. -/
theorem Rules.renaming_functorial_signTree :
    Escape.signTree.IsKnown ∧
      ∃ m', (Pipeline.lower 0 [(suffixing "A").pass, (suffixing "B").pass]
            (some Escape.signTree)).outcome = .ok m' ∧
        ((suffixing "AB").lower (some Escape.signTree)).outcome = .ok m' ∧
        m'.segments = ["libAB", "packageAB", "inAB", "objectAB", "TAB", "BaseAB", "valAB", "funAB",
          "__AB", "sizeAB", "BoxAB", "typeofAB", "ModeAB", "when", "a$b"] ∧
        ((Rules.empty "copy").lower (some m')).outcome = .ok m' := by
  have hknown : Escape.signTree.IsKnown := by decide
  have hsuffixing : ∀ suffix, (suffixing suffix).Renames fun text ↦ text ++ suffix :=
    fun _ ↦ ⟨fun _ ↦ rfl, rfl, rfl⟩
  have hboth : (suffixing "AB").Renames
      (composed [fun text ↦ text ++ "A", fun text ↦ text ++ "B"]) := by
    have hcomposed : composed [fun text ↦ text ++ "A", fun text ↦ text ++ "B"] =
        fun text ↦ text ++ "AB" := funext fun _ ↦ String.append_assoc
    rw [hcomposed]
    exact hsuffixing "AB"
  obtain ⟨-, hrow, -, -⟩ := renaming_functorial hknown
  obtain ⟨m', hpipeline, hsingle⟩ := hrow [suffixing "A", suffixing "B"]
    [fun text ↦ text ++ "A", fun text ↦ text ++ "B"] (suffixing "AB") 0
    (.cons (hsuffixing "A") (.cons (hsuffixing "B") .nil)) hboth
  obtain rfl : Escape.signTree.mapIdentifiers _ = m' :=
    Except.ok.inj (((hsuffixing "AB").outcome_lower hknown).symm.trans hsingle)
  obtain ⟨-, -, -, hcopy⟩ := renaming_functorial (Module.isKnown_mapIdentifiers _ hknown)
  exact ⟨hknown, _, hpipeline, hsingle, by decide +kernel, hcopy "copy"⟩

end DeclTree
