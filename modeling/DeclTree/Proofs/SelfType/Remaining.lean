import DeclTree.Proofs.Lowering.Composition
import DeclTree.Proofs.Lowering.Stages

/-!
# Self types that remain

Self types are counted by walking a tree, and passes rewrite it by a traversal of their own. They
agree about what there is to see: resolving leaves no self type behind,
`Module.remaining_withoutSelfTypes`, and the other stages leave as many as there were. So the count
after a pipeline depends only on whether self types were resolved at all,
`Stage.remaining_applyAll`.

A tree without self types is not changed by resolving them, and no other tree is left as it was,
`Module.withoutSelfTypes_eq_self_iff`.
-/

set_option autoImplicit false
set_option relaxedAutoImplicit false

namespace DeclTree

open SelfType (Scope)

/-! ### Counting after a rewriting -/

theorem Module.remaining_rewrite {w : Rewriting} {k : Nat} (hself : ∀ scope nullable tags,
      ((w.self scope nullable tags).walk fun _ ↦ true).countP Node.isSelfType = k) (m : Module) :
    (m.rewrite w none).remaining = k * m.remaining :=
  Node.count_rewrite hself (.module m)

/-- What stands in for a self type holds none. -/
theorem count_standIn (top : Name) (scope : Option Scope) (nullable : Bool) (tags : Provenance) :
    ((standIn top scope nullable tags).walk fun _ ↦ true).countP Node.isSelfType = 0 := by
  rw [List.countP_eq_zero]
  exact standIn_every (fun _ _ _ _ ↦ nofun) fun _ _ ↦ nofun

theorem Module.remaining_withoutSelfTypes (top : Name) (m : Module) :
    (m.withoutSelfTypes top).remaining = 0 :=
  (m.remaining_rewrite (count_standIn top)).trans (Nat.zero_mul _)

namespace Stage

/-- Whether a stage resolves self types. -/
def resolves : Stage → Bool
  | .selfTypes .. => true
  | .escape .. => false
  | .rename .. => false

theorem remaining_apply (s : Stage) (m : Module) :
    (s.apply m).remaining = if s.resolves then 0 else m.remaining := by
  cases s with
  | selfTypes top workers verbosity => exact m.remaining_withoutSelfTypes top
  | escape p workers verbosity =>
    exact (m.remaining_rewrite fun _ _ _ ↦ rfl).trans (Nat.one_mul _)
  | rename name f workers verbosity =>
    exact (m.remaining_rewrite fun _ _ _ ↦ rfl).trans (Nat.one_mul _)

theorem remaining_applyAll (stages : List Stage) (m : Module) :
    (applyAll stages m).remaining = if stages.any resolves then 0 else m.remaining := by
  induction stages generalizing m with
  | nil => rfl
  | cons s stages ih =>
    rw [applyAll_cons, ih, remaining_apply, List.any_cons]
    cases s.resolves with
    | true => exact ite_self 0
    | false => rfl

end Stage

/-! ### Trees that resolving leaves alone -/

theorem Module.withoutSelfTypes_eq_self_iff (top : Name) (m : Module) :
    m.withoutSelfTypes top = m ↔ m.remaining = 0 := by
  constructor
  · intro heq
    rw [← heq, Module.remaining_withoutSelfTypes]
  · intro hnone
    have hplaces : ∀ o ∈ m.places, ∀ nullable tags, o.node ≠ .type (.self nullable tags) := by
      intro o ho nullable tags hnode
      have hmem : o.node ∈ m.nodes :=
        Node.mem_nodes_of_mem_places ho (by rw [hnode]; exact nofun)
      exact List.countP_eq_zero.mp hnone o.node hmem (by rw [hnode]; rfl)
    -- Copied by a renaming that changes nothing, both trees can be compared place by place.
    have hcopy : (m.withoutSelfTypes top).renamed id = m.renamed id :=
      (m.rewrite_rewrite_eq_iff rfl rfl).mpr fun o ho nullable tags hnode ↦
        absurd hnode (hplaces o ho nullable tags)
    rwa [Module.renamed_id, Module.renamed_id] at hcopy

namespace SelfType

theorem outcome_pass_eq_self_iff (top : Name) (workers verbosity : Int) {m : Module}
    (hknown : m.IsKnown) :
    ((pass top workers verbosity).lower (some m)).outcome = .ok (some m) ↔ m.remaining = 0 := by
  have hlower : ((pass top workers verbosity).lower (some m)).outcome =
      .ok (some (m.withoutSelfTypes top)) :=
    (Stage.selfTypes top workers verbosity).outcome_pass hknown
  rw [hlower, Except.ok.injEq, Option.some_inj, Module.withoutSelfTypes_eq_self_iff]

/-- Every pipeline of stages succeeds on every known tree, and leaves no self type where one of the
stages resolves them and as many as there were where none does. Resolving gives a tree back as it
was exactly when no self type remains in it, so that resolving again changes nothing. -/
theorem remaining_after_stages (level : Int) (stages : List Stage) {m : Module}
    (hknown : m.IsKnown) :
    (∃ m', (Pipeline.lower level (stages.map Stage.pass) (some m)).outcome = .ok m' ∧
        m'.remaining = if stages.any Stage.resolves then 0 else m.remaining) ∧
      ∀ top workers verbosity,
        (((pass top workers verbosity).lower (some m)).outcome = .ok (some m) ↔
          m.remaining = 0) ∧
        ∃ m', ((pass top workers verbosity).lower (some m)).outcome = .ok (some m') ∧
          ∀ top' workers' verbosity',
            ((pass top' workers' verbosity').lower (some m')).outcome = .ok (some m') := by
  refine ⟨⟨_, Stage.outcome_lower level stages hknown, Stage.remaining_applyAll stages m⟩, ?_⟩
  intro top workers verbosity
  refine ⟨outcome_pass_eq_self_iff top workers verbosity hknown, m.withoutSelfTypes top,
    (Stage.selfTypes top workers verbosity).outcome_pass hknown, ?_⟩
  intro top' workers' verbosity'
  have hresolved : (m.withoutSelfTypes top).IsKnown :=
    (Stage.selfTypes top workers verbosity).isKnown_apply hknown
  exact (outcome_pass_eq_self_iff top' workers' verbosity' hresolved).mpr
    (m.remaining_withoutSelfTypes top)

/-- Two self types survive escaping but not resolving. -/
theorem remaining_boxTree :
    (boxTree (.self true ⟨[]⟩) (.self false ⟨[]⟩)).IsKnown ∧
      (∃ m', (Pipeline.lower 0 [Escape.pass .default false 1 0, Escape.pass .default false 1 0]
          (some (boxTree (.self true ⟨[]⟩) (.self false ⟨[]⟩)))).outcome = .ok m' ∧
        m'.remaining = 2) ∧
      (∃ m', (Pipeline.lower 0 [Escape.pass .default false 1 0, pass (.ident "Any") 1 0,
            Escape.pass .default false 1 0]
          (some (boxTree (.self true ⟨[]⟩) (.self false ⟨[]⟩)))).outcome = .ok m' ∧
        m'.remaining = 0) ∧
      ((pass (.ident "Any") 1 0).lower
        (some (boxTree (.self true ⟨[]⟩) (.self false ⟨[]⟩)))).outcome ≠
          .ok (some (boxTree (.self true ⟨[]⟩) (.self false ⟨[]⟩))) := by
  have hknown : (boxTree (.self true ⟨[]⟩) (.self false ⟨[]⟩)).IsKnown := by decide
  have hcount : (boxTree (.self true ⟨[]⟩) (.self false ⟨[]⟩)).remaining = 2 := by decide
  obtain ⟨hescaped, hresolving⟩ :=
    remaining_after_stages 0 [.escape .default 1 0, .escape .default 1 0] hknown
  obtain ⟨hresolved, -⟩ := remaining_after_stages 0
    [.escape .default 1 0, .selfTypes (.ident "Any") 1 0, .escape .default 1 0] hknown
  rw [hcount] at hescaped
  refine ⟨hknown, hescaped, hresolved, fun hsame ↦ ?_⟩
  rw [(hresolving (.ident "Any") 1 0).1, hcount] at hsame
  exact absurd hsame (by decide)

end SelfType

end DeclTree
