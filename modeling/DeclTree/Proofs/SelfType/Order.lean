import DeclTree.Proofs.Lowering.Composition
import DeclTree.Proofs.Lowering.Stages

/-!
# Resolving self types before or after escaping

Resolved first, a self type takes names that are escaped afterwards; resolved last, it takes names
that were escaped where they are declared. Both come to the same where the names stem from the
tree, `standIn_renamed`. The name of the type above all others does not: it is escaped in the one
order and not in the other. So the orders differ exactly where that name is needed and changed by
escaping, `SelfType.outcome_orders_eq_iff`.
-/

set_option autoImplicit false
set_option relaxedAutoImplicit false

namespace DeclTree

open SelfType (Scope)

/-- Whether self types have no name in a scope: there is none, or it is that of a generated
interface, or of a function without a receiver. -/
def SelfType.Nameless (scope : Option Scope) : Prop :=
  scope = none ∨ scope = some .generated ∨ ∃ uid, scope = some (.receiver none uid)

/-- Whether an owner chain leads to a self type for which the type above all others stands in. -/
def Owner.FallsBack (o : Owner) : Prop :=
  o.node.isSelfType = true ∧ SelfType.Nameless o.scope?

/-! ### What stands in for a self type -/

theorem nameless_rename (f : String → String) (scope : Option Scope) :
    SelfType.Nameless (scope.map (Scope.rename f)) ↔ SelfType.Nameless scope := by
  rcases scope with _ | (⟨name, typeParams, uid⟩ | _ | ⟨_ | receiver, uid⟩)
  all_goals simp [SelfType.Nameless, Scope.rename]

/-- Renaming what stands in for a self type is renaming the scope and the type above all others. -/
theorem standIn_renamed (f : String → String) (top : Name) (scope : Option Scope)
    (nullable : Bool) (tags : Provenance) :
    (standIn top scope nullable tags).renamed f =
      standIn (top.map f) (scope.map (Scope.rename f)) nullable tags := by
  have hargs : ∀ names : List Name,
      (names.map fun p ↦ Ty.named p [] none false ⟨[]⟩).map (Ty.renamed f) =
        (names.map (Name.map f)).map fun p ↦ Ty.named p [] none false ⟨[]⟩ := by
    intro names
    rw [List.map_map, List.map_map]
    exact List.map_congr_left fun p _ ↦ Ty.renamed_named ..
  rcases scope with _ | (⟨name, typeParams, uid⟩ | _ | ⟨_ | receiver, uid⟩)
  · exact Ty.renamed_named ..
  · exact (Ty.renamed_named ..).trans (congrArg (Ty.named _ · _ _ _) (hargs typeParams))
  · exact Ty.renamed_named ..
  · exact Ty.renamed_named ..
  · exact (Ty.renamed_named ..).trans (congrArg (Ty.named _ · _ _ _) (hargs receiver.typeParams))

/-- The type above all others matters exactly where self types have no name. -/
theorem standIn_eq_standIn_iff {top top' : Name} {scope : Option Scope} {nullable : Bool}
    {tags : Provenance} :
    standIn top scope nullable tags = standIn top' scope nullable tags ↔
      (SelfType.Nameless scope → top = top') := by
  rcases scope with _ | (⟨name, typeParams, uid⟩ | _ | ⟨_ | receiver, uid⟩)
  all_goals simp [SelfType.Nameless, standIn]

/-! ### The two orders -/

/-- The two orders agree on a tree exactly when, wherever a self type falls back, the type above all
others keeps its name. -/
theorem Module.order_eq_iff (f : String → String) (top : Name) (m : Module) :
    (m.withoutSelfTypes top).renamed f = (m.renamed f).withoutSelfTypes top ↔
      ∀ o ∈ m.places, o.FallsBack → top.map f = top := by
  have hlast : (m.renamed f).withoutSelfTypes top =
      m.rewrite ((Rewriting.renaming f).andThen (.selfTypes top)) none :=
    m.rewrite_rewrite ..
  rw [hlast, Module.renamed, Module.withoutSelfTypes, Module.rewrite_rewrite_eq_iff rfl rfl]
  refine forall₂_congr fun o _ ↦ ?_
  have hplace : ∀ nullable tags,
      ((Rewriting.selfTypes top).self o.scope? nullable tags).rewrite (.renaming f)
          (o.scope?.map (Scope.rename id)) =
        ((Rewriting.renaming f).andThen (.selfTypes top)).self o.scope? nullable tags ↔
      (SelfType.Nameless o.scope? → top.map f = top) := by
    intro nullable tags
    rw [Ty.rewrite_renaming, ← nameless_rename f, ← standIn_eq_standIn_iff, ← standIn_renamed]
    rfl
  rw [Owner.FallsBack, Node.isSelfType_iff]
  constructor
  · rintro h ⟨⟨nullable, tags, hnode⟩, hnameless⟩
    exact (hplace nullable tags).mp (h nullable tags hnode) hnameless
  · intro h nullable tags hnode
    exact (hplace nullable tags).mpr fun hnameless ↦ h ⟨⟨nullable, tags, hnode⟩, hnameless⟩

namespace SelfType

/-- On every known tree both orders of the passes succeed. They give the same tree exactly when the
name of the type above all others stays as it is when escaped, or no self type falls back to it. -/
theorem outcome_orders_eq_iff (p : Profile) (top : Name)
    (workers verbosity workers' verbosity' level : Int) {m : Module} (hknown : m.IsKnown) :
    ∃ resolvedFirst escapedFirst,
      (Pipeline.lower level [pass top workers verbosity, Escape.pass p false workers' verbosity']
        (some m)).outcome = .ok resolvedFirst ∧
      (Pipeline.lower level [Escape.pass p false workers' verbosity', pass top workers verbosity]
        (some m)).outcome = .ok escapedFirst ∧
      (resolvedFirst = escapedFirst ↔
        p.escapeName top = top ∨ ∀ o ∈ m.places, ¬o.FallsBack) := by
  refine ⟨_, _,
    Stage.outcome_lower level
      [.selfTypes top workers verbosity, .escape p workers' verbosity'] hknown,
    Stage.outcome_lower level
      [.escape p workers' verbosity', .selfTypes top workers verbosity] hknown, ?_⟩
  refine (m.order_eq_iff p.escape top).trans ?_
  constructor
  · intro h
    by_cases htop : p.escapeName top = top
    · exact .inl htop
    · exact .inr fun o ho hback ↦ htop (h o ho hback)
  · rintro (htop | hnone) o ho hback
    · exact htop
    · exact absurd hback (hnone o ho)

/-- The variable outside all scopes takes the name of the type above all others, so the orders
differ where that name is reserved. -/
theorem orders_boxTree :
    (boxTree (.self true ⟨[]⟩) (.self false ⟨[]⟩)).IsKnown ∧
      (∃ a, ∀ order ∈ [[pass (.ident "Any") 1 0, Escape.pass .default false 1 0],
          [Escape.pass .default false 1 0, pass (.ident "Any") 1 0]],
        (Pipeline.lower 0 order
          (some (boxTree (.self true ⟨[]⟩) (.self false ⟨[]⟩)))).outcome = .ok a) ∧
      ∃ a b, a ≠ b ∧
        (Pipeline.lower 0 [pass (.ident "object") 1 0, Escape.pass .default false 1 0]
          (some (boxTree (.self true ⟨[]⟩) (.self false ⟨[]⟩)))).outcome = .ok a ∧
        (Pipeline.lower 0 [Escape.pass .default false 1 0, pass (.ident "object") 1 0]
          (some (boxTree (.self true ⟨[]⟩) (.self false ⟨[]⟩)))).outcome = .ok b := by
  have hknown : (boxTree (.self true ⟨[]⟩) (.self false ⟨[]⟩)).IsKnown := by decide
  refine ⟨hknown, ?_, ?_⟩
  · obtain ⟨a, b, ha, hb, hiff⟩ := outcome_orders_eq_iff .default (.ident "Any") 1 0 1 0 0 hknown
    obtain rfl := hiff.mpr (.inl (by decide))
    exact ⟨a, by simp [ha, hb]⟩
  · obtain ⟨a, b, ha, hb, hiff⟩ := outcome_orders_eq_iff .default (.ident "object") 1 0 1 0 0 hknown
    refine ⟨a, b, fun heq ↦ ?_, ha, hb⟩
    rcases hiff.mp heq with htop | hnone
    · exact absurd htop (by decide)
    · obtain ⟨-, hmodule⟩ := Node.forall_mem_places.mp hnone
      obtain ⟨-, hsub⟩ := Node.forall_mem_places.mp (hmodule _ (.tail _ (.head _)))
      obtain ⟨-, hvar⟩ := Node.forall_mem_places.mp (hsub _ (.head _))
      obtain ⟨hself, -⟩ := Node.forall_mem_places.mp (hvar _ (.head _))
      exact hself ⟨rfl, .inl rfl⟩

end SelfType

end DeclTree
