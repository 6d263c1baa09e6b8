import DeclTree.Proofs.Escape.EveryName
import DeclTree.Proofs.Lowering.NodeByNode
import DeclTree.Proofs.Lowering.Pipelines
import DeclTree.Proofs.SelfType.Substitution

/-!
# Stages of a pipeline

A stage is a pass that does nothing but rewrite: it resolves self types, it escapes identifiers
without taking collisions for faults, or it renames identifiers by some function. `Stage.pass` is
the pass itself and `Stage.rewriting` the rewriting that it carries out.

Stages take known trees to known trees, so on a known tree a pipeline of stages does not fail, and
it gives the tree rewritten by one stage after the other, `Stage.outcome_lower`. A statement about
all pipelines is left with one about a single rewriting and an induction over the stages.
-/

set_option autoImplicit false
set_option relaxedAutoImplicit false

namespace DeclTree

open SelfType (Scope)

/-- A pass with what it needs to know. -/
inductive Stage where
  | selfTypes (top : Name) (workers verbosity : Int)
  | escape (p : Profile) (workers verbosity : Int)
  | rename (name : String) (f : String → String) (workers verbosity : Int)

/-- The rewriting that changes identifiers and leaves tokens and self types as they are. -/
def Rewriting.identifiers (f : String → String) : Rewriting where
  rename := f
  token := id
  self := fun _ nullable tags ↦ .self nullable tags

/-- A registry that only renames: it has no rules and no fallback. -/
structure Rules.Renames (r : Rules) (f : String → String) : Prop where
  noRule : ∀ kind, r.rule? kind = none
  noFallback : r.fallback = none
  rename : r.rename = f

/-- A registry that only renames goes on below every node. -/
theorem Rules.Renames.apply {r : Rules} {f : String → String} (h : r.Renames f) (kind : Kind)
    (o : Owner) (below : Unit → Run Node) : r.apply kind o below = below () := by
  rw [Rules.apply, h.noRule, h.noFallback]

theorem Rules.Renames.carriesOut {r : Rules} {f : String → String} (h : r.Renames f) :
    r.CarriesOut (.identifiers f) where
  rename := h.rename
  passes kind o below _ _ := congrArg Run.outcome (h.apply kind o below)
  enum o e below hbelow := by
    have htokens : e.tokens.map (Token.rewrite (.identifiers f)) = e.tokens := List.map_id _
    rw [h.apply, htokens]
    exact hbelow
  self _ _ _ _ hbelow := by
    rw [h.apply]
    exact hbelow

namespace Stage

/-- The pass of a stage. A renaming is the pass of a registry without rules. -/
def pass : Stage → Pass
  | .selfTypes top workers verbosity => SelfType.pass top workers verbosity
  | .escape p workers verbosity => Escape.pass p false workers verbosity
  | .rename name f workers verbosity =>
    ({ Rules.empty name with rename := f, workers, verbosity } : Rules).pass

def rewriting : Stage → Rewriting
  | .selfTypes top _ _ => .selfTypes top
  | .escape p _ _ => .renaming p.escape
  | .rename _ f _ _ => .identifiers f

/-- The tree that a stage makes of a tree. -/
def apply (s : Stage) (m : Module) : Module := m.rewrite s.rewriting none

/-- The tree that stages make of a tree, one after the other. -/
def applyAll (stages : List Stage) (m : Module) : Module := stages.foldl (fun t s ↦ s.apply t) m

@[simp] theorem applyAll_nil (m : Module) : applyAll [] m = m := rfl

@[simp] theorem applyAll_cons (s : Stage) (stages : List Stage) (m : Module) :
    applyAll (s :: stages) m = applyAll stages (s.apply m) := rfl

end Stage

/-! ### Known trees stay known -/

theorem Decl.rewrite_ne_missing {w : Rewriting} {scope : Option Scope} {d : Decl}
    (hd : d ≠ .missing) : d.rewrite w scope ≠ .missing := by
  cases d with
  | missing => exact absurd rfl hd
  | _ => exact nofun

theorem Node.isKnown_rewrite {w : Rewriting} {scope : Option Scope} {n : Node}
    (hn : n.isSelfType = false) (hknown : n.isKnown) : (n.rewrite w scope).isKnown := by
  cases n with
  | module m =>
    refine isKnown_of_ne_missing fun d hd ↦ ?_
    obtain ⟨head, declarations, submodules⟩ := m
    rw [Module.rewrite, Decl.rewriteAll_eq_map] at hd
    obtain ⟨original, horiginal, rfl⟩ := List.mem_map.mp hd
    exact Decl.rewrite_ne_missing (ne_missing_of_isKnown hknown horiginal)
  | type t =>
    cases t with
    | self nullable tags => cases hn
    | foreign label => cases hknown
    | _ => rfl
  | foreign label => cases hknown
  | missing => cases hknown
  | _ => rfl

/-- A rewriting that puts known types in the place of self types keeps trees known. -/
theorem Rewriting.establishes_isKnown {w : Rewriting}
    (hself : ∀ scope nullable tags, (w.self scope nullable tags).Every fun n ↦ n.isKnown) :
    w.Establishes (fun n ↦ n.isKnown) (fun n ↦ n.isKnown) fun _ ↦ True where
  node _ _ hn _ hknown := Node.isKnown_rewrite hn hknown
  inner _ _ _ _ := trivial
  self nullable tags scope _ _ := hself scope nullable tags

/-- A name alone as a type is a single node. -/
theorem Ty.every_bare {Q : Node → Prop} {name : Name} :
    (Ty.bare name).Every Q ↔ Q (.type (.bare name)) := by
  rw [Ty.bare, Ty.every_named]
  simp

/-- A condition on every node of what stands in for a self type. -/
theorem standIn_every {Q : Node → Prop} {top : Name} {scope : Option Scope} {nullable : Bool}
    {tags : Provenance}
    (hnamed : ∀ name args uid, name = top ∨ name ∈ SelfType.namesOf scope →
      Q (.type (.named name args (Uid.reference? uid) nullable (tags.add Provenance.selfType))))
    (hbare : ∀ name, name = top ∨ name ∈ SelfType.namesOf scope → Q (.type (.bare name))) :
    (standIn top scope nullable tags).Every Q := by
  obtain ⟨name, args, uid, heq, hnames⟩ := standIn_eq_named top scope nullable tags
  obtain ⟨hname, hargs⟩ := List.forall_mem_cons.mp hnames
  rw [heq, Ty.every_named]
  refine ⟨hnamed name _ uid hname, fun t ht ↦ ?_⟩
  obtain ⟨arg, harg, rfl⟩ := List.mem_map.mp ht
  exact Ty.every_bare.mpr (hbare arg (hargs arg harg))

namespace Stage

theorem isKnown_apply (s : Stage) {m : Module} (hm : m.IsKnown) : (s.apply m).IsKnown := by
  refine (Rewriting.establishes_isKnown fun scope nullable tags ↦ ?_).every trivial hm
  cases s with
  | selfTypes top workers verbosity =>
    exact standIn_every (fun _ _ _ _ ↦ rfl) fun _ _ ↦ rfl
  | escape p workers verbosity => exact Ty.every_self.mpr rfl
  | rename name f workers verbosity => exact Ty.every_self.mpr rfl

/-! ### What a pipeline of stages does -/

theorem carriesOut_identifiers (name : String) (f : String → String) (workers verbosity : Int) :
    ({ Rules.empty name with rename := f, workers, verbosity } : Rules).CarriesOut
      (.identifiers f) :=
  Rules.Renames.carriesOut ⟨fun _ ↦ rfl, rfl, rfl⟩

/-- On a known tree the pass of a stage gives the rewritten tree. -/
theorem outcome_pass (s : Stage) {m : Module} (hm : m.IsKnown) :
    (s.pass.lower (some m)).outcome = .ok (some (s.apply m)) := by
  cases s with
  | selfTypes top workers verbosity =>
    exact Run.outcome_map_of_ok
      ((SelfType.carriesOut top workers verbosity _).outcome_lower hm) some
  | escape p workers verbosity => exact Escape.outcome_pass p false workers verbosity hm rfl
  | rename name f workers verbosity =>
    exact Run.outcome_map_of_ok
      ((carriesOut_identifiers name f workers verbosity).outcome_lower hm) some

/-- Each stage takes what the one before it gave. -/
theorem takes_applyAll (stages : List Stage) {m : Module} (hm : m.IsKnown) :
    Pipeline.Takes (stages.map pass) m (applyAll stages m) := by
  induction stages generalizing m with
  | nil => exact .nil m
  | cons s stages ih => exact .cons (s.outcome_pass hm) (ih (s.isKnown_apply hm))

/-- On a known tree a pipeline of stages succeeds with the tree that the stages make of it. -/
theorem outcome_lower (verbosity : Int) (stages : List Stage) {m : Module} (hm : m.IsKnown) :
    (Pipeline.lower verbosity (stages.map pass) (some m)).outcome = .ok (applyAll stages m) :=
  Pipeline.outcome_lower_eq_ok_iff.mpr ⟨m, rfl, takes_applyAll stages hm⟩

end Stage

end DeclTree
