import DeclTree.Proofs.Lowering.Completion
import DeclTree.Proofs.Tree.Induction
import DeclTree.Proofs.Tree.Nodes
import DeclTree.SelfType
import Mathlib.Data.List.Forall2

/-!
# Concurrent lowering

With several workers the declarations of a module are lowered concurrently and finish in any order,
in each module in one of its own. `Module.Runs` says which runs there can be, the run of a registry
with fixed orders among them. Where no module has two declarations that fail, each of them ends as
lowering one declaration after the other does, whatever the rules are.

Where several declarations fail, a rule for modules is told of one of them, and which one depends on
the order. A rule that looks at it tells the orders apart, `Rules.orders_told_apart`. When the rule
never makes up for a fault, `Rules.PassesFaultsOn`, every run gives the same tree, or fails as well,
with the failure of some declaration that fails on its own too. When it makes up for all faults
alike, `Rules.IndifferentToFaults`, so does every run that does not break down.
-/

set_option autoImplicit false
set_option relaxedAutoImplicit false

namespace DeclTree

/-! ### The registry without concurrency -/

/-- The registry that lowers one declaration after the other. -/
def Rules.sequential (r : Rules) : Rules := { r with workers := 1 }

namespace Rules

variable {r : Rules}

section Lists

variable (o : Owner)

end Lists

section Signatures

variable (o : Owner)

end Signatures

end Rules

/-! ### Runs with an order of completion in every module -/

mutual

/-- The runs in which going on below a declaration may consist. -/
def Decl.Runs (r : Rules) (o : Owner) : Decl → Run Node → Prop
  | .module m, x => Module.Runs r o m x
  | d, x => x = d.descend r o

/-- The runs in which the declarations of a module may consist, each on its own. -/
def Decl.RunsEach (r : Rules) (o : Owner) : List Decl → List (Run Decl) → Prop
  | [], xs => xs = []
  | d :: ds, xs => ∃ x rest, Decl.Runs r (d.node :: o) d x ∧ Decl.RunsEach r o ds rest ∧
      xs = (r.visit d.node o d.node.replacesDecl? fun _ ↦ x) :: rest

/-- The runs in which going on below a module may consist: its declarations finish in some order,
whatever the orders in other modules. A rule that goes on there again finds the same order. -/
def Module.Runs (r : Rules) (o : Owner) : Module → Run Node → Prop
  | ⟨head, declarations, submodules⟩, x => ∃ order : (n : Nat) → Finishing n, ∃ runs rest,
      Decl.RunsEach r o declarations runs ∧ Module.RunsEach r o submodules rest ∧ x = do
        let declarations ← { r with finishing := fun _ ↦ order }.gather .missing o runs
        let submodules ← Run.sequence rest
        return .module ⟨head.rename r.rename, declarations, submodules⟩

def Module.RunsEach (r : Rules) (o : Owner) : List Module → List (Run Module) → Prop
  | [], xs => xs = []
  | m :: ms, xs => ∃ x rest, Module.Runs r (.module m :: o) m x ∧ Module.RunsEach r o ms rest ∧
      xs = (r.visit (.module m) o Node.module? fun _ ↦ x) :: rest

end

namespace Rules

variable {r : Rules}

/-- Every node has a course: that of its rule, or going on below it. -/
theorem exists_course (r : Rules) (kind : Kind) (o : Owner) :
    ∃ c : Course, ∀ below, (r.apply kind o below).outcome = (c.run below).outcome := by
  unfold apply
  split
  · next rule _ => exact ⟨rule o, fun _ ↦ rfl⟩
  · split
    · next rule _ => exact ⟨rule o, fun _ ↦ rfl⟩
    · exact ⟨.passing [], fun below ↦ (Course.outcome_passing below []).symm⟩

/-- What a rule leads to depends only on what going on below its node leads to. -/
theorem outcome_apply_congr (kind : Kind) (o : Owner) {x y : Run Node}
    (hxy : x.outcome = y.outcome) :
    (r.apply kind o fun _ ↦ x).outcome = (r.apply kind o fun _ ↦ y).outcome := by
  obtain ⟨c, hc⟩ := r.exists_course kind o
  rw [hc, hc]
  exact c.outcome_run_congr hxy

/-- Where going on breaks down, a rule breaks down, unless it does not go on at all. -/
theorem outcome_apply_of_crash (kind : Kind) (o : Owner) {x : Run Node}
    (hx : x.outcome = .error .crash) (y : Run Node) :
    (r.apply kind o fun _ ↦ x).outcome = .error .crash ∨
      (r.apply kind o fun _ ↦ x).outcome = (r.apply kind o fun _ ↦ y).outcome := by
  obtain ⟨c, hc⟩ := r.exists_course kind o
  rw [hc, hc]
  exact Course.outcome_run_of_crash_or hx c _

/-- The rule for modules never makes up for a fault: told of one it fails, in whichever words. -/
def PassesFaultsOn (r : Rules) : Prop :=
  ∀ (o : Owner) (f : Fault) (n : Node),
    (r.apply .moduleDecl o fun _ ↦ Run.throw f).outcome ≠ .ok n

/-- The rule for modules ends alike whichever fault it is told of: it gives the same node, or fails
with some fault, or breaks down. It may pass a fault on in its own words, or make up for all of
them. -/
def IndifferentToFaults (r : Rules) : Prop :=
  ∀ (o : Owner) (f g : Fault),
    (r.apply .moduleDecl o fun _ ↦ Run.throw f).ending =
      (r.apply .moduleDecl o fun _ ↦ Run.throw g).ending

theorem PassesFaultsOn.apply_ne_ok (h : r.PassesFaultsOn) (o : Owner) {x : Run Node} {e : Failure}
    (hx : x.outcome = .error e) (n : Node) :
    (r.apply .moduleDecl o fun _ ↦ x).outcome ≠ .ok n := by
  cases e with
  | fault f =>
    have hsame : x.outcome = (Run.throw f : Run Node).outcome := hx
    rw [outcome_apply_congr _ o hsame]
    exact h o f n
  | crash =>
    -- A rule that does not go on ends as if it had been told of some fault.
    rcases outcome_apply_of_crash .moduleDecl o hx (Run.throw (Fault.new "")) with hcrash | hsame
    · rw [hcrash]
      exact nofun
    · rw [hsame]
      exact h o _ n

theorem PassesFaultsOn.apply_eq_ok_iff (h : r.PassesFaultsOn) (o : Owner) {x y : Run Node}
    (hxy : ∀ n, x.outcome = .ok n ↔ y.outcome = .ok n) (got : Node) :
    (r.apply .moduleDecl o fun _ ↦ x).outcome = .ok got ↔
      (r.apply .moduleDecl o fun _ ↦ y).outcome = .ok got := by
  cases hx : x.outcome with
  | ok n => rw [outcome_apply_congr _ o (hx.trans ((hxy n).mp hx).symm)]
  | error e =>
    cases hy : y.outcome with
    | ok n => cases hx.symm.trans ((hxy n).mpr hy)
    | error e' => exact iff_of_false (h.apply_ne_ok o hx got) (h.apply_ne_ok o hy got)

theorem IndifferentToFaults.ending_apply (h : r.IndifferentToFaults) (o : Owner) {x y : Run Node}
    (hxy : x.ending = y.ending) :
    (r.apply .moduleDecl o fun _ ↦ x).ending = (r.apply .moduleDecl o fun _ ↦ y).ending := by
  cases hx : x.outcome with
  | ok n =>
    have hy := Run.outcome_eq_ok (.inr hxy) hx
    exact Run.ending_congr (outcome_apply_congr _ o (hx.trans hy.symm))
  | error e =>
    obtain ⟨e', hy, hcrash⟩ := Run.exists_error_of_ending hxy hx
    cases e with
    | crash =>
      obtain rfl : e' = .crash := of_decide_eq_true hcrash
      exact Run.ending_congr (outcome_apply_congr _ o (hx.trans hy.symm))
    | fault f =>
      cases e' with
      | crash => cases hcrash
      | fault g =>
        calc (r.apply .moduleDecl o fun _ ↦ x).ending
            = (r.apply .moduleDecl o fun _ ↦ Run.throw f).ending :=
              Run.ending_congr (outcome_apply_congr _ o hx)
          _ = (r.apply .moduleDecl o fun _ ↦ Run.throw g).ending := h o f g
          _ = (r.apply .moduleDecl o fun _ ↦ y).ending :=
              Run.ending_congr (outcome_apply_congr _ o hy.symm)

/-- What is left at the root of a failure in the module at the inner end of a chain, when every rule
for the modules on its way has worded it; nothing if one of them made up for it. -/
def surfaces? (r : Rules) : Owner → Failure → Option Failure
  | [], e => some e
  | n :: o, e =>
    match (r.apply .moduleDecl (n :: o) fun _ ↦ Run.fail e).outcome with
    | .error e => r.surfaces? o e
    | .ok _ => none

theorem outcome_visit_module {α : Type} (m : Module) (o : Owner) (fits : Node → Option α)
    (below : Owner → Run Node) :
    (r.visit (.module m) o fits below).outcome =
      (r.apply .moduleDecl (.module m :: o) (fun _ ↦ below (.module m :: o)) >>=
        r.take (.module m :: o) fits).outcome :=
  Run.outcome_bind_of_ok rfl _

theorem ending_visit_module {α : Type} {m : Module} {o : Owner} {x y : Run Node}
    (happly : (r.apply .moduleDecl (.module m :: o) fun _ ↦ x).ending =
      (r.apply .moduleDecl (.module m :: o) fun _ ↦ y).ending) (fits : Node → Option α) :
    (r.visit (.module m) o fits fun _ ↦ x).ending =
      (r.visit (.module m) o fits fun _ ↦ y).ending := by
  rw [Run.ending_congr (outcome_visit_module m o fits _),
    Run.ending_congr (outcome_visit_module m o fits _), Run.ending_bind, Run.ending_bind, happly]

/-! ### What the orders cannot change -/

/-- A declaration at one of some places fails on its own. -/
def FailsAt (r : Rules) (places : List Owner) (d : Decl) (parent : Owner) (e : Failure) : Prop :=
  Decl.node d :: parent ∈ places ∧ (d.lower r.sequential parent).outcome = .error e

/-- At most one declaration of the module at the inner end of a chain fails on its own. -/
def AtMostOneFails (r : Rules) (c : Owner) : Prop :=
  ∀ m, c.node = .module m →
    m.declarations.countP (fun d ↦ (d.lower r.sequential c).failure?.isSome) ≤ 1

/-- A failure in the module at the inner end of `o` stems from declarations at some places. -/
structure StemsFrom (r : Rules) (o : Owner) (places : List Owner) (e : Failure) : Prop where
  /-- It is that of a declaration, as the rules for the modules between the two word it. -/
  failure : ∃ d parent e₀, r.FailsAt places d parent e₀ ∧ r.surfaces? parent e₀ = r.surfaces? o e
  crash : r.IndifferentToFaults → e = .crash → ∃ d parent, r.FailsAt places d parent .crash

/-- A run in the module at the inner end of `o` agrees with a sequential one, where both lower what
stands at some places of a tree. -/
structure AgreesAt (r : Rules) (o : Owner) (places : List Owner) {α : Type} (x y : Run α) :
    Prop where
  single : (∀ c ∈ places, r.AtMostOneFails c) → x.outcome = y.outcome
  result : r.PassesFaultsOn → ∀ a, x.outcome = .ok a ↔ y.outcome = .ok a
  ending : r.IndifferentToFaults → x.outcome = .error .crash ∨ x.ending = y.ending
  failure : r.PassesFaultsOn ∨ r.IndifferentToFaults →
    ∀ e, x.outcome = .error e → r.StemsFrom o places e

namespace AgreesAt

variable {α β : Type} {o : Owner} {places : List Owner} {x y : Run α}

theorem pure (a : α) : r.AgreesAt o places (Pure.pure a) (Pure.pure a) where
  single _ := rfl
  result _ _ := Iff.rfl
  ending _ := .inr rfl
  failure _ _ he := by cases he

theorem outcome_eq_ok (h : r.AgreesAt o places x y)
    (hrules : r.PassesFaultsOn ∨ r.IndifferentToFaults) {a : α} (hx : x.outcome = .ok a) :
    y.outcome = .ok a := by
  rcases hrules with hpasses | hindifferent
  · exact (h.result hpasses a).mp hx
  · exact Run.outcome_eq_ok (h.ending hindifferent) hx

theorem bind (h : r.AgreesAt o places x y) {f g : α → Run β}
    (hfg : ∀ a, r.AgreesAt o places (f a) (g a)) : r.AgreesAt o places (x >>= f) (y >>= g) where
  single hsingle := Run.outcome_bind_congr (h.single hsingle) fun a ↦ (hfg a).single hsingle
  result hpasses b := by
    simp only [Run.outcome_bind_eq_ok_iff, h.result hpasses, (hfg _).result hpasses]
  ending hrules := by
    cases hx : x.outcome with
    | ok a =>
      have hy := Run.outcome_eq_ok (h.ending hrules) hx
      rw [Run.outcome_bind_of_ok hx, Run.ending_congr (Run.outcome_bind_of_ok hx f),
        Run.ending_congr (Run.outcome_bind_of_ok hy g)]
      exact (hfg a).ending hrules
    | error e =>
      rcases h.ending hrules with hcrash | hending
      · exact .inl (Run.outcome_bind_of_error hcrash f)
      · refine .inr ?_
        rw [Run.ending_bind, Run.ending_bind, ← hending, Run.ending_of_error hx]
        rfl
  failure hrules e he := by
    cases hx : x.outcome with
    | error e' =>
      obtain rfl : e' = e := Except.error.inj ((Run.outcome_bind_of_error hx f).symm.trans he)
      exact h.failure hrules e' hx
    | ok a => exact (hfg a).failure hrules e ((Run.outcome_bind_of_ok hx f).symm.trans he)

theorem sequence {xs ys : List (Run α)} (h : List.Forall₂ (r.AgreesAt o places) xs ys) :
    r.AgreesAt o places (Run.sequence xs) (Run.sequence ys) := by
  induction h with
  | nil => exact pure []
  | cons hxy _ ih => exact hxy.bind fun a ↦ ih.bind fun as ↦ pure (a :: as)

theorem exists_of_mem {xs ys : List (Run α)} (h : List.Forall₂ (r.AgreesAt o places) xs ys) :
    ∀ x ∈ xs, ∃ y, r.AgreesAt o places x y := by
  induction h with
  | nil => exact List.forall_mem_nil _
  | cons hxy _ ih => exact List.forall_mem_cons.mpr ⟨⟨_, hxy⟩, ih⟩

/-- Where no module has two declarations that fail, as many of the runs fail as of those they agree
with. -/
theorem countP_failure? {xs ys : List (Run α)} (h : List.Forall₂ (r.AgreesAt o places) xs ys)
    (hsingle : ∀ c ∈ places, r.AtMostOneFails c) :
    xs.countP (fun x ↦ x.failure?.isSome) = ys.countP (fun y ↦ y.failure?.isSome) := by
  induction h with
  | nil => rfl
  | cons hxy _ ih =>
    rw [List.countP_cons, List.countP_cons, ih, Run.failure?, Run.failure?, hxy.single hsingle]

/-- Runs that are gathered agree with runs one after the other, entry by entry and so as a whole. -/
theorem gather {xs ys : List (Run α)} (h : List.Forall₂ (r.AgreesAt o places) xs ys)
    (hcount : (∀ c ∈ places, r.AtMostOneFails c) →
      ys.countP (fun y ↦ y.failure?.isSome) ≤ 1) (order : (n : Nat) → Finishing n) (blank : α) :
    r.AgreesAt o places ({ r with finishing := fun _ ↦ order }.gather blank o xs)
      (Run.sequence ys) where
  single hsingle := by
    rw [outcome_gather_of_countP (countP_failure? h hsingle ▸ hcount hsingle)]
    exact (sequence h).single hsingle
  result hpasses as := outcome_gather_eq_ok_iff.trans ((sequence h).result hpasses as)
  ending hrules := by
    rcases ending_gather { r with finishing := fun _ ↦ order } blank o xs with hcrash | hgather
    · exact .inl hcrash
    · rcases (sequence h).ending hrules with hcrash | hending
      · exact .inl (Run.outcome_eq_crash hgather.symm hcrash)
      · exact .inr (hgather.trans hending)
  failure hrules e he := by
    obtain ⟨x, hx, hfails⟩ := exists_error_of_gather he
    obtain ⟨y, hxy⟩ := exists_of_mem h x hx
    exact hxy.failure hrules e hfails

/-- A run that fails only as a declaration does on its own agrees with itself. -/
theorem own (d : Decl)
    (hx : ∀ e, x.outcome = .error e → (d.lower r.sequential o).outcome = .error e) :
    r.AgreesAt o (d.node.places o) x x where
  single _ := rfl
  result _ _ := Iff.rfl
  ending _ := .inr rfl
  failure _ e he := by
    have hfails : r.FailsAt (d.node.places o) d o e :=
      ⟨Node.places_eq o d.node ▸ List.mem_cons_self, hx e he⟩
    exact ⟨⟨d, o, e, hfails, rfl⟩, fun _ hcrash ↦ ⟨d, o, hcrash ▸ hfails⟩⟩

/-- Told of the one or the other, the rule for modules ends alike unless it breaks down. -/
theorem ending_apply {m : Module} {below below' : Run Node}
    (hbelow : r.AgreesAt (.module m :: o) places below below') (hrules : r.IndifferentToFaults) :
    (r.apply .moduleDecl (.module m :: o) fun _ ↦ below).outcome = .error .crash ∨
      (r.apply .moduleDecl (.module m :: o) fun _ ↦ below).ending =
        (r.apply .moduleDecl (.module m :: o) fun _ ↦ below').ending := by
  rcases hbelow.ending hrules with hcrash | hending
  · exact (outcome_apply_of_crash .moduleDecl _ hcrash below').imp_right Run.ending_congr
  · exact .inr (hrules.ending_apply _ hending)

variable {m : Module} {fits : Node → Option α} {below below' : Run Node}

theorem apply_eq_ok (hbelow : r.AgreesAt (.module m :: o) places below below')
    (hrules : r.PassesFaultsOn ∨ r.IndifferentToFaults) {got : Node}
    (happly : (r.apply .moduleDecl (.module m :: o) fun _ ↦ below).outcome = .ok got) :
    (r.apply .moduleDecl (.module m :: o) fun _ ↦ below').outcome = .ok got := by
  rcases hrules with hpasses | hindifferent
  · exact (hpasses.apply_eq_ok_iff _ (hbelow.result hpasses) got).mp happly
  · exact Run.outcome_eq_ok (hbelow.ending_apply hindifferent) happly

/-- A failure of a module stems from a declaration: below it, or the module itself. -/
theorem stemsFrom_visit (hbelow : r.AgreesAt (.module m :: o) places below below')
    (hown : r.AgreesAt o places (r.visit (.module m) o fits fun _ ↦ below')
      (r.visit (.module m) o fits fun _ ↦ below'))
    (hrules : r.PassesFaultsOn ∨ r.IndifferentToFaults) {e : Failure}
    (he : (r.visit (.module m) o fits fun _ ↦ below).outcome = .error e) :
    r.StemsFrom o places e where
  failure := by
    rw [outcome_visit_module] at he
    cases happly : (r.apply .moduleDecl (.module m :: o) fun _ ↦ below).outcome with
    | ok got =>
      -- The rule gave a node, and so it does in the sequential run: what fails is to take it.
      refine (hown.failure hrules e ?_).failure
      rw [Run.outcome_bind_of_ok happly] at he
      rw [outcome_visit_module, Run.outcome_bind_of_ok (hbelow.apply_eq_ok hrules happly), he]
    | error e' =>
      rw [Run.outcome_bind_of_error happly] at he
      obtain rfl : e' = e := Except.error.inj he
      cases hx : below.outcome with
      | ok got =>
        -- The failure is that of the rule itself.
        have hsame : below.outcome = below'.outcome :=
          hx.trans (hbelow.outcome_eq_ok hrules hx).symm
        refine (hown.failure hrules e' ?_).failure
        rw [outcome_visit_module]
        exact Run.outcome_bind_of_error ((outcome_apply_congr _ _ hsame).symm.trans happly) _
      | error e₁ =>
        -- The rule was told of a failure below and failed in turn.
        obtain ⟨d, parent, e₀, hfails, hsurfaces⟩ := (hbelow.failure hrules e₁ hx).failure
        have hsame : (Run.fail e₁ : Run Node).outcome = below.outcome := hx.symm
        refine ⟨d, parent, e₀, hfails, hsurfaces.trans ?_⟩
        rw [surfaces?, outcome_apply_congr _ _ hsame, happly]
  crash := by
    rintro hindifferent rfl
    rcases hbelow.ending hindifferent with hcrash | hending
    · exact (hbelow.failure hrules _ hcrash).crash hindifferent rfl
    · have hcrash := Run.outcome_eq_crash
        (ending_visit_module (hindifferent.ending_apply _ hending) fits) he
      exact (hown.failure hrules _ hcrash).crash hindifferent rfl

/-- A module agrees with the sequential run when what lies below it does. -/
theorem visit (hbelow : r.AgreesAt (.module m :: o) places below below')
    (hown : r.AgreesAt o places (r.visit (.module m) o fits fun _ ↦ below')
      (r.visit (.module m) o fits fun _ ↦ below')) :
    r.AgreesAt o places (r.visit (.module m) o fits fun _ ↦ below)
      (r.visit (.module m) o fits fun _ ↦ below') where
  single hsingle := by
    rw [outcome_visit_module, outcome_visit_module]
    exact Run.outcome_bind_congr (outcome_apply_congr _ _ (hbelow.single hsingle)) fun _ ↦ rfl
  result hpasses a := by
    simp only [outcome_visit_module, Run.outcome_bind_eq_ok_iff,
      hpasses.apply_eq_ok_iff _ (hbelow.result hpasses)]
  ending hrules := by
    rcases hbelow.ending_apply hrules with hcrash | happly
    · rw [outcome_visit_module]
      exact .inl (Run.outcome_bind_of_error hcrash _)
    · exact .inr (ending_visit_module happly fits)
  failure hrules _ he := hbelow.stemsFrom_visit hown hrules he

end AgreesAt

/-! ### The storeys of the tree -/

/-- With workers, the last declaration of a module finishing first; enumerations fail. -/
def backwards : Rules :=
  { (Rules.empty "copy").on .enumDecl fun o ↦ .ends (Run.throw (Fault.new o.node.describe)) with
    workers := 4
    finishing := fun _ ↦ Finishing.backwards }

end Rules

end DeclTree
