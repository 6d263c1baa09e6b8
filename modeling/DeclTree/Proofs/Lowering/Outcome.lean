import DeclTree.Lowering.Traversal

/-!
# Outcomes of runs

What becomes of the outcome of a run when runs are put together one after the other, and the
traversal in those terms: lowering a list is the sequence of lowering its entries.
-/

set_option autoImplicit false
set_option relaxedAutoImplicit false

namespace DeclTree

/-! ### Runs put together -/

namespace Run

variable {α β γ : Type}

theorem outcome_bind_of_ok {x : Run α} {a : α} (hx : x.outcome = .ok a) (f : α → Run β) :
    (x >>= f).outcome = (f a).outcome := by
  change (Run.bind x f).outcome = (f a).outcome
  rw [Run.bind, hx]

theorem outcome_bind_of_error {x : Run α} {e : Failure} (hx : x.outcome = .error e)
    (f : α → Run β) : (x >>= f).outcome = .error e := by
  change (Run.bind x f).outcome = .error e
  rw [Run.bind, hx]

theorem outcome_bind_eq_ok_iff {x : Run α} {f : α → Run β} {b : β} :
    (x >>= f).outcome = .ok b ↔ ∃ a, x.outcome = .ok a ∧ (f a).outcome = .ok b := by
  cases hx : x.outcome with
  | error e =>
    rw [outcome_bind_of_error hx]
    exact iff_of_false nofun nofun
  | ok a =>
    rw [outcome_bind_of_ok hx]
    simp

theorem outcome_bind_eq_error_iff {x : Run α} {f : α → Run β} {e : Failure} :
    (x >>= f).outcome = .error e ↔
      x.outcome = .error e ∨ ∃ a, x.outcome = .ok a ∧ (f a).outcome = .error e := by
  cases hx : x.outcome with
  | error e' =>
    rw [outcome_bind_of_error hx]
    simp
  | ok a =>
    rw [outcome_bind_of_ok hx]
    simp

theorem outcome_map_of_ok {x : Run α} {a : α} (hx : x.outcome = .ok a) (f : α → β) :
    (f <$> x).outcome = .ok (f a) :=
  outcome_bind_of_ok hx fun a ↦ Pure.pure (f a)

/-- Forgetting events does not change an outcome. -/
@[simp] theorem outcome_traced (verbosity : Int) (x : Run α) :
    (x.traced verbosity).outcome = x.outcome := by
  unfold Run.traced
  split
  · rfl
  · rfl

theorem outcome_sequence_map {f : γ → Run α} {g : γ → α} {cs : List γ}
    (hf : ∀ c ∈ cs, (f c).outcome = .ok (g c)) :
    (sequence (cs.map f)).outcome = .ok (cs.map g) := by
  induction cs with
  | nil => rfl
  | cons c cs ih =>
    obtain ⟨hc, hcs⟩ := List.forall_mem_cons.mp hf
    calc (sequence ((c :: cs).map f)).outcome
        = ((sequence (cs.map f)) >>= fun as ↦ Pure.pure (g c :: as)).outcome :=
          outcome_bind_of_ok hc _
      _ = .ok ((c :: cs).map g) := outcome_bind_of_ok (ih hcs) _

/-- A condition on runs, and on what they are runs over, passes from runs to their sequence when it
holds of a run that only gives a value and passes through binds. -/
theorem sequence_map_of_parts {ι : Type} {P : {α : Type} → Run α → List ι → Prop}
    (hpure : ∀ {α : Type} (a : α), P (Pure.pure a : Run α) [])
    (hbind : ∀ {α β : Type} {x : Run α} {f : α → Run β} {is js : List ι}, P x is →
      (∀ a, P (f a) js) → P (x >>= f) (is ++ js))
    {f : γ → Run α} {g : γ → ι} {cs : List γ} (hf : ∀ c ∈ cs, P (f c) [g c]) :
    P (sequence (cs.map f)) (cs.map g) := by
  induction cs with
  | nil => exact hpure []
  | cons c cs ih =>
    obtain ⟨hc, hcs⟩ := List.forall_mem_cons.mp hf
    refine hbind hc fun a ↦ ?_
    have hrest := hbind (ih hcs) fun as ↦ hpure (a :: as)
    rwa [List.append_nil] at hrest

end Run

/-! ### Courses of rules -/

namespace Course

variable {below below' : Unit → Run Node} {before : List Event} {next : Except Fault Node → Course}

theorem run_goesOn (below : Unit → Run Node) (before : List Event)
    (next : Except Fault Node → Course) :
    (goesOn before next).run below =
      (⟨before, .ok ()⟩ : Run Unit) >>= fun _ ↦ (below ()).attempt >>= fun got ↦
        (next got).run below := rfl

/-- A course that goes on below its node learns of the node that this gives. -/
theorem outcome_run_of_ok {n : Node} (hbelow : (below ()).outcome = .ok n) :
    ((goesOn before next).run below).outcome = ((next (.ok n)).run below).outcome := by
  rw [run_goesOn, Run.outcome_bind_of_ok rfl]
  exact Run.outcome_bind_of_ok (by rw [Run.attempt, hbelow]) _

theorem outcome_run_of_fault {f : Fault} (hbelow : (below ()).outcome = .error (.fault f)) :
    ((goesOn before next).run below).outcome = ((next (.error f)).run below).outcome := by
  rw [run_goesOn, Run.outcome_bind_of_ok rfl]
  exact Run.outcome_bind_of_ok (by rw [Run.attempt, hbelow]) _

/-- When all breaks down below its node, the course breaks down. -/
theorem outcome_run_of_crash (hbelow : (below ()).outcome = .error .crash) :
    ((goesOn before next).run below).outcome = .error .crash := by
  rw [run_goesOn, Run.outcome_bind_of_ok rfl]
  exact Run.outcome_bind_of_error (by rw [Run.attempt, hbelow]) _

/-- Going on below the node and nothing else leads to what lies there. -/
theorem outcome_passing (below : Unit → Run Node) (before : List Event) :
    ((passing before).run below).outcome = (below ()).outcome := by
  cases hbelow : (below ()).outcome with
  | ok n => exact outcome_run_of_ok hbelow
  | error e =>
    cases e with
    | fault f => exact outcome_run_of_fault hbelow
    | crash => exact outcome_run_of_crash hbelow

/-- When all breaks down below its node, a course breaks down, unless it does not go on at all. -/
theorem outcome_run_of_crash_or (hbelow : (below ()).outcome = .error .crash) (c : Course)
    (below' : Unit → Run Node) :
    (c.run below).outcome = .error .crash ∨ (c.run below).outcome = (c.run below').outcome := by
  cases c with
  | ends x => exact .inr rfl
  | goesOn before next => exact .inl (outcome_run_of_crash hbelow)

/-- What a course leads to depends only on what going on below the node leads to. -/
theorem outcome_run_congr (c : Course) (h : (below ()).outcome = (below' ()).outcome) :
    (c.run below).outcome = (c.run below').outcome := by
  induction c with
  | ends x => rfl
  | goesOn before next ih =>
    cases hbelow : (below ()).outcome with
    | ok n => rw [outcome_run_of_ok hbelow, outcome_run_of_ok (h ▸ hbelow), ih]
    | error e =>
      cases e with
      | fault f => rw [outcome_run_of_fault hbelow, outcome_run_of_fault (h ▸ hbelow), ih]
      | crash => rw [outcome_run_of_crash hbelow, outcome_run_of_crash (h ▸ hbelow)]

end Course

/-! ### The traversal as a sequence -/

/-- Lowers a type enclosed by `o`. -/
def Ty.lower (r : Rules) (o : Owner) (t : Ty) : Run Ty :=
  r.visit (.type t) o Node.type? fun o ↦ t.descend r o

def Param.lower (r : Rules) (o : Owner) (p : Param) : Run Param :=
  r.visit (.param p) o Node.param? fun o ↦ p.descend r o

def TypeParam.lower (r : Rules) (o : Owner) (p : TypeParam) : Run TypeParam :=
  r.visit (.typeParam p) o Node.typeParam? fun o ↦ p.descend r o

def Heritage.lower (r : Rules) (o : Owner) (h : Heritage) : Run Heritage :=
  r.visit (.heritage h) o Node.heritage? fun o ↦ h.descend r o

def Member.lower (r : Rules) (o : Owner) (m : Member) : Run Member :=
  r.visit m.node o m.node.replacesMember? fun o ↦ m.descend r o

def Decl.lower (r : Rules) (o : Owner) (d : Decl) : Run Decl :=
  r.visit d.node o d.node.replacesDecl? fun o ↦ d.descend r o

def Module.lower (r : Rules) (o : Owner) (m : Module) : Run Module :=
  r.visit (.module m) o Node.module? fun o ↦ m.descend r o

variable {r : Rules} {o : Owner}

theorem Ty.lowerAll_eq_sequence (ts : List Ty) :
    Ty.lowerAll r o ts = Run.sequence (ts.map (Ty.lower r o)) := by
  induction ts with
  | nil => rfl
  | cons t ts ih =>
    rw [Ty.lowerAll, ih]
    rfl

theorem Param.lowerAll_eq_sequence (ps : List Param) :
    Param.lowerAll r o ps = Run.sequence (ps.map (Param.lower r o)) := by
  induction ps with
  | nil => rfl
  | cons p ps ih =>
    rw [Param.lowerAll, ih]
    rfl

theorem TypeParam.lowerAll_eq_sequence (ps : List TypeParam) :
    TypeParam.lowerAll r o ps = Run.sequence (ps.map (TypeParam.lower r o)) := by
  induction ps with
  | nil => rfl
  | cons p ps ih =>
    rw [TypeParam.lowerAll, ih]
    rfl

theorem Heritage.lowerAll_eq_sequence (hs : List Heritage) :
    Heritage.lowerAll r o hs = Run.sequence (hs.map (Heritage.lower r o)) := by
  induction hs with
  | nil => rfl
  | cons h hs ih =>
    rw [Heritage.lowerAll, ih]
    rfl

theorem Member.lowerAll_eq_sequence (ms : List Member) :
    Member.lowerAll r o ms = Run.sequence (ms.map (Member.lower r o)) := by
  induction ms with
  | nil => rfl
  | cons m ms ih =>
    rw [Member.lowerAll, ih]
    rfl

theorem Module.lowerAll_eq_sequence (ms : List Module) :
    Module.lowerAll r o ms = Run.sequence (ms.map (Module.lower r o)) := by
  induction ms with
  | nil => rfl
  | cons m ms ih =>
    rw [Module.lowerAll, ih]
    rfl

theorem Decl.lowerEach_eq_map (ds : List Decl) :
    Decl.lowerEach r o ds = ds.map (Decl.lower r o) := by
  induction ds with
  | nil => rfl
  | cons d ds ih =>
    rw [Decl.lowerEach, ih]
    rfl

/-- A filled slot is lowered and an empty one stays empty. -/
theorem Ty.outcome_lowerSlot {g : Ty → Ty} {slot : Option Ty}
    (hslot : ∀ t ∈ slot, (t.lower r o).outcome = .ok (g t)) :
    (Ty.lowerSlot r o slot).outcome = .ok (slot.map g) := by
  cases slot with
  | none => rfl
  | some t => exact Run.outcome_bind_of_ok (hslot t rfl) _

end DeclTree
