import DeclTree.Lowering.Pipeline
import DeclTree.Proofs.Lowering.Outcome

/-!
# Pipelines compose

Passes are arbitrary here: a pass may take a tree to a tree, fail, break down, or give no tree.
`Pipeline.Takes` and `Pipeline.Fails` say what the passes of a pipeline come to in their order,
without running them: one tree after the other, up to a last tree or to the first pass that gives
none. A pipeline ends just so (`Pipeline.outcome_lower_eq_ok_iff`,
`Pipeline.outcome_lower_eq_error_iff`).

Two pipelines in a row are the pipeline of their passes in a row, and a pipeline that has failed is
not changed by the passes behind it, which do not run: `Pipeline.composes`.
-/

set_option autoImplicit false
set_option relaxedAutoImplicit false

namespace DeclTree

/-! ### Runs bound together -/

namespace Run

variable {α β γ : Type}

/-- A run that fails is not changed by what would have followed. -/
theorem bind_eq_self_of_error {x : Run α} {e : Failure} (hx : x.outcome = .error e)
    (f : α → Run α) : x >>= f = x := by
  obtain ⟨events, outcome⟩ := x
  obtain rfl : outcome = .error e := hx
  rfl

theorem bind_assoc (x : Run α) (f : α → Run β) (g : β → Run γ) :
    x >>= f >>= g = x >>= fun a ↦ f a >>= g := by
  change Run.bind (Run.bind x f) g = Run.bind x fun a ↦ Run.bind (f a) g
  cases hx : x.outcome with
  | error e => simp only [Run.bind, hx]
  | ok a =>
    cases hf : (f a).outcome with
    | error e => simp only [Run.bind, hx, hf]
    | ok b => simp only [Run.bind, hx, hf, List.append_assoc]

end Run

/-! ### What a pass does to a tree -/

/-- Whether a pass takes a tree to a tree. -/
def Pass.Takes (p : Pass) (m next : Module) : Prop := (p.lower (some m)).outcome = .ok (some next)

/-- How a pass that gives no tree for a tree ends a pipeline. A fault gets the name of the pass in
front, once, and a breakdown stays one. -/
inductive Pass.Ends (p : Pass) (m : Module) : Failure → Prop where
  | fault {f : Fault} (hp : (p.lower (some m)).outcome = .error (.fault f)) :
    p.Ends m (.fault (f.wrap ("lowering pass " ++ p.name)))
  | noTree (hp : (p.lower (some m)).outcome = .ok none) :
    p.Ends m (.fault ((Fault.ofSentinel .invalidTree).wrap
      ("lowering pass " ++ p.name ++ " returned no tree")))
  | crash (hp : (p.lower (some m)).outcome = .error .crash) : p.Ends m .crash

/-- A pass takes a tree to a tree or ends the pipeline there. -/
theorem Pass.takes_or_ends (p : Pass) (m : Module) :
    (∃ next, p.Takes m next) ∨ ∃ e, p.Ends m e := by
  cases hp : (p.lower (some m)).outcome with
  | error failure =>
    cases failure with
    | fault f => exact .inr ⟨_, .fault hp⟩
    | crash => exact .inr ⟨_, .crash hp⟩
  | ok tree =>
    cases tree with
    | none => exact .inr ⟨_, .noTree hp⟩
    | some next => exact .inl ⟨next, hp⟩

namespace Pipeline

/-- Passes take a tree to a tree when each of them takes what the one before it gave. -/
inductive Takes : List Pass → Module → Module → Prop where
  | nil (m : Module) : Takes [] m m
  | cons {p : Pass} {ps : List Pass} {m next last : Module} (hp : p.Takes m next)
    (hps : Takes ps next last) : Takes (p :: ps) m last

/-- How passes fail: there is no root, or one of them ends it all at the tree that the passes before
it have taken the root to. -/
inductive Fails (ps : List Pass) : Option Module → Failure → Prop where
  | noRoot : Fails ps none (.fault ((Fault.ofSentinel .invalidTree).wrap "nil root module"))
  | pass {root m : Module} (before : List Pass) {p : Pass} {after : List Pass} {e : Failure}
    (hps : ps = before ++ p :: after) (hbefore : Takes before root m) (hp : p.Ends m e) :
    Fails ps (some root) e

/-! ### One step -/

variable {level : Int} {root m : Module} {p : Pass} {ps qs : List Pass}

theorem outcome_step_of_takes {next : Module} (hp : p.Takes m next) :
    (step level root p m).outcome = .ok next := by
  rw [Pass.Takes] at hp
  simp only [step, hp]

theorem outcome_step_of_ends {e : Failure} (hp : p.Ends m e) :
    (step level root p m).outcome = .error e := by
  cases hp with
  | fault hp => simp only [step, hp]
  | noTree hp => simp only [step, hp]
  | crash hp => simp only [step, hp]

theorem outcome_step_eq_ok_iff {next : Module} :
    (step level root p m).outcome = .ok next ↔ p.Takes m next := by
  refine ⟨fun hstep ↦ ?_, outcome_step_of_takes⟩
  rcases p.takes_or_ends m with ⟨next', hp⟩ | ⟨e, hp⟩
  · obtain rfl : next = next' :=
      Except.ok.inj (hstep.symm.trans (outcome_step_of_takes hp))
    exact hp
  · exact nomatch hstep.symm.trans (outcome_step_of_ends hp)

theorem outcome_step_eq_error_iff {e : Failure} :
    (step level root p m).outcome = .error e ↔ p.Ends m e := by
  refine ⟨fun hstep ↦ ?_, outcome_step_of_ends⟩
  rcases p.takes_or_ends m with ⟨next, hp⟩ | ⟨e', hp⟩
  · exact nomatch hstep.symm.trans (outcome_step_of_takes hp)
  · obtain rfl : e = e' := Except.error.inj (hstep.symm.trans (outcome_step_of_ends hp))
    exact hp

/-! ### All steps -/

theorem outcome_steps_eq_ok_iff {last : Module} :
    (steps level root ps m).outcome = .ok last ↔ Takes ps m last := by
  induction ps generalizing m with
  | nil =>
    refine ⟨fun hlast ↦ ?_, fun hlast ↦ ?_⟩
    · obtain rfl : m = last := Except.ok.inj hlast
      exact .nil m
    · cases hlast
      rfl
  | cons p ps ih =>
    rw [steps, Run.outcome_bind_eq_ok_iff]
    constructor
    · rintro ⟨next, hp, hps⟩
      exact .cons (outcome_step_eq_ok_iff.mp hp) (ih.mp hps)
    · rintro (_ | ⟨hp, hps⟩)
      exact ⟨_, outcome_step_eq_ok_iff.mpr hp, ih.mpr hps⟩

theorem outcome_steps_eq_error_iff {e : Failure} :
    (steps level root ps m).outcome = .error e ↔ Fails ps (some m) e := by
  induction ps generalizing m with
  | nil =>
    refine iff_of_false nofun ?_
    rintro ⟨⟩
    next hps _ _ => exact List.cons_ne_nil _ _ (List.append_eq_nil_iff.mp hps.symm).2
  | cons p ps ih =>
    rw [steps, Run.outcome_bind_eq_error_iff, outcome_step_eq_error_iff]
    constructor
    · rintro (hp | ⟨next, hp, hps⟩)
      · exact .pass [] rfl (.nil m) hp
      · cases ih.mp hps with
        | pass before heq hbefore hends =>
          refine .pass (p :: before) (congrArg (p :: ·) heq) ?_ hends
          exact .cons (outcome_step_eq_ok_iff.mp hp) hbefore
    · rintro ⟨⟩
      next before _ hps hbefore hends =>
        cases hbefore with
        | nil =>
          obtain ⟨rfl, rfl⟩ := List.cons.inj hps
          exact .inl hends
        | cons hp hrest =>
          obtain ⟨rfl, rfl⟩ := List.cons.inj hps
          exact .inr ⟨_, outcome_step_eq_ok_iff.mpr hp, ih.mpr (.pass _ rfl hrest hends)⟩

/-- How steps end depends on the passes and on the tree. The verbosity and the root of the pipeline
are only reported. -/
theorem outcome_steps_congr (level level' : Int) (root root' : Module) (ps : List Pass)
    (m : Module) : (steps level root ps m).outcome = (steps level' root' ps m).outcome := by
  cases h : (steps level root ps m).outcome with
  | error e => exact (outcome_steps_eq_error_iff.mpr (outcome_steps_eq_error_iff.mp h)).symm
  | ok last => exact (outcome_steps_eq_ok_iff.mpr (outcome_steps_eq_ok_iff.mp h)).symm

/-- Passes in a row run one after the other. -/
theorem steps_append :
    steps level root (ps ++ qs) m = steps level root ps m >>= steps level root qs := by
  induction ps generalizing m with
  | nil => rfl
  | cons p ps ih =>
    rw [List.cons_append, steps, funext fun m ↦ ih (m := m), ← Run.bind_assoc, steps]

/-! ### Whole pipelines -/

theorem outcome_lower_eq_ok_iff {root : Option Module} {m' : Module} :
    (lower level ps root).outcome = .ok m' ↔ ∃ m, root = some m ∧ Takes ps m m' := by
  cases root with
  | none => exact iff_of_false nofun nofun
  | some m => simp [lower, outcome_steps_eq_ok_iff]

theorem outcome_lower_eq_error_iff {root : Option Module} {e : Failure} :
    (lower level ps root).outcome = .error e ↔ Fails ps root e := by
  cases root with
  | none =>
    refine ⟨fun he ↦ ?_, fun he ↦ ?_⟩
    · obtain rfl := Except.error.inj he
      exact .noRoot
    · cases he
      rfl
  | some m => exact outcome_steps_eq_error_iff

/-- Passes behind a pipeline that fails do not run. -/
theorem lower_append_of_error {root : Option Module} {e : Failure}
    (he : (lower level ps root).outcome = .error e) (qs : List Pass) :
    lower level (ps ++ qs) root = lower level ps root := by
  cases root with
  | none => rfl
  | some m =>
    change steps level m (ps ++ qs) m = steps level m ps m
    rw [steps_append]
    exact Run.bind_eq_self_of_error he _

/-- Pipelines compose. Passes in a row end as the first of them do and, if those give a tree, as the
others do with that tree, with the same tree or the same failure. So a pipeline gives the tree that
its passes, in their order, take the root to, or ends with the failure of the first of them that
gives no tree, and then its whole run is the same whatever passes stand behind it. -/
theorem composes (ps qs : List Pass) (root : Option Module) (level level₁ level₂ : Int) :
    (lower level (ps ++ qs) root).outcome = (do
        let m ← (lower level₁ ps root).outcome
        (lower level₂ qs (some m)).outcome) ∧
      (∀ m', (lower level ps root).outcome = .ok m' ↔ ∃ m, root = some m ∧ Takes ps m m') ∧
      (∀ e, (lower level ps root).outcome = .error e ↔ Fails ps root e) ∧
      ∀ e, (lower level ps root).outcome = .error e →
        lower level (ps ++ qs) root = lower level ps root := by
  refine ⟨?_, fun m' ↦ outcome_lower_eq_ok_iff, fun e ↦ outcome_lower_eq_error_iff,
    fun e he ↦ lower_append_of_error he qs⟩
  cases root with
  | none => rfl
  | some m =>
    change (steps level m (ps ++ qs) m).outcome =
      (do let next ← (steps level₁ m ps m).outcome; (steps level₂ next qs next).outcome)
    rw [steps_append, outcome_steps_congr level₁ level]
    cases hps : (steps level m ps m).outcome with
    | error e => exact Run.outcome_bind_of_error hps _
    | ok next => exact (Run.outcome_bind_of_ok hps _).trans (outcome_steps_congr ..)

def jettyTree : Module := ⟨⟨some (.ident "jetty"), none, "module:jetty", [], []⟩, [], []⟩

/-- The pass in the middle gives no tree, so that the last one cannot break down. -/
theorem composes_jettyTree :
    ∃ f, (lower 0 [(Rules.empty "copy").pass, ⟨"idle", fun _ ↦ pure none⟩]
          (some jettyTree)).outcome = .error (.fault f) ∧
        f.message = "lowering pass idle returned no tree: invalid declaration tree" ∧
        lower 0 ([(Rules.empty "copy").pass, ⟨"idle", fun _ ↦ pure none⟩] ++
            [⟨"broken", fun _ ↦ Run.fail .crash⟩]) (some jettyTree) =
          lower 0 [(Rules.empty "copy").pass, ⟨"idle", fun _ ↦ pure none⟩] (some jettyTree) := by
  obtain ⟨-, -, hfails, hsame⟩ := composes [(Rules.empty "copy").pass, ⟨"idle", fun _ ↦ pure none⟩]
    [⟨"broken", fun _ ↦ Run.fail .crash⟩] (some jettyTree) 0 0 0
  have herror := (hfails _).mpr
    (.pass [(Rules.empty "copy").pass] rfl (.cons rfl (.nil jettyTree)) (.noTree rfl))
  exact ⟨_, herror, by decide +kernel, hsame _ herror⟩

end Pipeline

end DeclTree
