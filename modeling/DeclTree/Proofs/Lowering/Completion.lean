import DeclTree.Proofs.Lowering.Outcome

/-!
# Runs that finish in any order

Runs that finish in some order write their results into one list. Each place is written by its own
run alone, so when all of them succeed the list has the results in source order, whatever the order
of the writes, `Run.foldl_write`. Otherwise they break down if one of them does, and else fail with
the fault of one of them.

What a run leads to does not depend on its events, and its `Run.ending` does not depend on the words
of a fault either. Runs of which none breaks down end like their sequence, and where no two of them
fail, with the same fault.
-/

set_option autoImplicit false
set_option relaxedAutoImplicit false

namespace DeclTree

/-- What at most one entry of a list satisfies, no two entries satisfy. -/
theorem eq_of_countP_le_one {α : Type} {p : α → Bool} {xs : List α} (hcount : xs.countP p ≤ 1)
    {x y : α} (hx : x ∈ xs) (hy : y ∈ xs) (hpx : p x) (hpy : p y) : x = y := by
  have hx' := List.mem_filter.mpr ⟨hx, hpx⟩
  have hy' := List.mem_filter.mpr ⟨hy, hpy⟩
  rw [List.countP_eq_length_filter] at hcount
  match xs.filter p, hcount, hx', hy' with
  | [z], _, hx', hy' => rw [List.mem_singleton.mp hx', List.mem_singleton.mp hy']

namespace Finishing

variable {n : Nat}

/-- The last run finishes first. -/
def backwards (n : Nat) : Finishing n := ⟨(List.range n).reverse, List.reverse_perm _⟩

theorem mem_places {order : Finishing n} {place : Nat} : place ∈ order.places ↔ place < n := by
  rw [order.perm.mem_iff, List.mem_range]

/-- Every run finishes, and no others. -/
theorem mem_filterMap_places {α : Type} {xs : List α} {order : Finishing xs.length} {x : α} :
    (x ∈ order.places.filterMap fun place ↦ xs[place]?) ↔ x ∈ xs := by
  rw [List.mem_filterMap]
  constructor
  · rintro ⟨place, -, hplace⟩
    exact List.mem_of_getElem? hplace
  · intro hx
    obtain ⟨place, hplace⟩ := List.getElem?_of_mem hx
    obtain ⟨hlt, -⟩ := List.getElem?_eq_some_iff.mp hplace
    exact ⟨place, mem_places.mpr hlt, hplace⟩

end Finishing

namespace Run

variable {α β : Type}

/-! ### How runs end -/

theorem result?_eq_some_iff {x : Run α} {a : α} : x.result? = some a ↔ x.outcome = .ok a := by
  unfold result?
  cases x.outcome with
  | error e => exact iff_of_false nofun nofun
  | ok b => exact ⟨fun h ↦ congrArg _ (Option.some.inj h), fun h ↦ congrArg _ (Except.ok.inj h)⟩

theorem failure?_eq_some_iff {x : Run α} {e : Failure} :
    x.failure? = some e ↔ x.outcome = .error e := by
  unfold failure?
  cases x.outcome with
  | error e' =>
    exact ⟨fun h ↦ congrArg _ (Option.some.inj h), fun h ↦ congrArg _ (Except.error.inj h)⟩
  | ok a => exact iff_of_false nofun nofun

theorem breaksDown_iff {x : Run α} : x.breaksDown = true ↔ x.outcome = .error .crash := by
  rw [breaksDown, decide_eq_true_eq, failure?_eq_some_iff]

/-- How a run ends, without the words of a fault: an error tells whether it is a breakdown. -/
def ending (x : Run α) : Except Bool α := x.outcome.mapError fun e ↦ e = .crash

theorem ending_eq_ok_iff {x : Run α} {a : α} : x.ending = .ok a ↔ x.outcome = .ok a := by
  unfold ending
  cases x.outcome with
  | error e => exact iff_of_false nofun nofun
  | ok b => exact ⟨fun h ↦ congrArg _ (Except.ok.inj h), fun h ↦ congrArg _ (Except.ok.inj h)⟩

theorem ending_of_error {x : Run α} {e : Failure} (hx : x.outcome = .error e) :
    x.ending = .error (decide (e = .crash)) := by
  rw [ending, hx]
  rfl

/-- What ends like a run that fails, fails. -/
theorem exists_error_of_ending {x y : Run α} {e : Failure} (hxy : x.ending = y.ending)
    (hx : x.outcome = .error e) :
    ∃ e', y.outcome = .error e' ∧ decide (e' = .crash) = decide (e = .crash) := by
  rw [ending_of_error hx] at hxy
  cases hy : y.outcome with
  | ok a => cases hxy.trans (ending_eq_ok_iff.mpr hy)
  | error e' => exact ⟨e', rfl, (Except.error.inj (hxy.trans (ending_of_error hy))).symm⟩

/-- What ends like a run that gives a result, gives it as well. A breakdown gives none. -/
theorem outcome_eq_ok {x y : Run α} (hxy : x.outcome = .error .crash ∨ x.ending = y.ending) {a : α}
    (hx : x.outcome = .ok a) : y.outcome = .ok a := by
  rcases hxy with hcrash | hending
  · cases hx.symm.trans hcrash
  · rwa [← ending_eq_ok_iff, ← hending, ending_eq_ok_iff]

theorem outcome_eq_crash {x y : Run α} (hxy : x.ending = y.ending)
    (hx : x.outcome = .error .crash) : y.outcome = .error .crash := by
  obtain ⟨e, hy, hcrash⟩ := exists_error_of_ending hxy hx
  rw [hy, of_decide_eq_true hcrash]

theorem ending_congr {x y : Run α} (hxy : x.outcome = y.outcome) : x.ending = y.ending := by
  rw [ending, hxy, ending]

theorem ending_bind (x : Run α) (f : α → Run β) :
    (x >>= f).ending = x.ending >>= fun a ↦ (f a).ending := by
  cases hx : x.outcome with
  | error e =>
    rw [ending_of_error (outcome_bind_of_error hx f), ending_of_error hx]
    rfl
  | ok a =>
    rw [ending_congr (outcome_bind_of_ok hx f), ending_eq_ok_iff.mpr hx]
    rfl

/-- How a run ends depends only on how its parts end. -/
theorem outcome_bind_congr {x y : Run α} {f g : α → Run β} (hxy : x.outcome = y.outcome)
    (hfg : ∀ a, (f a).outcome = (g a).outcome) : (x >>= f).outcome = (y >>= g).outcome := by
  cases hx : x.outcome with
  | error e => rw [outcome_bind_of_error hx, outcome_bind_of_error (hxy ▸ hx)]
  | ok a => rw [outcome_bind_of_ok hx, outcome_bind_of_ok (hxy ▸ hx), hfg]

/-! ### Runs one after the other -/

/-- Runs one after the other end with the failure of one of them. -/
theorem exists_error_of_sequence {xs : List (Run α)} {e : Failure}
    (he : (sequence xs).outcome = .error e) : ∃ x ∈ xs, x.outcome = .error e := by
  induction xs with
  | nil => exact nomatch he
  | cons x xs ih =>
    cases hx : x.outcome with
    | error e' =>
      obtain rfl : e' = e := Except.error.inj ((outcome_bind_of_error hx _).symm.trans he)
      exact ⟨x, List.mem_cons_self, hx⟩
    | ok a =>
      have hrest : (sequence xs >>= fun as ↦ Pure.pure (a :: as)).outcome = .error e :=
        (outcome_bind_of_ok hx _).symm.trans he
      cases hxs : (sequence xs).outcome with
      | error e' =>
        obtain rfl : e' = e := Except.error.inj ((outcome_bind_of_error hxs _).symm.trans hrest)
        obtain ⟨y, hy, hfails⟩ := ih hxs
        exact ⟨y, List.mem_cons_of_mem x hy, hfails⟩
      | ok as => exact nomatch (outcome_bind_of_ok hxs _).symm.trans hrest

/-- One run that fails makes the sequence fail. -/
theorem exists_error_sequence {xs : List (Run α)} {x : Run α} {e : Failure} (hmem : x ∈ xs)
    (hx : x.outcome = .error e) : ∃ e', (sequence xs).outcome = .error e' := by
  induction xs with
  | nil => exact nomatch hmem
  | cons y ys ih =>
    cases hy : y.outcome with
    | error e' => exact ⟨e', outcome_bind_of_error hy _⟩
    | ok b =>
      obtain rfl | hmem := List.mem_cons.mp hmem
      · exact nomatch hx.symm.trans hy
      obtain ⟨e', he'⟩ := ih hmem
      exact ⟨e', (outcome_bind_of_ok hy _).trans (outcome_bind_of_error he' _)⟩

/-- The results of a sequence are those of its runs, each in its place. -/
theorem outcome_sequence_eq_ok_iff {xs : List (Run α)} {as : List α} :
    (sequence xs).outcome = .ok as ↔ xs.map outcome = as.map .ok := by
  induction xs generalizing as with
  | nil =>
    cases as with
    | nil => exact iff_of_true rfl rfl
    | cons a as => exact iff_of_false nofun nofun
  | cons x xs ih =>
    change (x >>= fun a ↦ sequence xs >>= fun as ↦ Pure.pure (a :: as)).outcome = .ok as ↔ _
    simp only [outcome_bind_eq_ok_iff, ih]
    constructor
    · rintro ⟨a, ha, rest, hrest, ⟨⟩⟩
      rw [List.map_cons, List.map_cons, ha, hrest]
    · intro h
      cases as with
      | nil => exact nomatch h
      | cons a rest =>
        obtain ⟨ha, hrest⟩ := List.cons.inj h
        exact ⟨a, ha, rest, hrest, rfl⟩

/-! ### Writes in any order -/

@[simp] theorem length_write (xs : List (Run α)) (out : List α) (place : Nat) :
    (write xs out place).length = out.length := by
  unfold write
  split
  · exact List.length_set
  · rfl

@[simp] theorem length_foldl_write (xs : List (Run α)) (out : List α) (places : List Nat) :
    (places.foldl (write xs) out).length = out.length := by
  induction places generalizing out with
  | nil => rfl
  | cons place places ih => rw [List.foldl_cons, ih, length_write]

variable {xs : List (Run α)} {out : List α} {place : Nat} {a : α}

/-- A write puts the result of the run there. -/
theorem getElem?_write (hrun : xs[place]?.bind result? = some a) (hlt : place < out.length) :
    (write xs out place)[place]? = some a := by
  rw [write, hrun]
  exact List.getElem?_set_self hlt

/-- No later write changes it: other runs write elsewhere. -/
theorem getElem?_write_of_eq (hrun : xs[place]?.bind result? = some a)
    (hout : out[place]? = some a) (other : Nat) : (write xs out other)[place]? = some a := by
  obtain ⟨hlt, -⟩ := List.getElem?_eq_some_iff.mp hout
  by_cases hother : other = place
  · rw [hother]
    exact getElem?_write hrun hlt
  · unfold write
    split
    · rwa [List.getElem?_set_ne hother]
    · exact hout

theorem getElem?_foldl_write {places : List Nat} (hrun : xs[place]?.bind result? = some a)
    (hlt : place < out.length) (hplace : place ∈ places ∨ out[place]? = some a) :
    (places.foldl (write xs) out)[place]? = some a := by
  induction places generalizing out with
  | nil => exact hplace.resolve_left List.not_mem_nil
  | cons first places ih =>
    rw [List.foldl_cons]
    refine ih (by rwa [length_write]) ?_
    rcases hplace with hmem | hout
    · rcases List.mem_cons.mp hmem with rfl | hmem
      · exact .inr (getElem?_write hrun hlt)
      · exact .inl hmem
    · exact .inr (getElem?_write_of_eq hrun hout first)

/-- When all runs succeed, the writes leave the results in source order, whichever comes first. -/
theorem foldl_write {as : List α} (hxs : xs.map outcome = as.map .ok) (blank : α)
    (order : Finishing xs.length) :
    order.places.foldl (write xs) (List.replicate xs.length blank) = as := by
  have hlength : xs.length = as.length := by
    simpa using congrArg List.length hxs
  refine List.ext_getElem (by simp [hlength]) fun place hlt hlt' ↦ ?_
  have hplace : place < xs.length := hlength ▸ hlt'
  have hrun : xs[place]?.bind result? = some as[place] := by
    rw [List.getElem?_eq_getElem hplace, Option.bind_some, result?_eq_some_iff]
    have hat := congrArg (fun outcomes ↦ outcomes[place]?) hxs
    simpa [hplace, hlt'] using hat
  refine Option.some.inj ((List.getElem?_eq_getElem hlt).symm.trans ?_)
  exact getElem?_foldl_write hrun (by rwa [List.length_replicate])
    (.inl (Finishing.mem_places.mpr hplace))

/-! ### Runs that finish in some order -/

variable {blank : α} {order : Finishing xs.length}

theorem outcome_concurrent_of_crash {x : Run α} (hx : x ∈ xs) (hcrash : x.outcome = .error .crash) :
    (concurrent blank xs order).outcome = .error .crash :=
  if_pos (List.any_eq_true.mpr
    ⟨x, Finishing.mem_filterMap_places.mpr hx, breaksDown_iff.mpr hcrash⟩)

/-- Runs of which none breaks down end with the failure of one of them, or with the results of all
of them. -/
theorem outcome_concurrent (blank : α) (order : Finishing xs.length)
    (hcrash : ∀ x ∈ xs, x.outcome ≠ .error .crash) :
    (∃ x ∈ xs, ∃ e, x.outcome = .error e ∧ (concurrent blank xs order).outcome = .error e) ∨
      (concurrent blank xs order).outcome = (sequence xs).outcome := by
  have hsound : ¬(order.places.filterMap fun place ↦ xs[place]?).any breaksDown = true := by
    intro hany
    obtain ⟨x, hx, hbreaks⟩ := List.any_eq_true.mp hany
    exact hcrash x (Finishing.mem_filterMap_places.mp hx) (breaksDown_iff.mp hbreaks)
  simp only [concurrent, if_neg hsound]
  split
  · next e he =>
    obtain ⟨x, hfinished, hx⟩ := List.exists_of_findSome?_eq_some he
    exact .inl ⟨x, Finishing.mem_filterMap_places.mp hfinished, e, failure?_eq_some_iff.mp hx, rfl⟩
  · next hnone =>
    refine .inr ?_
    cases hsequence : (sequence xs).outcome with
    | ok as => rw [foldl_write (outcome_sequence_eq_ok_iff.mp hsequence)]
    | error e =>
      obtain ⟨x, hx, hfails⟩ := exists_error_of_sequence hsequence
      have hsucceeds :=
        List.findSome?_eq_none_iff.mp hnone x (Finishing.mem_filterMap_places.mpr hx)
      rw [failure?_eq_some_iff.mpr hfails] at hsucceeds
      cases hsucceeds

end Run

namespace Rules

variable {α γ : Type} {r : Rules} {blank : α} {o : Owner} {runs : List (Run α)}

/-- A single worker lowers one declaration after the other. -/
theorem gather_eq_sequence (hworkers : r.workers ≤ 1) (blank : α) (o : Owner)
    (runs : List (Run α)) : r.gather blank o runs = Run.sequence runs := by
  rw [gather, decide_eq_true hworkers, Bool.true_or, if_pos rfl]

/-- The declarations of a module end with the failure of one of them, or as their sequence, for
every number of workers. When they finish in any order, they end with a fault only where none of
them breaks down. -/
theorem outcome_gather (r : Rules) (blank : α) (o : Owner) (runs : List (Run α)) :
    (∃ x ∈ runs, ∃ e, x.outcome = .error e ∧ (r.gather blank o runs).outcome = .error e ∧
        (e = .crash ∨ ∀ y ∈ runs, y.outcome ≠ .error .crash)) ∨
      (r.gather blank o runs).outcome = (Run.sequence runs).outcome := by
  unfold gather
  split
  · exact .inr rfl
  · by_cases hcrash : ∃ x ∈ runs, x.outcome = .error .crash
    · obtain ⟨x, hx, hcrash⟩ := hcrash
      exact .inl ⟨x, hx, .crash, hcrash, Run.outcome_concurrent_of_crash hx hcrash, .inl rfl⟩
    · have hcalm : ∀ y ∈ runs, y.outcome ≠ .error .crash := fun y hy hy' ↦ hcrash ⟨y, hy, hy'⟩
      exact (Run.outcome_concurrent blank _ hcalm).imp_left
        fun ⟨x, hx, e, hfails, hconcurrent⟩ ↦ ⟨x, hx, e, hfails, hconcurrent, .inr hcalm⟩

theorem exists_error_of_gather {e : Failure} (he : (r.gather blank o runs).outcome = .error e) :
    ∃ x ∈ runs, x.outcome = .error e := by
  obtain ⟨x, hx, e', hfails, hgather, -⟩ | hsequence := r.outcome_gather blank o runs
  · obtain rfl : e' = e := Except.error.inj (hgather.symm.trans he)
    exact ⟨x, hx, hfails⟩
  · exact Run.exists_error_of_sequence (hsequence ▸ he)

/-- Neither the order nor the number of workers changes what is gathered. -/
theorem outcome_gather_eq_ok_iff {as : List α} :
    (r.gather blank o runs).outcome = .ok as ↔ (Run.sequence runs).outcome = .ok as := by
  obtain ⟨x, hx, e, hfails, hgather, -⟩ | hsequence := r.outcome_gather blank o runs
  · obtain ⟨e', he'⟩ := Run.exists_error_sequence hx hfails
    rw [hgather, he']
    exact iff_of_false nofun nofun
  · rw [hsequence]

theorem outcome_gather_map (r : Rules) (blank : α) (o : Owner) {f : γ → Run α} {g : γ → α}
    {cs : List γ} (hf : ∀ c ∈ cs, (f c).outcome = .ok (g c)) :
    (r.gather blank o (cs.map f)).outcome = .ok (cs.map g) :=
  outcome_gather_eq_ok_iff.mpr (Run.outcome_sequence_map hf)

/-- What is gathered breaks down when one of the declarations does, or else ends like their
sequence. -/
theorem ending_gather (r : Rules) (blank : α) (o : Owner) (runs : List (Run α)) :
    (r.gather blank o runs).outcome = .error .crash ∨
      (r.gather blank o runs).ending = (Run.sequence runs).ending := by
  obtain ⟨x, hx, e, hfails, hgather, rfl | hcalm⟩ | hsequence := r.outcome_gather blank o runs
  · exact .inl hgather
  · -- None of them breaks down, so both end with a fault.
    obtain ⟨e', he'⟩ := Run.exists_error_sequence hx hfails
    obtain ⟨y, hy, hfails'⟩ := Run.exists_error_of_sequence he'
    have hfault : e ≠ .crash := fun hcrash ↦ hcalm x hx (hcrash ▸ hfails)
    have hfault' : e' ≠ .crash := fun hcrash ↦ hcalm y hy (hcrash ▸ hfails')
    rw [Run.ending_of_error hgather, Run.ending_of_error he', decide_eq_false hfault,
      decide_eq_false hfault']
    exact .inr rfl
  · exact .inr (Run.ending_congr hsequence)

/-- Where no two declarations fail, there is only one failure to end with. -/
theorem outcome_gather_of_countP (hcount : runs.countP (fun x ↦ x.failure?.isSome) ≤ 1) :
    (r.gather blank o runs).outcome = (Run.sequence runs).outcome := by
  obtain ⟨x, hx, e, hfails, hgather, -⟩ | hsequence := r.outcome_gather blank o runs
  · obtain ⟨e', he'⟩ := Run.exists_error_sequence hx hfails
    obtain ⟨y, hy, hfails'⟩ := Run.exists_error_of_sequence he'
    obtain rfl : x = y := eq_of_countP_le_one hcount hx hy
      (Option.isSome_of_mem (Run.failure?_eq_some_iff.mpr hfails))
      (Option.isSome_of_mem (Run.failure?_eq_some_iff.mpr hfails'))
    obtain rfl : e = e' := Except.error.inj (hfails.symm.trans hfails')
    rw [hgather, he']
  · exact hsequence

end Rules

end DeclTree
