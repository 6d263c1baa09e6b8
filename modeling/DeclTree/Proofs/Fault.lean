import DeclTree.Fault

/-!
# Classes and details of faults

A fault keeps its classes under every layer that is put around it, so a fault made from a sentinel
belongs to the class of the sentinel however it is worded later. Words do not add to its details.
Only a mark adds a class to a fault that has a layer already, `Fault.sentinels_mark`.
-/

set_option autoImplicit false
set_option relaxedAutoImplicit false

namespace DeclTree.Fault

variable {f : Fault} {s : Sentinel}

theorem is_ofSentinel (s : Sentinel) : (ofSentinel s).is s := by
  cases s with
  | _ => decide +kernel

theorem is_under (h : f.is s) (l : Layer) : (f.under l).is s := by
  rw [is, Bool.or_eq_true, Bool.and_eq_true] at h ⊢
  rcases h with hmark | ⟨hcause, hstack⟩
  · left
    rw [List.contains_iff_mem] at hmark ⊢
    exact List.mem_append_left _ hmark
  · right
    refine ⟨hcause, ?_⟩
    rw [beq_iff_eq] at hstack ⊢
    rw [under, List.head?_append, hstack, Option.some_or]

theorem is_wrap (h : f.is s) (text : String) : (f.wrap text).is s := by
  unfold wrap
  split
  · exact is_under h _
  · exact is_under (is_under h _) _

/-! ### All classes of a fault -/

theorem layers_under_ne_nil (f : Fault) (l : Layer) : (f.under l).layers ≠ [] :=
  List.append_ne_nil_of_right_ne_nil f.layers (List.cons_ne_nil l [])

theorem layers_wrap_ne_nil (f : Fault) (text : String) : (f.wrap text).layers ≠ [] := by
  unfold wrap
  split
  · exact layers_under_ne_nil _ _
  · exact layers_under_ne_nil _ _

theorem mem_sentinels_iff : s ∈ f.sentinels ↔ f.is s := by
  have hall : s ∈ Sentinel.all := by cases s <;> decide
  rw [sentinels, List.mem_filter, and_iff_right hall]

theorem sentinels_ofSentinel (s : Sentinel) : (ofSentinel s).sentinels = [s] := by
  cases s with
  | _ => decide +kernel

/-- What lies at the bottom of a fault decides its classes with its first layer alone, so that of
the later ones only marks count. -/
theorem is_under_iff (hf : f.layers ≠ []) (l : Layer) :
    (f.under l).is s ↔ f.is s ∨ l = .mark s := by
  obtain ⟨first, rest, hlayers⟩ := List.exists_cons_of_ne_nil hf
  simp only [is, under, hlayers, List.cons_append, List.head?_cons, List.contains_eq_mem,
    List.mem_cons, List.mem_append, List.not_mem_nil, or_false, Bool.or_eq_true, decide_eq_true_eq,
    Bool.and_eq_true, beq_iff_eq]
  rw [← or_assoc, or_right_comm, eq_comm (a := l)]

theorem sentinels_under (hf : f.layers ≠ []) {l : Layer} (hl : ∀ s, l ≠ .mark s) :
    (f.under l).sentinels = f.sentinels := by
  refine List.filter_congr fun s _ ↦ ?_
  rw [Bool.eq_iff_iff, is_under_iff hf, or_iff_left (hl s)]

theorem sentinels_withHint (hf : f.layers ≠ []) (text : String) :
    (f.withHint text).sentinels = f.sentinels :=
  sentinels_under hf nofun

theorem sentinels_withDetail (hf : f.layers ≠ []) (text : String) :
    (f.withDetail text).sentinels = f.sentinels :=
  sentinels_under hf nofun

theorem sentinels_wrap (hf : f.layers ≠ []) (text : String) :
    (f.wrap text).sentinels = f.sentinels := by
  have hstack : ∀ g : Fault, g.layers ≠ [] → g.withStack.sentinels = g.sentinels :=
    fun _ hg ↦ sentinels_under hg nofun
  have hmessage : (f.withMessage text).sentinels = f.sentinels := sentinels_under hf nofun
  unfold wrap
  split
  · exact hstack f hf
  · exact (hstack _ (layers_under_ne_nil _ _)).trans hmessage

theorem sentinels_mark (hf : f.layers ≠ []) (s : Sentinel) :
    (f.mark s).sentinels = Sentinel.all.filter fun x ↦ x ∈ f.sentinels ∨ x = s := by
  refine List.filter_congr fun x _ ↦ ?_
  rw [Bool.eq_iff_iff, mark, is_under_iff hf, decide_eq_true_eq, mem_sentinels_iff,
    Layer.mark.injEq, eq_comm (a := x)]

/-! ### Details -/

/-- A layer that is no detail leaves the details of a fault as they are. -/
theorem details_under (f : Fault) {l : Layer} (hl : l.detail? = none) :
    (f.under l).details = f.details := by
  rw [details, under, List.filterMap_append, List.filterMap_cons_none hl, List.filterMap_nil,
    List.append_nil, details]

theorem details_wrap (f : Fault) (text : String) : (f.wrap text).details = f.details := by
  unfold wrap
  split
  · exact details_under f rfl
  · exact (details_under _ rfl).trans (details_under f rfl)

theorem details_withDetail (f : Fault) {text : String} (htext : text ≠ "") :
    (f.withDetail text).details = f.details ++ [text] := by
  have hdetail : (Layer.detail text).detail? = some text := if_neg htext
  rw [details, withDetail, under, List.filterMap_append, List.filterMap_cons_some hdetail,
    List.filterMap_nil, details]

end DeclTree.Fault
