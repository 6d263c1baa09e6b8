import DeclTree.Proofs.Escape.Grouping
import DeclTree.Proofs.Text.Bytes

/-!
# What is reported for a list of names

Names are reported under the text that they share when they are escaped. Whatever escaping does,
there is one report for each text that two different names come to, in the order in which the texts
first come up, and it lists those names in the order of their bytes, `Collision.reports_exactly`. A
name that stands in the list more than once is still one name.
-/

set_option autoImplicit false
set_option relaxedAutoImplicit false

namespace DeclTree.Collision

/-! ### The order of first occurrences -/

/-- What is left of a list without repetitions is in the order of the first occurrences. -/
theorem pairwise_idxOf_eraseDups (as : List String) :
    as.eraseDups.Pairwise fun a b ↦ as.idxOf a < as.idxOf b := by
  induction as using List.reverseRecOn with
  | nil => exact List.Pairwise.nil
  | append_singleton as a ih =>
    -- Behind the list nothing changes where the entries of the list first occur.
    have hearlier : as.eraseDups.Pairwise fun b c ↦ (as ++ [a]).idxOf b < (as ++ [a]).idxOf c := by
      refine ih.imp_of_mem fun hb hc hlt ↦ ?_
      rwa [List.idxOf_append_of_mem (List.mem_eraseDups.mp hb),
        List.idxOf_append_of_mem (List.mem_eraseDups.mp hc)]
    rw [eraseDups_concat]
    by_cases ha : a ∈ as
    · rwa [if_pos ha]
    · rw [if_neg ha, List.pairwise_append]
      refine ⟨hearlier, List.pairwise_singleton _ a, fun b hb c hc ↦ ?_⟩
      obtain rfl := List.mem_singleton.mp hc
      have hmem := List.mem_eraseDups.mp hb
      rw [List.idxOf_append_of_mem hmem, List.idxOf_append_of_notMem ha]
      exact Nat.lt_add_right _ (List.idxOf_lt_length_of_mem hmem)

/-! ### The order of names in a report -/

theorem pairwise_sorted (names : List String) : (sorted names).Pairwise (· ≤ ·) := by
  have htrans : ∀ a b c : String, decide (a ≤ b) = true → decide (b ≤ c) = true →
      decide (a ≤ c) = true := by
    intro a b c hab hbc
    exact decide_eq_true (String.le_trans (of_decide_eq_true hab) (of_decide_eq_true hbc))
  have htotal : ∀ a b : String, (decide (a ≤ b) || decide (b ≤ a)) = true := by
    intro a b
    simpa using String.le_total a b
  exact (List.pairwise_mergeSort htrans htotal names).imp of_decide_eq_true

theorem mem_sorted {names : List String} {name : String} : name ∈ sorted names ↔ name ∈ names :=
  (List.mergeSort_perm names _).mem_iff

/-- Different names are sorted by their bytes. -/
theorem pairwise_bytes_sorted {names : List String} (hnames : names.Nodup) :
    (sorted names).Pairwise fun a b ↦ Text.bytes a < Text.bytes b := by
  have hnodup : (sorted names).Nodup := (List.mergeSort_perm names _).nodup_iff.mpr hnames
  refine ((pairwise_sorted names).and hnodup).imp fun hpair ↦ ?_
  exact Text.bytes_lt_bytes (lt_of_le_of_ne hpair.1 hpair.2)

/-! ### Reports -/

/-- What is reported of the names that come to one text. -/
def report (scope : String) (names : List String) (escape : String → String) (escaped : String) :
    Collision :=
  ⟨scope, escaped, sorted (names.filter fun name ↦ escape name = escaped).eraseDups⟩

section Reports

variable {scope : String} {names : List String} {escape : String → String}

/-- The reports are those of the texts that different names come to. -/
theorem ofNames_eq (scope : String) (names : List String) (escape : String → String) :
    ofNames scope names escape =
      ((names.map escape).eraseDups.filter fun escaped ↦
          1 < (names.filter fun name ↦ escape name = escaped).eraseDups.length).map
        (report scope names escape) := by
  rw [ofNames, group_eq, List.filterMap_map,
    ← List.filterMap_eq_map (f := report scope names escape), List.filterMap_filter]
  refine List.filterMap_congr fun escaped _ ↦ ?_
  simp [report]

theorem map_escaped_ofNames :
    (ofNames scope names escape).map escaped =
      (names.map escape).eraseDups.filter fun escaped ↦
        1 < (names.filter fun name ↦ escape name = escaped).eraseDups.length := by
  rw [ofNames_eq, List.map_map]
  exact List.map_id' _

/-- A text is reported when two different names come to it. -/
theorem mem_map_escaped_iff {v : String} :
    v ∈ (ofNames scope names escape).map escaped ↔
      ∃ a ∈ names, ∃ b ∈ names, a ≠ b ∧ escape a = v ∧ escape b = v := by
  rw [map_escaped_ofNames, List.mem_filter, decide_eq_true_eq, one_lt_length_eraseDups,
    List.mem_eraseDups]
  simp only [List.mem_filter, decide_eq_true_eq]
  constructor
  · rintro ⟨-, a, ⟨ha, hescaped⟩, b, ⟨hb, hescaped'⟩, hne⟩
    exact ⟨a, ha, b, hb, hne, hescaped, hescaped'⟩
  · rintro ⟨a, ha, b, hb, hne, hescaped, hescaped'⟩
    exact ⟨List.mem_map.mpr ⟨a, ha, hescaped⟩, a, ⟨ha, hescaped⟩, b, ⟨hb, hescaped'⟩, hne⟩

theorem eq_report_of_mem {c : Collision} (hc : c ∈ ofNames scope names escape) :
    c = report scope names escape c.escaped := by
  rw [ofNames_eq] at hc
  obtain ⟨v, -, rfl⟩ := List.mem_map.mp hc
  rfl

end Reports

/-- Whatever escaping does, the reports are exact. There is one for each text that two different
names come to, and they are in the order in which the texts first come up. Each lists the names that
come to its text, sorted by their bytes and none twice. A text that only one name comes to is never
reported, however often the name is there. -/
theorem reports_exactly (scope : String) (names : List String) (escape : String → String) :
    (∀ v, v ∈ (ofNames scope names escape).map escaped ↔
        ∃ a ∈ names, ∃ b ∈ names, a ≠ b ∧ escape a = v ∧ escape b = v) ∧
      ((ofNames scope names escape).map escaped).Pairwise
        (fun v w ↦ (names.map escape).idxOf v < (names.map escape).idxOf w) ∧
      (∀ c ∈ ofNames scope names escape, c.scope = scope ∧
        (∀ name, name ∈ c.names ↔ name ∈ names ∧ escape name = c.escaped) ∧
        c.names.Pairwise fun a b ↦ Text.bytes a < Text.bytes b) ∧
      ∀ v name, (∀ a ∈ names, escape a = v → a = name) →
        v ∉ (ofNames scope names escape).map escaped := by
  refine ⟨fun v ↦ mem_map_escaped_iff, ?_, fun c hc ↦ ?_, fun v name hname hv ↦ ?_⟩
  · rw [map_escaped_ofNames]
    exact (pairwise_idxOf_eraseDups _).filter _
  · rw [eq_report_of_mem hc]
    refine ⟨rfl, fun name ↦ ?_, pairwise_bytes_sorted (nodup_eraseDups _)⟩
    rw [report, mem_sorted, List.mem_eraseDups, List.mem_filter, decide_eq_true_eq]
  · obtain ⟨a, ha, b, hb, hne, hescaped, hescaped'⟩ := mem_map_escaped_iff.mp hv
    exact hne ((hname a ha hescaped).trans (hname b hb hescaped').symm)

/-- Two names that come to one text, one of them repeated, and a repeated name that is alone. -/
theorem reports_exactly_repeated :
    "x" ∈ (ofNames "enum Mode" ["é", "z", "é", "c", "c"]
        fun s ↦ if s = "c" then s else "x").map escaped ∧
      "c" ∉ (ofNames "enum Mode" ["é", "z", "é", "c", "c"]
        fun s ↦ if s = "c" then s else "x").map escaped := by
  obtain ⟨hreported, -, -, halone⟩ :=
    reports_exactly "enum Mode" ["é", "z", "é", "c", "c"] fun s ↦ if s = "c" then s else "x"
  constructor
  · exact (hreported "x").mpr ⟨"é", by decide, "z", by decide, by decide, by decide, by decide⟩
  · exact halone "c" "c" (by decide)

end DeclTree.Collision
