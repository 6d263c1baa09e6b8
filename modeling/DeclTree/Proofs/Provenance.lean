import DeclTree.Provenance

/-!
# Provenance as an ordered set

Inserting tags one after the other keeps the first of equal tags, so no tag is ever repeated, and
tags without repetitions are kept as they are. A set that grew tag by tag is therefore the set of
the whole list of tags, whatever was repeated on the way, `Provenance.grown_is_ordered_set`.
-/

set_option autoImplicit false
set_option relaxedAutoImplicit false

namespace DeclTree.Provenance

theorem nodup_insert {tags : List String} (htags : tags.Nodup) (tag : String) :
    (insert tags tag).Nodup := by
  unfold insert
  split
  · exact htags
  · next hnew =>
    rw [List.contains_iff_mem] at hnew
    refine List.nodup_append.mpr ⟨htags, List.nodup_cons.mpr ⟨List.not_mem_nil, List.nodup_nil⟩, ?_⟩
    intro old hold other hother heq
    rw [List.mem_singleton] at hother
    exact hnew (hother ▸ heq ▸ hold)

theorem nodup_foldl_insert {seen : List String} (hseen : seen.Nodup) (tags : List String) :
    (tags.foldl insert seen).Nodup := by
  induction tags generalizing seen with
  | nil => exact hseen
  | cons tag tags ih => exact ih (nodup_insert hseen tag)

theorem nodup_ofList (tags : List String) : (ofList tags).tags.Nodup :=
  nodup_foldl_insert List.nodup_nil tags

theorem foldl_insert_of_nodup {seen tags : List String} (h : (seen ++ tags).Nodup) :
    tags.foldl insert seen = seen ++ tags := by
  induction tags generalizing seen with
  | nil => rw [List.foldl_nil, List.append_nil]
  | cons tag tags ih =>
    have hnew : seen.contains tag = false := by
      rw [← Bool.not_eq_true, List.contains_iff_mem]
      intro hmem
      exact (List.nodup_append.mp h).2.2 tag hmem tag List.mem_cons_self rfl
    rw [List.append_cons] at h ⊢
    rw [List.foldl_cons, insert, hnew]
    exact ih h

/-- A set rebuilt from its own tags is the same set. -/
theorem ofList_tags {p : Provenance} (hp : p.tags.Nodup) : ofList p.tags = p := by
  rw [ofList, foldl_insert_of_nodup (by simpa using hp), List.nil_append]

/-- Inserting tags keeps those seen before, and of the others the first of equal ones. -/
theorem foldl_insert_eq (seen tags : List String) :
    tags.foldl insert seen = seen ++ (tags.filter fun tag ↦ !seen.contains tag).eraseDups := by
  induction tags generalizing seen with
  | nil => rw [List.foldl_nil, List.filter_nil, List.eraseDups_nil, List.append_nil]
  | cons tag tags ih =>
    rw [List.foldl_cons, ih, insert]
    by_cases hseen : seen.contains tag
    · rw [if_pos hseen, List.filter_cons_of_neg (by simpa using hseen)]
    · have hfilter : (tags.filter fun t ↦ !(seen ++ [tag]).contains t) =
          (tags.filter fun t ↦ !seen.contains t).filter fun t ↦ !(t == tag) := by
        rw [List.filter_filter]
        refine List.filter_congr fun t _ ↦ ?_
        rw [List.contains_append, Bool.not_or, Bool.and_comm, List.contains_cons, List.contains_nil,
          Bool.or_false]
      rw [if_neg hseen, List.filter_cons_of_pos (by simpa using hseen), List.eraseDups_cons,
        hfilter, List.append_assoc, List.singleton_append]

/-- A set has the tags of the list that it is made from, each at its first place. -/
theorem tags_ofList (tags : List String) : (ofList tags).tags = tags.eraseDups := by
  have hall : (tags.filter fun tag ↦ !([] : List String).contains tag) = tags :=
    List.filter_eq_self.mpr fun _ _ ↦ rfl
  rw [ofList, foldl_insert_eq, List.nil_append, hall]

theorem has_ofList {tags : List String} {tag : String} :
    (ofList tags).has tag = true ↔ tag ∈ tags := by
  rw [has, List.contains_iff_mem, tags_ofList, List.mem_eraseDups]

/-! ### Sets that grow -/

/-- One more tag for a set is one more tag behind the list that it was made from. -/
theorem add_ofList (tags : List String) (tag : String) :
    (ofList tags).add tag = ofList (tags ++ [tag]) := by
  have hrebuilt : (ofList tags).tags.foldl insert [] = tags.foldl insert [] :=
    congrArg Provenance.tags (ofList_tags (nodup_ofList tags))
  refine congrArg Provenance.mk ?_
  rw [List.foldl_append, List.foldl_append, hrebuilt]

theorem foldl_add_ofList (tags further : List String) :
    further.foldl add (ofList tags) = ofList (tags ++ further) := by
  induction further generalizing tags with
  | nil => rw [List.foldl_nil, List.append_nil]
  | cons tag further ih => rw [List.foldl_cons, add_ofList, ih, ← List.append_cons]

/-- A set made from tags and grown by further ones is an ordered set of all of them: its tags are
theirs, each at its first place and none twice, and it has no others. It is the set made from all of
them at once, and the one that is rebuilt from its own tags. -/
theorem grown_is_ordered_set (tags further : List String) :
    (further.foldl add (ofList tags)).tags = (tags ++ further).eraseDups ∧
      (further.foldl add (ofList tags)).tags.Nodup ∧
      (∀ tag, (further.foldl add (ofList tags)).has tag = true ↔ tag ∈ tags ++ further) ∧
      further.foldl add (ofList tags) = ofList (tags ++ further) ∧
      ofList (further.foldl add (ofList tags)).tags = further.foldl add (ofList tags) := by
  rw [foldl_add_ofList]
  have hnodup := nodup_ofList (tags ++ further)
  exact ⟨tags_ofList _, hnodup, fun _ ↦ has_ofList, rfl, ofList_tags hnodup⟩

end DeclTree.Provenance
