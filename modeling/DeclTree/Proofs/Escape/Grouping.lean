import DeclTree.Escape.Collision
import Mathlib.Data.List.Basic
import Mathlib.Data.List.Induction

/-!
# Grouping names

Names are put under the keys that escaping gives them one after the other. `Collision.group_eq` says
what that comes to: the keys in the order in which they first occur, and under each of them the
names with that key, each once.

`Collision.between` reports collisions from the names of siblings before and after. It does not
escape anything itself, and `Collision.ofNames_eq_between` says that the detector reports the same
where it knows what becomes of each name.
-/

set_option autoImplicit false
set_option relaxedAutoImplicit false

namespace DeclTree.Collision

/-! ### Lists without repetitions -/

theorem eraseDups_concat (as : List String) (a : String) :
    (as ++ [a]).eraseDups = if a ∈ as then as.eraseDups else as.eraseDups ++ [a] := by
  rw [List.eraseDups_append]
  by_cases ha : a ∈ as
  · rw [if_pos ha]
    simp [List.removeAll, ha]
  · rw [if_neg ha]
    simp [List.removeAll, ha, List.eraseDups_cons]

theorem nodup_eraseDups (as : List String) : as.eraseDups.Nodup := by
  induction as using List.reverseRecOn with
  | nil => exact List.nodup_nil
  | append_singleton as a ih =>
    rw [eraseDups_concat]
    by_cases ha : a ∈ as
    · rwa [if_pos ha]
    · rw [if_neg ha, List.nodup_append]
      refine ⟨ih, List.pairwise_singleton _ a, fun b hb c hc ↦ ?_⟩
      obtain rfl := List.mem_singleton.mp hc
      rintro rfl
      exact ha (List.mem_eraseDups.mp hb)

theorem one_lt_length_eraseDups {as : List String} :
    1 < as.eraseDups.length ↔ ∃ a ∈ as, ∃ b ∈ as, a ≠ b := by
  cases as with
  | nil => simp
  | cons a as =>
    have hlength : 1 < (a :: as).eraseDups.length ↔ ∃ b ∈ as, b ≠ a := by
      rw [List.eraseDups_cons, List.length_cons, Nat.lt_add_left_iff_pos,
        List.length_pos_iff_exists_mem]
      simp
    rw [hlength]
    constructor
    · rintro ⟨b, hb, hne⟩
      exact ⟨b, List.mem_cons_of_mem a hb, a, List.mem_cons_self, hne⟩
    · rintro ⟨b, hb, c, hc, hne⟩
      by_contra hall
      have heq : ∀ x ∈ a :: as, x = a := by
        intro x hx
        rcases List.mem_cons.mp hx with rfl | hx
        · rfl
        · by_contra hxa
          exact hall ⟨x, hx, hxa⟩
      exact hne ((heq b hb).trans (heq c hc).symm)

/-! ### Inserting one name -/

section Insert

variable {keys : List String} {key name : String} (under : String → List String)

theorem insert_of_not_mem (hkey : key ∉ keys) :
    insert key name (keys.map fun k ↦ (k, under k)) =
      (keys.map fun k ↦ (k, under k)) ++ [(key, [name])] := by
  induction keys with
  | nil => rfl
  | cons k keys ih =>
    have hne : k ≠ key := fun heq ↦ hkey (heq ▸ List.mem_cons_self)
    have hrest : key ∉ keys := fun hmem ↦ hkey (List.mem_cons_of_mem k hmem)
    rw [List.map_cons, insert, if_neg hne, ih hrest, List.cons_append]

/-- A name whose key is there goes behind the names under it, unless it is among them. -/
theorem insert_of_mem (hkeys : keys.Nodup) (hkey : key ∈ keys) :
    insert key name (keys.map fun k ↦ (k, under k)) =
      keys.map fun k ↦ (k, if k = key ∧ name ∉ under k then under k ++ [name] else under k) := by
  induction keys with
  | nil => exact nomatch hkey
  | cons k keys ih =>
    obtain ⟨hnew, hrest⟩ := List.nodup_cons.mp hkeys
    rw [List.map_cons, List.map_cons, insert]
    by_cases hk : k = key
    · subst hk
      have hothers : ∀ k' ∈ keys, k' ≠ k := fun k' hk' heq ↦ hnew (heq ▸ hk')
      have hlist : (keys.map fun k' ↦ (k', if k' = k ∧ name ∉ under k' then under k' ++ [name]
          else under k')) = keys.map fun k' ↦ (k', under k') := by
        refine List.map_congr_left fun k' hk' ↦ ?_
        rw [if_neg fun hboth ↦ hothers k' hk' hboth.1]
      rw [hlist, if_pos rfl]
      by_cases hname : name ∈ under k
      · simp [hname]
      · simp [hname]
    · have hin : key ∈ keys := (List.mem_cons.mp hkey).resolve_left fun heq ↦ hk heq.symm
      rw [if_neg hk, ih hrest hin, if_neg fun hboth ↦ hk hboth.1]

end Insert

/-! ### Grouping a list -/

theorem group_eq (escape : String → String) (names : List String) :
    group escape names = (names.map escape).eraseDups.map fun key ↦
      (key, (names.filter fun name ↦ escape name = key).eraseDups) := by
  induction names using List.reverseRecOn with
  | nil => rfl
  | append_singleton names name ih =>
    have hstep : group escape (names ++ [name]) =
        insert (escape name) name (group escape names) := by
      rw [group, List.foldl_append]
      rfl
    -- Under every key but its own the name changes nothing.
    have hother : ∀ key, key ≠ escape name →
        ((names ++ [name]).filter fun n ↦ escape n = key) =
          names.filter fun n ↦ escape n = key := by
      intro key hkey
      simp [List.filter_append, Ne.symm hkey]
    rw [hstep, ih, List.map_append, List.map_singleton, eraseDups_concat]
    by_cases hkey : escape name ∈ names.map escape
    · rw [if_pos hkey, insert_of_mem _ (nodup_eraseDups _) (List.mem_eraseDups.mpr hkey)]
      refine List.map_congr_left fun key _ ↦ ?_
      by_cases heq : key = escape name
      · subst heq
        simp only [List.filter_append, decide_true, List.filter_cons_of_pos, List.filter_nil,
          eraseDups_concat, true_and, List.mem_eraseDups]
        by_cases hname : name ∈ names.filter fun n ↦ escape n = escape name
        · rw [if_pos hname, if_neg (not_not_intro hname)]
        · rw [if_neg hname, if_pos hname]
      · rw [hother key heq, if_neg fun hboth ↦ heq hboth.1]
    · rw [if_neg hkey, insert_of_not_mem _ fun hmem ↦ hkey (List.mem_eraseDups.mp hmem),
        List.map_append, List.map_singleton]
      have hempty : (names.filter fun n ↦ escape n = escape name) = [] := by
        refine List.filter_eq_nil_iff.mpr fun n hn hdec ↦ hkey ?_
        exact List.mem_map.mpr ⟨n, hn, of_decide_eq_true hdec⟩
      congr 1
      · refine List.map_congr_left fun key hmem ↦ ?_
        rw [hother key fun heq ↦ hkey (heq ▸ List.mem_eraseDups.mp hmem)]
      · simp [List.filter_append, hempty, List.eraseDups_cons]

/-! ### Collisions between before and after -/

/-- The collisions of a scope, told from the names of its siblings before and after: for every name
after, in the order of the first of them, the different names that it had before, where these are
two or more. -/
def between (scope : String) (pairs : List (String × String)) : List Collision :=
  (pairs.map Prod.snd).eraseDups.filterMap fun escaped ↦
    let names := ((pairs.filter fun pair ↦ pair.2 = escaped).map Prod.fst).eraseDups
    if 1 < names.length then some ⟨scope, escaped, sorted names⟩ else none

/-- The detector reports what happens where it knows what becomes of each name. -/
theorem ofNames_eq_between (scope : String) (names : List String) (escape : String → String) :
    ofNames scope names escape = between scope (names.map fun name ↦ (name, escape name)) := by
  rw [ofNames, group_eq, between, List.filterMap_map, List.map_map]
  refine List.filterMap_congr fun key _ ↦ ?_
  rw [List.filter_map, List.map_map]
  simp only [Function.comp_def, List.map_id']

/-- There is no collision exactly when siblings of different names keep different names. -/
theorem between_eq_nil_iff {scope : String} {pairs : List (String × String)} :
    between scope pairs = [] ↔ ∀ a ∈ pairs, ∀ b ∈ pairs, a.1 ≠ b.1 → a.2 ≠ b.2 := by
  rw [between, List.filterMap_eq_nil_iff]
  simp only [List.mem_eraseDups, ite_eq_right_iff, reduceCtorEq, imp_false,
    one_lt_length_eraseDups, List.mem_map, List.mem_filter, decide_eq_true_eq]
  constructor
  · intro hnone a ha b hb hne heq
    exact hnone a.2 ⟨a, ha, rfl⟩
      ⟨a.1, ⟨a, ⟨ha, rfl⟩, rfl⟩, b.1, ⟨b, ⟨hb, heq.symm⟩, rfl⟩, hne⟩
  · rintro hkeep _ - ⟨_, ⟨a, ⟨ha, rfl⟩, rfl⟩, _, ⟨b, ⟨hb, heq⟩, rfl⟩, hne⟩
    exact hkeep a ha b hb hne heq.symm

end DeclTree.Collision
