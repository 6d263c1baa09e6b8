import DeclTree.Proofs.FileTree.Places
import Mathlib.Logic.Function.Basic

/-!
# What changes in a tree

Writing, removing and renaming a file change what is at one or two places and nothing else. Seen as
a function on places, the entries of the tree are updated there: `entry?_put`, `entry?_erase` and
`entry?_rename`. Such an update keeps all directories and leaves the tree sound.
-/

set_option autoImplicit false
set_option relaxedAutoImplicit false

namespace DeclTree.FileTree

variable {t u : FileTree} {workdir path source target : Path} {e : Option Entry}

/-! ### Entries after a change -/

theorem ne_nil_of_not_dir (h : t.entry? path ≠ some .dir) : path ≠ [] := by
  rintro rfl
  exact h rfl

theorem entry?_put (t : FileTree) (hpath : path ≠ []) (e : Entry) :
    FileTree.entry? (t.put path e) = Function.update (FileTree.entry? t) path (some e) := by
  funext q
  by_cases hq : q = path
  · rw [hq, entry?_put_self t hpath, Function.update_self]
  · rw [ entry?_put_of_ne t hq, Function.update_of_ne hq]

theorem lookup_cons_eq_ite (p q : Path) (old : Entry) (entries : List (Path × Entry)) :
    ((p, old) :: entries).lookup q = if q = p then some old else entries.lookup q := by
  rw [List.lookup_cons]
  by_cases hq : q = p
  · rw [beq_iff_eq.mpr hq, if_pos hq]
  · rw [beq_eq_false_iff_ne.mpr hq, if_neg hq]

theorem lookup_erased (entries : List (Path × Entry)) (path q : Path) :
    (entries.filter fun (p, _) ↦ p ≠ path).lookup q =
      if q = path then none else entries.lookup q := by
  induction entries with
  | nil => rw [List.filter_nil, List.lookup_nil, ite_self]
  | cons entry entries ih =>
    obtain ⟨p, old⟩ := entry
    by_cases hp : p = path
    · rw [List.filter_cons_of_neg (by simpa using hp), ih, lookup_cons_eq_ite, hp]
      by_cases hq : q = path
      · rw [if_pos hq, if_pos hq]
      · rw [if_neg hq, if_neg hq, if_neg hq]
    · rw [List.filter_cons_of_pos (by simpa using hp), lookup_cons_eq_ite, lookup_cons_eq_ite, ih]
      by_cases hq : q = p
      · rw [if_pos hq, if_pos hq, if_neg (hq ▸ hp)]
      · rw [if_neg hq, if_neg hq]

theorem entry?_erase (t : FileTree) (hpath : path ≠ []) :
    FileTree.entry? (t.erase path) = Function.update (FileTree.entry? t) path none := by
  funext q
  rw [ entry?, erase, lookup_erased]
  by_cases hq : q = path
  · rw [hq, if_neg (by rwa [List.isEmpty_iff]), if_pos rfl, Function.update_self]
  · rw [if_neg hq, Function.update_of_ne hq, entry?]

/-- Entries that are moved from one place to another where there is none. -/
theorem lookup_moved {entries : List (Path × Entry)} (hne : source ≠ target)
    (hroom : ∀ entry ∈ entries, entry.1 ≠ target) (q : Path) :
    (entries.map fun (p, old) ↦ if p = source then (target, old) else (p, old)).lookup q =
      if q = source then none else if q = target then entries.lookup source
      else entries.lookup q := by
  induction entries with
  | nil => rw [List.map_nil, List.lookup_nil, List.lookup_nil, ite_self, ite_self]
  | cons entry entries ih =>
    obtain ⟨p, old⟩ := entry
    obtain ⟨hp, hrest⟩ := List.forall_mem_cons.mp hroom
    rw [List.map_cons]
    by_cases hmoved : p = source
    · simp only [hmoved, if_true, lookup_cons_eq_ite, ih hrest]
      by_cases hq : q = target
      · rw [if_pos hq, if_pos hq, if_neg (hq ▸ hne.symm)]
      · rw [if_neg hq, if_neg hq]
        by_cases hq' : q = source
        · rw [if_pos hq', if_pos hq']
        · rw [if_neg hq', if_neg hq', if_neg hq', if_neg hq]
    · simp only [hmoved, if_false, lookup_cons_eq_ite, ih hrest, Ne.symm hmoved]
      by_cases hq : q = p
      · rw [if_pos hq, if_pos hq, if_neg (hq ▸ hmoved), if_neg (hq ▸ hp)]
      · rw [if_neg hq, if_neg hq]

/-- In a sound tree only the entry of a file begins with its place. -/
theorem Sound.isPrefixOf_iff (hsound : t.Sound) (hpath : t.entry? path ≠ some .dir)
    {entry : Path × Entry} (hentry : entry ∈ t.entries) :
    path.isPrefixOf entry.1 = true ↔ entry.1 = path := by
  rw [List.isPrefixOf_iff_prefix]
  constructor
  · rintro ⟨below, hbelow⟩
    by_contra hne
    have hnonempty : below ≠ [] := by
      rintro rfl
      exact hne (by rw [← hbelow, List.append_nil])
    have hnone := hsound.entry?_below hpath hnonempty
    have hroot : entry.1 ≠ [] := by
      rw [← hbelow]
      exact List.append_ne_nil_of_right_ne_nil _ hnonempty
    rw [hbelow, entry?, if_neg (by rwa [List.isEmpty_iff]), List.lookup_eq_none_iff] at hnone
    exact absurd (hnone entry hentry) (by simp)
  · intro heq
    exact heq ▸ List.prefix_rfl

/-- In a sound tree renaming a file concerns its own entry and that of the file which it replaces. -/
theorem Sound.rename_eq (hsound : t.Sound) {a b content : String}
    (ha : t.resolve workdir a = .ok source) (hb : t.resolve workdir b = .ok target)
    (hsource : t.entry? source = some (.file content)) (htarget : t.entry? target ≠ some .dir)
    (hne : source ≠ target) :
    t.rename workdir a b = .ok ⟨(t.entries.filter fun (p, _) ↦ p ≠ target).map fun (p, old) ↦
      if p = source then (target, old) else (p, old)⟩ := by
  have hpresent : t.entry? source ≠ some .dir := by
    rw [hsource]
    exact nofun
  have hrest : (t.entries.filter fun (p, _) ↦ !target.isPrefixOf p || source.isPrefixOf p) =
      t.entries.filter fun (p, _) ↦ p ≠ target := by
    refine List.filter_congr fun entry hentry ↦ ?_
    by_cases hp : entry.1 = target
    · have hmoved : source.isPrefixOf entry.1 = false := by
        rw [← Bool.not_eq_true, hsound.isPrefixOf_iff hpresent hentry, hp]
        exact hne.symm
      simp [hp, hp ▸ hmoved]
    · have hkept : target.isPrefixOf entry.1 = false := by
        rwa [← Bool.not_eq_true, hsound.isPrefixOf_iff htarget hentry]
      simp [hp, hkept]
  have hmoved : ((t.entries.filter fun (p, _) ↦ p ≠ target).map fun (p, old) ↦
        if source.isPrefixOf p then (target ++ p.drop source.length, old) else (p, old)) =
      (t.entries.filter fun (p, _) ↦ p ≠ target).map fun (p, old) ↦
        if p = source then (target, old) else (p, old) := by
    refine List.map_congr_left fun entry hentry ↦ ?_
    have hiff := hsound.isPrefixOf_iff hpresent (List.mem_filter.mp hentry).1
    by_cases hp : entry.1 = source
    · simp [hp]
    · simp [hp, hiff]
  rw [← hmoved, ← hrest, rename, ha, hb]
  simp only [bind, Except.bind, hsource]
  rfl

/-- Renaming a file moves its entry, and takes the place of another file. -/
theorem entry?_rename (hsound : t.Sound) {a b content : String}
    (ha : t.resolve workdir a = .ok source) (hb : t.resolve workdir b = .ok target)
    (hsource : t.entry? source = some (.file content)) (htarget : t.entry? target ≠ some .dir)
    (hne : source ≠ target) :
    ∃ u, t.rename workdir a b = .ok u ∧
      FileTree.entry? u = Function.update
        (Function.update (FileTree.entry? t) target (some (.file content))) source none := by
  refine ⟨_, hsound.rename_eq ha hb hsource htarget hne, funext fun q ↦ ?_⟩
  have hsourceRoot : source ≠ [] := ne_nil_of_not_dir (by rw [hsource]; exact nofun)
  by_cases hroot : q = []
  · rw [hroot, Function.update_of_ne hsourceRoot.symm,
      Function.update_of_ne (ne_nil_of_not_dir htarget).symm]
    rfl
  have hsourceAt : t.entries.lookup source = some (.file content) := by
    rwa [ entry?, if_neg (by rwa [List.isEmpty_iff])] at hsource
  have hroom : ∀ entry ∈ t.entries.filter fun (p, _) ↦ p ≠ target, entry.1 ≠ target :=
    fun entry hentry ↦ of_decide_eq_true (List.mem_filter.mp hentry).2
  rw [ entry?, if_neg (by rwa [List.isEmpty_iff]), lookup_moved hne hroom, lookup_erased,
    lookup_erased, if_neg hne, hsourceAt]
  by_cases hq : q = source
  · rw [if_pos hq, hq, Function.update_self]
  · rw [if_neg hq, Function.update_of_ne hq]
    by_cases hq' : q = target
    · rw [if_pos hq', hq', Function.update_self]
    · rw [if_neg hq', if_neg hq', Function.update_of_ne hq', entry?,
        if_neg (by rwa [List.isEmpty_iff])]

/-! ### Reading and writing at a place -/

theorem read_of_file {text content : String} (hresolve : t.resolve workdir text = .ok path)
    (hpath : t.entry? path = some (.file content)) : t.read workdir text = .ok content := by
  rw [read, stat_eq_ok_iff.mpr ⟨path, hresolve, hpath⟩]
  rfl

theorem Sound.write_eq (hsound : t.Sound) {text : String}
    (hresolve : t.resolve workdir text = .ok path) (hpath : t.entry? path ≠ some .dir)
    (content : String) : t.write workdir text content = .ok (t.put path (.file content)) := by
  obtain ⟨dir, last, hstands, hlast, -⟩ := hsound.exists_standsIn hresolve hpath
  obtain ⟨init, hsteps, -⟩ := hstands.leads
  exact write_eq_ok_iff.mpr ⟨(resolve_eq_ok_iff.mp hresolve).1,
    Path.slashed?_eq_none hsteps hlast.1, path, hresolve, hpath, rfl⟩

/-! ### What a change keeps -/

section Update

variable (hu : FileTree.entry? u = Function.update (FileTree.entry? t) path e)
  (hpath : t.entry? path ≠ some .dir)

include hu hpath

theorem keepsDirs_of_update : t.KeepsDirs u := by
  intro place hplace
  have hne : place ≠ path := by
    rintro rfl
    exact hpath hplace
  rw [hu, Function.update_of_ne hne, hplace]

/-- A tree stays sound when an entry in one of its directories changes that is none itself. -/
theorem Sound.update (hsound : t.Sound) (hparent : t.entry? path.dropLast = some .dir) :
    u.Sound := by
  intro place hplace
  refine keepsDirs_of_update hu hpath _ ?_
  by_cases hne : place = path
  · rwa [hne]
  · rw [hu, Function.update_of_ne hne] at hplace
    exact hsound place hplace

end Update

end DeclTree.FileTree
