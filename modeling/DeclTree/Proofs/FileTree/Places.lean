import DeclTree.Proofs.FileTree
import DeclTree.Proofs.Name

/-!
# Where paths lead

A written path is followed step by step. `FileTree.StandsIn` says that the steps before the last one
lead to a directory; then only the last step decides where the path leads. A text without slashes
that is put behind a path changes that last step alone, so the path and all that is written like it
with something behind lead to places side by side, `StandsIn.resolve_append_iff`.

In a sound tree every entry stands in a directory. There a path that does not lead to a directory
ends in a name, `exists_standsIn`.
-/

set_option autoImplicit false
set_option relaxedAutoImplicit false

namespace DeclTree

/-! ### The last piece of a text -/

namespace Text

theorem pieces_of_not_mem {α : Type} [BEq α] [LawfulBEq α] {sep : α} {as : List α}
    (has : sep ∉ as) : pieces sep as = [as] := by
  induction as with
  | nil => rfl
  | cons a as ih =>
    rw [List.mem_cons, not_or] at has
    rw [pieces, if_neg (by simpa using Ne.symm has.1), ih has.2]

/-- What holds no separator goes to the last piece of what stands before it. -/
theorem pieces_append {α : Type} [BEq α] [LawfulBEq α] {sep : α} {bs : List α} (hbs : sep ∉ bs)
    (as : List α) :
    ∃ init last, pieces sep as = init ++ [last] ∧ pieces sep (as ++ bs) = init ++ [last ++ bs] := by
  induction as with
  | nil => exact ⟨[], [], rfl, pieces_of_not_mem hbs⟩
  | cons a as ih =>
    obtain ⟨init, last, hbefore, hafter⟩ := ih
    rw [List.cons_append, pieces, pieces, hbefore, hafter]
    by_cases ha : (a == sep) = true
    · rw [if_pos ha, if_pos ha]
      exact ⟨[] :: init, last, rfl, rfl⟩
    · rw [if_neg ha, if_neg ha]
      cases init with
      | nil => exact ⟨[], a :: last, rfl, rfl⟩
      | cons piece init => exact ⟨(a :: piece) :: init, last, rfl, rfl⟩

/-- A separator at the end makes the last piece empty. -/
theorem pieces_append_sep {α : Type} [BEq α] [LawfulBEq α] (sep : α) (as : List α) :
    pieces sep (as ++ [sep]) = pieces sep as ++ [[]] := by
  induction as with
  | nil => simp [pieces]
  | cons a as ih =>
    obtain ⟨piece, rest, hpieces⟩ := List.exists_cons_of_ne_nil
      (pieces_eq_splitOn sep as ▸ List.splitOn_ne_nil sep as)
    rw [List.cons_append, pieces, pieces, ih, hpieces]
    split
    · rfl
    · rfl

theorem splitAt_append {sep : Char} {tail : String} (htail : sep ∉ tail.toList) (text : String) :
    ∃ init last, splitAt sep text = init ++ [last] ∧
      splitAt sep (text ++ tail) = init ++ [last ++ tail] := by
  obtain ⟨init, last, hbefore, hafter⟩ := pieces_append htail text.toList
  refine ⟨init.map String.ofList, String.ofList last, ?_, ?_⟩
  · rw [splitAt, hbefore, List.map_append, List.map_singleton]
  · rw [splitAt, String.toList_append, hafter, List.map_append, List.map_singleton,
      String.ofList_append, String.ofList_toList]

end Text

namespace Path

/-- A step of a path that goes to an entry of a directory. -/
def IsName (step : String) : Prop := step ≠ "" ∧ step ≠ "." ∧ step ≠ ".."

/-- Where a written path starts. -/
def start (workdir : Path) (text : String) : Path := if isRooted text then [] else workdir

theorem start_append (workdir : Path) (text : String) {tail : String}
    (htail : '/' ∉ tail.toList) : start workdir (text ++ tail) = start workdir text := by
  have hrooted : isRooted (text ++ tail) = isRooted text := by
    unfold isRooted
    rw [String.toList_append]
    cases text.toList with
    | cons c cs => rfl
    | nil =>
      rw [List.nil_append, List.head?_nil, decide_eq_decide]
      exact iff_of_false (fun hhead ↦ htail (List.mem_of_mem_head? hhead)) nofun
  rw [start, hrooted, start]

/-- A path without a slash at its end has none to take off. -/
theorem unslashed_eq_self {text : String} (hend : text.toList.getLast? ≠ some '/') :
    unslashed text = text := by
  have hkept : (text.toList.reverse.dropWhile fun c ↦ c = '/') = text.toList.reverse := by
    rw [← List.head?_reverse] at hend
    cases hreverse : text.toList.reverse with
    | nil => rfl
    | cons c cs =>
      rw [hreverse] at hend
      exact List.dropWhile_cons_of_neg (by simpa using hend)
  rw [unslashed, hkept, List.reverse_reverse]
  split
  · next hempty =>
    simp only [List.isEmpty_iff, Bool.and_eq_true, isRooted, decide_eq_true_eq] at hempty
    rw [hempty.1] at hempty
    exact nomatch hempty.2
  · exact String.ofList_toList

/-- A path whose last step is not empty asks for no directory. -/
theorem slashed?_eq_none {text last : String} {init : List String}
    (hsteps : steps text = init ++ [last]) (hlast : last ≠ "") : slashed? text = none := by
  have hend : text.toList.getLast? ≠ some '/' := by
    intro hslash
    obtain ⟨cs, htext⟩ := List.getLast?_eq_some_iff.mp hslash
    rw [steps, Text.splitAt, htext, Text.pieces_append_sep, List.map_append,
      List.map_singleton] at hsteps
    exact hlast (List.singleton_inj.mp (List.append_inj_right' hsteps rfl)).symm
  simp only [slashed?, unslashed_eq_self hend]
  exact if_pos (by simp)

end Path

namespace FileTree

variable {t u : FileTree} {workdir dir place path : Path} {text last tail : String}

/-! ### Following a path up to its last step -/

theorem follow_append (t : FileTree) (place : Path) (as bs : List String) :
    t.follow place (as ++ bs) = t.follow place as >>= fun dir ↦ t.follow dir bs := by
  induction as generalizing place with
  | nil => rfl
  | cons step as ih =>
    rw [List.cons_append, follow, follow]
    cases t.requireDir place with
    | error trouble => rfl
    | ok _ =>
      simp only [bind, Except.bind]
      split_ifs
      · exact ih place
      · exact ih place.dropLast
      · rfl
      · exact ih (place ++ [step])

theorem requirePath_eq_ok_iff :
    requirePath text = .ok () ↔
      Char.ofNat 0 ∉ text.toList ∧ text ≠ "" ∧ text.utf8ByteSize ≤ maxPath := by
  unfold requirePath
  split_ifs with hnul hempty hlong
  · exact iff_of_false nofun fun h ↦ h.1 (List.contains_iff_mem.mp hnul)
  · exact iff_of_false nofun fun h ↦ h.2.1 hempty
  · exact iff_of_false nofun fun h ↦ Nat.not_lt.mpr h.2.2 hlong
  · exact iff_of_true rfl ⟨fun h ↦ hnul (List.contains_iff_mem.mpr h), hempty, Nat.not_lt.mp hlong⟩

theorem resolve_eq (t : FileTree) (workdir : Path) (text : String) :
    t.resolve workdir text =
      requirePath text >>= fun _ ↦ t.follow (Path.start workdir text) (Path.steps text) := rfl

theorem resolve_eq_ok_iff :
    t.resolve workdir text = .ok path ↔ requirePath text = .ok () ∧
      t.follow (Path.start workdir text) (Path.steps text) = .ok path := by
  rw [resolve_eq]
  cases requirePath text with
  | error trouble => exact iff_of_false nofun nofun
  | ok _ => exact (and_iff_right rfl).symm

theorem KeepsDirs.resolve (hkeeps : t.KeepsDirs u) (h : t.resolve workdir text = .ok path) :
    u.resolve workdir text = .ok path := by
  obtain ⟨hrequire, hfollow⟩ := resolve_eq_ok_iff.mp h
  exact resolve_eq_ok_iff.mpr ⟨hrequire, hkeeps.follow hfollow⟩

theorem stat_eq_ok_iff {e : Entry} :
    t.stat workdir text = .ok e ↔
      ∃ path, t.resolve workdir text = .ok path ∧ t.entry? path = some e := by
  unfold stat
  cases t.resolve workdir text with
  | error trouble => exact iff_of_false nofun nofun
  | ok path =>
    simp only [bind, Except.bind, Except.ok.injEq, exists_eq_left']
    cases hentry : t.entry? path with
    | none => exact iff_of_false nofun nofun
    | some e' =>
      exact ⟨fun h ↦ congrArg some (Except.ok.inj h),
        fun h ↦ congrArg Except.ok (Option.some.inj h)⟩

theorem KeepsDirs.stat (hkeeps : t.KeepsDirs u) (h : t.stat workdir text = .ok .dir) :
    u.stat workdir text = .ok .dir := by
  obtain ⟨path, hresolve, hentry⟩ := stat_eq_ok_iff.mp h
  exact stat_eq_ok_iff.mpr ⟨path, hkeeps.resolve hresolve, hkeeps path hentry⟩

/-- Whether the steps of a path before its last one lead to a directory. -/
structure StandsIn (t : FileTree) (workdir : Path) (text : String) (dir : Path) (last : String) :
    Prop where
  leads : ∃ init, Path.steps text = init ++ [last] ∧
    t.follow (Path.start workdir text) init = .ok dir
  isDir : t.entry? dir = some .dir

theorem follow_singleton (hdir : t.entry? dir = some .dir) (last : String) :
    t.follow dir [last] =
      if last = "" || last = "." then .ok dir
      else if last = ".." then .ok dir.dropLast
      else if maxName < last.utf8ByteSize then .error .tooLong
      else .ok (dir ++ [last]) := by
  rw [follow, requireDir_eq_ok_iff.mpr hdir]
  rfl

theorem follow_name_iff (hdir : t.entry? dir = some .dir) (hlast : Path.IsName last) :
    t.follow dir [last] = .ok path ↔ last.utf8ByteSize ≤ maxName ∧ path = dir ++ [last] := by
  obtain ⟨hempty, hhere, hup⟩ := hlast
  rw [follow_singleton hdir, if_neg (by simp [hempty, hhere]), if_neg hup]
  split_ifs with hlong
  · exact iff_of_false nofun fun h ↦ Nat.not_lt.mpr h.1 hlong
  · rw [Except.ok.injEq, and_iff_right (Nat.not_lt.mp hlong), eq_comm]

namespace StandsIn

theorem follow_eq (h : t.StandsIn workdir text dir last) :
    t.follow (Path.start workdir text) (Path.steps text) = t.follow dir [last] := by
  obtain ⟨init, hsteps, hinit⟩ := h.leads
  rw [hsteps, follow_append, hinit]
  rfl

theorem resolve_iff (h : t.StandsIn workdir text dir last) (hlast : Path.IsName last) :
    t.resolve workdir text = .ok path ↔
      requirePath text = .ok () ∧ last.utf8ByteSize ≤ maxName ∧ path = dir ++ [last] := by
  rw [resolve_eq_ok_iff, h.follow_eq, follow_name_iff h.isDir hlast]

/-- Where a path stands is determined by the path. -/
theorem unique {dir' : Path} {last' : String} (h : t.StandsIn workdir text dir last)
    (h' : t.StandsIn workdir text dir' last') : dir = dir' ∧ last = last' := by
  obtain ⟨init, hsteps, hinit⟩ := h.leads
  obtain ⟨init', hsteps', hinit'⟩ := h'.leads
  obtain ⟨rfl, hlast⟩ := List.append_inj' (hsteps.symm.trans hsteps') rfl
  exact ⟨Except.ok.inj (hinit.symm.trans hinit'), List.singleton_inj.mp hlast⟩

end StandsIn

theorem exists_standsIn_of_resolve (h : t.resolve workdir text = .ok path) :
    ∃ dir last, t.StandsIn workdir text dir last := by
  obtain ⟨-, hfollow⟩ := resolve_eq_ok_iff.mp h
  have hne : Path.steps text ≠ [] := Text.splitAt_ne_nil '/' text
  rw [← List.dropLast_concat_getLast hne, follow_append] at hfollow
  cases hdir : t.follow (Path.start workdir text) (Path.steps text).dropLast with
  | error trouble =>
    rw [hdir] at hfollow
    cases hfollow
  | ok dir =>
    rw [hdir] at hfollow
    refine ⟨dir, (Path.steps text).getLast hne,
      ⟨_, (List.dropLast_concat_getLast hne).symm, hdir⟩, requireDir_eq_ok_iff.mp ?_⟩
    change t.follow dir [(Path.steps text).getLast hne] = .ok path at hfollow
    rw [follow] at hfollow
    cases hrequire : t.requireDir dir with
    | error trouble =>
      rw [hrequire] at hfollow
      cases hfollow
    | ok _ => rfl

/-! ### Sound trees -/

/-- Whether every entry stands in a directory. -/
def Sound (t : FileTree) : Prop :=
  ∀ path, t.entry? path ≠ none → t.entry? path.dropLast = some .dir

theorem sound_of_entries (h : ∀ entry ∈ t.entries, t.entry? entry.1.dropLast = some .dir) :
    t.Sound := by
  intro path hpath
  by_cases hroot : path = []
  · rw [hroot]
    rfl
  · rw [ entry?, if_neg (by rwa [List.isEmpty_iff]), ne_eq, List.lookup_eq_none_iff] at hpath
    push Not at hpath
    obtain ⟨entry, hentry, hkey⟩ := hpath
    have hpath : path = entry.1 := by simpa using hkey
    rw [hpath]
    exact h entry hentry

/-- There is nothing below what is not a directory. -/
theorem Sound.entry?_below (hsound : t.Sound) (hpath : t.entry? path ≠ some .dir)
    {below : List String} (hbelow : below ≠ []) : t.entry? (path ++ below) = none := by
  induction below using List.reverseRecOn with
  | nil => exact absurd rfl hbelow
  | append_singleton below last ih =>
    by_contra hentry
    have hparent := hsound _ hentry
    rw [← List.append_assoc, List.dropLast_concat] at hparent
    by_cases hempty : below = []
    · rw [hempty, List.append_nil] at hparent
      exact hpath hparent
    · rw [ih hempty] at hparent
      exact nomatch hparent

/-- In a sound tree a path that does not lead to a directory ends in a name. -/
theorem Sound.exists_standsIn (hsound : t.Sound) (h : t.resolve workdir text = .ok path)
    (hpath : t.entry? path ≠ some .dir) :
    ∃ dir last, t.StandsIn workdir text dir last ∧ Path.IsName last ∧ path = dir ++ [last] := by
  obtain ⟨dir, last, hstands⟩ := exists_standsIn_of_resolve h
  obtain ⟨-, hfollow⟩ := resolve_eq_ok_iff.mp h
  rw [hstands.follow_eq, follow_singleton hstands.isDir] at hfollow
  have hdir : t.entry? dir ≠ none := by
    rw [hstands.isDir]
    exact nofun
  split_ifs at hfollow with hstay hup hlong
  · obtain rfl := Except.ok.inj hfollow
    exact absurd hstands.isDir hpath
  · obtain rfl := Except.ok.inj hfollow
    exact absurd (hsound dir hdir) hpath
  · simp only [Bool.or_eq_true, decide_eq_true_eq, not_or] at hstay
    exact ⟨dir, last, hstands, ⟨hstay.1, hstay.2, hup⟩, (Except.ok.inj hfollow).symm⟩

/-! ### Paths with something behind -/

/-- Whether a text that is put behind a path changes its last name alone, and into a name. -/
structure IsTail (tail : String) : Prop where
  noSlash : '/' ∉ tail.toList
  noNull : Char.ofNat 0 ∉ tail.toList
  isLong : 2 < tail.length

theorem IsTail.isName (htail : IsTail tail) (last : String) : Path.IsName (last ++ tail) := by
  have hlength : 2 < (last ++ tail).length := by
    rw [String.length_append]
    exact Nat.lt_add_left _ htail.isLong
  refine ⟨?_, ?_, ?_⟩
  all_goals
    intro heq
    rw [heq] at hlength
    exact absurd hlength (by decide)

theorem standsIn_append_iff (htail : IsTail tail) {name : String} :
    t.StandsIn workdir (text ++ tail) dir name ↔
      ∃ last, name = last ++ tail ∧ t.StandsIn workdir text dir last := by
  obtain ⟨init, last, hbefore, hafter⟩ := Text.splitAt_append htail.noSlash text
  constructor
  · rintro ⟨⟨init', hsteps, hinit⟩, hdir⟩
    obtain ⟨rfl, hname⟩ := List.append_inj' (hafter.symm.trans hsteps) rfl
    rw [Path.start_append workdir text htail.noSlash] at hinit
    exact ⟨last, (List.singleton_inj.mp hname).symm, ⟨init, hbefore, hinit⟩, hdir⟩
  · rintro ⟨last', rfl, ⟨init', hsteps, hinit⟩, hdir⟩
    obtain ⟨rfl, hlast⟩ := List.append_inj' (hbefore.symm.trans hsteps) rfl
    obtain rfl := List.singleton_inj.mp hlast
    refine ⟨⟨init, hafter, ?_⟩, hdir⟩
    rw [Path.start_append workdir text htail.noSlash, hinit]

/-- A path with something behind leads to a place beside the one it stands for. -/
theorem StandsIn.resolve_append_iff (h : t.StandsIn workdir text dir last) (htail : IsTail tail) :
    t.resolve workdir (text ++ tail) = .ok path ↔
      requirePath (text ++ tail) = .ok () ∧ (last ++ tail).utf8ByteSize ≤ maxName ∧
        path = dir ++ [last ++ tail] :=
  StandsIn.resolve_iff ((standsIn_append_iff htail).mpr ⟨last, rfl, h⟩) (htail.isName last)

/-- Whether there is room for something behind a path depends on its size alone. -/
theorem StandsIn.resolve_append_of_size (h : t.StandsIn workdir text dir last) {tail' : String}
    (htail : IsTail tail) (htail' : IsTail tail') (hsize : tail'.utf8ByteSize = tail.utf8ByteSize)
    (hresolve : t.resolve workdir (text ++ tail) = .ok path) :
    t.resolve workdir (text ++ tail') = .ok (dir ++ [last ++ tail']) := by
  obtain ⟨hrequire, hfits, -⟩ := (h.resolve_append_iff htail).mp hresolve
  rw [requirePath_eq_ok_iff, String.toList_append, List.mem_append, not_or,
    String.utf8ByteSize_append, ← hsize, ← String.utf8ByteSize_append] at hrequire
  rw [String.utf8ByteSize_append, ← hsize, ← String.utf8ByteSize_append] at hfits
  refine (h.resolve_append_iff htail').mpr
    ⟨requirePath_eq_ok_iff.mpr ⟨?_, ?_, hrequire.2.2⟩, hfits, rfl⟩
  · rw [String.toList_append, List.mem_append, not_or]
    exact ⟨hrequire.1.1, htail'.noNull⟩
  · intro hempty
    have hlength := htail'.isLong
    rw [(String.append_eq_empty_iff.mp hempty).2] at hlength
    exact absurd hlength (by decide)

theorem requirePath_of_append (htext : text ≠ "") (h : requirePath (text ++ tail) = .ok ()) :
    requirePath text = .ok () := by
  rw [requirePath_eq_ok_iff, String.toList_append, List.mem_append, not_or,
    String.utf8ByteSize_append] at h
  exact requirePath_eq_ok_iff.mpr ⟨h.1.1, htext, Nat.le_trans (Nat.le_add_right _ _) h.2.2⟩

/-- A path that can be followed with something behind can be followed without. -/
theorem exists_resolve_of_append (htail : IsTail tail) (htext : text ≠ "")
    (h : t.resolve workdir (text ++ tail) = .ok path) :
    ∃ place, t.resolve workdir text = .ok place := by
  obtain ⟨dir, name, hname⟩ := exists_standsIn_of_resolve h
  obtain ⟨last, -, hstands⟩ := (standsIn_append_iff htail).mp hname
  obtain ⟨hrequire, hfits, -⟩ := (hstands.resolve_append_iff htail).mp h
  have hlast : ¬maxName < last.utf8ByteSize := by
    rw [String.utf8ByteSize_append] at hfits
    exact Nat.not_lt.mpr (Nat.le_trans (Nat.le_add_right _ _) hfits)
  simp only [resolve_eq_ok_iff, requirePath_of_append htext hrequire, hstands.follow_eq,
    follow_singleton hstands.isDir, hlast, if_false, true_and]
  split_ifs
  · exact ⟨_, rfl⟩
  · exact ⟨_, rfl⟩
  · exact ⟨_, rfl⟩

theorem resolve_missing_iff (htext : text ≠ "") :
    t.resolve workdir text = .error .missing ↔ requirePath text = .ok () ∧
      t.follow (Path.start workdir text) (Path.steps text) = .error .missing := by
  rw [resolve_eq]
  unfold requirePath
  split_ifs
  · exact iff_of_false nofun nofun
  · exact iff_of_false nofun nofun
  · exact (and_iff_right rfl).symm

/-- What is missing on the way of a path with something behind is missing on the way of the path. -/
theorem resolve_missing_of_append (htail : IsTail tail) (htext : text ≠ "")
    (h : t.resolve workdir (text ++ tail) = .error .missing) :
    t.resolve workdir text = .error .missing := by
  obtain ⟨init, last, hbefore, hafter⟩ := Text.splitAt_append htail.noSlash text
  have hlong : text ++ tail ≠ "" := fun heq ↦ htext (String.append_eq_empty_iff.mp heq).1
  obtain ⟨hrequire, hfollow⟩ := (resolve_missing_iff hlong).mp h
  rw [Path.start_append workdir text htail.noSlash, Path.steps, hafter, follow_append] at hfollow
  refine (resolve_missing_iff htext).mpr ⟨requirePath_of_append htext hrequire, ?_⟩
  rw [Path.steps, hbefore, follow_append]
  cases hinit : t.follow (Path.start workdir text) init with
  | error trouble =>
    rw [hinit] at hfollow
    exact hfollow
  | ok dir =>
    rw [hinit] at hfollow
    change t.follow dir [last ++ tail] = .error .missing at hfollow
    change t.follow dir [last] = .error .missing
    cases hdir : t.requireDir dir with
    | error trouble =>
      rw [follow, hdir] at hfollow ⊢
      exact hfollow
    | ok _ =>
      -- In a directory a name can be too long, but it leads somewhere.
      obtain ⟨hempty, hhere, hup⟩ := htail.isName last
      rw [follow_singleton (requireDir_eq_ok_iff.mp hdir), if_neg (by simp [hempty, hhere]),
        if_neg hup] at hfollow
      split_ifs at hfollow
      cases hfollow

end FileTree

end DeclTree
