import DeclTree.Config.Save
import DeclTree.Proofs.FileTree.Directories
import Mathlib.Tactic.IntervalCases

/-!
# Saving step by step

Saving is a sequence of steps on files, each of which may fail. `Saving.Leaves` says that steps come
through and what they leave; `leaves_saveGiven_iff` takes a whole save apart into its steps.

The backups of a file stand side by side in one directory, on a `Shelf`. One step drops the oldest
of them, two steps move one on by a place, and the last step copies the file to the first place.
Each changes one or two places of the shelf, so that in the end every backup holds what the one
before it held, `Shelf.backUp`.
-/

set_option autoImplicit false
set_option relaxedAutoImplicit false

namespace DeclTree.Config

/-! ### Steps that succeed -/

namespace Saving

variable {s : Saving Unit} {t u v : FileTree} {workdir : Path} {path : String}

/-- Whether steps succeed on some files, and what they leave. -/
def Leaves (s : Saving Unit) (t u : FileTree) : Prop := s.run.run t = (.ok (), u)

theorem Leaves.unique (hu : s.Leaves t u) (hv : s.Leaves t v) : u = v :=
  (Prod.mk.inj (hu.symm.trans hv)).2

theorem leaves_bind_iff {k : Unit → Saving Unit} :
    Leaves (s >>= k) t v ↔ ∃ u, s.Leaves t u ∧ (k ()).Leaves u v := by
  unfold Leaves
  rw [ExceptT.run_bind, StateT.run_bind]
  generalize s.run.run t = ended
  obtain ⟨outcome, u⟩ := ended
  cases outcome with
  | error fault => exact iff_of_false nofun nofun
  | ok _ =>
    constructor
    · intro h
      exact ⟨u, rfl, h⟩
    · rintro ⟨_, ⟨⟩, h⟩
      exact h

theorem leaves_get_bind_iff {k : FileTree → Saving Unit} :
    Leaves (get >>= k) t u ↔ (k t).Leaves t u := Iff.rfl

theorem leaves_set_iff {files : FileTree} : Leaves (set files) t u ↔ files = u :=
  ⟨fun h ↦ (Prod.mk.inj h).2, fun h ↦ congrArg _ h⟩

theorem leaves_pure_iff : Leaves (pure ()) t u ↔ t = u :=
  ⟨fun h ↦ (Prod.mk.inj h).2, fun h ↦ congrArg _ h⟩

theorem not_leaves_throw (fault : Fault) : ¬Leaves (throw fault) t u := by
  intro h
  cases h

theorem leaves_change_iff {f : FileTree → Except Fault FileTree} :
    (change f).Leaves t u ↔ f t = .ok u := by
  rw [change, leaves_get_bind_iff]
  cases f t with
  | error fault => simp only [not_leaves_throw, reduceCtorEq]
  | ok files => simp only [leaves_set_iff, Except.ok.injEq]

theorem leaves_adapt_iff {f : Fault → Fault} : Leaves (s.adapt f) t u ↔ s.Leaves t u := by
  have hrun : (s.adapt f).run.run t = ((s.run.run t).1.mapError f, (s.run.run t).2) := rfl
  rw [Leaves, hrun, Leaves]
  generalize s.run.run t = ended
  obtain ⟨outcome, v⟩ := ended
  cases outcome with
  | error fault => exact iff_of_false nofun nofun
  | ok _ => rfl

theorem leaves_makeDirs_iff {dir : String} :
    (makeDirs workdir dir).Leaves t u ↔ t.makeDirs workdir dir = (u, none) := by
  rw [makeDirs, leaves_get_bind_iff]
  generalize t.makeDirs workdir dir = made
  obtain ⟨files, met⟩ := made
  simp only [leaves_bind_iff, leaves_set_iff, exists_eq_left', Prod.mk.injEq]
  cases met with
  | none => simp only [leaves_pure_iff, and_true]
  | some met => simp only [not_leaves_throw, reduceCtorEq, and_false]

theorem leaves_backUp_iff :
    (backUp workdir path).Leaves t v ↔
      (t.stat workdir path = .error .missing ∧ v = t) ∨
      (t.stat workdir path ≠ .error .missing ∧
        ∃ a b c, (dropOldest workdir path).Leaves t a ∧ (shift workdir path 2).Leaves a b ∧
          (shift workdir path 1).Leaves b c ∧ (copyNewest workdir path).Leaves c v) := by
  rw [backUp, leaves_get_bind_iff]
  split
  · next hmissing =>
    rw [hmissing, leaves_pure_iff, and_iff_right rfl, or_iff_left fun h ↦ h.1 rfl, eq_comm]
  · next hother =>
    rw [or_iff_right fun h ↦ hother h.1, and_iff_right hother]
    simp only [leaves_bind_iff, exists_and_left]

theorem leaves_writeFile_iff {content : String} :
    (writeFile workdir path content).Leaves t u ↔ t.write workdir path content = .ok u := by
  rw [writeFile, leaves_change_iff]
  cases t.write workdir path content with
  | error met => exact iff_of_false nofun nofun
  | ok files => simp only [Except.ok.injEq]

end Saving

theorem validated_of_isValid {c : Config} (hc : c.isValid = true) : c.validated = .ok c := by
  rw [isValid, Option.isNone_iff_eq_none] at hc
  rw [validated, hc]

theorem exists_validated_of_not_isValid {c : Config} (hc : ¬c.isValid = true) :
    ∃ fault, c.validated = .error fault := by
  rw [isValid, Option.isNone_iff_eq_none] at hc
  obtain ⟨flaw, hflaw⟩ := Option.ne_none_iff_exists'.mp hc
  exact ⟨flaw.fault, by rw [validated, hflaw]⟩

/-- What it takes to save a configuration, and in which order. -/
theorem leaves_saveGiven_iff {workdir : Path} {path : String} {given : Option Config}
    {t v : FileTree} :
    (saveGiven workdir path given).Leaves t v ↔
      ∃ c, given = some c ∧ c.isValid = true ∧
        ∃ u r, t.makeDirs workdir (Path.parentText path) = (u, none) ∧
          (Saving.backUp workdir path).Leaves u r ∧ r.write workdir path c.render = .ok v := by
  cases given with
  | none => exact iff_of_false nofun nofun
  | some c =>
    by_cases hc : c.isValid = true
    · simp only [saveGiven, save, validated_of_isValid hc, pure_bind, Saving.leaves_bind_iff,
        Saving.leaves_makeDirs_iff, Saving.leaves_adapt_iff, Saving.leaves_writeFile_iff]
      constructor
      · rintro ⟨u, hdirs, r, hbackUp, hwrite⟩
        exact ⟨c, rfl, hc, u, r, hdirs, hbackUp, hwrite⟩
      · rintro ⟨_, ⟨⟩, -, u, r, hdirs, hbackUp, hwrite⟩
        exact ⟨u, hdirs, r, hbackUp, hwrite⟩
    · obtain ⟨fault, hfault⟩ := exists_validated_of_not_isValid hc
      refine iff_of_false (fun h ↦ ?_) ?_
      · simp only [saveGiven, save, hfault] at h
        exact nomatch h
      · rintro ⟨_, ⟨⟩, hvalid, -⟩
        exact hc hvalid

/-! ### The places of a file and its backups -/

/-- The name of a file, and those of its backups. -/
def version (name : String) : Nat → String
  | 0 => name
  | n + 1 => backupPath name (n + 1)

theorem toList_version_succ (name : String) (n : Nat) :
    (version name (n + 1)).toList =
      name.toList ++ (".back".toList ++ Nat.toDigits 10 (n + 1)) := by
  simp only [version, backupPath, String.toList_append, List.append_assoc,
    Nat.toString_eq_ofList_toDigits, String.toList_ofList]

theorem version_injective (name : String) : Function.Injective (version name) := by
  have hlonger : ∀ n : Nat, version name 0 ≠ version name (n + 1) := by
    intro n heq
    have hlist := congrArg String.toList heq
    rw [toList_version_succ, version, List.self_eq_append_right, List.append_eq_nil_iff] at hlist
    exact absurd hlist.1 (by decide)
  intro m n heq
  cases m with
  | zero =>
    cases n with
    | zero => rfl
    | succ n => exact absurd heq (hlonger n)
  | succ m =>
    cases n with
    | zero => exact absurd heq.symm (hlonger m)
    | succ n =>
      have hlist := congrArg String.toList heq
      rw [toList_version_succ, toList_version_succ, List.append_right_inj,
        List.append_right_inj] at hlist
      have hread := congrArg (fun digits ↦ Nat.ofDigitChars 10 digits 0) hlist
      simpa only [Nat.ofDigitChars_ten_toDigits] using hread

/-- The places of a file in a directory and of its backups. -/
def slot (dir : Path) (name : String) (n : Nat) : Path := dir ++ [version name n]

theorem slot_eq_iff {dir : Path} {name : String} {m n : Nat} :
    slot dir name m = slot dir name n ↔ m = n := by
  rw [slot, slot, List.append_right_inj, List.singleton_inj, (version_injective name).eq_iff]

theorem slot_succ_ne_zero (dir : Path) (name : String) (n : Nat) :
    slot dir name (n + 1) ≠ slot dir name 0 :=
  fun heq ↦ absurd (slot_eq_iff.mp heq) (Nat.succ_ne_zero n)

/-- What makes the path of a file that of a backup. -/
def tail (n : Nat) : String := ".back" ++ toString (n + 1)

theorem backupPath_succ (path : String) (n : Nat) : backupPath path (n + 1) = path ++ tail n :=
  String.append_assoc

theorem isTail_tail {n : Nat} (hn : n < backupCount) :
    FileTree.IsTail (tail n) ∧ (tail n).utf8ByteSize = 6 := by
  unfold backupCount at hn
  interval_cases n
  all_goals exact ⟨⟨by decide, by decide, by decide⟩, by decide⟩

/-- Whether the backups of a path have places side by side in a directory of a sound tree, and none
of them is a directory. -/
structure Shelf (t : FileTree) (workdir : Path) (path : String) (dir : Path) (name : String) :
    Prop where
  sound : t.Sound
  isDir : t.entry? dir = some .dir
  leads : ∀ n < backupCount,
    t.resolve workdir (backupPath path (n + 1)) = .ok (slot dir name (n + 1))
  notDir : ∀ n < backupCount, t.entry? (slot dir name (n + 1)) ≠ some .dir

namespace Shelf

open FileTree

variable {t u v : FileTree} {workdir dir : Path} {path name content : String} {n : Nat}
  {e : Option Entry}

/-- A change of a file in the directory leaves the backups their places. -/
theorem update (h : Shelf t workdir path dir name)
    (hu : FileTree.entry? u = Function.update (FileTree.entry? t) (slot dir name n) e)
    (hslot : t.entry? (slot dir name n) ≠ some .dir) (he : e ≠ some .dir) :
    Shelf u workdir path dir name where
  sound := h.sound.update hu hslot (by rw [slot, List.dropLast_concat, h.isDir])
  isDir := keepsDirs_of_update hu hslot dir h.isDir
  leads m hm := (keepsDirs_of_update hu hslot).resolve (h.leads m hm)
  notDir m hm := by
    rw [hu]
    by_cases hmn : m + 1 = n
    · rw [hmn, Function.update_self]
      exact he
    · rw [Function.update_of_ne fun heq ↦ hmn (slot_eq_iff.mp heq)]
      exact h.notDir m hm

/-- The oldest backup is gone. -/
theorem dropOldest (h : Shelf t workdir path dir name) :
    ∃ u, (Saving.dropOldest workdir path).Leaves t u ∧ Shelf u workdir path dir name ∧
      t.KeepsDirs u ∧ FileTree.entry? u =
        Function.update (FileTree.entry? t) (slot dir name backupCount) none := by
  have hresolve : t.resolve workdir (backupPath path backupCount) =
      .ok (slot dir name backupCount) := h.leads 2 (by decide)
  have hnotDir : t.entry? (slot dir name backupCount) ≠ some .dir := h.notDir 2 (by decide)
  simp only [Saving.dropOldest, Saving.leaves_change_iff]
  cases hentry : t.entry? (slot dir name backupCount) with
  | none =>
    have hremove : t.remove workdir (backupPath path backupCount) = .error .missing := by
      rw [remove, hresolve]
      simp only [bind, Except.bind, hentry]
      rfl
    rw [hremove]
    exact ⟨t, rfl, h, .refl t, by rw [← hentry, Function.update_eq_self]⟩
  | some old =>
    cases old with
    | dir => exact absurd hentry hnotDir
    | file old =>
      have hremove : t.remove workdir (backupPath path backupCount) =
          .ok (t.erase (slot dir name backupCount)) := by
        rw [remove, hresolve]
        simp only [bind, Except.bind, hentry]
        rfl
      have herase := entry?_erase t (ne_nil_of_not_dir hnotDir)
      rw [hremove]
      exact ⟨_, rfl, h.update herase hnotDir nofun, keepsDirs_of_update herase hnotDir, herase⟩

/-- A backup has moved to the next place, where there was none. -/
theorem shift (h : Shelf t workdir path dir name) (hn : n + 1 < backupCount)
    (hroom : t.entry? (slot dir name (n + 2)) = none) :
    ∃ u, (Saving.shift workdir path (n + 1)).Leaves t u ∧ Shelf u workdir path dir name ∧
      t.KeepsDirs u ∧ FileTree.entry? u = Function.update
        (Function.update (FileTree.entry? t) (slot dir name (n + 2))
          (t.entry? (slot dir name (n + 1)))) (slot dir name (n + 1)) none := by
  have hsource := h.leads n (Nat.lt_of_succ_lt hn)
  have htarget := h.leads (n + 1) hn
  have hsourceNotDir := h.notDir n (Nat.lt_of_succ_lt hn)
  have htargetNotDir := h.notDir (n + 1) hn
  have hne : slot dir name (n + 1) ≠ slot dir name (n + 2) := by
    rw [ne_eq, slot_eq_iff]
    omega
  simp only [Saving.shift, Saving.leaves_change_iff]
  cases hentry : t.entry? (slot dir name (n + 1)) with
  | none =>
    have hthere : t.isThere workdir (backupPath path (n + 1)) = false := by
      rw [isThere, stat, hsource]
      simp only [bind, Except.bind, hentry]
      rfl
    simp only [hthere]
    refine ⟨t, rfl, h, .refl t, ?_⟩
    rw [← hroom, Function.update_eq_self, hroom, ← hentry, Function.update_eq_self]
  | some old =>
    cases old with
    | dir => exact absurd hentry hsourceNotDir
    | file old =>
      have hthere : t.isThere workdir (backupPath path (n + 1)) = true := by
        rw [isThere, stat_eq_ok_iff.mpr ⟨_, hsource, hentry⟩]
        rfl
      obtain ⟨u, hrename, hu⟩ := entry?_rename h.sound hsource htarget hentry htargetNotDir hne
      -- The same entries are left by a copy at the new place and its removal from the old one.
      have hput := entry?_put t (ne_nil_of_not_dir htargetNotDir) (.file old)
      have hcopied := h.update hput htargetNotDir nofun
      have hsourceKept := hcopied.notDir n (Nat.lt_of_succ_lt hn)
      rw [← hput] at hu
      simp only [hthere, if_true]
      rw [hrename, ← hput]
      exact ⟨u, rfl, hcopied.update hu hsourceKept nofun,
        (keepsDirs_of_update hput htargetNotDir).trans (keepsDirs_of_update hu hsourceKept), hu⟩

/-- The newest backup is a copy of the file. -/
theorem copyNewest (h : Shelf t workdir path dir name)
    (hresolve : t.resolve workdir path = .ok (slot dir name 0))
    (hfile : t.entry? (slot dir name 0) = some (.file content)) :
    ∃ u, (Saving.copyNewest workdir path).Leaves t u ∧ Shelf u workdir path dir name ∧
      t.KeepsDirs u ∧ FileTree.entry? u =
        Function.update (FileTree.entry? t) (slot dir name 1) (some (.file content)) := by
  have hnotDir := h.notDir 0 (by decide)
  have hput := entry?_put t (ne_nil_of_not_dir hnotDir) (.file content)
  simp only [Saving.copyNewest, Saving.leaves_change_iff]
  rw [read_of_file hresolve hfile]
  simp only
  rw [h.sound.write_eq (h.leads 0 (by decide)) hnotDir]
  exact ⟨_, rfl, h.update hput hnotDir nofun, keepsDirs_of_update hput hnotDir, hput⟩

/-- The backups move on by one place, and the oldest one is dropped. -/
theorem moveOn (h : Shelf t workdir path dir name) :
    ∃ a b c, (Saving.dropOldest workdir path).Leaves t a ∧
      (Saving.shift workdir path 2).Leaves a b ∧ (Saving.shift workdir path 1).Leaves b c ∧
      Shelf c workdir path dir name ∧ t.KeepsDirs c ∧
      (∀ n, n + 1 < backupCount →
        c.entry? (slot dir name (n + 2)) = t.entry? (slot dir name (n + 1))) ∧
      ∀ q, (∀ n < backupCount, q ≠ slot dir name (n + 1)) → c.entry? q = t.entry? q := by
  obtain ⟨a, ha, hshelfA, hkeepsA, hentriesA⟩ := h.dropOldest
  obtain ⟨b, hb, hshelfB, hkeepsB, hentriesB⟩ := hshelfA.shift (n := 1) (by decide)
    (by rw [hentriesA]; exact Function.update_self ..)
  obtain ⟨c, hc, hshelfC, hkeepsC, hentriesC⟩ := hshelfB.shift (n := 0) (by decide)
    (by rw [hentriesB]; exact Function.update_self ..)
  refine ⟨a, b, c, ha, hb, hc, hshelfC, (hkeepsA.trans hkeepsB).trans hkeepsC, fun n hn ↦ ?_,
    fun q hq ↦ ?_⟩
  · have hn' : n < 2 := Nat.lt_of_succ_lt_succ hn
    interval_cases n
    all_goals simp [hentriesC, hentriesB, hentriesA, slot_eq_iff, backupCount]
  · rw [hentriesC, Function.update_of_ne (hq 0 (by decide)),
      Function.update_of_ne (hq 1 (by decide)), hentriesB,
      Function.update_of_ne (hq 1 (by decide)), Function.update_of_ne (hq 2 (by decide)), hentriesA]
    exact Function.update_of_ne (hq 2 (by decide)) ..

/-- Where there is a file, the backups move on by one place and the file is copied to the first. -/
theorem backUp (h : Shelf t workdir path dir name)
    (hresolve : t.resolve workdir path = .ok (slot dir name 0))
    (hfile : t.entry? (slot dir name 0) = some (.file content)) :
    ∃ u, (Saving.backUp workdir path).Leaves t u ∧ Shelf u workdir path dir name ∧
      t.KeepsDirs u ∧
      (∀ n < backupCount, u.entry? (slot dir name (n + 1)) = t.entry? (slot dir name n)) ∧
      ∀ q, (∀ n < backupCount, q ≠ slot dir name (n + 1)) → u.entry? q = t.entry? q := by
  have hstat : t.stat workdir path ≠ .error .missing := by
    rw [stat_eq_ok_iff.mpr ⟨_, hresolve, hfile⟩]
    exact nofun
  obtain ⟨a, b, c, ha, hb, hc, hshelfC, hkeepsC, hmoved, hothers⟩ := h.moveOn
  have hfileC : c.entry? (slot dir name 0) = some (.file content) := by
    rw [hothers _ fun n _ ↦ (slot_succ_ne_zero dir name n).symm, hfile]
  obtain ⟨u, hu, hshelf, hkeepsU, hentries⟩ :=
    hshelfC.copyNewest (hkeepsC.resolve hresolve) hfileC
  refine ⟨u, Saving.leaves_backUp_iff.mpr (.inr ⟨hstat, a, b, c, ha, hb, hc, hu⟩), hshelf,
    hkeepsC.trans hkeepsU, fun n hn ↦ ?_, fun q hq ↦ ?_⟩
  · rw [hentries]
    cases n with
    | zero => rw [Function.update_self, hfile]
    | succ n =>
      have hne : slot dir name (n + 2) ≠ slot dir name 1 := by
        rw [ne_eq, slot_eq_iff]
        omega
      rw [Function.update_of_ne hne, hmoved n hn]
  · rw [hentries, Function.update_of_ne (hq 0 (by decide)), hothers q hq]

/-- The backups of a path have places if the oldest one has. -/
theorem of_resolve {q : Path} (hsound : t.Sound)
    (hnotDir : ∀ n < backupCount, t.stat workdir (backupPath path (n + 1)) ≠ .ok .dir)
    (h : t.resolve workdir (backupPath path backupCount) = .ok q) :
    ∃ dir name, t.StandsIn workdir path dir name ∧ Shelf t workdir path dir name := by
  have holdest : t.resolve workdir (path ++ tail 2) = .ok q := backupPath_succ path 2 ▸ h
  obtain ⟨htail, hsize⟩ := isTail_tail (n := 2) (by decide)
  obtain ⟨dir, full, hfull⟩ := exists_standsIn_of_resolve holdest
  obtain ⟨name, -, hstands⟩ := (standsIn_append_iff htail).mp hfull
  have hleads : ∀ n < backupCount,
      t.resolve workdir (backupPath path (n + 1)) = .ok (slot dir name (n + 1)) := by
    intro n hn
    obtain ⟨htail', hsize'⟩ := isTail_tail hn
    rw [backupPath_succ, slot, version, backupPath_succ]
    exact hstands.resolve_append_of_size htail htail' (hsize'.trans hsize.symm) holdest
  refine ⟨dir, name, hstands, hsound, hstands.isDir, hleads, fun n hn hdir ↦ ?_⟩
  exact hnotDir n hn (stat_eq_ok_iff.mpr ⟨_, hleads n hn, hdir⟩)

end Shelf

end DeclTree.Config
