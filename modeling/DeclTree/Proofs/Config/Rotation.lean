import DeclTree.Proofs.Config.Saving

/-!
# One save

`Seat` says that a path leads to a name in a directory and that its backups have places there. From
such a seat a save comes through, and `Seat.replaced` says what it leaves in every place of the
tree. A save that comes through had a seat, `exists_seat`, so `Savable` tells which saves succeed.

A save first makes the directories around its path, `prepared`. That adds no file, so `Rotated` can
say what became of the files as they were before.
-/

set_option autoImplicit false
set_option relaxedAutoImplicit false

namespace DeclTree.Config

/-! ### One save -/

section Save

open FileTree

variable {t u v r : FileTree} {workdir dir : Path} {path name text : String}

/-- Whether a path leads to a name in a directory, to a file or to nothing; if it is a file then its
backups have places next to it. -/
structure Seat (u : FileTree) (workdir : Path) (path : String) (dir : Path) (name : String) :
    Prop where
  sound : u.Sound
  leads : u.resolve workdir path = .ok (slot dir name 0)
  notDir : u.entry? (slot dir name 0) ≠ some .dir
  shelf : u.entry? (slot dir name 0) ≠ none → Shelf u workdir path dir name

/-- What a save changes once the directories are there. -/
structure Replaced (u v : FileTree) (dir : Path) (name text : String) : Prop where
  sound : v.Sound
  keepsDirs : u.KeepsDirs v
  newest : v.entry? (slot dir name 0) = some (.file text)
  rotated : u.entry? (slot dir name 0) ≠ none →
    ∀ n < backupCount, v.entry? (slot dir name (n + 1)) = u.entry? (slot dir name n)
  kept : u.entry? (slot dir name 0) = none →
    ∀ n < backupCount, v.entry? (slot dir name (n + 1)) = u.entry? (slot dir name (n + 1))
  others : ∀ q, (∀ n ≤ backupCount, q ≠ slot dir name n) → v.entry? q = u.entry? q

theorem Seat.isDir (h : Seat u workdir path dir name) : u.entry? dir = some .dir := by
  obtain ⟨dir', last, hstands, -, hplace⟩ := h.sound.exists_standsIn h.leads h.notDir
  obtain ⟨rfl, -⟩ := List.append_inj' hplace rfl
  exact hstands.isDir

/-- What making backups changes. Where there is no file there is nothing to be done. -/
structure BackedUp (u r : FileTree) (dir : Path) (name : String) : Prop where
  sound : r.Sound
  keepsDirs : u.KeepsDirs r
  rotated : u.entry? (slot dir name 0) ≠ none →
    ∀ n < backupCount, r.entry? (slot dir name (n + 1)) = u.entry? (slot dir name n)
  same : u.entry? (slot dir name 0) = none → r = u
  others : ∀ q, (∀ n < backupCount, q ≠ slot dir name (n + 1)) → r.entry? q = u.entry? q

theorem Seat.backUp (h : Seat u workdir path dir name) :
    ∃ r, (Saving.backUp workdir path).Leaves u r ∧ BackedUp u r dir name := by
  cases hfile : u.entry? (slot dir name 0) with
  | none =>
    have hstat : u.stat workdir path = .error .missing := by
      rw [stat, h.leads]
      simp only [bind, Except.bind, hfile]
      rfl
    exact ⟨u, Saving.leaves_backUp_iff.mpr (.inl ⟨hstat, rfl⟩), h.sound, .refl u,
      fun hne ↦ absurd hfile hne, fun _ ↦ rfl, fun _ _ ↦ rfl⟩
  | some old =>
    cases old with
    | dir => exact absurd hfile h.notDir
    | file old =>
      have hpresent : u.entry? (slot dir name 0) ≠ none := hfile ▸ Option.some_ne_none _
      obtain ⟨r, hbackUp, hshelf, hkeeps, hrotated, hothers⟩ :=
        (h.shelf hpresent).backUp h.leads hfile
      exact ⟨r, hbackUp, hshelf.sound, hkeeps, fun _ ↦ hrotated,
        fun hnone ↦ absurd hnone hpresent, hothers⟩

/-- From a seat a save comes through: the backups are made, and then the file is written. -/
theorem Seat.replaced (h : Seat u workdir path dir name) (text : String) :
    ∃ r v, (Saving.backUp workdir path).Leaves u r ∧ r.write workdir path text = .ok v ∧
      Replaced u v dir name text := by
  obtain ⟨r, hbackUp, hbackedUp⟩ := h.backUp
  have hfile : r.entry? (slot dir name 0) = u.entry? (slot dir name 0) :=
    hbackedUp.others _ fun n _ ↦ (slot_succ_ne_zero dir name n).symm
  have hnotDir : r.entry? (slot dir name 0) ≠ some .dir := hfile ▸ h.notDir
  have hparent : r.entry? (slot dir name 0).dropLast = some .dir := by
    rw [slot, List.dropLast_concat, hbackedUp.keepsDirs _ h.isDir]
  have hput := entry?_put r (ne_nil_of_not_dir hnotDir) (.file text)
  refine ⟨r, _, hbackUp,
    hbackedUp.sound.write_eq (hbackedUp.keepsDirs.resolve h.leads) hnotDir text,
    hbackedUp.sound.update hput hnotDir hparent,
    hbackedUp.keepsDirs.trans (keepsDirs_of_update hput hnotDir), ?_, fun hpresent n hn ↦ ?_,
    fun habsent n _ ↦ ?_, fun q hq ↦ ?_⟩
  · rw [hput, Function.update_self]
  · rw [hput, Function.update_of_ne (slot_succ_ne_zero dir name n), hbackedUp.rotated hpresent n hn]
  · rw [hput, Function.update_of_ne (slot_succ_ne_zero dir name n), hbackedUp.same habsent]
  · rw [hput, Function.update_of_ne (hq 0 (Nat.zero_le _))]
    exact hbackedUp.others q fun n hn ↦ hq (n + 1) hn

theorem Seat.of_resolve {place : Path} (hsound : u.Sound)
    (hnotDir : ∀ n < backupCount, u.stat workdir (backupPath path (n + 1)) ≠ .ok .dir)
    (hresolve : u.resolve workdir path = .ok place) (hplace : u.entry? place ≠ some .dir)
    (hbackups : u.isThere workdir path = true →
      ∃ q, u.resolve workdir (backupPath path backupCount) = .ok q) :
    ∃ dir name, Seat u workdir path dir name := by
  obtain ⟨dir, name, hstands, -, rfl⟩ := hsound.exists_standsIn hresolve hplace
  refine ⟨dir, name, hsound, hresolve, hplace, fun hthere ↦ ?_⟩
  obtain ⟨e, he⟩ := Option.ne_none_iff_exists'.mp hthere
  have hstat : u.stat workdir path = .ok e := stat_eq_ok_iff.mpr ⟨_, hresolve, he⟩
  obtain ⟨q, hq⟩ := hbackups (by rw [isThere, hstat]; rfl)
  obtain ⟨dir', name', hstands', hshelf⟩ := Shelf.of_resolve hsound hnotDir hq
  obtain ⟨rfl, rfl⟩ := hstands.unique hstands'
  exact hshelf

/-- If the oldest backup could be dropped and there is something under the path, then the backups
have places. -/
theorem exists_resolve_of_dropOldest (hstat : u.stat workdir path ≠ .error .missing)
    (hdrop : (Saving.dropOldest workdir path).Leaves u v) :
    path ≠ "" ∧ ∃ q, u.resolve workdir (backupPath path backupCount) = .ok q := by
  have hpath : path ≠ "" := by
    rintro rfl
    exact hstat rfl
  refine ⟨hpath, ?_⟩
  cases hresolve : u.resolve workdir (backupPath path backupCount) with
  | ok q => exact ⟨q, rfl⟩
  | error met =>
    simp only [Saving.dropOldest, Saving.leaves_change_iff] at hdrop
    have hremove : u.remove workdir (backupPath path backupCount) = .error met := by
      rw [remove, hresolve]
      rfl
    rw [hremove] at hdrop
    cases met with
    | missing =>
      have hmissing := resolve_missing_of_append (isTail_tail (n := 2) (by decide)).1 hpath
        (backupPath_succ path 2 ▸ hresolve)
      exact absurd (by rw [stat, hmissing]; rfl) hstat
    | _ => cases hdrop

/-- A save that comes through was one of a file that has a place, as have its backups if need be. -/
theorem exists_seat (hsound : u.Sound)
    (hnotDir : ∀ n < backupCount, u.stat workdir (backupPath path (n + 1)) ≠ .ok .dir)
    (hbackUp : (Saving.backUp workdir path).Leaves u r)
    (hwrite : r.write workdir path text = .ok v) : ∃ dir name, Seat u workdir path dir name := by
  rcases Saving.leaves_backUp_iff.mp hbackUp with
    ⟨hmissing, rfl⟩ | ⟨hstat, a, b, c, ha, hb, hc, hcopy⟩
  · obtain ⟨-, -, place, hresolve, hplace, -⟩ := write_eq_ok_iff.mp hwrite
    refine Seat.of_resolve hsound hnotDir hresolve hplace fun hthere ↦ ?_
    rw [isThere, hmissing] at hthere
    cases hthere
  · obtain ⟨hpath, q, hq⟩ := exists_resolve_of_dropOldest hstat ha
    obtain ⟨place, hresolve⟩ := exists_resolve_of_append (isTail_tail (n := 2) (by decide)).1 hpath
      (backupPath_succ path 2 ▸ hq)
    refine Seat.of_resolve hsound hnotDir hresolve (fun hdir ↦ ?_) fun _ ↦ ⟨q, hq⟩
    -- A directory would still be there after the backups have moved, and cannot be copied.
    obtain ⟨dir, name, -, hshelf⟩ := Shelf.of_resolve hsound hnotDir hq
    obtain ⟨a', b', c', ha', hb', hc', -, hkeeps, -⟩ := hshelf.moveOn
    obtain rfl := ha.unique ha'
    obtain rfl := hb.unique hb'
    obtain rfl := hc.unique hc'
    have hread : c.read workdir path = .error .isDirectory := by
      rw [FileTree.read, hkeeps.stat (stat_eq_ok_iff.mpr ⟨place, hresolve, hdir⟩)]
      rfl
    simp only [Saving.copyNewest, Saving.leaves_change_iff] at hcopy
    rw [hread] at hcopy
    cases hcopy

/-- The files once the directories around a path are made. -/
def prepared (t : FileTree) (workdir : Path) (path : String) : FileTree :=
  (t.makeDirs workdir (Path.parentText path)).1

theorem prepared_of_makeDirs (h : t.makeDirs workdir (Path.parentText path) = (u, none)) :
    prepared t workdir path = u := by
  rw [prepared, h]

theorem makeDirs_eq_prepared (h : (t.makeDirs workdir (Path.parentText path)).2 = none) :
    t.makeDirs workdir (Path.parentText path) = (prepared t workdir path, none) := by
  rw [prepared, ← h]

theorem prepared_extends (hsound : t.Sound) :
    (prepared t workdir path).Sound ∧ t.Extends (prepared t workdir path) :=
  makeDirs_extends hsound workdir _

/-- After a save the directories around the path are there. -/
theorem makeDirs_of_keepsDirs (h : t.makeDirs workdir (Path.parentText path) = (u, none))
    (hkeeps : u.KeepsDirs v) : v.makeDirs workdir (Path.parentText path) = (v, none) :=
  makeDirs_of_stat (hkeeps.stat (stat_makeDirs (Path.unslashed_clean _) h))

/-- Whether none of the backups of a path is a directory. -/
def BackupsAreFiles (t : FileTree) (workdir : Path) (path : String) : Prop :=
  ∀ n < backupCount,
    (prepared t workdir path).stat workdir (backupPath path (n + 1)) ≠ .ok .dir

/-- What it takes to save under a path: the directories around it can be made, it can be written,
and if there is something to keep then the backups have places. -/
structure Savable (t : FileTree) (workdir : Path) (path : String) : Prop where
  dirs : (t.makeDirs workdir (Path.parentText path)).2 = none
  file : ∃ v, (prepared t workdir path).write workdir path "" = .ok v
  backups : (prepared t workdir path).isThere workdir path = true →
    ∃ q, (prepared t workdir path).resolve workdir (backupPath path backupCount) = .ok q

theorem Savable.exists_seat (hsound : t.Sound) (hfiles : BackupsAreFiles t workdir path)
    (h : Savable t workdir path) :
    ∃ dir name, Seat (prepared t workdir path) workdir path dir name := by
  obtain ⟨v, hwrite⟩ := h.file
  obtain ⟨-, -, place, hresolve, hplace, -⟩ := write_eq_ok_iff.mp hwrite
  exact Seat.of_resolve (prepared_extends hsound).1 hfiles hresolve hplace h.backups

theorem Seat.savable (hdirs : (t.makeDirs workdir (Path.parentText path)).2 = none)
    (h : Seat (prepared t workdir path) workdir path dir name) : Savable t workdir path where
  dirs := hdirs
  file := ⟨_, h.sound.write_eq h.leads h.notDir ""⟩
  backups hthere := by
    refine ⟨_, (h.shelf fun hnone ↦ ?_).leads 2 (by decide)⟩
    rw [isThere, stat, h.leads] at hthere
    simp only [bind, Except.bind, hnone] at hthere
    cases hthere

/-- A save of a valid configuration comes through when the path has its place, and then changes what
it should. -/
theorem Seat.leaves {c : Config} (hc : c.isValid = true)
    (hdirs : (t.makeDirs workdir (Path.parentText path)).2 = none)
    (h : Seat (prepared t workdir path) workdir path dir name) :
    ∃ v, (saveGiven workdir path (some c)).Leaves t v ∧
      Replaced (prepared t workdir path) v dir name c.render := by
  obtain ⟨r, v, hbackUp, hwrite, hreplaced⟩ := h.replaced c.render
  exact ⟨v, leaves_saveGiven_iff.mpr
    ⟨c, rfl, hc, _, r, makeDirs_eq_prepared hdirs, hbackUp, hwrite⟩, hreplaced⟩

/-- What a save that came through has changed. -/
theorem exists_seat_of_leaves {c : Config} (hsound : t.Sound)
    (hfiles : BackupsAreFiles t workdir path)
    (h : (saveGiven workdir path (some c)).Leaves t v) :
    (t.makeDirs workdir (Path.parentText path)).2 = none ∧
      ∃ dir name, Seat (prepared t workdir path) workdir path dir name ∧
        Replaced (prepared t workdir path) v dir name c.render := by
  obtain ⟨_, ⟨⟩, hc, u, r, hdirs, hbackUp, hwrite⟩ := leaves_saveGiven_iff.mp h
  obtain rfl := prepared_of_makeDirs hdirs
  have hnone : (t.makeDirs workdir (Path.parentText path)).2 = none := by rw [hdirs]
  obtain ⟨dir, name, hseat⟩ := exists_seat (prepared_extends hsound).1 hfiles hbackUp hwrite
  obtain ⟨v', hleaves, hreplaced⟩ := hseat.leaves hc hnone
  obtain rfl := h.unique hleaves
  exact ⟨hnone, dir, name, hseat, hreplaced⟩

/-- Whether a path leads to a name in a directory, and the paths of its backups, where they lead
anywhere, to the backups of that name. -/
structure LeadsTo (t : FileTree) (workdir : Path) (path : String) (dir : Path) (name : String) :
    Prop where
  file : t.resolve workdir path = .ok (slot dir name 0)
  backups : ∀ n < backupCount, ∀ q, t.resolve workdir (backupPath path (n + 1)) = .ok q →
    q = slot dir name (n + 1)

theorem leadsTo_of_resolve (hsound : u.Sound)
    (hresolve : u.resolve workdir path = .ok (slot dir name 0))
    (hnotDir : u.entry? (slot dir name 0) ≠ some .dir) : LeadsTo u workdir path dir name := by
  obtain ⟨dir', last, hstands, -, hplace⟩ := hsound.exists_standsIn hresolve hnotDir
  obtain ⟨rfl, hname⟩ := List.append_inj' hplace rfl
  obtain rfl : name = last := List.singleton_inj.mp hname
  refine ⟨hresolve, fun n hn q hq ↦ ?_⟩
  rw [backupPath_succ] at hq
  obtain ⟨-, -, rfl⟩ := (hstands.resolve_append_iff (isTail_tail hn).1).mp hq
  rw [slot, version, backupPath_succ]

theorem entry?_eq_file? {place : Path} (h : u.entry? place ≠ some .dir) :
    u.entry? place = (u.file? place).map .file := by
  unfold file?
  cases hentry : u.entry? place with
  | none => rfl
  | some e =>
    cases e with
    | file content => rfl
    | dir => exact absurd hentry h

/-- What a save does to a file and its backups. The file has the new text. If there was a file
before, each backup has what was in the place before it, and nothing if nothing was there; if there
was none, nothing else is new. No other file has changed. -/
structure Rotated (t v : FileTree) (dir : Path) (name text : String) : Prop where
  newest : v.entry? (slot dir name 0) = some (.file text)
  present : t.file? (slot dir name 0) ≠ none → ∀ n < backupCount,
    v.entry? (slot dir name (n + 1)) = (t.file? (slot dir name n)).map .file
  absent : t.file? (slot dir name 0) = none →
    ∀ q, q ≠ slot dir name 0 → v.file? q = t.file? q
  others : ∀ q, (∀ n ≤ backupCount, q ≠ slot dir name n) → v.file? q = t.file? q

theorem file?_congr {q : Path} (h : v.entry? q = u.entry? q) : v.file? q = u.file? q := by
  rw [file?, file?, h]

theorem Seat.rotated (h : Seat u workdir path dir name) (hextends : t.Extends u)
    (hreplaced : Replaced u v dir name text) : Rotated t v dir name text where
  newest := hreplaced.newest
  present hpresent n hn := by
    have hfile : u.entry? (slot dir name 0) ≠ none := by
      intro hnone
      rw [← hextends.file?_eq, file?, hnone] at hpresent
      exact hpresent rfl
    have hnotDir : u.entry? (slot dir name n) ≠ some .dir := by
      cases n with
      | zero => exact h.notDir
      | succ n => exact (h.shelf hfile).notDir n (Nat.lt_of_succ_lt hn)
    rw [hreplaced.rotated hfile n hn, entry?_eq_file? hnotDir, hextends.file?_eq]
  absent habsent q hq := by
    have hnone : u.entry? (slot dir name 0) = none := by
      rw [ entry?_eq_file? h.notDir, hextends.file?_eq, habsent]
      rfl
    rw [← hextends.file?_eq]
    by_cases hslot : ∃ n < backupCount, q = slot dir name (n + 1)
    · obtain ⟨n, hn, rfl⟩ := hslot
      exact file?_congr (hreplaced.kept hnone n hn)
    · refine file?_congr (hreplaced.others q fun n hn heq ↦ ?_)
      cases n with
      | zero => exact hq heq
      | succ n => exact hslot ⟨n, hn, heq⟩
  others q hq := by
    rw [← hextends.file?_eq]
    exact file?_congr (hreplaced.others q hq)

end Save

/-! ### Refused configurations -/

/-- Without a valid configuration a save fails before it has done anything. -/
theorem saveGiven_refused (workdir : Path) (path : String) (t : FileTree) {given : Option Config}
    (hgiven : ∀ c ∈ given, ¬c.isValid = true) :
    ∃ fault, (saveGiven workdir path given).run.run t = (.error fault, t) := by
  cases given with
  | none => exact ⟨nothingToSave, rfl⟩
  | some c =>
    obtain ⟨fault, hfault⟩ := exists_validated_of_not_isValid (hgiven c rfl)
    refine ⟨fault, ?_⟩
    simp only [saveGiven, save, hfault]
    rfl

end DeclTree.Config
