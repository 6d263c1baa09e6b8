import DeclTree.Proofs.Config.Rotation

/-!
# One save after the other

`saveEach` runs a list of saves under one path, some of which may be refused. `Kept` is what such a
run keeps up: the last of the valid configurations stand in the file and its backups, `held`, and no
other file has changed. One request adds its configuration if that is valid, `Kept.request`, so a
run adds all of them, `Kept.saveEach`.

`saving_rotates` puts together what one save does and what a run of them leaves.
-/

set_option autoImplicit false
set_option relaxedAutoImplicit false

namespace DeclTree.Config

/-! ### Requests and what is left of them -/

/-- Saves one configuration after the other under a path, whatever becomes of each. -/
def saveEach (workdir : Path) (path : String) :
    List (Option Config) → FileTree → List (Except Fault Unit) × FileTree
  | [], t => ([], t)
  | given :: rest, t =>
    let (outcome, u) := (saveGiven workdir path given).run.run t
    let (outcomes, v) := saveEach workdir path rest u
    (outcome :: outcomes, v)

theorem saveEach_cons (workdir : Path) (path : String) (given : Option Config)
    (rest : List (Option Config)) (t : FileTree) :
    saveEach workdir path (given :: rest) t =
      (((saveGiven workdir path given).run.run t).1 ::
          (saveEach workdir path rest ((saveGiven workdir path given).run.run t).2).1,
        (saveEach workdir path rest ((saveGiven workdir path given).run.run t).2).2) := rfl

/-- The valid configurations among those that were given. -/
def accepted (requests : List (Option Config)) : List Config :=
  requests.filterMap fun given ↦ given.filter isValid

/-- Whether every valid configuration was saved. -/
def AllSaved (requests : List (Option Config)) (outcomes : List (Except Fault Unit)) : Prop :=
  ∀ pair ∈ requests.zip outcomes, ∀ c ∈ pair.1, c.isValid = true → pair.2 = .ok ()

theorem accepted_cons (given : Option Config) (rest : List (Option Config)) :
    accepted (given :: rest) = (given.filter isValid).toList ++ accepted rest := by
  rw [accepted, List.filterMap_cons, accepted]
  cases given.filter isValid with
  | none => rfl
  | some c => rfl

theorem allSaved_saveEach_cons_iff {workdir : Path} {path : String} {given : Option Config}
    {rest : List (Option Config)} {t : FileTree} :
    AllSaved (given :: rest) (saveEach workdir path (given :: rest) t).1 ↔
      (∀ c ∈ given, c.isValid = true → ((saveGiven workdir path given).run.run t).1 = .ok ()) ∧
      AllSaved rest
        (saveEach workdir path rest ((saveGiven workdir path given).run.run t).2).1 := by
  rw [saveEach_cons, AllSaved, List.zip_cons_cons, List.forall_mem_cons, AllSaved]

/-- What is in the place of a file and in those of its backups after saving configurations: the last
ones, from the newest to the oldest. -/
def held (cs : List Config) (n : Nat) : Option FileTree.Entry :=
  if n ≤ backupCount then cs.reverse[n]?.map fun c ↦ .file c.render else none

theorem held_nil (n : Nat) : held [] n = none := by
  simp [held]

theorem held_concat_zero (cs : List Config) (c : Config) :
    held (cs ++ [c]) 0 = some (.file c.render) := by
  simp [held]

theorem held_concat_succ (cs : List Config) (c : Config) {n : Nat} (hn : n < backupCount) :
    held (cs ++ [c]) (n + 1) = held cs n := by
  simp [held, Nat.le_of_lt hn, Nat.succ_le_of_lt hn]

theorem held_of_lt (cs : List Config) {n : Nat} (hn : backupCount < n) : held cs n = none :=
  if_neg (Nat.not_le.mpr hn)

theorem held_ne_dir (cs : List Config) (n : Nat) : held cs n ≠ some .dir := by
  unfold held
  split
  · cases cs.reverse[n]? with
    | none => exact nofun
    | some c => exact nofun
  · exact nofun

theorem held_zero_eq_none_iff {cs : List Config} : held cs 0 = none ↔ cs = [] := by
  simp [held]

section History

open FileTree

variable {origin u v : FileTree} {workdir dir : Path} {path name : String} {cs : List Config}
  {c : Config}

/-- Whether the last of some configurations are in the file and its backups, once the directories
around it are made, and no other file has changed since. -/
structure Kept (origin u : FileTree) (workdir : Path) (path : String) (dir : Path) (name : String)
    (cs : List Config) : Prop where
  sound : u.Sound
  leads : (prepared u workdir path).resolve workdir path = .ok (slot dir name 0)
  holds : ∀ n, FileTree.entry? (prepared u workdir path) (slot dir name n) = held cs n
  others : ∀ q, (∀ n ≤ backupCount, q ≠ slot dir name n) → u.file? q = origin.file? q

/-- Whether the directories around a path can be made and its backups have places. -/
def HasRoom (t : FileTree) (workdir : Path) (path : String) : Prop :=
  (t.makeDirs workdir (Path.parentText path)).2 = none ∧
    ∃ q, (prepared t workdir path).resolve workdir (backupPath path backupCount) = .ok q

namespace Kept

theorem notDir (h : Kept origin u workdir path dir name cs) (n : Nat) :
    FileTree.entry? (prepared u workdir path) (slot dir name n) ≠ some .dir :=
  h.holds n ▸ held_ne_dir cs n

theorem backupsAreFiles (h : Kept origin u workdir path dir name cs) :
    BackupsAreFiles u workdir path := by
  intro n hn hstat
  obtain ⟨q, hq, hdir⟩ := stat_eq_ok_iff.mp hstat
  have hleads := leadsTo_of_resolve (prepared_extends h.sound).1 h.leads (h.notDir 0)
  rw [hleads.backups n hn q hq] at hdir
  exact h.notDir (n + 1) hdir

/-- One more save moves everything on by one place. -/
theorem save (h : Kept origin u workdir path dir name cs)
    (hleaves : (saveGiven workdir path (some c)).Leaves u v) :
    Kept origin v workdir path dir name (cs ++ [c]) := by
  obtain ⟨hdirs, dir', name', hseat, hreplaced⟩ :=
    exists_seat_of_leaves h.sound h.backupsAreFiles hleaves
  obtain ⟨rfl, hname⟩ := List.append_inj' (Except.ok.inj (hseat.leads.symm.trans h.leads)) rfl
  obtain rfl : name' = name := List.singleton_inj.mp hname
  have hprepared : prepared v workdir path = v :=
    prepared_of_makeDirs (makeDirs_of_keepsDirs (makeDirs_eq_prepared hdirs) hreplaced.keepsDirs)
  refine ⟨hreplaced.sound, ?_, fun n ↦ ?_, fun q hq ↦ ?_⟩
  · rw [hprepared]
    exact hreplaced.keepsDirs.resolve h.leads
  · rw [hprepared]
    cases n with
    | zero => rw [hreplaced.newest, held_concat_zero]
    | succ n =>
      by_cases hn : n < backupCount
      · rw [held_concat_succ cs c hn]
        cases cs with
        | nil =>
          -- Nothing was there yet, so there is nothing to move.
          rw [hreplaced.kept ((h.holds 0).trans (held_nil 0)) n hn, h.holds, held_nil, held_nil]
        | cons first rest =>
          have hfile : FileTree.entry? (prepared u workdir path) (slot dir' name' 0) ≠ none := by
            rw [h.holds, ne_eq, held_zero_eq_none_iff]
            exact List.cons_ne_nil first rest
          rw [hreplaced.rotated hfile n hn, h.holds]
      · have hfar : ∀ m ≤ backupCount, slot dir' name' (n + 1) ≠ slot dir' name' m := by
          intro m hm heq
          have hmn := slot_eq_iff.mp heq
          omega
        rw [hreplaced.others _ hfar, h.holds, held_of_lt _ (by omega), held_of_lt _ (by omega)]
  · rw [file?_congr (hreplaced.others q hq), (prepared_extends h.sound).2.file?_eq, h.others q hq]

/-- Where there is room a valid configuration is saved, and there is room again. -/
theorem exists_leaves (h : Kept origin u workdir path dir name cs)
    (hroom : HasRoom u workdir path) (hc : c.isValid = true) :
    ∃ v, (saveGiven workdir path (some c)).Leaves u v ∧ HasRoom v workdir path := by
  obtain ⟨hdirs, q, hq⟩ := hroom
  obtain ⟨dir', name', hseat⟩ := Seat.of_resolve (prepared_extends h.sound).1 h.backupsAreFiles
    h.leads (h.notDir 0) fun _ ↦ ⟨q, hq⟩
  obtain ⟨v, hleaves, hreplaced⟩ := hseat.leaves hc hdirs
  have hmade := makeDirs_of_keepsDirs (makeDirs_eq_prepared hdirs) hreplaced.keepsDirs
  refine ⟨v, hleaves, by rw [hmade], q, ?_⟩
  rw [prepared_of_makeDirs hmade]
  exact hreplaced.keepsDirs.resolve hq

/-- One more request adds its configuration, if that is valid. -/
theorem request (h : Kept origin u workdir path dir name cs) {given : Option Config}
    (hsaved : ∀ c ∈ given, c.isValid = true →
      ((saveGiven workdir path given).run.run u).1 = .ok ()) :
    Kept origin ((saveGiven workdir path given).run.run u).2 workdir path dir name
      (cs ++ (given.filter isValid).toList) := by
  by_cases hgiven : ∀ c ∈ given, ¬c.isValid = true
  · obtain ⟨fault, hrefused⟩ := saveGiven_refused workdir path u hgiven
    rw [hrefused, Option.filter_eq_none_iff.mpr hgiven, Option.toList_none, List.append_nil]
    exact h
  · push Not at hgiven
    obtain ⟨c, rfl, hc⟩ := hgiven
    rw [Option.filter_some, if_pos hc, Option.toList_some]
    exact h.save (Prod.ext (hsaved c rfl hc) rfl)

/-- A run of saves adds the valid configurations, one after the other. -/
theorem saveEach (h : Kept origin u workdir path dir name cs) {requests : List (Option Config)}
    (hsaved : AllSaved requests (Config.saveEach workdir path requests u).1) :
    Kept origin (Config.saveEach workdir path requests u).2 workdir path dir name
      (cs ++ accepted requests) := by
  induction requests generalizing u cs with
  | nil => rwa [accepted, List.filterMap_nil, List.append_nil]
  | cons given rest ih =>
    obtain ⟨hfirst, hrest⟩ := allSaved_saveEach_cons_iff.mp hsaved
    rw [saveEach_cons, accepted_cons, ← List.append_assoc]
    exact ih (h.request hfirst) hrest

/-- Where there is room every valid configuration is saved. -/
theorem allSaved (h : Kept origin u workdir path dir name cs) (hroom : HasRoom u workdir path)
    (requests : List (Option Config)) :
    AllSaved requests (Config.saveEach workdir path requests u).1 := by
  induction requests generalizing u cs with
  | nil => exact List.forall_mem_nil _
  | cons given rest ih =>
    by_cases hgiven : ∀ c ∈ given, ¬c.isValid = true
    · obtain ⟨fault, hrefused⟩ := saveGiven_refused workdir path u hgiven
      refine allSaved_saveEach_cons_iff.mpr ⟨fun c hc hvalid ↦ absurd hvalid (hgiven c hc), ?_⟩
      rw [hrefused]
      exact ih h hroom
    · push Not at hgiven
      obtain ⟨c, rfl, hc⟩ := hgiven
      obtain ⟨v, hleaves, hroomV⟩ := h.exists_leaves hroom hc
      have hrun : (saveGiven workdir path (some c)).run.run u = (.ok (), v) := hleaves
      rw [allSaved_saveEach_cons_iff, hrun]
      exact ⟨fun _ _ _ ↦ rfl, ih (h.save hleaves) hroomV⟩

/-- The configurations are in their places before the directories are made, too. -/
theorem inPlace (h : Kept origin u workdir path dir name cs) (n : Nat) :
    u.entry? (slot dir name n) = held cs n := by
  rcases (prepared_extends h.sound).2 (slot dir name n) with heq | ⟨-, hdir⟩
  · rw [← heq, h.holds]
  · exact absurd hdir (h.notDir n)

end Kept

end History

/-! ### The main statement -/

section Main

open FileTree

/-- Saving rotates the backups. It comes through just when the path can be saved under, and then the
file holds the new text, and the backups what was in the places before them, or what they held if
there was no file. What is not a valid configuration is refused and changes nothing. So one save
after the other, from a place without a file and backups, leaves the last valid configurations in
the file and its backups, and changes no other file. -/
theorem saving_rotates (t : FileTree) (hsound : t.Sound) (workdir : Path) (path : String) :
    (BackupsAreFiles t workdir path → ∀ c : Config, c.isValid = true →
      ((∃ v, (saveGiven workdir path (some c)).run.run t = (.ok (), v)) ↔
        Savable t workdir path) ∧
      ∀ v, (saveGiven workdir path (some c)).run.run t = (.ok (), v) →
        ∃ dir name, LeadsTo (prepared t workdir path) workdir path dir name ∧
          LeadsTo v workdir path dir name ∧ Rotated t v dir name c.render) ∧
    (∀ given : Option Config, (∀ c ∈ given, ¬c.isValid = true) →
      ∃ fault, (saveGiven workdir path given).run.run t = (.error fault, t)) ∧
    ∀ dir name, (prepared t workdir path).resolve workdir path = .ok (slot dir name 0) →
      (∀ n, FileTree.entry? (prepared t workdir path) (slot dir name n) = none) →
      ∀ requests : List (Option Config),
        (HasRoom t workdir path → AllSaved requests (saveEach workdir path requests t).1) ∧
        (AllSaved requests (saveEach workdir path requests t).1 →
          (∀ n, FileTree.entry? (saveEach workdir path requests t).2 (slot dir name n) =
            held (accepted requests) n) ∧
          ∀ q, (∀ n ≤ backupCount, q ≠ slot dir name n) →
            file? (saveEach workdir path requests t).2 q = t.file? q) := by
  refine ⟨fun hfiles c hc ↦ ⟨⟨?_, fun hsavable ↦ ?_⟩, fun v hleaves ↦ ?_⟩,
    fun given ↦ saveGiven_refused workdir path t, fun dir name hleads hempty requests ↦ ?_⟩
  · rintro ⟨v, hleaves⟩
    obtain ⟨hdirs, dir, name, hseat, -⟩ := exists_seat_of_leaves hsound hfiles hleaves
    exact hseat.savable hdirs
  · obtain ⟨dir, name, hseat⟩ := hsavable.exists_seat hsound hfiles
    obtain ⟨v, hleaves, -⟩ := hseat.leaves hc hsavable.dirs
    exact ⟨v, hleaves⟩
  · obtain ⟨-, dir, name, hseat, hreplaced⟩ := exists_seat_of_leaves hsound hfiles hleaves
    have hnotDir : v.entry? (slot dir name 0) ≠ some .dir := by
      rw [hreplaced.newest]
      exact nofun
    exact ⟨dir, name, leadsTo_of_resolve hseat.sound hseat.leads hseat.notDir,
      leadsTo_of_resolve hreplaced.sound (hreplaced.keepsDirs.resolve hseat.leads) hnotDir,
      hseat.rotated (prepared_extends hsound).2 hreplaced⟩
  · have hkept : Kept t t workdir path dir name [] :=
      ⟨hsound, hleads, fun n ↦ (hempty n).trans (held_nil n).symm, fun _ _ ↦ rfl⟩
    refine ⟨fun hroom ↦ hkept.allSaved hroom requests, fun hsaved ↦ ?_⟩
    exact ⟨(hkept.saveEach hsaved).inPlace, (hkept.saveEach hsaved).others⟩

/-- A save over a file whose second backup is there moves the file on, and that backup, and leaves
the second place empty. Two saves into an empty directory with a refused one between them leave one
backup. -/
theorem saving_rotates_gap :
    (∃ v, (saveGiven ["work"] "d.toml" (some Config.default)).run.run
        ⟨[(["work"], .dir), (["work", "d.toml"], .file "old"),
          (["work", "d.toml.back2"], .file "older")]⟩ = (.ok (), v) ∧
      v.entry? ["work", "d.toml"] = some (.file Config.default.render) ∧
      v.entry? ["work", "d.toml.back1"] = some (.file "old") ∧
      v.entry? ["work", "d.toml.back2"] = none ∧
      v.entry? ["work", "d.toml.back3"] = some (.file "older")) ∧
    ∃ v, (saveEach ["work"] "d.toml" [some Config.default, none, some Config.default]
        ⟨[(["work"], .dir)]⟩).2 = v ∧
      v.entry? ["work", "d.toml"] = some (.file Config.default.render) ∧
      v.entry? ["work", "d.toml.back1"] = some (.file Config.default.render) ∧
      v.entry? ["work", "d.toml.back2"] = none := by
  constructor
  · obtain ⟨hvalid, -, -⟩ := saving_rotates
      ⟨[(["work"], .dir), (["work", "d.toml"], .file "old"),
        (["work", "d.toml.back2"], .file "older")]⟩
      (sound_of_entries (by decide)) ["work"] "d.toml"
    obtain ⟨hsaves, hrotates⟩ :=
      hvalid (by unfold BackupsAreFiles; decide) Config.default (by decide)
    obtain ⟨v, hv⟩ := hsaves.mpr ⟨by decide, ⟨_, rfl⟩, fun _ ↦ ⟨_, rfl⟩⟩
    obtain ⟨dir, name, hleads, -, hrotated⟩ := hrotates v hv
    have hplace : Except.ok (slot ["work"] "d.toml" 0) = Except.ok (slot dir name 0) :=
      hleads.file
    obtain ⟨rfl, hname⟩ := List.append_inj' (Except.ok.inj hplace) rfl
    obtain rfl : "d.toml" = name := List.singleton_inj.mp hname
    have hpresent := hrotated.present (by decide)
    exact ⟨v, hv, hrotated.newest, hpresent 0 (by decide), hpresent 1 (by decide),
      hpresent 2 (by decide)⟩
  · obtain ⟨-, -, hruns⟩ := saving_rotates ⟨[(["work"], .dir)]⟩
      (sound_of_entries (by decide)) ["work"] "d.toml"
    obtain ⟨hsaved, hkept⟩ := hruns ["work"] "d.toml" rfl (fun _ ↦ rfl)
      [some Config.default, none, some Config.default]
    obtain ⟨hholds, -⟩ := hkept (hsaved ⟨by decide, _, rfl⟩)
    exact ⟨_, rfl, hholds 0, hholds 1, hholds 2⟩

end Main

end DeclTree.Config
