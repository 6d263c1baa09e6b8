import DeclTree.Proofs.FileTree.Changes

/-!
# Making directories

Making a directory and those around it adds directories where nothing was, and changes nothing else,
`makeDirs_extends`. If it succeeds then the directory is there, `stat_makeDirs`, and making it again
does nothing.
-/

set_option autoImplicit false
set_option relaxedAutoImplicit false

namespace DeclTree

/-! ### Paths without detours -/

namespace Path

theorem getLast?_joined {done : List String} (hdone : done ≠ [])
    (hsteps : ∀ step ∈ done, step ≠ "" ∧ '/' ∉ step.toList) :
    ∃ c, (Text.joined "/" done).toList.getLast? = some c ∧ c ≠ '/' := by
  induction done with
  | nil => exact absurd rfl hdone
  | cons step done ih =>
    cases done with
    | nil =>
      obtain ⟨hempty, hslash⟩ := hsteps step List.mem_cons_self
      have hne : step.toList ≠ [] := by simpa using hempty
      refine ⟨step.toList.getLast hne, List.getLast?_eq_some_getLast hne, ?_⟩
      intro heq
      exact hslash (heq ▸ List.getLast_mem hne)
    | cons next done =>
      obtain ⟨c, hc, hne⟩ := ih (List.cons_ne_nil _ _) fun s hs ↦
        hsteps s (List.mem_cons_of_mem step hs)
      refine ⟨c, ?_, hne⟩
      rw [Text.joined, String.toList_append, List.getLast?_append, hc]
      · rfl
      · exact List.cons_ne_nil next done

theorem mem_cleanStep {rooted : Bool} {done : List String} {step s : String}
    (hs : s ∈ cleanStep rooted done step) : s ∈ done ∨ s = ".." ∨ (s = step ∧ s ≠ "") := by
  unfold cleanStep at hs
  by_cases hstay : step = "" || step = "."
  · rw [if_pos hstay] at hs
    exact .inl hs
  rw [if_neg hstay] at hs
  by_cases hup : step = ".."
  · rw [if_pos hup] at hs
    split at hs
    · next last rest =>
      split at hs
      · exact (List.mem_cons.mp hs).elim (fun h ↦ .inr (.inl h)) .inl
      · exact .inl (List.mem_cons_of_mem last hs)
    · split at hs
      · exact .inl hs
      · exact .inr (.inl (List.mem_singleton.mp hs))
  · rw [if_neg hup] at hs
    rcases List.mem_cons.mp hs with rfl | hs
    · simp only [Bool.or_eq_true, decide_eq_true_eq, not_or] at hstay
      exact .inr (.inr ⟨rfl, hstay.1⟩)
    · exact .inl hs

/-- The steps of a path without detours are not empty. -/
theorem mem_foldl_cleanStep {rooted : Bool} {all done : List String} {s : String}
    (hall : ∀ step ∈ all, '/' ∉ step.toList) (hdone : ∀ step ∈ done, step ≠ "" ∧ '/' ∉ step.toList)
    (hs : s ∈ all.foldl (cleanStep rooted) done) : s ≠ "" ∧ '/' ∉ s.toList := by
  induction all generalizing done with
  | nil => exact hdone s hs
  | cons step all ih =>
    obtain ⟨hstep, hrest⟩ := List.forall_mem_cons.mp hall
    refine ih hrest (fun s' hs' ↦ ?_) hs
    rcases mem_cleanStep hs' with hs' | rfl | ⟨rfl, hne⟩
    · exact hdone s' hs'
    · exact ⟨by decide, by decide⟩
    · exact ⟨hne, hstep⟩

theorem unslashed_clean (text : String) : unslashed (clean text) = clean text := by
  have hsteps : ∀ s ∈ ((steps text).foldl (cleanStep (isRooted text)) []).reverse,
      s ≠ "" ∧ '/' ∉ s.toList := by
    intro s hs
    refine mem_foldl_cleanStep (fun step hstep ↦ ?_) (List.forall_mem_nil _)
      (List.mem_reverse.mp hs)
    obtain ⟨piece, hpiece, rfl⟩ := List.mem_map.mp hstep
    rw [String.toList_ofList]
    exact Text.not_mem_of_mem_pieces hpiece
  simp only [clean]
  generalize ((steps text).foldl (cleanStep (isRooted text)) []).reverse = done at hsteps
  cases done with
  | nil =>
    split
    · decide
    · decide
  | cons step done =>
    obtain ⟨c, hc, hne⟩ := getLast?_joined (List.cons_ne_nil step done) hsteps
    have hend : (Text.joined "/" (step :: done)).toList.getLast? ≠ some '/' := by
      rw [hc]
      simpa using hne
    split
    · refine unslashed_eq_self ?_
      rw [String.toList_append, List.getLast?_append, hc]
      simpa using hne
    · exact unslashed_eq_self hend

end Path

namespace FileTree

variable {t u v : FileTree} {workdir path : Path} {text : String}

/-! ### More directories -/

/-- Whether a tree is another one with directories added where nothing was. -/
def Extends (t u : FileTree) : Prop :=
  ∀ place, u.entry? place = t.entry? place ∨
    (t.entry? place = none ∧ u.entry? place = some .dir)

theorem Extends.refl (t : FileTree) : t.Extends t := fun _ ↦ .inl rfl

theorem Extends.trans (htu : t.Extends u) (huv : u.Extends v) : t.Extends v := by
  intro place
  rcases huv place with heq | ⟨hnone, hdir⟩
  · rw [heq]
    exact htu place
  · rcases htu place with heq | ⟨-, hdir'⟩
    · exact .inr ⟨heq ▸ hnone, hdir⟩
    · rw [hnone] at hdir'
      exact nomatch hdir'

/-- The content of the file at a place, if there is one. -/
def file? (t : FileTree) (place : Path) : Option String :=
  match t.entry? place with
  | some (.file content) => some content
  | _ => none

theorem Extends.file?_eq (h : t.Extends u) (place : Path) : u.file? place = t.file? place := by
  unfold file?
  rcases h place with heq | ⟨hnone, hdir⟩
  · rw [heq]
  · rw [hnone, hdir]

/-! ### Making one directory -/

theorem makeDir_eq_ok_iff :
    t.makeDir workdir text = .ok u ↔
      ∃ path, t.resolve workdir (Path.unslashed text) = .ok path ∧ t.entry? path = none ∧
        u = t.put path .dir := by
  unfold makeDir
  cases t.resolve workdir (Path.unslashed text) with
  | error trouble => exact iff_of_false nofun nofun
  | ok path =>
    simp only [bind, Except.bind]
    cases hentry : t.entry? path with
    | some e =>
      refine iff_of_false nofun ?_
      rintro ⟨_, ⟨⟩, hnone, -⟩
      exact nomatch hentry.symm.trans hnone
    | none =>
      constructor
      · intro hu
        exact ⟨path, rfl, hentry, (Except.ok.inj hu).symm⟩
      · rintro ⟨_, ⟨⟩, -, rfl⟩
        rfl

theorem makeDir_extends (hsound : t.Sound) (h : t.makeDir workdir text = .ok u) :
    u.Sound ∧ t.Extends u := by
  obtain ⟨path, hresolve, hentry, rfl⟩ := makeDir_eq_ok_iff.mp h
  have hpath : t.entry? path ≠ some .dir := by
    rw [hentry]
    exact nofun
  obtain ⟨dir, last, hstands, -, rfl⟩ := hsound.exists_standsIn hresolve hpath
  have hput := entry?_put t (ne_nil_of_not_dir hpath) .dir
  refine ⟨hsound.update hput hpath (by rw [List.dropLast_concat, hstands.isDir]), fun place ↦ ?_⟩
  rw [hput]
  by_cases hplace : place = dir ++ [last]
  · rw [hplace, Function.update_self]
    exact .inr ⟨hentry, rfl⟩
  · rw [Function.update_of_ne hplace]
    exact .inl rfl

/-! ### Making a directory and those around it -/

theorem makeDirsUpTo_extends (hsound : t.Sound) {depth : Nat} {met : Option (String × Trouble)}
    (h : makeDirsUpTo workdir depth t text = (u, met)) : u.Sound ∧ t.Extends u := by
  induction depth generalizing t u text met with
  | zero =>
    obtain ⟨rfl, -⟩ := Prod.mk.inj h
    exact ⟨hsound, .refl t⟩
  | succ depth ih =>
    have haround : ∀ (around : String) (v : FileTree) (met : Option (String × Trouble)),
        (if around = "" then (t, none) else makeDirsUpTo workdir depth t around) = (v, met) →
          v.Sound ∧ t.Extends v := by
      intro around v met hv
      by_cases hempty : around = ""
      · rw [if_pos hempty] at hv
        obtain ⟨rfl, -⟩ := Prod.mk.inj hv
        exact ⟨hsound, .refl t⟩
      · rw [if_neg hempty] at hv
        exact ih hsound hv
    unfold makeDirsUpTo at h
    split at h
    · obtain ⟨rfl, -⟩ := Prod.mk.inj h
      exact ⟨hsound, .refl t⟩
    · obtain ⟨rfl, -⟩ := Prod.mk.inj h
      exact ⟨hsound, .refl t⟩
    · simp only at h
      split at h
      · next hv =>
        obtain ⟨rfl, -⟩ := Prod.mk.inj h
        exact haround _ _ _ hv
      · next v hv =>
        obtain ⟨hvSound, hvExtends⟩ := haround _ _ _ hv
        split at h
        · next hmade =>
          obtain ⟨rfl, -⟩ := Prod.mk.inj h
          obtain ⟨hmadeSound, hmadeExtends⟩ := makeDir_extends hvSound hmade
          exact ⟨hmadeSound, hvExtends.trans hmadeExtends⟩
        · obtain ⟨rfl, -⟩ := Prod.mk.inj h
          exact ⟨hvSound, hvExtends⟩

theorem makeDirs_extends (hsound : t.Sound) (workdir : Path) (text : String) :
    (t.makeDirs workdir text).1.Sound ∧ t.Extends (t.makeDirs workdir text).1 := by
  cases h : t.makeDirs workdir text with
  | mk u met =>
    rw [makeDirs] at h
    exact makeDirsUpTo_extends hsound h

theorem makeDirs_of_stat (h : t.stat workdir text = .ok .dir) :
    t.makeDirs workdir text = (t, none) := by
  rw [makeDirs, makeDirsUpTo, h]

/-- A directory that was made is there. -/
theorem stat_makeDirs (htext : Path.unslashed text = text)
    (h : t.makeDirs workdir text = (u, none)) : u.stat workdir text = .ok .dir := by
  rw [makeDirs, makeDirsUpTo] at h
  split at h
  · next hdir => rwa [← (Prod.mk.inj h).1]
  · exact nomatch h
  · simp only at h
    split at h
    · exact nomatch h
    · next around heq =>
      split at h
      · next made hmade =>
        obtain rfl := (Prod.mk.inj h).1
        obtain ⟨path, hresolve, hentry, rfl⟩ := makeDir_eq_ok_iff.mp hmade
        rw [htext] at hresolve
        have hpath : around.entry? path ≠ some .dir := by
          rw [hentry]
          exact nofun
        refine stat_eq_ok_iff.mpr ⟨path, (keepsDirs_put hpath).resolve hresolve, ?_⟩
        exact entry?_put_self around (ne_nil_of_not_dir hpath) .dir
      · exact nomatch h

end FileTree

end DeclTree
