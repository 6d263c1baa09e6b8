import DeclTree.Name
import Mathlib.Data.List.Induction

/-!
# Writing and reading dotted names

The written form of a name joins its identifiers with dots, and reading cuts it at the dots again.
The two are inverse on well-formed names, those whose identifiers are not empty and hold no dot:
`Name.parse_eq_ok_iff` says that reading gives a name exactly when the name is well formed and the
text is its written form.

A name is determined by its identifiers (`Name.eq_of_segments_eq`), so what reading gives has only
to be compared identifier by identifier. `Name.written_form` draws the conclusions for texts, for
names and for renamings.
-/

set_option autoImplicit false
set_option relaxedAutoImplicit false

namespace DeclTree

/-! ### Cutting and joining -/

namespace Text

theorem pieces_eq_splitOn {α : Type} [BEq α] (sep : α) (as : List α) :
    pieces sep as = as.splitOn sep := by
  induction as with
  | nil => rw [pieces, List.splitOn_nil]
  | cons a as ih =>
    rw [pieces, ih, List.splitOn_cons_eq_if_modifyHead]
    split
    · rfl
    · split
      · next hnil => exact absurd hnil (List.splitOn_ne_nil sep as)
      · next hcons => rw [hcons, List.modifyHead_cons]

theorem joined_eq_intercalate (sep : String) (ss : List String) :
    joined sep ss = sep.intercalate ss := by
  induction ss with
  | nil => rw [joined, String.intercalate_nil]
  | cons s ss ih =>
    cases ss with
    | nil => rw [joined, String.intercalate_singleton]
    | cons t ss => rw [joined, ih, String.intercalate_cons_cons]; exact nofun

theorem toList_splitAt (sep : Char) (s : String) :
    (splitAt sep s).map String.toList = s.toList.splitOn sep := by
  rw [splitAt, List.map_map, pieces_eq_splitOn]
  simp [Function.comp_def]

theorem splitAt_ne_nil (sep : Char) (s : String) : splitAt sep s ≠ [] := by
  intro hnil
  have hmap := toList_splitAt sep s
  rw [hnil] at hmap
  exact List.splitOn_ne_nil sep s.toList hmap.symm

/-- Joining the pieces of a text gives the text back. -/
theorem joined_splitAt (s : String) : joined "." (splitAt '.' s) = s := by
  refine String.toList_injective ?_
  rw [joined_eq_intercalate, String.toList_intercalate, toList_splitAt]
  exact List.intercalate_splitOn '.'

/-- Cutting at the dots undoes joining where the dots are the only ones. -/
theorem splitAt_joined {ss : List String} (hne : ss ≠ [])
    (hdots : ∀ s ∈ ss, '.' ∉ s.toList) : splitAt '.' (joined "." ss) = ss := by
  refine (List.map_inj_right fun _ _ ↦ String.toList_injective).mp ?_
  rw [toList_splitAt, joined_eq_intercalate, String.toList_intercalate]
  refine List.splitOn_intercalate '.' ?_ (by simpa using hne)
  simpa using hdots

theorem not_mem_of_mem_pieces {α : Type} [BEq α] [LawfulBEq α] {sep : α} {p as : List α}
    (hp : p ∈ pieces sep as) : sep ∉ p := by
  induction as generalizing p with
  | nil =>
    rw [pieces, List.mem_singleton] at hp
    simp [hp]
  | cons a as ih =>
    rw [pieces] at hp
    split at hp
    · rcases List.mem_cons.mp hp with rfl | hp
      · exact List.not_mem_nil
      · exact ih hp
    · next hne =>
      split at hp
      · next hnil => exact absurd hnil (pieces_eq_splitOn sep as ▸ List.splitOn_ne_nil sep as)
      · next q qs hcons =>
        rw [hcons] at ih
        rcases List.mem_cons.mp hp with rfl | hp
        · have hq := ih List.mem_cons_self
          simp only [List.mem_cons, not_or]
          exact ⟨fun heq ↦ hne (by simp [heq]), hq⟩
        · exact ih (List.mem_cons_of_mem q hp)

theorem not_mem_of_mem_splitAt {s text : String} (hs : s ∈ splitAt '.' text) :
    '.' ∉ s.toList := by
  obtain ⟨p, hp, rfl⟩ := List.mem_map.mp hs
  rw [String.toList_ofList]
  exact not_mem_of_mem_pieces hp

end Text

/-! ### Names and their identifiers -/

namespace Name

/-- Whether a name can be written and read again: no identifier is empty or holds a dot. -/
def WellFormed (name : Name) : Prop := ∀ s ∈ name.segments, s ≠ "" ∧ '.' ∉ s.toList

theorem segments_ne_nil (name : Name) : name.segments ≠ [] := by
  cases name with
  | ident s => exact List.cons_ne_nil s []
  | qualify left right => exact List.append_ne_nil_of_right_ne_nil _ (List.cons_ne_nil right [])

@[simp] theorem segments_map (f : String → String) (name : Name) :
    (name.map f).segments = name.segments.map f := by
  induction name with
  | ident s => rfl
  | qualify left right ih => rw [map, segments, segments, ih, List.map_append, List.map_singleton]

@[simp] theorem map_map (f g : String → String) (name : Name) :
    (name.map f).map g = name.map (g ∘ f) := by
  induction name with
  | ident s => rfl
  | qualify left right ih => rw [map, map, map, ih, Function.comp_apply]

theorem render_eq_joined (name : Name) : name.render = Text.joined "." name.segments := by
  rw [Text.joined_eq_intercalate]
  induction name with
  | ident s => rw [render, segments, String.intercalate_singleton]
  | qualify left right ih =>
    rw [render, segments, String.intercalate_append_of_ne_nil left.segments_ne_nil
      (List.cons_ne_nil right []), String.intercalate_singleton, ih]

/-- A name is determined by its identifiers. -/
theorem eq_of_segments_eq {a b : Name} (h : a.segments = b.segments) : a = b := by
  induction a generalizing b with
  | ident s =>
    cases b with
    | ident t => rw [List.singleton_inj.mp h]
    | qualify left right =>
      have hlength := congrArg List.length h
      simp only [segments, List.length_append, List.length_singleton] at hlength
      exact absurd (List.length_eq_zero_iff.mp (by omega)) left.segments_ne_nil
  | qualify left right ih =>
    cases b with
    | ident t =>
      have hlength := congrArg List.length h
      simp only [segments, List.length_append, List.length_singleton] at hlength
      exact absurd (List.length_eq_zero_iff.mp (by omega)) left.segments_ne_nil
    | qualify left' right' =>
      obtain ⟨hleft, hright⟩ := List.append_inj' h rfl
      rw [ih hleft, List.singleton_inj.mp hright]

/-! ### Reading a written name -/

theorem extend_eq_ok_iff {left name : Name} {rest : List String} :
    extend left rest = .ok name ↔
      (∀ s ∈ rest, s ≠ "") ∧ name.segments = left.segments ++ rest := by
  induction rest generalizing left with
  | nil =>
    rw [extend, List.append_nil]
    constructor
    · rintro ⟨⟩
      exact ⟨List.forall_mem_nil _, rfl⟩
    · rintro ⟨-, hsegments⟩
      rw [eq_of_segments_eq hsegments]
  | cons right rest ih =>
    by_cases hright : right = ""
    · simp [extend, join, hright]
    · simp only [extend, join, hright, if_false, ih, segments, List.append_assoc,
        List.singleton_append, List.forall_mem_cons, ne_eq, not_false_eq_true, true_and]

/-- Reading gives the name whose identifiers are the pieces between the dots, unless one of them is
empty. -/
theorem parse_eq_ok_iff_segments {text : String} {name : Name} :
    parse text = .ok name ↔
      (∀ s ∈ Text.splitAt '.' text, s ≠ "") ∧ name.segments = Text.splitAt '.' text := by
  by_cases htext : text = ""
  · subst htext
    have hempty : Text.splitAt '.' "" = [""] := rfl
    simp [parse, hempty]
  · obtain ⟨first, rest, hpieces⟩ := List.exists_cons_of_ne_nil (Text.splitAt_ne_nil '.' text)
    rw [parse, if_neg htext, hpieces]
    by_cases hfirst : first = ""
    · simp [hfirst]
    · have hextend : extend (.ident first) rest = .ok name ↔
          (∀ s ∈ rest, s ≠ "") ∧ name.segments = first :: rest := extend_eq_ok_iff
      simp only [hfirst, if_false, List.forall_mem_cons, ne_eq, not_false_eq_true, true_and]
      rw [← hextend]
      cases extend (.ident first) rest with
      | error flaw => simp
      | ok longer => rfl

/-- Reading gives a name exactly when the name is well formed and the text is its written form. -/
theorem parse_eq_ok_iff {text : String} {name : Name} :
    parse text = .ok name ↔ name.WellFormed ∧ name.render = text := by
  rw [parse_eq_ok_iff_segments]
  constructor
  · rintro ⟨hpieces, hsegments⟩
    constructor
    · intro s hs
      rw [hsegments] at hs
      exact ⟨hpieces s hs, Text.not_mem_of_mem_splitAt hs⟩
    · rw [render_eq_joined, hsegments, Text.joined_splitAt]
  · rintro ⟨hname, rfl⟩
    have hsegments : Text.splitAt '.' name.render = name.segments := by
      rw [render_eq_joined]
      exact Text.splitAt_joined name.segments_ne_nil fun s hs ↦ (hname s hs).2
    rw [hsegments]
    exact ⟨fun s hs ↦ (hname s hs).1, rfl⟩

theorem parse_render {name : Name} (hname : name.WellFormed) : parse name.render = .ok name :=
  parse_eq_ok_iff.mpr ⟨hname, rfl⟩

theorem splitAt_render {name : Name} (hname : name.WellFormed) :
    Text.splitAt '.' name.render = name.segments :=
  (parse_eq_ok_iff_segments.mp (parse_render hname)).2.symm

/-- The written form of a well-formed name is not empty. -/
theorem render_ne_empty {name : Name} (hname : name.WellFormed) : name.render ≠ "" := by
  intro hempty
  have hparse := parse_render hname
  rw [hempty, parse, if_pos rfl] at hparse
  exact nomatch hparse

/-! ### Texts that are names -/

/-- Whether a text is a dotted name: no piece between its dots is empty. -/
def IsDotted (text : String) : Prop := ∀ s ∈ Text.splitAt '.' text, s ≠ ""

theorem exists_segments_eq {ss : List String} (hss : ss ≠ []) :
    ∃ name : Name, name.segments = ss := by
  induction ss using List.reverseRecOn with
  | nil => exact absurd rfl hss
  | append_singleton ss s ih =>
    by_cases hempty : ss = []
    · exact ⟨.ident s, by rw [hempty]; rfl⟩
    · obtain ⟨left, hleft⟩ := ih hempty
      exact ⟨.qualify left s, by rw [segments, hleft]⟩

/-- The dotted names are the texts that can be read as names. -/
theorem exists_parse_iff {text : String} :
    (∃ name, parse text = .ok name) ↔ IsDotted text := by
  constructor
  · rintro ⟨name, hname⟩
    exact (parse_eq_ok_iff_segments.mp hname).1
  · intro hdotted
    obtain ⟨name, hname⟩ := exists_segments_eq (Text.splitAt_ne_nil '.' text)
    exact ⟨name, parse_eq_ok_iff_segments.mpr ⟨hdotted, hname⟩⟩

/-! ### Names and their written forms -/

/-- Whether two names are put together alike, whatever their identifiers are. -/
def SameShape : Name → Name → Prop
  | .ident _, .ident _ => True
  | .qualify left _, .qualify left' _ => SameShape left left'
  | _, _ => False

theorem sameShape_map (f : String → String) (name : Name) : name.SameShape (name.map f) := by
  induction name with
  | ident s => trivial
  | qualify left right ih => exact ih

/-- A dotted name is not empty, since the one piece of the empty text is. -/
theorem ne_empty_of_isDotted {text : String} (htext : IsDotted text) : text ≠ "" := by
  rintro rfl
  exact htext "" (by decide) rfl

/-- Names and their written forms determine each other. A text is cut at its dots into pieces; it
can be read exactly when it is not empty and no piece is, and the name that is read is written as
the text and has the pieces for its identifiers. A name whose identifiers are not empty and hold no
dot is read from its written form. Renaming changes the identifiers one by one and keeps how they
are put together, whatever they are renamed to. -/
theorem written_form :
    (∀ text : String, ∃ pieces : List String, pieces ≠ [] ∧ (∀ s ∈ pieces, '.' ∉ s.toList) ∧
        ".".intercalate pieces = text ∧
        ((∃ name, parse text = .ok name) ↔ text ≠ "" ∧ ∀ s ∈ pieces, s ≠ "") ∧
        ∀ name, parse text = .ok name → name.render = text ∧ name.segments = pieces) ∧
      (∀ name : Name, (∀ s ∈ name.segments, s ≠ "" ∧ '.' ∉ s.toList) →
        parse name.render = .ok name) ∧
      ∀ (name : Name) (f : String → String),
        (name.map f).segments = name.segments.map f ∧ name.SameShape (name.map f) := by
  refine ⟨fun text ↦ ?_, fun name hname ↦ parse_render hname, fun name f ↦ ?_⟩
  · refine ⟨Text.splitAt '.' text, Text.splitAt_ne_nil '.' text,
      fun s hs ↦ Text.not_mem_of_mem_splitAt hs, ?_, ?_, fun name hname ↦ ?_⟩
    · rw [← Text.joined_eq_intercalate, Text.joined_splitAt]
    · rw [exists_parse_iff]
      exact (and_iff_right_of_imp ne_empty_of_isDotted).symm
    · exact ⟨(parse_eq_ok_iff.mp hname).2, (parse_eq_ok_iff_segments.mp hname).2⟩
  · exact ⟨segments_map f name, sameShape_map f name⟩

/-- Three identifiers, read from their written form; renamed to a text with a dot, the last of them
is still one identifier. -/
theorem written_form_nested :
    parse "lib.ui.Album" = .ok (.qualify (.qualify (.ident "lib") "ui") "Album") ∧
      (Name.map (fun _ ↦ "a.b") (.qualify (.ident "lib") "ui")).segments = ["a.b", "a.b"] ∧
      ¬∃ name, parse "lib..Album" = .ok name := by
  obtain ⟨hread, hwritten, hmap⟩ := written_form
  refine ⟨hwritten (.qualify (.qualify (.ident "lib") "ui") "Album") (by decide),
    (hmap (.qualify (.ident "lib") "ui") fun _ ↦ "a.b").1, ?_⟩
  rintro ⟨name, hname⟩
  obtain ⟨pieces, -, -, -, hok, hsame⟩ := hread "lib..Album"
  obtain ⟨-, hnonempty⟩ := hok.mp ⟨name, hname⟩
  have hpieces : pieces = ["lib", "", "Album"] := by
    rw [← (hsame name hname).2, (parse_eq_ok_iff_segments.mp hname).2]
    decide
  exact hnonempty "" (hpieces ▸ by decide) rfl

end Name

end DeclTree
