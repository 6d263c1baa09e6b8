import DeclTree.Escape.Profile
import DeclTree.Proofs.Name

/-!
# What escaping gives

`Profile.isQuoted_iff` says which texts count as quoted and `Profile.mustQuote_eq_false_iff` which
may stand bare. An escaped text is one or the other, so escaping a second time changes nothing.

A written name can be escaped in its pieces between the dots, or as the identifiers of the name that
was written. For well-formed names both come to the same, `Profile.escapeDotted_render`.
-/

set_option autoImplicit false
set_option relaxedAutoImplicit false

namespace DeclTree.Profile

variable {p : Profile} {s : String}

/-- Whether a text may stand as it is: it is not reserved, holds no special character, and is not
made of underscores alone. -/
def Bare (p : Profile) (s : String) : Prop :=
  s ∉ p.reserved ∧ (∀ c ∈ s.toList, c ∉ p.special.toList) ∧
    ¬(s ≠ "" ∧ ∀ c ∈ s.toList, c = '_')

theorem mark_ne_empty (p : Profile) : p.mark ≠ "" := by
  unfold mark
  by_cases hquote : p.quote = ""
  · rw [if_pos hquote]
    decide
  · rwa [if_neg hquote]

/-- A text is quoted when it stands between two marks. -/
theorem isQuoted_iff : p.isQuoted s = true ↔ ∃ inner, s = p.mark ++ inner ++ p.mark := by
  simp only [isQuoted, Bool.and_eq_true, decide_eq_true_eq, List.isPrefixOf_iff_prefix,
    List.isSuffixOf_iff_suffix]
  constructor
  · rintro ⟨⟨hlength, hleft⟩, hright⟩
    obtain ⟨rest, hrest⟩ := hleft
    have hroom : p.mark.toList.length ≤ rest.length := by
      rw [← hrest, List.length_append] at hlength
      omega
    -- The marks do not overlap, so the second one ends what follows the first.
    have hends : p.mark.toList <:+ rest :=
      List.suffix_of_suffix_length_le hright (hrest ▸ List.suffix_append _ rest) hroom
    obtain ⟨inner, rfl⟩ := hends
    refine ⟨String.ofList inner, String.toList_injective ?_⟩
    rw [← hrest, String.toList_append, String.toList_append, String.toList_ofList,
      List.append_assoc]
  · rintro ⟨inner, rfl⟩
    simp only [String.toList_append, List.length_append]
    exact ⟨⟨by omega, ⟨_, (List.append_assoc ..).symm⟩⟩, ⟨_, rfl⟩⟩

theorem isQuoted_quoted (inner : String) : p.isQuoted (p.mark ++ inner ++ p.mark) = true :=
  isQuoted_iff.mpr ⟨inner, rfl⟩

theorem mustQuote_eq_false_iff : p.mustQuote s = false ↔ p.Bare s := by
  simp [mustQuote, hasSpecial, onlyUnderscores, Bare, and_assoc]

/-! ### Escaping one identifier -/

theorem escape_of_isQuoted (hs : p.isQuoted s = true) : p.escape s = s := if_pos hs

theorem escape_of_bare (hs : p.Bare s) : p.escape s = s := by
  rw [escape, mustQuote_eq_false_iff.mpr hs]
  exact ite_self s

/-- Escaping leaves a text as it is, or puts marks around a text that is not quoted. -/
theorem escape_cases (p : Profile) (s : String) :
    (p.escape s = s ∧ (p.isQuoted s = true ∨ p.Bare s)) ∨
      (p.escape s = p.mark ++ s ++ p.mark ∧ p.isQuoted s = false) := by
  unfold escape
  by_cases hquoted : p.isQuoted s = true
  · rw [if_pos hquoted]
    exact .inl ⟨rfl, .inl hquoted⟩
  · rw [if_neg hquoted]
    by_cases hmust : p.mustQuote s = true
    · rw [if_pos hmust]
      exact .inr ⟨rfl, Bool.eq_false_iff.mpr hquoted⟩
    · rw [if_neg hmust]
      exact .inl ⟨rfl, .inr (mustQuote_eq_false_iff.mp (Bool.eq_false_iff.mpr hmust))⟩

/-- What has been escaped is quoted or may stand bare. -/
theorem isQuoted_or_bare_escape (p : Profile) (s : String) :
    p.isQuoted (p.escape s) = true ∨ p.Bare (p.escape s) := by
  rcases p.escape_cases s with ⟨heq, hs⟩ | ⟨heq, -⟩
  · rwa [heq]
  · rw [heq]
    exact .inl (isQuoted_quoted s)

@[simp] theorem escape_escape (p : Profile) (s : String) : p.escape (p.escape s) = p.escape s := by
  rcases p.isQuoted_or_bare_escape s with hquoted | hbare
  · exact escape_of_isQuoted hquoted
  · exact escape_of_bare hbare

theorem escape_ne_empty {s : String} (hs : s ≠ "") : p.escape s ≠ "" := by
  rcases p.escape_cases s with ⟨heq, -⟩ | ⟨heq, -⟩
  · rwa [heq]
  · rw [heq]
    simp [p.mark_ne_empty]

/-- With a quote that holds no dot, escaping puts no dot into a text. -/
theorem not_mem_escape (hmark : '.' ∉ p.mark.toList) {s : String} (hs : '.' ∉ s.toList) :
    '.' ∉ (p.escape s).toList := by
  rcases p.escape_cases s with ⟨heq, -⟩ | ⟨heq, -⟩
  · rwa [heq]
  · simp [heq, String.toList_append, hmark, hs]

/-! ### Escaping a written name -/

/-- Escaping the pieces between the dots of a written name is escaping its identifiers. -/
theorem escapeDotted_render (p : Profile) {name : Name} (hname : name.WellFormed) :
    p.escapeDotted name.render = (name.map p.escape).render := by
  rw [escapeDotted, Name.splitAt_render hname, Name.render_eq_joined, Name.segments_map]

/-- A name that was read from a text escapes alike both ways, whatever the quote is made of: in the
pieces between the dots of its written form, put together with dots again, and identifier by
identifier. -/
theorem escapes_read_names_alike (p : Profile) {text : String} {name : Name}
    (hname : Name.parse text = .ok name) :
    p.escapeDotted name.render = (p.escapeName name).render := by
  obtain ⟨hwellFormed, -⟩ := Name.parse_eq_ok_iff.mp hname
  exact p.escapeDotted_render hwellFormed

/-- A quote that is a dot spoils the written form, and does so both ways. -/
theorem escapes_read_names_alike_dotQuoted :
    Name.parse "lib.fun.a$" = .ok (.qualify (.qualify (.ident "lib") "fun") "a$") ∧
      Profile.escapeDotted ⟨["fun"], "$", "."⟩ "lib.fun.a$" = "lib..fun...a$." ∧
      Profile.escapeDotted ⟨["fun"], "$", "."⟩
          (Name.qualify (.qualify (.ident "lib") "fun") "a$").render =
        (Profile.escapeName ⟨["fun"], "$", "."⟩
          (.qualify (.qualify (.ident "lib") "fun") "a$")).render :=
  have hname : Name.parse "lib.fun.a$" = .ok (.qualify (.qualify (.ident "lib") "fun") "a$") := by
    decide
  ⟨hname, by decide, escapes_read_names_alike _ hname⟩

/-- A text without dots escapes alike in pieces and as a whole. -/
theorem escapeDotted_of_not_mem (p : Profile) {s : String} (hs : '.' ∉ s.toList) :
    p.escapeDotted s = p.escape s := by
  have hpieces : Text.splitAt '.' s = [s] :=
    Text.splitAt_joined (List.cons_ne_nil s []) (List.forall_mem_singleton.mpr hs)
  rw [escapeDotted, hpieces]
  rfl

/-- With a quote that holds no dot, cutting what was escaped in pieces gives the escaped pieces. -/
theorem splitAt_escapeDotted (hmark : '.' ∉ p.mark.toList) (s : String) :
    Text.splitAt '.' (p.escapeDotted s) = (Text.splitAt '.' s).map p.escape := by
  refine Text.splitAt_joined ?_ fun piece hpiece ↦ ?_
  · exact fun hnil ↦ Text.splitAt_ne_nil '.' s (List.map_eq_nil_iff.mp hnil)
  · obtain ⟨original, horiginal, rfl⟩ := List.mem_map.mp hpiece
    exact not_mem_escape hmark (Text.not_mem_of_mem_splitAt horiginal)

theorem escapeDotted_escapeDotted (hmark : '.' ∉ p.mark.toList) (s : String) :
    p.escapeDotted (p.escapeDotted s) = p.escapeDotted s := by
  have hpieces : ((Text.splitAt '.' s).map p.escape).map p.escape =
      (Text.splitAt '.' s).map p.escape := by
    rw [List.map_map]
    exact List.map_congr_left fun piece _ ↦ p.escape_escape piece
  rw [escapeDotted, splitAt_escapeDotted hmark, hpieces, escapeDotted]

theorem escapeDotted_ne_empty (hmark : '.' ∉ p.mark.toList) {s : String} (hs : s ≠ "") :
    p.escapeDotted s ≠ "" := by
  intro hempty
  have hpieces : (Text.splitAt '.' s).map p.escape = [""] := by
    rw [← splitAt_escapeDotted hmark, hempty]
    rfl
  obtain ⟨piece, hpiece, hescaped⟩ := List.map_eq_singleton_iff.mp hpieces
  have hsingle : piece = s := by
    rw [← Text.joined_splitAt s, hpiece]
    rfl
  exact escape_ne_empty hs (hsingle ▸ hescaped)

end DeclTree.Profile
