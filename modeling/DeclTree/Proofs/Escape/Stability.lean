import DeclTree.Config.Validate
import DeclTree.Proofs.Lowering.Readable

/-!
# Escaped trees are stable

Two things can be done with an escaped tree: it can be escaped again, and it can be written and read
again.

Escaping again changes nothing, whatever the profile: a second renaming is the first one, since a
text is quoted or may stand bare once it has been escaped (`Escape.second_pass_changes_nothing`).

Reading what was written gives the escaped names back exactly where the quote holds no dot
(`Config.escaped_names_read_back_iff`). The parser cuts a name at every dot, also at those of a
quote, and what is checked of a quote in a configuration leaves dots alone. A name that escaping
does not change reads back under every quote.
-/

set_option autoImplicit false
set_option relaxedAutoImplicit false

namespace DeclTree

/-! ### Escaping an escaped tree -/

theorem Module.renamed_escape_renamed_escape (p : Profile) (m : Module) :
    (m.renamed p.escape).renamed p.escape = m.renamed p.escape := by
  have htwice : p.escape ∘ p.escape = p.escape := funext p.escape_escape
  rw [Module.renamed_renamed, htwice]

namespace Escape

theorem isKnown_renamed (p : Profile) {m : Module} (hknown : m.IsKnown) :
    (m.renamed p.escape).IsKnown :=
  (Stage.escape p 1 0).isKnown_apply hknown

/-- The pass succeeds on every known tree, and on what it gives there it succeeds again and changes
nothing, also when it runs with other workers. What it gives has the identifiers of the tree, each
escaped. -/
theorem second_pass_changes_nothing (p : Profile) (workers verbosity : Int) {m : Module}
    (hknown : m.IsKnown) :
    ∃ m', ((pass p false workers verbosity).lower (some m)).outcome = .ok (some m') ∧
      m'.segments = m.segments.map p.escape ∧
      ∀ workers' verbosity' : Int,
        ((pass p false workers' verbosity').lower (some m')).outcome = .ok (some m') := by
  refine ⟨m.renamed p.escape, outcome_pass p false workers verbosity hknown rfl,
    m.segments_renamed p.escape, fun workers' verbosity' ↦ ?_⟩
  have hagain := outcome_pass p false workers' verbosity' (isKnown_renamed p hknown) rfl
  rwa [Module.renamed_escape_renamed_escape] at hagain

/-- The quote is made of underscores: it overlaps itself, it may not stand bare, and one of the
names that the pass quotes is the quote. -/
theorem second_pass_underscores :
    signTree.IsKnown ∧
      ∃ m', ((pass ⟨["fun", "T"], "$", "__"⟩ false 2 0).lower (some signTree)).outcome =
          .ok (some m') ∧
        m'.segments = ["lib", "package", "in", "object", "__T__", "Base", "val", "__fun__",
          "______", "size", "Box", "typeof", "Mode", "when", "__a$b__"] ∧
        ((pass ⟨["fun", "T"], "$", "__"⟩ false 2 0).lower (some m')).outcome = .ok (some m') := by
  have hknown : signTree.IsKnown := by decide
  obtain ⟨m', hfirst, hsegments, hsecond⟩ :=
    second_pass_changes_nothing ⟨["fun", "T"], "$", "__"⟩ 2 0 hknown
  refine ⟨hknown, m', hfirst, ?_, hsecond 2 0⟩
  rw [hsegments]
  decide

end Escape

/-! ### Reading escaped names back -/

namespace Profile

variable {p : Profile}

/-- A quote with a dot brings its dot into every text that it is put around. -/
theorem mem_escape_of_ne (hmark : '.' ∈ p.mark.toList) {s : String} (hs : p.escape s ≠ s) :
    '.' ∈ (p.escape s).toList := by
  rcases p.escape_cases s with ⟨heq, -⟩ | ⟨heq, -⟩
  · exact absurd heq hs
  · simp [heq, String.toList_append, hmark]

/-- A well-formed name is well formed once escaped when the quote holds no dot, and otherwise only
if escaping leaves the name as it is. -/
theorem wellFormed_escapeName_iff {name : Name} (hname : name.WellFormed) :
    (p.escapeName name).WellFormed ↔ '.' ∉ p.mark.toList ∨ p.escapeName name = name := by
  by_cases hmark : '.' ∈ p.mark.toList
  · simp only [hmark, not_true_eq_false, false_or]
    constructor
    · intro hescaped
      have hsegments : (p.escapeName name).segments = name.segments.map p.escape :=
        Name.segments_map p.escape name
      refine Name.eq_of_segments_eq ?_
      rw [hsegments]
      refine (List.map_congr_left fun s hs ↦ ?_).trans (List.map_id name.segments)
      by_contra hchanged
      have hdot : '.' ∈ (p.escape s).toList := mem_escape_of_ne hmark hchanged
      have hmem : p.escape s ∈ (p.escapeName name).segments := by
        rw [hsegments]
        exact List.mem_map_of_mem hs
      exact (hescaped (p.escape s) hmem).2 hdot
    · intro heq
      rwa [heq]
  · simp only [hmark, not_false_eq_true, true_or, iff_true]
    exact hname.map (keepsIdentifiers_escape hmark)

/-- The name that every quote with a dot in it spoils. -/
def underscore : Name := .ident "_"

theorem wellFormed_underscore : underscore.WellFormed := by
  unfold Name.WellFormed underscore
  decide

theorem escapeName_underscore_ne (hmark : '.' ∈ p.mark.toList) :
    p.escapeName underscore ≠ underscore := by
  intro heq
  have hkept : p.escape "_" = "_" := Name.ident.inj heq
  rcases p.escape_cases "_" with ⟨-, hquoted | hbare⟩ | ⟨hchanged, -⟩
  · obtain ⟨inner, hinner⟩ := isQuoted_iff.mp hquoted
    have hdot : '.' ∈ "_".toList := by
      rw [hinner]
      simp [String.toList_append, hmark]
    exact absurd hdot (by decide)
  · exact hbare.2.2 (by simp)
  · have hdot : '.' ∈ "_".toList := by
      rw [← hkept, hchanged]
      simp [String.toList_append, hmark]
    exact absurd hdot (by decide)

/-- What escaping makes of a name that can be read is read back when the quote holds no dot, and
otherwise only if escaping leaves the name as it is. -/
theorem parse_render_escapeName_iff {text : String} {name : Name}
    (htext : Name.parse text = .ok name) :
    Name.parse (p.escapeName name).render = .ok (p.escapeName name) ↔
      '.' ∉ p.mark.toList ∨ p.escapeName name = name := by
  obtain ⟨hname, -⟩ := Name.parse_eq_ok_iff.mp htext
  rw [← wellFormed_escapeName_iff hname, Name.parse_eq_ok_iff]
  exact and_iff_left rfl

theorem names_read_back_iff :
    (∀ text name, Name.parse text = .ok name →
        Name.parse (p.escapeName name).render = .ok (p.escapeName name)) ↔
      '.' ∉ p.mark.toList := by
  constructor
  · intro hreads hmark
    have htext : Name.parse underscore.render = .ok underscore :=
      Name.parse_render wellFormed_underscore
    rcases (parse_render_escapeName_iff htext).mp (hreads _ _ htext) with hdotless | hkept
    · exact hdotless hmark
    · exact escapeName_underscore_ne hmark hkept
  · intro hdotless text name htext
    exact (parse_render_escapeName_iff htext).mpr (.inl hdotless)

end Profile

/-! ### Reading escaped trees back -/

/-- A tree can be written and read again exactly when it is well formed. -/
theorem Module.reads_back_iff {m : Module} :
    (∃ doc, m.encode = .ok doc ∧ doc.toModule .required = .ok m) ↔ m.WellFormed := by
  constructor
  · rintro ⟨doc, -, hread⟩
    exact Document.every_of_toModule ⟨fun _ huid ↦ huid, trivial⟩ hread
  · intro hwell
    obtain ⟨doc, hdoc, hread⟩ := Document.module_of_wellFormed hwell
    exact ⟨doc, hdoc, Document.toModule_of_decodeModule (hread [])⟩

namespace Profile

variable {p : Profile}

/-- A module that holds nothing but its name. -/
def underscoreTree : Module := ⟨⟨some underscore, none, "", [], []⟩, [], []⟩

theorem renamed_wellFormed_iff :
    (∀ m : Module, m.WellFormed → (m.renamed p.escape).WellFormed) ↔ '.' ∉ p.mark.toList := by
  constructor
  · intro hkeeps hmark
    have hwell : underscoreTree.WellFormed := by decide
    obtain ⟨⟨hhead, -⟩, -⟩ := Module.every_iff.mp (hkeeps underscoreTree hwell)
    have hname : (p.escapeName underscore).WellFormed := hhead.1 _ rfl
    rcases (wellFormed_escapeName_iff wellFormed_underscore).mp hname with hdotless | hkept
    · exact hdotless hmark
    · exact escapeName_underscore_ne hmark hkept
  · intro hdotless m hwell
    exact Stage.wellFormed_apply (s := .escape p 1 0) (keepsIdentifiers_escape hdotless) hwell

/-- The pass gives trees that can be written and read again, of all well-formed trees, exactly when
the quote holds no dot. -/
theorem trees_read_back_iff (workers verbosity : Int) :
    (∀ m : Module, m.WellFormed →
        ∃ m' doc, ((Escape.pass p false workers verbosity).lower (some m)).outcome =
            .ok (some m') ∧ m'.encode = .ok doc ∧ doc.toModule .required = .ok m') ↔
      '.' ∉ p.mark.toList := by
  rw [← renamed_wellFormed_iff]
  refine forall₂_congr fun m hwell ↦ ?_
  rw [Escape.outcome_pass p false workers verbosity (Module.isKnown_of_sound hwell) rfl,
    ← Module.reads_back_iff]
  simp

end Profile

namespace Config

variable {c : Config}

/-- A valid configuration names a quote. -/
theorem quote_ne_empty (hvalid : c.isValid = true) : c.profile.quote ≠ "" := by
  intro hempty
  rw [isValid, Option.isNone_iff_eq_none, flaw?] at hvalid
  simp only [hempty, if_true] at hvalid
  split at hvalid
  · cases hvalid
  · split at hvalid
    · cases hvalid
    · split at hvalid <;> cases hvalid

/-- Under a valid configuration an escaped name reads back when the quote holds no dot, and
otherwise only if it is the name that was escaped. So all names do exactly when the quote holds no
dot, and the same goes for the trees that the configured pass gives. -/
theorem escaped_names_read_back_iff (hvalid : c.isValid = true) :
    (∀ text name, Name.parse text = .ok name →
        (Name.parse (c.profile.escapeName name).render = .ok (c.profile.escapeName name) ↔
          '.' ∉ c.profile.quote.toList ∨ c.profile.escapeName name = name)) ∧
      ((∀ text name, Name.parse text = .ok name →
          Name.parse (c.profile.escapeName name).render = .ok (c.profile.escapeName name)) ↔
        '.' ∉ c.profile.quote.toList) ∧
      ((∀ m : Module, m.WellFormed →
          ∃ m' doc, ((Escape.pass c.profile false c.workers c.verbosity).lower (some m)).outcome =
              .ok (some m') ∧ m'.encode = .ok doc ∧ doc.toModule .required = .ok m') ↔
        '.' ∉ c.profile.quote.toList) := by
  have hmark : c.profile.mark = c.profile.quote := if_neg (quote_ne_empty hvalid)
  rw [← hmark]
  exact ⟨fun _ _ ↦ Profile.parse_render_escapeName_iff, Profile.names_read_back_iff,
    Profile.trees_read_back_iff c.workers c.verbosity⟩

/-- The usual configuration, under which a name of two reserved words reads back. -/
theorem escaped_names_read_back_default :
    Config.default.isValid = true ∧
      Name.parse "lib.`fun`.`is`" =
        .ok (Profile.default.escapeName (.qualify (.qualify (.ident "lib") "fun") "is")) := by
  have hvalid : Config.default.isValid = true := by decide
  obtain ⟨-, hnames, -⟩ := escaped_names_read_back_iff hvalid
  exact ⟨hvalid, hnames.mpr (by decide) "lib.fun.is" _ rfl⟩

/-- The usual configuration with a dot for the quote. -/
def dotQuoted : Config := { Config.default with profile := { Profile.default with quote := "." } }

/-- A dot is a valid quote, and a reserved word does not read back once it stands between dots. -/
theorem dotQuoted_spoils_names :
    dotQuoted.isValid = true ∧ Name.parse "fun" = .ok (.ident "fun") ∧
      (dotQuoted.profile.escapeName (.ident "fun")).render = ".fun." ∧
      Name.parse ".fun." = .error (.startsEmpty ".fun.") := by
  decide

end Config

end DeclTree
