import DeclTree.Proofs.Escape.Profile
import DeclTree.Proofs.Lowering.CarriesOut
import DeclTree.Proofs.Tree.Blank
import DeclTree.Escape.Pass

/-!
# Escaping reaches every name

The escaping pass is a renaming: traversal and rule together change every identifier of a tree once
and nothing besides. `Escape.outcome_pass` says which tree the pass gives, and
`Escape.escapes_every_name` says it without a second traversal, by the identifiers of the result and
by its blank.
-/

set_option autoImplicit false
set_option relaxedAutoImplicit false

namespace DeclTree.Escape

theorem carriesOut (p : Profile) (workers verbosity : Int) :
    (rules p workers verbosity).CarriesOut (.renaming p.escape) where
  rename := rfl
  passes kind o below _ henum := by
    have hnone : (rules p workers verbosity).rule? kind = none := if_neg henum
    rw [Rules.apply, hnone]
    rfl
  enum o e below hbelow := Course.outcome_run_of_ok hbelow
  self nullable tags o below hbelow := hbelow

/-- The pass gives the tree with every identifier escaped, in every known tree, unless collisions
are faults and there are any. -/
theorem outcome_pass (p : Profile) (failOnCollision : Bool) (workers verbosity : Int) {m : Module}
    (hknown : m.IsKnown) (hreport : (report p failOnCollision m).outcome = .ok ()) :
    ((pass p failOnCollision workers verbosity).lower (some m)).outcome =
      .ok (some (m.renamed p.escape)) := by
  have hlower : ((rules p workers verbosity).lower (some m)).outcome =
      .ok (m.renamed p.escape) :=
    (carriesOut p workers verbosity).outcome_lower hknown
  rw [← Run.outcome_map_of_ok hlower some]
  exact Run.outcome_bind_of_ok hreport _

/-- Escaping reaches every name once and touches nothing else. The pass succeeds on every known
tree; the identifiers of the result are those of the tree, each escaped, and all that is not an
identifier is as it was, which leaves no other result. So every identifier of the result is quoted
or may stand bare. -/
theorem escapes_every_name (p : Profile) (workers verbosity : Int) {m : Module}
    (hknown : m.IsKnown) :
    ∃ m', ((pass p false workers verbosity).lower (some m)).outcome = .ok (some m') ∧
      m'.segments = m.segments.map p.escape ∧ m'.blank = m.blank ∧
      (∀ t : Module, t.segments = m.segments.map p.escape → t.blank = m.blank → t = m') ∧
      ∀ s ∈ m'.segments, (∃ inner, s = p.mark ++ inner ++ p.mark) ∨ p.Bare s := by
  have hsegments := m.segments_renamed p.escape
  have hblank := m.blank_renamed p.escape
  refine ⟨m.renamed p.escape, outcome_pass p false workers verbosity hknown rfl, hsegments, hblank,
    ?_, ?_⟩
  · intro t htSegments htBlank
    exact Module.eq_of_blank_of_segments (htBlank.trans hblank.symm)
      (htSegments.trans hsegments.symm)
  · intro s hs
    rw [hsegments] at hs
    obtain ⟨original, -, rfl⟩ := List.mem_map.mp hs
    rcases p.isQuoted_or_bare_escape original with hquoted | hbare
    · exact .inl (Profile.isQuoted_iff.mp hquoted)
    · exact .inr hbare

/-- A module whose names stand in many places, some of them reserved: a qualified name, an import,
a class with a type parameter, a parent, a method and a parameter, an extension variable, and the
tokens of an enumeration. -/
def signTree : Module :=
  ⟨⟨some (.qualify (.ident "lib") "package"), none, "module:lib", [.ident "in"], [⟨"as", []⟩]⟩,
    [.classLike
        ⟨.cls false [⟨.ident "T", [], none⟩], .ident "object",
          [⟨.ident "Base", [.named (.ident "val") [] none true ⟨[]⟩], some "class:Base"⟩], true,
          "class:object", ⟨["is"]⟩⟩
        [.method ⟨"fun", [], [⟨"__", some (.self false ⟨[]⟩), false, false⟩], none, false, false,
          false⟩],
      .var ⟨.ident "size", none, some ⟨.ident "Box", [.ident "typeof"]⟩, true, false, true, ⟨[]⟩⟩,
      .enum ⟨.ident "Mode", [⟨"when", "when"⟩, ⟨"a$b", "2"⟩], "enum:Mode"⟩],
    []⟩

theorem escapes_signTree :
    signTree.IsKnown ∧
      ∃ m', ((pass .default false 2 0).lower (some signTree)).outcome = .ok (some m') ∧
        m'.segments = ["lib", "`package`", "`in`", "`object`", "T", "Base", "`val`", "`fun`",
          "`__`", "size", "Box", "`typeof`", "Mode", "`when`", "`a$b`"] ∧
        m'.blank = signTree.blank := by
  have hknown : signTree.IsKnown := by decide
  obtain ⟨m', hlower, hsegments, hblank, -, -⟩ := escapes_every_name .default 2 0 hknown
  refine ⟨hknown, m', hlower, ?_, hblank⟩
  rw [hsegments]
  decide

end DeclTree.Escape
