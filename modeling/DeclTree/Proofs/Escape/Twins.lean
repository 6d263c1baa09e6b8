import DeclTree.Proofs.Escape.Grouping
import DeclTree.Proofs.Escape.Profile
import Mathlib.Data.Fintype.Card

/-!
# Which identifiers collide

An identifier that may not stand as it is has one twin, the identifier between quotes: escaping
takes both to the latter. `Profile.collisions_are_twins` says that no other identifiers collide. Of
two that collide one is quoted and the other is not, so no three collide, and what is reported for
the tokens of an enumeration are pairs of twins.
-/

set_option autoImplicit false
set_option relaxedAutoImplicit false

namespace DeclTree

namespace Profile

variable {p : Profile} {s t : String}

/-- Whether the target language does not take a text as it is: it is reserved, holds a special
character, or is made of underscores alone. -/
def Rejects (p : Profile) (s : String) : Prop :=
  s ∈ p.reserved ∨ (∃ c ∈ s.toList, c ∈ p.special.toList) ∨ (s ≠ "" ∧ ∀ c ∈ s.toList, c = '_')

/-- Whether the first text has to be quoted and the second one is what that gives. -/
def Twins (p : Profile) (s t : String) : Prop :=
  (¬∃ inner, s = p.mark ++ inner ++ p.mark) ∧ p.Rejects s ∧ t = p.mark ++ s ++ p.mark

theorem mustQuote_iff : p.mustQuote s = true ↔ p.Rejects s := by
  simp [mustQuote, hasSpecial, onlyUnderscores, Rejects, or_assoc]

theorem Twins.isQuoted_left (h : p.Twins s t) : p.isQuoted s = false :=
  Bool.eq_false_iff.mpr fun hquoted ↦ h.1 (isQuoted_iff.mp hquoted)

theorem Twins.isQuoted_right (h : p.Twins s t) : p.isQuoted t = true :=
  isQuoted_iff.mpr ⟨s, h.2.2⟩

theorem Twins.ne (h : p.Twins s t) : s ≠ t := by
  rintro rfl
  exact Bool.false_ne_true (h.isQuoted_left.symm.trans h.isQuoted_right)

/-- Twins are escaped alike, to the one that is quoted. -/
theorem Twins.escape_left (h : p.Twins s t) : p.escape s = t := by
  have hnot : ¬p.isQuoted s = true := by simp [h.isQuoted_left]
  rw [escape, if_neg hnot, if_pos (mustQuote_iff.mpr h.2.1), h.2.2]

theorem Twins.escape_right (h : p.Twins s t) : p.escape t = t :=
  escape_of_isQuoted h.isQuoted_right

theorem escape_eq_self_or_twins (p : Profile) (s : String) :
    p.escape s = s ∨ p.Twins s (p.escape s) := by
  by_cases hquoted : p.isQuoted s = true
  · exact .inl (escape_of_isQuoted hquoted)
  · by_cases hmust : p.mustQuote s = true
    · refine .inr ⟨fun hinner ↦ hquoted (isQuoted_iff.mpr hinner), mustQuote_iff.mp hmust, ?_⟩
      rw [escape, if_neg hquoted, if_pos hmust]
    · rw [escape, if_neg hquoted, if_neg hmust]
      exact .inl rfl

theorem quoted_injective (h : p.mark ++ s ++ p.mark = p.mark ++ t ++ p.mark) : s = t := by
  have hlist := congrArg String.toList h
  simp only [String.toList_append, List.append_left_inj, List.append_right_inj] at hlist
  exact String.toList_injective hlist

/-- Different texts are escaped alike exactly when they are twins. -/
theorem ne_and_escape_eq_iff :
    s ≠ t ∧ p.escape s = p.escape t ↔ p.Twins s t ∨ p.Twins t s := by
  constructor
  · rintro ⟨hne, heq⟩
    rcases p.escape_eq_self_or_twins s with hs | hs <;>
      rcases p.escape_eq_self_or_twins t with ht | ht
    · exact absurd (hs.symm.trans (heq.trans ht)) hne
    · rw [← heq, hs] at ht
      exact .inr ht
    · rw [heq, ht] at hs
      exact .inl hs
    · exact absurd (quoted_injective (hs.2.2.symm.trans (heq.trans ht.2.2))) hne
  · rintro (h | h)
    · exact ⟨h.ne, h.escape_left.trans h.escape_right.symm⟩
    · exact ⟨h.ne.symm, h.escape_right.trans h.escape_left.symm⟩

theorem isQuoted_ne_of_escape_eq (hne : s ≠ t) (heq : p.escape s = p.escape t) :
    p.isQuoted s ≠ p.isQuoted t := by
  rcases ne_and_escape_eq_iff.mp ⟨hne, heq⟩ with h | h
  · rw [h.isQuoted_left, h.isQuoted_right]
    exact Bool.false_ne_true
  · rw [h.isQuoted_left, h.isQuoted_right]
    exact Bool.false_ne_true.symm

/-- No three texts are escaped alike. -/
theorem length_le_two_of_escape_eq {names : List String} {escaped : String} (hnodup : names.Nodup)
    (hnames : ∀ name ∈ names, p.escape name = escaped) : names.length ≤ 2 := by
  have hmap : (names.map p.isQuoted).Nodup := by
    refine hnodup.map_on fun s hs t ht hquoted ↦ ?_
    by_contra hne
    exact isQuoted_ne_of_escape_eq hne ((hnames s hs).trans (hnames t ht).symm) hquoted
  have hcard := hmap.length_le_card
  rwa [List.length_map, Fintype.card_bool] at hcard

end Profile

namespace Collision

/-- A report lists names of its scope, two or more, each once, that are escaped to what it says. -/
theorem names_of_mem_ofNames {scope : String} {names : List String} {escape : String → String}
    {c : Collision} (hc : c ∈ ofNames scope names escape) :
    c.names.Nodup ∧ 1 < c.names.length ∧
      ∀ name ∈ c.names, name ∈ names ∧ escape name = c.escaped := by
  rw [ofNames, group_eq, List.filterMap_map, List.mem_filterMap] at hc
  obtain ⟨key, -, hkey⟩ := hc
  simp only [Function.comp_apply, Option.ite_none_right_eq_some, Option.some.injEq] at hkey
  obtain ⟨hlength, rfl⟩ := hkey
  have hperm : (sorted (names.filter fun name ↦ escape name = key).eraseDups).Perm
      (names.filter fun name ↦ escape name = key).eraseDups := List.mergeSort_perm ..
  refine ⟨hperm.nodup_iff.mpr (nodup_eraseDups _), hperm.length_eq ▸ hlength, fun name hname ↦ ?_⟩
  simpa using hperm.mem_iff.mp hname

end Collision

namespace Profile

/-- Exactly the twins collide. A text is quoted when it is some text between two quotes; different
texts are escaped alike exactly when one of them is not quoted and has to be, and the other is that
text between quotes. So every collision among the tokens of an enumeration has two names, a text and
its twin. -/
theorem collisions_are_twins (p : Profile) :
    (∀ s, p.isQuoted s = true ↔ ∃ inner, s = p.mark ++ inner ++ p.mark) ∧
      (∀ s t, s ≠ t ∧ p.escape s = p.escape t ↔ p.Twins s t ∨ p.Twins t s) ∧
      ∀ e : Enum, ∀ c ∈ Collision.inScope p (.enum e),
        c.names.length = 2 ∧ ∃ s, p.Twins s c.escaped ∧ c.names.Perm [s, c.escaped] := by
  refine ⟨fun _ ↦ isQuoted_iff, fun _ _ ↦ ne_and_escape_eq_iff, fun e c hc ↦ ?_⟩
  obtain ⟨hnodup, hmany, hnames⟩ := Collision.names_of_mem_ofNames hc
  have hfew := length_le_two_of_escape_eq hnodup fun name hname ↦ (hnames name hname).2
  have htwo : c.names.length = 2 := by omega
  refine ⟨htwo, ?_⟩
  obtain ⟨a, b, hpair⟩ := List.length_eq_two.mp htwo
  rw [hpair] at hnodup hnames ⊢
  have hne : a ≠ b := by simpa using hnodup
  have ha : p.escape a = c.escaped := (hnames a (by simp)).2
  have hb : p.escape b = c.escaped := (hnames b (by simp)).2
  rcases ne_and_escape_eq_iff.mp ⟨hne, ha.trans hb.symm⟩ with h | h
  · have hescaped : b = c.escaped := h.escape_right.symm.trans hb
    exact ⟨a, hescaped ▸ h, hescaped ▸ .refl _⟩
  · have hescaped : a = c.escaped := h.escape_right.symm.trans ha
    exact ⟨b, hescaped ▸ h, hescaped ▸ .swap b a []⟩

/-- A quote that overlaps itself, and three tokens made of underscores: the quote itself has to be
quoted, and stands alone here. -/
theorem collisions_are_twins_underscores :
    ⟨"enum Mode", "_____", Collision.sorted ["_____", "_"]⟩ ∈
        Collision.inScope ⟨["fun"], "$", "__"⟩
          (.enum ⟨.ident "Mode", [⟨"_____", ""⟩, ⟨"__", ""⟩, ⟨"_", "low"⟩], ""⟩) ∧
      (Collision.sorted ["_____", "_"]).length = 2 := by
  have hreported : ⟨"enum Mode", "_____", Collision.sorted ["_____", "_"]⟩ ∈
      Collision.inScope ⟨["fun"], "$", "__"⟩
        (.enum ⟨.ident "Mode", [⟨"_____", ""⟩, ⟨"__", ""⟩, ⟨"_", "low"⟩], ""⟩) :=
    List.mem_filterMap.mpr ⟨("_____", ["_____", "_"]), by decide, rfl⟩
  obtain ⟨-, -, htokens⟩ := collisions_are_twins ⟨["fun"], "$", "__"⟩
  exact ⟨hreported, (htokens _ _ hreported).1⟩

end Profile

end DeclTree
