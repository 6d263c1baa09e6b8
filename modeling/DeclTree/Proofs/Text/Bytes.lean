import Mathlib.Data.String.Basic

/-!
# Texts and their bytes

Texts are compared by the numbers of their characters, one character after the other. Written in
UTF-8 they come in the same order when their bytes are compared: of two characters the greater one
has the greater first byte, or else the greater byte where the two first differ,
`Text.utf8EncodeChar_append_lt`.
-/

set_option autoImplicit false
set_option relaxedAutoImplicit false

namespace DeclTree.Text

/-- The bytes of a text. -/
def bytes (s : String) : List UInt8 := s.toByteArray.data.toList

theorem bytes_eq_flatMap (s : String) : bytes s = s.toList.flatMap String.utf8EncodeChar := by
  rw [bytes, ← String.utf8Encode_toList, List.utf8Encode]
  simp

/-- Two runs of bytes are compared by their first bytes, and by the rest where these are equal. -/
theorem ofNat_cons_lt {m n : Nat} {as bs : List UInt8} (hn : n < 256) (hle : m ≤ n)
    (hrest : m = n → as < bs) : UInt8.ofNat m :: as < UInt8.ofNat n :: bs := by
  rw [List.cons_lt_cons_iff]
  rcases hle.lt_or_eq with hlt | heq
  · exact .inl ((UInt8.ofNat_lt_iff_lt (hlt.trans hn) hn).mpr hlt)
  · exact .inr ⟨congrArg UInt8.ofNat heq, hrest heq⟩

/-- The bytes of a character come before those of a greater one, whatever follows them. -/
theorem utf8EncodeChar_append_lt {c d : Char} (h : c < d) (as bs : List UInt8) :
    String.utf8EncodeChar c ++ as < String.utf8EncodeChar d ++ bs := by
  have hlt : c.val.toNat < d.val.toNat := h
  have hd : d.val.toNat < 0x110000 := by
    rcases d.valid with hlow | hhigh
    · exact hlow.trans (by decide)
    · exact hhigh.2
  generalize hcode : c.val.toNat = m at hlt
  generalize hcode' : d.val.toNat = n at hlt hd
  simp only [String.utf8EncodeChar, hcode, hcode']
  -- The greater character does not have fewer bytes. With more bytes it has a greater first one.
  by_cases hm₁ : m ≤ 127
  · rw [if_pos hm₁]
    split_ifs
    all_goals exact ofNat_cons_lt (by omega) (by omega) fun _ ↦ by omega
  rw [if_neg hm₁, if_neg (show ¬n ≤ 127 by omega)]
  by_cases hm₂ : m ≤ 2047
  · rw [if_pos hm₂]
    split_ifs
    · refine ofNat_cons_lt (by omega) (by omega) fun _ ↦ ?_
      exact ofNat_cons_lt (by omega) (by omega) fun _ ↦ by omega
    all_goals exact ofNat_cons_lt (by omega) (by omega) fun _ ↦ by omega
  rw [if_neg hm₂, if_neg (show ¬n ≤ 2047 by omega)]
  by_cases hm₃ : m ≤ 65535
  · rw [if_pos hm₃]
    split_ifs
    · refine ofNat_cons_lt (by omega) (by omega) fun _ ↦ ?_
      refine ofNat_cons_lt (by omega) (by omega) fun _ ↦ ?_
      exact ofNat_cons_lt (by omega) (by omega) fun _ ↦ by omega
    · exact ofNat_cons_lt (by omega) (by omega) fun _ ↦ by omega
  rw [if_neg hm₃, if_neg (show ¬n ≤ 65535 by omega)]
  refine ofNat_cons_lt (by omega) (by omega) fun _ ↦ ?_
  refine ofNat_cons_lt (by omega) (by omega) fun _ ↦ ?_
  refine ofNat_cons_lt (by omega) (by omega) fun _ ↦ ?_
  exact ofNat_cons_lt (by omega) (by omega) fun _ ↦ by omega

theorem flatMap_utf8EncodeChar_lt {cs ds : List Char} (h : cs < ds) :
    cs.flatMap String.utf8EncodeChar < ds.flatMap String.utf8EncodeChar := by
  induction h with
  | @nil d ds =>
    obtain ⟨b, bs, hbytes⟩ := List.exists_cons_of_ne_nil (String.utf8EncodeChar_ne_nil (c := d))
    rw [List.flatMap_nil, List.flatMap_cons, hbytes]
    exact List.nil_lt_cons _ _
  | cons _ ih =>
    rw [List.flatMap_cons, List.flatMap_cons]
    exact List.append_left_lt ih
  | rel hlt =>
    rw [List.flatMap_cons, List.flatMap_cons]
    exact utf8EncodeChar_append_lt hlt _ _

/-- Texts are in the order of their bytes. -/
theorem bytes_lt_bytes {s t : String} (h : s < t) : bytes s < bytes t := by
  rw [bytes_eq_flatMap, bytes_eq_flatMap]
  exact flatMap_utf8EncodeChar_lt (String.lt_iff_toList_lt.mp h)

end DeclTree.Text
