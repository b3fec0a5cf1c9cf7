import Mathlib.Order.Basic

/-!
The order of texts. Texts are compared character by character, by code points; comparing their UTF-8 bytes comes to the
same (`codePoints_lt_iff_bytes`), because the encoding of the smaller character is smaller where the two first differ.
-/

namespace AccessControl

open String (utf8EncodeChar)

def codePoints (s : String) : List Nat := s.toList.map Char.toNat

/-! ### Characters -/

theorem char_lt_iff {c d : Char} : c < d ↔ c.toNat < d.toNat := UInt32.lt_iff_toNat_lt

theorem toNat_lt_unicode (c : Char) : c.val.toNat < 0x110000 := by
  rcases c.valid with h | h <;> omega

section Encoding

variable {c d : Char} (h : c < d) (x y : List UInt8)
include h

/-- Characters of four bytes each differ first in the lead byte, in the second one, or behind. -/
theorem utf8EncodeChar_append_lt_of_four (hfour : 0xffff < c.val.toNat) :
    utf8EncodeChar c ++ x < utf8EncodeChar d ++ y := by
  have hval : c.val.toNat < d.val.toNat := char_lt_iff.1 h
  have hmax := toNat_lt_unicode d
  have hfour' : 0xffff < d.val.toNat := Nat.lt_trans hfour hval
  rw [utf8EncodeChar, utf8EncodeChar]
  generalize c.val.toNat = v at *
  generalize d.val.toNat = w at *
  rw [if_neg (by omega), if_neg (by omega), if_neg (by omega), if_neg (by omega), if_neg (by omega), if_neg (by omega)]
  simp only [List.cons_append, List.nil_append, List.cons_lt_cons_iff, UInt8.lt_iff_toNat_lt, ← UInt8.toNat_inj,
    UInt8.toNat_ofNat']
  by_cases hlead : v / 262144 = w / 262144
  · refine Or.inr ⟨by rw [hlead], ?_⟩
    by_cases hsecond : v / 4096 = w / 4096
    · refine Or.inr ⟨by rw [hsecond], ?_⟩
      omega
    · exact Or.inl (by omega)
  · exact Or.inl (by omega)

/-- Whatever follows them, the encodings of two characters are in the order of the characters. -/
theorem utf8EncodeChar_append_lt : utf8EncodeChar c ++ x < utf8EncodeChar d ++ y := by
  by_cases hfour : 0xffff < c.val.toNat
  · exact utf8EncodeChar_append_lt_of_four h x y hfour
  · have hval : c.val.toNat < d.val.toNat := char_lt_iff.1 h
    have hmax := toNat_lt_unicode d
    rw [utf8EncodeChar, utf8EncodeChar]
    generalize c.val.toNat = v at *
    generalize d.val.toNat = w at *
    split_ifs <;>
      simp only [List.cons_append, List.nil_append, List.cons_lt_cons_iff, UInt8.lt_iff_toNat_lt, ← UInt8.toNat_inj,
        UInt8.toNat_ofNat'] <;>
      omega

end Encoding

/-! ### Texts -/

theorem toUTF8_toList (s : String) : s.toUTF8.data.toList = s.toList.flatMap utf8EncodeChar := by
  have hencoded : s.toUTF8 = s.toList.utf8Encode := by
    rw [String.toUTF8, ← String.toByteArray_ofList, String.ofList_toList]
  rw [hencoded, List.utf8Encode, List.data_toByteArray]

theorem flatMap_utf8EncodeChar_lt {l m : List Char} (h : l < m) :
    l.flatMap utf8EncodeChar < m.flatMap utf8EncodeChar := by
  induction h with
  | @nil c m =>
      rw [List.flatMap_nil, List.flatMap_cons]
      cases hc : utf8EncodeChar c with
      | nil => exact absurd hc String.utf8EncodeChar_ne_nil
      | cons b l => exact .nil
  | rel h =>
      rw [List.flatMap_cons, List.flatMap_cons]
      exact utf8EncodeChar_append_lt h _ _
  | cons _ ih =>
      rw [List.flatMap_cons, List.flatMap_cons]
      exact List.append_left_lt ih

/-- What keeps the order of texts also tells it. -/
theorem lt_iff_of_mono {β : Type} [LT β] [Std.Asymm fun a b : β => a < b] {f : String → List β}
    (hmono : ∀ {s t}, s < t → f s < f t) {s t : String} : f s < f t ↔ s < t := by
  refine ⟨fun h => ?_, hmono⟩
  by_contra hnot
  rw [String.not_lt] at hnot
  rcases Decidable.eq_or_ne s t with rfl | hne
  · exact List.lt_asymm h h
  · have hgt : t < s := by
      by_contra hnot'
      exact hne (String.le_antisymm (String.not_lt.1 hnot') hnot)
    exact List.lt_asymm h (hmono hgt)

theorem codePoints_lt_iff {s t : String} : codePoints s < codePoints t ↔ s < t :=
  lt_iff_of_mono fun h => List.map_lt (fun _ _ => char_lt_iff.1) h

theorem codePoints_lt_iff_bytes {s t : String} :
    codePoints s < codePoints t ↔ s.toUTF8.data.toList < t.toUTF8.data.toList := by
  rw [codePoints_lt_iff, ← lt_iff_of_mono (f := fun s => s.toUTF8.data.toList)]
  intro s t h
  rw [toUTF8_toList, toUTF8_toList]
  exact flatMap_utf8EncodeChar_lt h

theorem compare_eq_lt_iff {s t : String} : compare s t = .lt ↔ codePoints s < codePoints t := by
  rw [codePoints_lt_iff]
  exact compareOfLessAndEq_eq_lt

end AccessControl
