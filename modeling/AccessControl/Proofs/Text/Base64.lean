import AccessControl.Text.Base64
import AccessControl.Text.Blank

/-!
Decoding undoes encoding in base64, and written bytes hold none of the characters around them: no dot and no blank.
-/

namespace AccessControl.Base64.Alphabet

/-- The characters of the alphabet stand for their sextets. -/
def Reads (a : Alphabet) : Prop := ∀ n < 64, a.decodeSextet? (a.encodeSextet n) = some n

theorem url_reads : url.Reads := by
  unfold Reads
  decide

section

variable {a : Alphabet}

/-- A byte is put together again from the sextets across which it was spread. -/
theorem byte_of_parts {x : UInt8} {n : Nat} (h : n = x.toNat) : UInt8.ofNat n = x := by
  rw [h, UInt8.ofNat_toNat]

theorem decode?_encode (ha : a.Reads) (bytes : List UInt8) : a.decode? (a.encode bytes) = some bytes := by
  induction bytes using encode.induct with
  | case1 => rfl
  | case2 x =>
      have hx := x.toNat_lt
      rw [encode, decode?, ha _ (by omega), ha _ (by omega)]
      simp only [Option.bind_eq_bind, Option.bind_some]
      rw [if_pos (by omega), byte_of_parts (x := x) (by omega)]
      rfl
  | case3 x y =>
      have hx := x.toNat_lt
      have hy := y.toNat_lt
      rw [encode, decode?, ha _ (by omega), ha _ (by omega), ha _ (by omega)]
      simp only [Option.bind_eq_bind, Option.bind_some]
      rw [if_pos (by omega), byte_of_parts (x := x) (by omega), byte_of_parts (x := y) (by omega)]
      rfl
  | case4 x y z rest ih =>
      have hx := x.toNat_lt
      have hy := y.toNat_lt
      have hz := z.toNat_lt
      rw [encode, decode?, ha _ (by omega), ha _ (by omega), ha _ (by omega), ha _ (by omega), ih]
      simp only [Option.bind_eq_bind, Option.bind_some]
      rw [byte_of_parts (x := x) (by omega), byte_of_parts (x := y) (by omega), byte_of_parts (x := z) (by omega)]
      rfl

end

/-! ### Written bytes -/

theorem exists_sextet_of_mem_encode {a : Alphabet} {bytes : List UInt8} {c : Char} (h : c ∈ a.encode bytes) :
    ∃ n < 64, a.encodeSextet n = c := by
  induction bytes using encode.induct with
  | case1 => cases h
  | case2 x =>
      have hx := x.toNat_lt
      simp only [encode, List.mem_cons, List.not_mem_nil, or_false] at h
      rcases h with rfl | rfl
      · exact ⟨_, by omega, rfl⟩
      · exact ⟨_, by omega, rfl⟩
  | case3 x y =>
      have hx := x.toNat_lt
      have hy := y.toNat_lt
      simp only [encode, List.mem_cons, List.not_mem_nil, or_false] at h
      rcases h with rfl | rfl | rfl
      · exact ⟨_, by omega, rfl⟩
      · exact ⟨_, by omega, rfl⟩
      · exact ⟨_, by omega, rfl⟩
  | case4 x y z rest ih =>
      have hx := x.toNat_lt
      have hy := y.toNat_lt
      have hz := z.toNat_lt
      simp only [encode, List.mem_cons] at h
      rcases h with rfl | rfl | rfl | rfl | h
      · exact ⟨_, by omega, rfl⟩
      · exact ⟨_, by omega, rfl⟩
      · exact ⟨_, by omega, rfl⟩
      · exact ⟨_, by omega, rfl⟩
      · exact ih h

theorem ne_dot_of_mem_encode {bytes : List UInt8} {c : Char} (h : c ∈ url.encode bytes) : c ≠ '.' := by
  obtain ⟨n, hn, rfl⟩ := exists_sextet_of_mem_encode h
  have hsextets : ∀ n < 64, url.encodeSextet n ≠ '.' := by decide
  exact hsextets n hn

theorem isBlank_of_mem_encode {bytes : List UInt8} {c : Char} (h : c ∈ url.encode bytes) : isBlank c = false := by
  obtain ⟨n, hn, rfl⟩ := exists_sextet_of_mem_encode h
  have hsextets : ∀ n < 64, isBlank (url.encodeSextet n) = false := by decide
  exact hsextets n hn

theorem printable_of_mem_encode {bytes : List UInt8} {c : Char} (h : c ∈ url.encode bytes) : ' ' ≤ c ∧ c ≤ '~' := by
  obtain ⟨n, hn, rfl⟩ := exists_sextet_of_mem_encode h
  have hsextets : ∀ n < 64, ' ' ≤ url.encodeSextet n ∧ url.encodeSextet n ≤ '~' := by decide
  exact hsextets n hn

end AccessControl.Base64.Alphabet
