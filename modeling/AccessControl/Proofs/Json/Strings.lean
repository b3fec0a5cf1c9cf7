import AccessControl.Json.Printer
import AccessControl.Json.Reader
import Mathlib.Tactic.SplitIfs

/-!
How strings are spelt. A string is read from each of its spellings, whatever follows (`readString_spelt`), and from
nothing else (`exists_spelt_of_readString`). The printed form of a text is one of its spellings.
-/

namespace AccessControl

namespace Json

/-! ### Spellings of strings -/

/-- The spellings of the parts of a string, with the closing quote. -/
inductive SpellsPieces : List Piece → List Glyph → Prop
  | close : SpellsPieces [] [some '"']
  | plain {c : Char} {pieces : List Piece} {gs : List Glyph} (hquote : c ≠ '"') (hback : c ≠ '\\')
      (hlow : ¬c.toNat < 0x20) (h : SpellsPieces pieces gs) : SpellsPieces (.char c :: pieces) (some c :: gs)
  | named {e c : Char} {pieces : List Piece} {gs : List Glyph} (he : escaped? e = some c) (h : SpellsPieces pieces gs) :
      SpellsPieces (.char c :: pieces) (some '\\' :: some e :: gs)
  | unit {n : Nat} {a b c d : Glyph} {pieces : List Piece} {gs : List Glyph} (hn : hexUnit? a b c d = some n)
      (h : SpellsPieces pieces gs) : SpellsPieces (.unit n :: pieces) (some '\\' :: some 'u' :: a :: b :: c :: d :: gs)
  | stray {pieces : List Piece} {gs : List Glyph} (h : SpellsPieces pieces gs) :
      SpellsPieces (.stray :: pieces) (none :: gs)

/-- The spellings of a string, from the opening quote to the closing one. -/
inductive SpellsString : Except Flaw String → List Glyph → Prop
  | mk {pieces : List Piece} {gs : List Glyph} (h : SpellsPieces pieces gs) :
      SpellsString ((textOfPieces pieces).map String.ofList) (some '"' :: gs)

/-! ### Reading strings -/

def withPiece (p : Piece) (read : Option (List Piece × List Glyph)) : Option (List Piece × List Glyph) :=
  read.map fun (pieces, rest) => (p :: pieces, rest)

theorem readPieces_named {e c : Char} (he : escaped? e = some c) (s : List Glyph) :
    readPieces (some '\\' :: some e :: s) = withPiece (.char c) (readPieces s) := by
  have hu : e ≠ 'u' := by
    rintro rfl
    cases he
  rw [readPieces, he]
  · cases readPieces s <;> rfl
  · intro _ _ _ _ _ _
    exact hu

theorem readPieces_unit {n : Nat} {a b c d : Glyph} (hn : hexUnit? a b c d = some n) (s : List Glyph) :
    readPieces (some '\\' :: some 'u' :: a :: b :: c :: d :: s) = withPiece (.unit n) (readPieces s) := by
  rw [readPieces, hn]
  cases readPieces s <;> rfl

theorem readPieces_plain {c : Char} (hquote : c ≠ '"') (hback : c ≠ '\\') (hlow : ¬c.toNat < 0x20)
    (s : List Glyph) : readPieces (some c :: s) = withPiece (.char c) (readPieces s) := by
  have hplain : (c == '\\' || decide (c.toNat < 0x20)) = false := by
    rw [beq_false_of_ne hback, decide_eq_false hlow, Bool.or_false]
  rw [readPieces, hplain]
  · cases readPieces s <;> rfl
  · exact hquote
  · intro _ _ _ _ _ _
    exact hback
  · intro _ _ _
    exact hback

theorem readPieces_stray (s : List Glyph) : readPieces (none :: s) = withPiece .stray (readPieces s) := by
  rw [readPieces]
  cases readPieces s <;> rfl

theorem readPieces_spelt {pieces : List Piece} {gs : List Glyph} (h : SpellsPieces pieces gs) (s : List Glyph) :
    readPieces (gs ++ s) = some (pieces, s) := by
  induction h with
  | close => rfl
  | plain hquote hback hlow _ ih => rw [List.cons_append, readPieces_plain hquote hback hlow, ih]; rfl
  | named he _ ih => rw [List.cons_append, List.cons_append, readPieces_named he, ih]; rfl
  | unit hn _ ih => simp only [List.cons_append, readPieces_unit hn, ih]; rfl
  | stray _ ih => rw [List.cons_append, readPieces_stray, ih]; rfl

theorem exists_spelt_of_readPieces {s rest : List Glyph} {pieces : List Piece} (h : readPieces s = some (pieces, rest)) :
    ∃ gs, SpellsPieces pieces gs ∧ s = gs ++ rest := by
  fun_induction readPieces s generalizing pieces with
  | case1 => cases h
  | case2 rest' =>
      cases h
      exact ⟨_, .close, rfl⟩
  | case3 a b c d rest' ih =>
      simp only [Option.bind_eq_bind, Option.bind_eq_some_iff, Prod.exists] at h
      obtain ⟨n, hn, pieces', rest'', hread, heq⟩ := h
      cases heq
      obtain ⟨gs, hspelt, rfl⟩ := ih hread
      exact ⟨_, .unit hn hspelt, rfl⟩
  | case4 e rest' _ ih =>
      simp only [Option.bind_eq_bind, Option.bind_eq_some_iff, Prod.exists] at h
      obtain ⟨c, hc, pieces', rest'', hread, heq⟩ := h
      cases heq
      obtain ⟨gs, hspelt, rfl⟩ := ih hread
      exact ⟨_, .named hc hspelt, rfl⟩
  | case5 => cases h
  | case6 c rest' hquote _ _ hplain ih =>
      simp only [Option.bind_eq_bind, Option.bind_eq_some_iff, Prod.exists] at h
      simp only [Bool.or_eq_true, beq_iff_eq, decide_eq_true_eq, not_or] at hplain
      obtain ⟨pieces', rest'', hread, heq⟩ := h
      cases heq
      obtain ⟨gs, hspelt, rfl⟩ := ih hread
      exact ⟨_, .plain hquote hplain.1 hplain.2 hspelt, rfl⟩
  | case7 rest' ih =>
      simp only [Option.bind_eq_bind, Option.bind_eq_some_iff, Prod.exists] at h
      obtain ⟨pieces', rest'', hread, heq⟩ := h
      cases heq
      obtain ⟨gs, hspelt, rfl⟩ := ih hread
      exact ⟨_, .stray hspelt, rfl⟩

/-- A string after its opening quote is read from each of its spellings. -/
theorem readString_spelt {t : Except Flaw String} {gs : List Glyph} (h : SpellsString t (some '"' :: gs)) (s : List Glyph) :
    readString (gs ++ s) = some (t, s) := by
  cases h with
  | mk hpieces => rw [readString, readPieces_spelt hpieces, Option.map_some]

/-- Only what spells a string is read as one. -/
theorem exists_spelt_of_readString {s rest : List Glyph} {t : Except Flaw String} (h : readString s = some (t, rest)) :
    ∃ gs, SpellsString t (some '"' :: gs) ∧ s = gs ++ rest := by
  obtain ⟨⟨pieces, rest'⟩, hread, heq⟩ := Option.map_eq_some_iff.1 h
  cases heq
  obtain ⟨gs, hspelt, rfl⟩ := exists_spelt_of_readPieces hread
  exact ⟨gs, .mk hspelt, rfl⟩

/-! ### Printed strings -/

/-- The part of a string as which a character is read back. -/
def Piece.ofChar (c : Char) : Piece :=
  if c.toNat < 0x20 ∧ c ∉ ['\x08', '\x0c', '\n', '\r', '\t'] then .unit c.toNat else .char c

theorem hexUnit?_digits {n : Nat} (h : n < 0x20) :
    hexUnit? (some '0') (some '0') (some (Hex.digit (n / 16))) (some (Hex.digit (n % 16))) = some n := by
  have hall : ∀ m < 0x20,
      hexUnit? (some '0') (some '0') (some (Hex.digit (m / 16))) (some (Hex.digit (m % 16))) = some m := by
    decide
  exact hall n h

theorem SpellsPieces.escape (c : Char) {pieces : List Piece} {gs : List Glyph} (h : SpellsPieces pieces gs) :
    SpellsPieces (.ofChar c :: pieces) ((escape c).map some ++ gs) := by
  unfold Json.escape
  split_ifs with hquote hback hb hf hn hr ht hlow
  · subst hquote; exact .named rfl h
  · subst hback; exact .named rfl h
  · subst hb; exact .named rfl h
  · subst hf; exact .named rfl h
  · subst hn; exact .named rfl h
  · subst hr; exact .named rfl h
  · subst ht; exact .named rfl h
  · rw [Piece.ofChar, if_pos ⟨hlow, by simp [hb, hf, hn, hr, ht]⟩]
    exact .unit (hexUnit?_digits hlow) h
  · rw [Piece.ofChar, if_neg fun h => hlow h.1]
    exact .plain hquote hback hlow h

theorem spellsPieces_printed (cs : List Char) :
    SpellsPieces (cs.map Piece.ofChar) ((cs.flatMap escape).map some ++ [some '"']) := by
  induction cs with
  | nil => exact .close
  | cons c cs ih =>
      rw [List.flatMap_cons, List.map_append, List.append_assoc]
      exact ih.escape c

theorem textOfPieces_unit {n : Nat} (h : n < 0xd800) (rest : List Piece) :
    textOfPieces (.unit n :: rest) = (textOfPieces rest).map (Char.ofNat n :: ·) := by
  have hlow : isLowSurrogate n = false := by
    rw [isLowSurrogate, decide_eq_false (by omega), Bool.false_and]
  have hhigh : isHighSurrogate n = false := by
    rw [isHighSurrogate, decide_eq_false (by omega), Bool.false_and]
  rw [textOfPieces.eq_def]
  simp only [hlow, hhigh, Bool.false_eq_true, if_false]

theorem textOfPieces_ofChar (cs : List Char) : textOfPieces (cs.map Piece.ofChar) = .ok cs := by
  induction cs with
  | nil => rfl
  | cons c cs ih =>
      rw [List.map_cons, Piece.ofChar]
      split_ifs with h
      · rw [textOfPieces_unit (by omega), ih, Char.ofNat_toNat]
        rfl
      · rw [textOfPieces, ih]
        rfl

/-- The printed form of a text is one of its spellings. -/
theorem spellsString_printed (t : String) : SpellsString (.ok t) ((printText t).map some) := by
  have h := SpellsString.mk (spellsPieces_printed t.toList)
  rw [textOfPieces_ofChar] at h
  show SpellsString (.ok t) (some '"' :: (t.toList.flatMap escape ++ ['"']).map some)
  rw [List.map_append]
  have htext : (Except.ok t.toList : Except Flaw (List Char)).map String.ofList = .ok t :=
    congrArg Except.ok String.ofList_toList
  rwa [htext] at h

end Json

end AccessControl
