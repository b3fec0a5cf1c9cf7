import AccessControl.Json.Printer
import AccessControl.Json.Reader

/-!
How numbers are spelt. A number is read from each of its spellings, as long as what follows does not prolong it
(`readNumeral_spelt`), and from nothing else (`exists_spelt_of_readNumeral`). The printed form is one of the spellings.
-/

namespace AccessControl

/-- A numeral has a written form if its fraction, where there is one, consists of digits. -/
def Numeral.Writable (n : Numeral) : Prop :=
  ∀ digits, n.fraction = some digits → digits ≠ [] ∧ ∀ c ∈ digits, c.isDigit = true

namespace Json

/-! ### Spellings of numbers -/

def Digits (cs : List Char) : Prop := cs ≠ [] ∧ ∀ c ∈ cs, c.isDigit = true

def fractionText : Option (List Char) → List Char
  | some digits => '.' :: digits
  | none => []

inductive SpellsPower : Int → List Char → Prop
  | bare {digits : List Char} (h : Digits digits) : SpellsPower (Nat.ofDigitChars 10 digits 0) digits
  | plus {digits : List Char} (h : Digits digits) : SpellsPower (Nat.ofDigitChars 10 digits 0) ('+' :: digits)
  | minus {digits : List Char} (h : Digits digits) : SpellsPower (-(Nat.ofDigitChars 10 digits 0 : Int)) ('-' :: digits)

inductive SpellsExponent : Option Int → List Char → Prop
  | none : SpellsExponent none []
  | lower {e : Int} {cs : List Char} (h : SpellsPower e cs) : SpellsExponent (some e) ('e' :: cs)
  | upper {e : Int} {cs : List Char} (h : SpellsPower e cs) : SpellsExponent (some e) ('E' :: cs)

/-- The spellings of a numeral: its sign, digits without a superfluous zero in front, its fraction and an exponent. -/
inductive SpellsNumeral (n : Numeral) : List Char → Prop
  | mk {digits exponent : List Char} (hdigits : Digits digits) (hfront : digits.head? = some '0' → digits = ['0'])
      (hwhole : Nat.ofDigitChars 10 digits 0 = n.whole) (hfraction : n.Writable)
      (hexponent : SpellsExponent n.exponent exponent) :
      SpellsNumeral n (printSign n.negative ++ (digits ++ (fractionText n.fraction ++ exponent)))

/-! ### Reading numbers -/

/-- Whether a number ends before this text: nothing at its front prolongs the number. -/
def endsNumber : List Glyph → Bool
  | some c :: _ => !(c.isDigit || c == '.' || c == 'e' || c == 'E')
  | _ => true

def startsDigit : List Glyph → Bool
  | some c :: _ => c.isDigit
  | _ => false

theorem startsDigit_of_endsNumber {s : List Glyph} (h : endsNumber s = true) : startsDigit s = false := by
  unfold endsNumber at h
  split at h
  · simp only [Bool.not_eq_true', Bool.or_eq_false_iff] at h
    exact h.1.1.1
  · rename_i hs
    unfold startsDigit
    split
    · exact absurd rfl (hs _ _)
    · rfl

theorem readDigits_append {digits : List Char} (hdigits : ∀ c ∈ digits, c.isDigit = true) {s : List Glyph}
    (hs : startsDigit s = false) : readDigits (digits.map some ++ s) = (digits, s) := by
  induction digits with
  | nil =>
      rw [List.map_nil, List.nil_append]
      unfold readDigits
      split
      · rename_i c rest
        rw [startsDigit] at hs
        rw [if_neg (by simp [hs])]
      · rfl
  | cons c digits ih =>
      have hc : c.isDigit = true := hdigits c List.mem_cons_self
      rw [List.map_cons, List.cons_append, readDigits, if_pos hc,
        ih fun d hd => hdigits d (List.mem_cons_of_mem _ hd)]

theorem eq_append_of_readDigits {s rest : List Glyph} {digits : List Char} (h : readDigits s = (digits, rest)) :
    s = digits.map some ++ rest ∧ ∀ c ∈ digits, c.isDigit = true := by
  induction s generalizing digits with
  | nil =>
      cases h
      exact ⟨rfl, fun c hc => absurd hc List.not_mem_nil⟩
  | cons g s ih =>
      unfold readDigits at h
      split at h
      · rename_i c rest' heq
        cases heq
        split at h
        · rename_i hc
          cases h
          obtain ⟨hs, hdigits⟩ := ih rfl
          exact ⟨by rw [List.map_cons, List.cons_append, ← hs], List.forall_mem_cons.2 ⟨hc, hdigits⟩⟩
        · cases h
          exact ⟨rfl, fun c hc => absurd hc List.not_mem_nil⟩
      · cases h
        exact ⟨rfl, fun c hc => absurd hc List.not_mem_nil⟩

theorem readWhole_spelt {digits : List Char} (hdigits : Digits digits) (hfront : digits.head? = some '0' → digits = ['0'])
    {s : List Glyph} (hs : startsDigit s = false) :
    readWhole (digits.map some ++ s) = some (Nat.ofDigitChars 10 digits 0, s) := by
  rw [readWhole, readDigits_append hdigits.2 hs]
  split
  · rename_i heq
    cases heq
    exact absurd rfl hdigits.1
  · rename_i heq
    cases heq
    cases hfront rfl
  · rename_i heq
    cases heq
    rfl

theorem exists_spelt_of_readWhole {s rest : List Glyph} {n : Nat} (h : readWhole s = some (n, rest)) :
    ∃ digits, Digits digits ∧ (digits.head? = some '0' → digits = ['0']) ∧ Nat.ofDigitChars 10 digits 0 = n ∧
      s = digits.map some ++ rest := by
  unfold readWhole at h
  split at h
  · cases h
  · cases h
  · rename_i digits rest' hempty hzero hread
    cases h
    obtain ⟨hs, hdigits⟩ := eq_append_of_readDigits hread
    refine ⟨digits, ⟨?_, hdigits⟩, ?_, rfl, hs⟩
    · exact hempty
    · intro hhead
      cases digits with
      | nil => cases hhead
      | cons c digits =>
          cases hhead
          cases digits with
          | nil => rfl
          | cons d digits => exact (hzero d digits rfl).elim

theorem readFraction_spelt {f : Option (List Char)} (hf : ∀ digits, f = some digits → Digits digits) {s : List Glyph}
    (hs : startsDigit s = false) (hdot : s.head? ≠ some (some '.')) :
    readFraction ((fractionText f).map some ++ s) = some (f, s) := by
  cases f with
  | some digits =>
      have hdigits : Digits digits := hf digits rfl
      rw [fractionText, List.map_cons, List.cons_append, readFraction, readDigits_append hdigits.2 hs]
      split
      · rename_i heq
        cases heq
        exact absurd rfl hdigits.1
      · rename_i heq
        cases heq
        rfl
  | none =>
      rw [fractionText, List.map_nil, List.nil_append]
      unfold readFraction
      split
      · exact absurd rfl hdot
      · rfl

theorem exists_spelt_of_readFraction {s rest : List Glyph} {f : Option (List Char)} (h : readFraction s = some (f, rest)) :
    (∀ digits, f = some digits → Digits digits) ∧ s = (fractionText f).map some ++ rest := by
  unfold readFraction at h
  split at h
  · split at h
    · cases h
    · rename_i digits rest' hempty hread
      cases h
      obtain ⟨hs, hdigits⟩ := eq_append_of_readDigits hread
      refine ⟨fun digits' heq => ?_, by rw [hs]; rfl⟩
      cases heq
      exact ⟨hempty, hdigits⟩
  · cases h
    exact ⟨nofun, rfl⟩

theorem readPower_spelt (negative : Bool) {digits : List Char} (hdigits : Digits digits) {s : List Glyph}
    (hs : startsDigit s = false) :
    readPower negative (digits.map some ++ s) =
      some (some (if negative then -(Nat.ofDigitChars 10 digits 0 : Int) else Nat.ofDigitChars 10 digits 0), s) := by
  rw [readPower, readDigits_append hdigits.2 hs]
  split
  · rename_i heq
    cases heq
    exact absurd rfl hdigits.1
  · rename_i heq
    cases heq
    rfl

theorem exists_spelt_of_readPower {negative : Bool} {s rest : List Glyph} {e : Option Int}
    (h : readPower negative s = some (e, rest)) :
    ∃ digits, Digits digits ∧ s = digits.map some ++ rest ∧
      e = some (if negative then -(Nat.ofDigitChars 10 digits 0 : Int) else Nat.ofDigitChars 10 digits 0) := by
  unfold readPower at h
  split at h
  · cases h
  · rename_i digits rest' hempty hread
    cases h
    obtain ⟨hs, hdigits⟩ := eq_append_of_readDigits hread
    exact ⟨digits, ⟨hempty, hdigits⟩, hs, rfl⟩

/-- A digit is neither of the two signs. -/
theorem readExponentSign_of_isDigit {c : Char} (hc : c.isDigit = true) (s : List Glyph) :
    readExponentSign (some c :: s) = readPower false (some c :: s) := by
  unfold readExponentSign
  split
  · rename_i heq
    cases heq
    exact absurd hc (by decide)
  · rename_i heq
    cases heq
    exact absurd hc (by decide)
  · rfl

theorem readExponentSign_spelt {e : Int} {cs : List Char} (h : SpellsPower e cs) {s : List Glyph}
    (hs : startsDigit s = false) : readExponentSign (cs.map some ++ s) = some (some e, s) := by
  cases h with
  | plus hdigits => exact readPower_spelt false hdigits hs
  | minus hdigits => exact readPower_spelt true hdigits hs
  | bare hdigits =>
      have hread := readPower_spelt false hdigits hs
      obtain ⟨c, digits, rfl⟩ := List.exists_cons_of_ne_nil hdigits.1
      exact (readExponentSign_of_isDigit (hdigits.2 c List.mem_cons_self) _).trans hread

theorem exists_spelt_of_readExponentSign {s rest : List Glyph} {e : Option Int}
    (h : readExponentSign s = some (e, rest)) : ∃ i cs, e = some i ∧ SpellsPower i cs ∧ s = cs.map some ++ rest := by
  unfold readExponentSign at h
  split at h
  · obtain ⟨digits, hdigits, rfl, rfl⟩ := exists_spelt_of_readPower h
    exact ⟨_, _, rfl, .minus hdigits, rfl⟩
  · obtain ⟨digits, hdigits, rfl, rfl⟩ := exists_spelt_of_readPower h
    exact ⟨_, _, rfl, .plus hdigits, rfl⟩
  · obtain ⟨digits, hdigits, rfl, rfl⟩ := exists_spelt_of_readPower h
    exact ⟨_, _, rfl, .bare hdigits, rfl⟩

theorem readExponent_spelt {e : Option Int} {cs : List Char} (h : SpellsExponent e cs) {s : List Glyph}
    (hs : endsNumber s = true) : readExponent (cs.map some ++ s) = some (e, s) := by
  cases h with
  | lower hpower => exact readExponentSign_spelt hpower (startsDigit_of_endsNumber hs)
  | upper hpower => exact readExponentSign_spelt hpower (startsDigit_of_endsNumber hs)
  | none =>
      rw [List.map_nil, List.nil_append]
      unfold readExponent
      split
      · exact absurd hs (by simp [endsNumber])
      · exact absurd hs (by simp [endsNumber])
      · rfl

theorem exists_spelt_of_readExponent {s rest : List Glyph} {e : Option Int} (h : readExponent s = some (e, rest)) :
    ∃ cs, SpellsExponent e cs ∧ s = cs.map some ++ rest := by
  unfold readExponent at h
  split at h
  · obtain ⟨i, cs, rfl, hpower, rfl⟩ := exists_spelt_of_readExponentSign h
    exact ⟨_, .lower hpower, rfl⟩
  · obtain ⟨i, cs, rfl, hpower, rfl⟩ := exists_spelt_of_readExponentSign h
    exact ⟨_, .upper hpower, rfl⟩
  · cases h
    exact ⟨[], .none, rfl⟩

/-- What follows the digits of a number: no digit, and behind the fraction no point either. -/
theorem SpellsExponent.front {e : Option Int} {cs : List Char} (h : SpellsExponent e cs) {s : List Glyph}
    (hs : endsNumber s = true) :
    startsDigit (cs.map some ++ s) = false ∧ (cs.map some ++ s).head? ≠ some (some '.') := by
  cases h with
  | lower _ => exact ⟨rfl, by simp⟩
  | upper _ => exact ⟨rfl, by simp⟩
  | none =>
      refine ⟨startsDigit_of_endsNumber hs, fun hdot => ?_⟩
      cases s with
      | nil => cases hdot
      | cons g s =>
          cases hdot
          exact absurd hs (by simp [endsNumber])

theorem startsDigit_fractionText {f : Option (List Char)} {s : List Glyph} (hs : startsDigit s = false) :
    startsDigit ((fractionText f).map some ++ s) = false := by
  cases f with
  | some digits => rfl
  | none => exact hs

theorem readUnsigned_spelt {n : Numeral} {digits exponent : List Char} (hdigits : Digits digits)
    (hfront : digits.head? = some '0' → digits = ['0']) (hwhole : Nat.ofDigitChars 10 digits 0 = n.whole)
    (hfraction : n.Writable) (hexponent : SpellsExponent n.exponent exponent) {s : List Glyph}
    (hs : endsNumber s = true) :
    readUnsigned n.negative (digits.map some ++ ((fractionText n.fraction).map some ++ (exponent.map some ++ s))) =
      some (n, s) := by
  obtain ⟨hdigit, hdot⟩ := hexponent.front hs
  rw [readUnsigned, readWhole_spelt hdigits hfront (startsDigit_fractionText hdigit), hwhole]
  simp only [Option.bind_eq_bind, Option.bind_some, readFraction_spelt hfraction hdigit hdot,
    readExponent_spelt hexponent hs]
  rfl

/-- A digit is not the sign. -/
theorem readNumeral_of_isDigit {c : Char} (hc : c.isDigit = true) (s : List Glyph) :
    readNumeral (some c :: s) = readUnsigned false (some c :: s) := by
  unfold readNumeral
  split
  · rename_i heq
    cases heq
    exact absurd hc (by decide)
  · rfl

/-- A number is read from each of its spellings. -/
theorem readNumeral_spelt {n : Numeral} {cs : List Char} (h : SpellsNumeral n cs) {s : List Glyph}
    (hs : endsNumber s = true) : readNumeral (cs.map some ++ s) = some (n, s) := by
  obtain ⟨hdigits, hfront, hwhole, hfraction, hexponent⟩ := h
  have hread := readUnsigned_spelt hdigits hfront hwhole hfraction hexponent hs
  simp only [List.map_append, List.append_assoc]
  cases hsign : n.negative with
  | true =>
      rw [hsign] at hread
      exact hread
  | false =>
      rw [hsign] at hread
      obtain ⟨c, digits, rfl⟩ := List.exists_cons_of_ne_nil hdigits.1
      exact (readNumeral_of_isDigit (hdigits.2 c List.mem_cons_self) _).trans hread

theorem exists_spelt_of_readUnsigned {negative : Bool} {s rest : List Glyph} {n : Numeral}
    (h : readUnsigned negative s = some (n, rest)) :
    n.negative = negative ∧ ∃ cs, SpellsNumeral n (printSign negative ++ cs) ∧ s = cs.map some ++ rest := by
  simp only [readUnsigned, Option.bind_eq_bind, Option.bind_eq_some_iff, Prod.exists] at h
  obtain ⟨whole, s₁, hwhole, fraction, s₂, hfraction, exponent, s₃, hexponent, hn⟩ := h
  cases hn
  obtain ⟨digits, hdigits, hfront, hvalue, rfl⟩ := exists_spelt_of_readWhole hwhole
  obtain ⟨hfits, rfl⟩ := exists_spelt_of_readFraction hfraction
  obtain ⟨cs, hspelt, rfl⟩ := exists_spelt_of_readExponent hexponent
  refine ⟨rfl, digits ++ (fractionText fraction ++ cs), ?_, ?_⟩
  · exact SpellsNumeral.mk (n := ⟨negative, whole, fraction, exponent⟩) hdigits hfront hvalue hfits hspelt
  · simp only [List.map_append, List.append_assoc]

/-- Only what spells a number is read as one. -/
theorem exists_spelt_of_readNumeral {s rest : List Glyph} {n : Numeral} (h : readNumeral s = some (n, rest)) :
    ∃ cs, SpellsNumeral n cs ∧ s = cs.map some ++ rest := by
  unfold readNumeral at h
  split at h
  · obtain ⟨-, cs, hspelt, rfl⟩ := exists_spelt_of_readUnsigned h
    exact ⟨_, hspelt, rfl⟩
  · obtain ⟨-, cs, hspelt, rfl⟩ := exists_spelt_of_readUnsigned h
    exact ⟨_, hspelt, rfl⟩

theorem SpellsNumeral.front {n : Numeral} {cs : List Char} (h : SpellsNumeral n cs) :
    ∃ c rest, cs = c :: rest ∧ (c = '-' ∨ c.isDigit = true) := by
  obtain ⟨hdigits, -, -, -, -⟩ := h
  obtain ⟨d, digits, rfl⟩ := List.exists_cons_of_ne_nil hdigits.1
  cases n.negative with
  | true => exact ⟨'-', _, rfl, Or.inl rfl⟩
  | false => exact ⟨d, _, rfl, Or.inr (hdigits.2 d List.mem_cons_self)⟩

/-! ### Printed numbers -/

theorem isDigit_of_mem_toDigits {n : Nat} {c : Char} (h : c ∈ Nat.toDigits 10 n) : c.isDigit = true :=
  Nat.isDigit_of_mem_toDigits (by decide) (by decide) h

/-- The decimal digits of a number have no superfluous zero in front. -/
theorem toDigits_ne_zero_cons (n : Nat) (c : Char) (rest : List Char) :
    Nat.toDigits 10 n ≠ '0' :: c :: rest := by
  induction n using Nat.strongRecOn generalizing c rest with
  | ind n ih =>
      intro h
      rw [Nat.toDigits_eq_if (by decide)] at h
      split at h
      · simp at h
      · rename_i hn
        have hpos : n / 10 ≠ 0 := by omega
        obtain ⟨d, digits, hfront⟩ := List.exists_cons_of_ne_nil (Nat.toDigits_ne_nil (n := n / 10) (b := 10))
        rw [hfront, List.cons_append, List.cons.injEq] at h
        obtain ⟨rfl, h⟩ := h
        cases digits with
        | nil =>
            have hvalue := Nat.ofDigitChars_ten_toDigits (n := n / 10)
            rw [hfront] at hvalue
            exact hpos hvalue.symm
        | cons d digits => exact ih (n / 10) (by omega) d digits hfront

theorem digits_toDigits (n : Nat) : Digits (Nat.toDigits 10 n) := ⟨Nat.toDigits_ne_nil, fun _ => isDigit_of_mem_toDigits⟩

theorem spellsPower_printed (e : Int) : SpellsPower e (printSign (e < 0) ++ Nat.toDigits 10 e.natAbs) := by
  have hvalue := Nat.ofDigitChars_ten_toDigits (n := e.natAbs)
  by_cases he : e < 0
  · have h := SpellsPower.minus (digits_toDigits e.natAbs)
    have habs : -(e.natAbs : Int) = e := by omega
    rw [hvalue, habs] at h
    rw [decide_eq_true he]
    exact h
  · have h := SpellsPower.bare (digits_toDigits e.natAbs)
    have habs : (e.natAbs : Int) = e := by omega
    rw [hvalue, habs] at h
    rw [decide_eq_false he]
    exact h

def exponentText : Option Int → List Char
  | some e => 'e' :: (printSign (e < 0) ++ Nat.toDigits 10 e.natAbs)
  | none => []

theorem printNumeral_eq (n : Numeral) :
    printNumeral n =
      printSign n.negative ++ (Nat.toDigits 10 n.whole ++ (fractionText n.fraction ++ exponentText n.exponent)) := by
  rw [← List.append_assoc, ← List.append_assoc]
  unfold printNumeral fractionText exponentText
  cases n.fraction <;> cases n.exponent <;> rfl

/-- The printed form is one of the spellings. -/
theorem spellsNumeral_printed {n : Numeral} (hn : n.Writable) : SpellsNumeral n (printNumeral n) := by
  have hfront : (Nat.toDigits 10 n.whole).head? = some '0' → Nat.toDigits 10 n.whole = ['0'] := by
    intro h
    cases hdigits : Nat.toDigits 10 n.whole with
    | nil => exact absurd hdigits Nat.toDigits_ne_nil
    | cons c digits =>
        rw [hdigits] at h
        cases h
        cases digits with
        | nil => rfl
        | cons d digits => exact absurd hdigits (toDigits_ne_zero_cons n.whole d digits)
  have hexponent : SpellsExponent n.exponent (exponentText n.exponent) := by
    cases n.exponent with
    | none => exact .none
    | some e => exact .lower (spellsPower_printed e)
  rw [printNumeral_eq]
  exact .mk (digits_toDigits n.whole) hfront Nat.ofDigitChars_ten_toDigits hn hexponent

end Json

end AccessControl
