import AccessControl.Proofs.Json.Numerals
import AccessControl.Proofs.Json.Strings
import Mathlib.Data.List.TakeWhile

/-!
The grammar of JSON texts. A text consists of tokens with white space around them; which tokens write which value is
said apart from the reader (`Written`, `Spaced`, `Spelt`).
-/

namespace AccessControl

namespace Json

abbrev Token := List Glyph

mutual

/-- The tokens that write a value. -/
inductive Written : Json → List Token → Prop
  | null : Written null [['n', 'u', 'l', 'l'].map some]
  | yes : Written (bool true) [['t', 'r', 'u', 'e'].map some]
  | no : Written (bool false) [['f', 'a', 'l', 's', 'e'].map some]
  | number {n : Numeral} {cs : List Char} (h : SpellsNumeral n cs) : Written (number n) [cs.map some]
  | string {t : Except Flaw String} {gs : List Glyph} (h : SpellsString t gs) : Written (string t) [gs]
  | array {items : List Json} {tokens : List Token} (h : WrittenItems items tokens) :
      Written (array items) ([some '['] :: tokens)
  | object {members : List (Option String × Json)} {tokens : List Token} (h : WrittenMembers members tokens) :
      Written (object members) ([some '{'] :: tokens)

/-- The tokens that write the items of an array, with the closing bracket. -/
inductive WrittenItems : List Json → List Token → Prop
  | none : WrittenItems [] [[some ']']]
  | last {v : Json} {tokens : List Token} (h : Written v tokens) : WrittenItems [v] (tokens ++ [[some ']']])
  | more {v w : Json} {rest : List Json} {tokens tokens' : List Token} (h : Written v tokens)
      (hrest : WrittenItems (w :: rest) tokens') : WrittenItems (v :: w :: rest) (tokens ++ [some ','] :: tokens')

/-- The tokens that write the members of an object, with the closing brace. -/
inductive WrittenMembers : List (Option String × Json) → List Token → Prop
  | none : WrittenMembers [] [[some '}']]
  | last {name : Except Flaw String} {gs : List Glyph} {v : Json} {tokens : List Token} (hname : SpellsString name gs)
      (h : Written v tokens) : WrittenMembers [(name.toOption, v)] (gs :: [some ':'] :: (tokens ++ [[some '}']]))
  | more {name : Except Flaw String} {gs : List Glyph} {v : Json} {m : Option String × Json}
      {rest : List (Option String × Json)} {tokens tokens' : List Token} (hname : SpellsString name gs)
      (h : Written v tokens) (hrest : WrittenMembers (m :: rest) tokens') :
      WrittenMembers ((name.toOption, v) :: m :: rest) (gs :: [some ':'] :: (tokens ++ [some ','] :: tokens'))

end

mutual

/-- What can be written was read to its end. -/
theorem Written.complete {v : Json} {tokens : List Token} : Written v tokens → v.complete = true
  | .null => rfl
  | .yes => rfl
  | .no => rfl
  | .number _ => rfl
  | .string _ => rfl
  | .array h => h.complete
  | .object h => h.complete

theorem WrittenItems.complete {items : List Json} {tokens : List Token} :
    WrittenItems items tokens → completeItems items = true
  | .none => rfl
  | .last h => by rw [completeItems, h.complete]; rfl
  | .more h hrest => by rw [completeItems, h.complete, hrest.complete]; rfl

theorem WrittenMembers.complete {members : List (Option String × Json)} {tokens : List Token} :
    WrittenMembers members tokens → completeMembers members = true
  | .none => rfl
  | .last _ h => by rw [completeMembers, h.complete]; rfl
  | .more _ h hrest => by rw [completeMembers, h.complete, hrest.complete]; rfl

end

/-- A value that is written by some tokens. -/
def WellFormed (v : Json) : Prop := ∃ tokens, Written v tokens

theorem WellFormed.complete {v : Json} (h : v.WellFormed) : v.complete = true := h.elim fun _ => Written.complete

/-! ### White space -/

def AllSpace (s : List Glyph) : Prop := ∀ g ∈ s, isSpace g = true

/-- The text consists of the tokens, each behind white space or none. -/
inductive Spaced : List Token → List Glyph → Prop
  | nil : Spaced [] []
  | cons {token : Token} {tokens : List Token} {space s : List Glyph} (hspace : AllSpace space) (h : Spaced tokens s) :
      Spaced (token :: tokens) (space ++ (token ++ s))

/-- A whole text of the tokens. White space may also stand behind the last one. -/
def TextOf (tokens : List Token) (s : List Glyph) : Prop :=
  ∃ front back, Spaced tokens front ∧ AllSpace back ∧ s = front ++ back

/-- A whole text that writes the value. -/
def Spelt (v : Json) (s : List Glyph) : Prop := ∃ tokens, Written v tokens ∧ TextOf tokens s

theorem allSpace_nil : AllSpace [] := fun _ hg => absurd hg List.not_mem_nil

theorem spaced_token {token : Token} {space : List Glyph} (h : AllSpace space) : Spaced [token] (space ++ token) := by
  have hone : Spaced [token] (space ++ (token ++ [])) := .cons h .nil
  rwa [List.append_nil] at hone

theorem Spaced.append {tokens tokens' : List Token} {s s' : List Glyph} (h : Spaced tokens s) (h' : Spaced tokens' s') :
    Spaced (tokens ++ tokens') (s ++ s') := by
  induction h with
  | nil => exact h'
  | cons hspace _ ih =>
      rw [List.append_assoc, List.append_assoc]
      exact .cons hspace ih

theorem Spaced.split {tokens tokens' : List Token} {s : List Glyph} (h : Spaced (tokens ++ tokens') s) :
    ∃ front back, Spaced tokens front ∧ Spaced tokens' back ∧ s = front ++ back := by
  induction tokens generalizing s with
  | nil => exact ⟨[], s, .nil, h, rfl⟩
  | cons token tokens ih =>
      cases h with
      | cons hspace hrest =>
          obtain ⟨front, back, hfront, hback, rfl⟩ := ih hrest
          exact ⟨_, back, .cons hspace hfront, hback, by simp only [List.append_assoc]⟩

theorem skipSpace_append {space : List Glyph} (h : AllSpace space) (s : List Glyph) :
    skipSpace (space ++ s) = skipSpace s := List.dropWhile_append_of_pos h

theorem skipSpace_cons {c : Char} (h : isSpace (some c) = false) (s : List Glyph) :
    skipSpace (some c :: s) = some c :: s := by
  rw [skipSpace, List.dropWhile_cons_of_neg]
  rw [h]
  exact Bool.false_ne_true

theorem skipSpace_eq_nil {s : List Glyph} : skipSpace s = [] ↔ AllSpace s := List.dropWhile_eq_nil_iff

theorem exists_space (s : List Glyph) : ∃ space, AllSpace space ∧ s = space ++ skipSpace s :=
  ⟨s.takeWhile isSpace, fun _ hg => List.mem_takeWhile_imp hg, (List.takeWhile_append_dropWhile).symm⟩

/-- White space in front of a value is passed over. -/
theorem readValue_append {space : List Glyph} (h : AllSpace space) (fuel : Nat) (s : List Glyph) :
    readValue fuel (space ++ s) = readValue fuel s := by
  cases fuel with
  | zero => rfl
  | succ fuel => rw [readValue, readValue, skipSpace_append h]

theorem readItems_append {space : List Glyph} (h : AllSpace space) (fuel : Nat) (s : List Glyph) :
    readItems fuel (space ++ s) = readItems fuel s := by
  cases fuel with
  | zero => rfl
  | succ fuel => rw [readItems, readItems, readValue_append h]

theorem readMembers_append {space : List Glyph} (h : AllSpace space) (fuel : Nat) (s : List Glyph) :
    readMembers fuel (space ++ s) = readMembers fuel s := by
  cases fuel with
  | zero => rfl
  | succ fuel => rw [readMembers, readMembers, skipSpace_append h]

/-! ### The front of a value -/

/-- The characters at which the reader of values stops passing over what stands in front. -/
def opensValue (c : Char) : Bool := !(isSpace (some c)) && c ≠ ']' && c ≠ '}'

theorem opensValue_of_isDigit {c : Char} (h : c.isDigit = true) : opensValue c = true := by
  have hne : ∀ d : Char, d.isDigit = false → c ≠ d := by
    rintro d hd rfl
    rw [h] at hd
    cases hd
  simp [opensValue, isSpace, hne ' ' rfl, hne '\n' rfl, hne '\t' rfl, hne '\r' rfl, hne ']' rfl, hne '}' rfl]

theorem Written.front {v : Json} {tokens : List Token} (h : Written v tokens) :
    ∃ c token rest, tokens = (some c :: token) :: rest ∧ opensValue c = true := by
  cases h with
  | null => exact ⟨'n', _, _, rfl, by decide⟩
  | yes => exact ⟨'t', _, _, rfl, by decide⟩
  | no => exact ⟨'f', _, _, rfl, by decide⟩
  | array _ => exact ⟨'[', _, _, rfl, by decide⟩
  | object _ => exact ⟨'{', _, _, rfl, by decide⟩
  | string h =>
      cases h
      exact ⟨'"', _, _, rfl, by decide⟩
  | number h =>
      obtain ⟨c, cs, rfl, hc⟩ := h.front
      refine ⟨c, _, _, rfl, ?_⟩
      rcases hc with rfl | hc
      · decide
      · exact opensValue_of_isDigit hc

theorem opensValue_eq_true {c : Char} :
    opensValue c = true ↔ isSpace (some c) = false ∧ c ≠ ']' ∧ c ≠ '}' := by
  simp only [opensValue, Bool.and_eq_true, Bool.not_eq_true', decide_eq_true_eq, and_assoc]

theorem WrittenItems.front {v : Json} {items : List Json} {tokens : List Token} (h : WrittenItems (v :: items) tokens) :
    ∃ c token rest, tokens = (some c :: token) :: rest ∧ opensValue c = true := by
  cases h with
  | last hv | more hv _ =>
      obtain ⟨c, token, rest, rfl, hc⟩ := hv.front
      exact ⟨c, token, _, rfl, hc⟩

theorem SpellsString.front {t : Except Flaw String} {gs : List Glyph} (h : SpellsString t gs) :
    ∃ rest, gs = some '"' :: rest := by
  cases h
  exact ⟨_, rfl⟩

theorem WrittenMembers.front {m : Option String × Json} {members : List (Option String × Json)} {tokens : List Token}
    (h : WrittenMembers (m :: members) tokens) : ∃ token rest, tokens = (some '"' :: token) :: rest := by
  cases h with
  | last hname _ | more hname _ _ =>
      obtain ⟨token, rfl⟩ := hname.front
      exact ⟨token, _, rfl⟩

theorem Spaced.skip {c : Char} {token : Token} {tokens : List Token} {s : List Glyph}
    (h : Spaced ((some c :: token) :: tokens) s) (hc : isSpace (some c) = false) (rest : List Glyph) :
    ∃ tail, skipSpace (s ++ rest) = some c :: tail := by
  cases h with
  | @cons _ _ space s' hspace _ =>
      refine ⟨token ++ s' ++ rest, ?_⟩
      rw [List.append_assoc, skipSpace_append hspace]
      exact skipSpace_cons hc _

/-- What stands behind the mark at the front of a text. -/
theorem Spaced.mark {c : Char} {tokens : List Token} {s : List Glyph} (h : Spaced ([some c] :: tokens) s)
    (hc : isSpace (some c) = false) :
    ∃ s', Spaced tokens s' ∧ s'.length < s.length ∧ ∀ rest, skipSpace (s ++ rest) = some c :: (s' ++ rest) := by
  cases h with
  | @cons _ _ space s' hspace hs' =>
      refine ⟨s', hs', ?_, fun rest => ?_⟩
      · simp only [List.length_append, List.length_cons]
        omega
      · rw [List.append_assoc, skipSpace_append hspace]
        exact skipSpace_cons hc _

theorem endsNumber_of_isSpace {g : Glyph} (h : isSpace g = true) (s : List Glyph) : endsNumber (g :: s) = true := by
  cases g with
  | none => rfl
  | some c =>
      simp only [isSpace, Bool.or_eq_true, beq_iff_eq] at h
      rcases h with ((rfl | rfl) | rfl) | rfl <;> rfl

theorem endsNumber_of_allSpace {s : List Glyph} (h : AllSpace s) : endsNumber s = true := by
  cases s with
  | nil => rfl
  | cons g s => exact endsNumber_of_isSpace (h g List.mem_cons_self) s

/-- A number ends before a comma or a closing bracket, also if white space comes first. -/
theorem Spaced.ends {c : Char} {tokens : List Token} {s : List Glyph} (h : Spaced ([some c] :: tokens) s)
    (hc : endsNumber [some c] = true) (rest : List Glyph) : endsNumber (s ++ rest) = true := by
  cases h with
  | @cons _ _ space s' hspace hrest =>
      cases space with
      | nil => exact hc
      | cons g space => exact endsNumber_of_isSpace (hspace g List.mem_cons_self) _

end Json

end AccessControl
