import AccessControl.Json.Record
import AccessControl.Proofs.Attempt
import AccessControl.Proofs.Json.Grammar

/-!
The reader of values against the grammar. The reader finds the value of every text (`readValue_written`) and reads no
other text to its end (`written_of_readValue`), so the texts of a value are those that are read as it (`spelt_iff`), no
text is one of two values (`Spelt.unique`), and a whole text is read as its value, whatever white space stands in it
(`Spelt.readWholeText`).
-/

namespace AccessControl

namespace Json

/-! ### Steps of the reader -/

theorem readWord_append (word : List Char) (v : Json) (s : List Glyph) :
    readWord word v (word.map some ++ s) = (v, some s) := by
  have hlength : word.length = (word.map some).length := (List.length_map some).symm
  rw [readWord, if_pos (List.isPrefixOf_iff_prefix.2 (List.prefix_append _ _)), hlength, List.drop_left]

theorem readValue_number {c : Char} (hc : c = '-' ∨ c.isDigit = true) (fuel : Nat) (s : List Glyph) :
    readValue (fuel + 1) (some c :: s) =
      match readNumeral (some c :: s) with
      | some (n, rest) => (number n, some rest)
      | none => (broken, none) := by
  have hopen : isSpace (some c) = false := by
    rcases hc with rfl | hc
    · rfl
    · have h := opensValue_of_isDigit hc
      simp only [opensValue, Bool.and_eq_true, Bool.not_eq_true'] at h
      exact h.1.1
  rw [readValue, skipSpace_cons hopen]
  split
  case h_7 => rfl
  all_goals
    rename_i heq
    cases heq
    exact absurd hc (by decide)

/-- What an array comes to, read after its opening bracket and the space behind it. -/
def arrayAfter (fuel : Nat) : List Glyph → Json × Option (List Glyph)
  | some ']' :: rest => (array [], some rest)
  | rest => (array (readItems fuel rest).1, (readItems fuel rest).2)

/-- What an object comes to, read after its opening brace and the space behind it. -/
def objectAfter (fuel : Nat) : List Glyph → Json × Option (List Glyph)
  | some '}' :: rest => (object [], some rest)
  | rest => (object (readMembers fuel rest).1, (readMembers fuel rest).2)

/-- The items from one on, when the first has been read and `s` follows it. -/
def itemsAfter (fuel : Nat) (v : Json) (s : List Glyph) : List Json × Option (List Glyph) :=
  match skipSpace s with
  | some ',' :: rest => (v :: (readItems fuel rest).1, (readItems fuel rest).2)
  | some ']' :: rest => ([v], some rest)
  | _ => ([v, broken], none)

theorem readItems_step {fuel : Nat} {v : Json} {s rest : List Glyph} (h : readValue fuel s = (v, some rest)) :
    readItems (fuel + 1) s = itemsAfter fuel v rest := by
  rw [readItems, h]
  rfl

/-- The members from one on, when the first has been read and `s` follows it. -/
def membersAfter (fuel : Nat) (m : Option String × Json) (s : List Glyph) :
    List (Option String × Json) × Option (List Glyph) :=
  match skipSpace s with
  | some ',' :: rest => (m :: (readMembers fuel rest).1, (readMembers fuel rest).2)
  | some '}' :: rest => ([m], some rest)
  | _ => ([m, (none, broken)], none)

theorem readMembers_step {fuel : Nat} {name : Except Flaw String} {gs s rest : List Glyph} {v : Json}
    (hname : SpellsString name gs) (hcolon : skipSpace s = some ':' :: rest) {rest' : List Glyph}
    (h : readValue fuel rest = (v, some rest')) :
    readMembers (fuel + 1) (gs ++ s) = membersAfter fuel (name.toOption, v) rest' := by
  cases hname with
  | mk hpieces =>
      rw [List.cons_append, readMembers, skipSpace_cons rfl]
      simp only [readString_spelt (.mk hpieces), hcolon, h]
      rfl

theorem readValue_array {fuel : Nat} {s rest : List Glyph} (h : skipSpace s = some '[' :: rest) :
    readValue (fuel + 1) s = arrayAfter fuel (skipSpace rest) := by
  rw [readValue, h]
  rfl

theorem readValue_object {fuel : Nat} {s rest : List Glyph} (h : skipSpace s = some '{' :: rest) :
    readValue (fuel + 1) s = objectAfter fuel (skipSpace rest) := by
  rw [readValue, h]
  rfl

theorem arrayAfter_of_ne {c : Char} (h : c ≠ ']') (fuel : Nat) (s : List Glyph) :
    arrayAfter fuel (some c :: s) = (array (readItems fuel (some c :: s)).1, (readItems fuel (some c :: s)).2) := by
  rw [arrayAfter.eq_def]
  split
  · rename_i heq
    cases heq
    exact absurd rfl h
  · rfl

theorem readItems_skipSpace (fuel : Nat) (s : List Glyph) : readItems fuel (skipSpace s) = readItems fuel s := by
  obtain ⟨space, hspace, hs⟩ := exists_space s
  calc
    readItems fuel (skipSpace s) = readItems fuel (space ++ skipSpace s) := (readItems_append hspace fuel _).symm
    _ = readItems fuel s := by rw [← hs]

theorem readMembers_skipSpace (fuel : Nat) (s : List Glyph) : readMembers fuel (skipSpace s) = readMembers fuel s := by
  obtain ⟨space, hspace, hs⟩ := exists_space s
  calc
    readMembers fuel (skipSpace s) = readMembers fuel (space ++ skipSpace s) := (readMembers_append hspace fuel _).symm
    _ = readMembers fuel s := by rw [← hs]

/-! ### Reading what is written -/

theorem Spaced.token {token : Token} {s : List Glyph} (h : Spaced [token] s) : ∃ space, AllSpace space ∧ s = space ++ token := by
  cases h with
  | @cons _ _ space _ hspace hrest =>
      cases hrest
      exact ⟨space, hspace, by rw [List.append_nil]⟩

theorem Spaced.first {token : Token} {tokens : List Token} {s : List Glyph} (h : Spaced (token :: tokens) s) :
    ∃ space s', AllSpace space ∧ Spaced tokens s' ∧ s = space ++ (token ++ s') := by
  cases h with
  | cons hspace hs' => exact ⟨_, _, hspace, hs', rfl⟩

theorem readValue_string {t : Except Flaw String} {gs : List Glyph} (h : SpellsString t gs) (fuel : Nat)
    (rest : List Glyph) : readValue (fuel + 1) (gs ++ rest) = (string t, some rest) := by
  cases h with
  | mk hpieces =>
      rw [List.cons_append, readValue, skipSpace_cons rfl]
      simp only [readString_spelt (.mk hpieces)]

theorem readValue_numeral {n : Numeral} {cs : List Char} (h : SpellsNumeral n cs) (fuel : Nat) {rest : List Glyph}
    (hrest : endsNumber rest = true) : readValue (fuel + 1) (cs.map some ++ rest) = (number n, some rest) := by
  have hread := readNumeral_spelt h hrest
  obtain ⟨c, cs, rfl, hc⟩ := h.front
  rw [List.map_cons, List.cons_append] at hread ⊢
  rw [readValue_number hc, hread]

theorem objectAfter_quote (fuel : Nat) (s : List Glyph) :
    objectAfter fuel (some '"' :: s) = (object (readMembers fuel (some '"' :: s)).1, (readMembers fuel (some '"' :: s)).2) :=
  rfl

/-- A value with a mark behind it: the value is in front, and the reader comes to the mark after it. -/
theorem Spaced.split_mark {tokens tokens' : List Token} {c : Char} {s : List Glyph}
    (h : Spaced (tokens ++ [some c] :: tokens') s) (hc : isSpace (some c) = false) (hend : endsNumber [some c] = true) :
    ∃ front back s', s = front ++ back ∧ Spaced tokens front ∧ Spaced tokens' s' ∧ s'.length < back.length ∧
      ∀ rest, endsNumber (back ++ rest) = true ∧ skipSpace (back ++ rest) = some c :: (s' ++ rest) := by
  obtain ⟨front, back, hfront, hback, rfl⟩ := h.split
  obtain ⟨s', hs', hlength, hskip⟩ := hback.mark hc
  exact ⟨front, back, s', rfl, hfront, hs', hlength, fun rest => ⟨hback.ends hend rest, hskip rest⟩⟩

section First

variable {fuel : Nat} {v : Json} {tokens tokens' : List Token} {c : Char} {s : List Glyph}
  (hread : ∀ front rest, Spaced tokens front → front.length ≤ s.length → endsNumber rest = true →
    readValue fuel (front ++ rest) = (v, some rest))
  (hc : isSpace (some c) = false) (hend : endsNumber [some c] = true)

include hread hc hend

/-- The reader of items behind the first item and the mark that follows it. -/
theorem readItems_first (hs : Spaced (tokens ++ [some c] :: tokens') s) :
    ∃ s', Spaced tokens' s' ∧ s'.length < s.length ∧ ∀ rest, ∃ s₀,
      skipSpace s₀ = some c :: (s' ++ rest) ∧ readItems (fuel + 1) (s ++ rest) = itemsAfter fuel v s₀ := by
  obtain ⟨front, back, s', rfl, hfront, hs', hlength, hback⟩ := hs.split_mark hc hend
  rw [List.length_append] at hread ⊢
  refine ⟨s', hs', by omega, fun rest => ⟨back ++ rest, (hback rest).2, ?_⟩⟩
  rw [List.append_assoc, readItems_step (hread front _ hfront (by omega) (hback rest).1)]

/-- The reader of members behind the first member and the mark that follows it. -/
theorem readMembers_first {name : Except Flaw String} {gs : List Glyph} (hname : SpellsString name gs)
    (hs : Spaced (gs :: [some ':'] :: (tokens ++ [some c] :: tokens')) s) :
    ∃ s', Spaced tokens' s' ∧ s'.length < s.length ∧ ∀ rest, ∃ s₀,
      skipSpace s₀ = some c :: (s' ++ rest) ∧
        readMembers (fuel + 1) (s ++ rest) = membersAfter fuel (name.toOption, v) s₀ := by
  obtain ⟨space, s₁, hspace, hs₁, rfl⟩ := hs.first
  obtain ⟨s₂, hs₂, hlength, hcolon⟩ := hs₁.mark rfl
  obtain ⟨front, back, s', rfl, hfront, hs', hlength', hback⟩ := hs₂.split_mark hc hend
  simp only [List.length_append] at hlength hread ⊢
  refine ⟨s', hs', by omega, fun rest => ⟨back ++ rest, (hback rest).2, ?_⟩⟩
  have hvalue := hread front _ hfront (by omega) (hback rest).1
  rw [← List.append_assoc] at hvalue
  rw [List.append_assoc, readMembers_append hspace, List.append_assoc, readMembers_step hname (hcolon rest) hvalue]

end First

mutual

/-- A value is read from the tokens that write it, whatever white space stands between them. -/
theorem readValue_written {v : Json} {tokens : List Token} (hv : Written v tokens) {s : List Glyph}
    (hs : Spaced tokens s) {rest : List Glyph} (hrest : endsNumber rest = true) (fuel : Nat)
    (hfuel : 2 * s.length < fuel) : readValue fuel (s ++ rest) = (v, some rest) := by
  cases fuel with
  | zero => exact absurd hfuel (Nat.not_lt_zero _)
  | succ fuel =>
      cases hv with
      | null =>
          obtain ⟨space, hspace, rfl⟩ := hs.token
          rw [List.append_assoc, readValue_append hspace]
          exact readWord_append ['u', 'l', 'l'] null rest
      | yes =>
          obtain ⟨space, hspace, rfl⟩ := hs.token
          rw [List.append_assoc, readValue_append hspace]
          exact readWord_append ['r', 'u', 'e'] (bool true) rest
      | no =>
          obtain ⟨space, hspace, rfl⟩ := hs.token
          rw [List.append_assoc, readValue_append hspace]
          exact readWord_append ['a', 'l', 's', 'e'] (bool false) rest
      | number h =>
          obtain ⟨space, hspace, rfl⟩ := hs.token
          rw [List.append_assoc, readValue_append hspace, readValue_numeral h fuel hrest]
      | string h =>
          obtain ⟨space, hspace, rfl⟩ := hs.token
          rw [List.append_assoc, readValue_append hspace, readValue_string h]
      | array h =>
          obtain ⟨s', hs', hlength, hskip⟩ := hs.mark rfl
          rw [readValue_array (hskip rest), arrayAfter_written h hs' rest fuel (by omega)]
      | object h =>
          obtain ⟨s', hs', hlength, hskip⟩ := hs.mark rfl
          rw [readValue_object (hskip rest), objectAfter_written h hs' rest fuel (by omega)]
termination_by (fuel, 0)

theorem arrayAfter_written {items : List Json} {tokens : List Token} (hi : WrittenItems items tokens) {s : List Glyph}
    (hs : Spaced tokens s) (rest : List Glyph) (fuel : Nat) (hfuel : 2 * s.length + 1 < fuel) :
    arrayAfter fuel (skipSpace (s ++ rest)) = (array items, some rest) := by
  cases items with
  | nil =>
      cases hi
      obtain ⟨s', hs', -, hskip⟩ := hs.mark rfl
      cases hs'
      rw [hskip]
      rfl
  | cons v items =>
      obtain ⟨c, token, tokens', rfl, hc⟩ := hi.front
      rw [opensValue_eq_true] at hc
      obtain ⟨tail, hskip⟩ := hs.skip hc.1 rest
      rw [hskip, arrayAfter_of_ne hc.2.1, ← hskip, readItems_skipSpace, readItems_written hi hs rest fuel hfuel]
termination_by (fuel, 1)

theorem readItems_written {v : Json} {items : List Json} {tokens : List Token} (hi : WrittenItems (v :: items) tokens)
    {s : List Glyph} (hs : Spaced tokens s) (rest : List Glyph) (fuel : Nat) (hfuel : 2 * s.length + 1 < fuel) :
    readItems fuel (s ++ rest) = (v :: items, some rest) := by
  cases fuel with
  | zero => exact absurd hfuel (Nat.not_lt_zero _)
  | succ fuel =>
      cases hi with
      | last hv =>
          obtain ⟨s', hs', -, hfirst⟩ := readItems_first (fun front rest hfront hlength hrest =>
            readValue_written hv hfront hrest fuel (by omega)) rfl rfl hs
          obtain ⟨s₀, hskip, hstep⟩ := hfirst rest
          rw [hstep, itemsAfter, hskip]
          cases hs'
          rfl
      | more hv hothers =>
          obtain ⟨s', hs', hlength, hfirst⟩ := readItems_first (fun front rest hfront hlength hrest =>
            readValue_written hv hfront hrest fuel (by omega)) rfl rfl hs
          obtain ⟨s₀, hskip, hstep⟩ := hfirst rest
          rw [hstep, itemsAfter, hskip]
          simp only [readItems_written hothers hs' rest fuel (by omega)]
termination_by (fuel, 0)

theorem objectAfter_written {members : List (Option String × Json)} {tokens : List Token}
    (hm : WrittenMembers members tokens) {s : List Glyph} (hs : Spaced tokens s) (rest : List Glyph) (fuel : Nat)
    (hfuel : 2 * s.length + 1 < fuel) : objectAfter fuel (skipSpace (s ++ rest)) = (object members, some rest) := by
  cases members with
  | nil =>
      cases hm
      obtain ⟨s', hs', -, hskip⟩ := hs.mark rfl
      cases hs'
      rw [hskip]
      rfl
  | cons m members =>
      obtain ⟨token, tokens', rfl⟩ := hm.front
      obtain ⟨tail, hskip⟩ := hs.skip rfl rest
      rw [hskip, objectAfter_quote, ← hskip, readMembers_skipSpace, readMembers_written hm hs rest fuel hfuel]
termination_by (fuel, 1)

theorem readMembers_written {m : Option String × Json} {members : List (Option String × Json)} {tokens : List Token}
    (hm : WrittenMembers (m :: members) tokens) {s : List Glyph} (hs : Spaced tokens s) (rest : List Glyph) (fuel : Nat)
    (hfuel : 2 * s.length + 1 < fuel) : readMembers fuel (s ++ rest) = (m :: members, some rest) := by
  cases fuel with
  | zero => exact absurd hfuel (Nat.not_lt_zero _)
  | succ fuel =>
      cases hm with
      | last hname hv =>
          obtain ⟨s', hs', -, hfirst⟩ := readMembers_first (fun front rest hfront hlength hrest =>
            readValue_written hv hfront hrest fuel (by omega)) rfl rfl hname hs
          obtain ⟨s₀, hskip, hstep⟩ := hfirst rest
          rw [hstep, membersAfter, hskip]
          cases hs'
          rfl
      | more hname hv hothers =>
          obtain ⟨s', hs', hlength, hfirst⟩ := readMembers_first (fun front rest hfront hlength hrest =>
            readValue_written hv hfront hrest fuel (by omega)) rfl rfl hname hs
          obtain ⟨s₀, hskip, hstep⟩ := hfirst rest
          rw [hstep, membersAfter, hskip]
          simp only [readMembers_written hothers hs' rest fuel (by omega)]
termination_by (fuel, 0)

end

/-! ### What is read is written -/

/-- The text up to `rest` is one that the tokens make up, with white space between them. -/
def Ends (tokens : List Token) (s rest : List Glyph) : Prop := ∃ front, Spaced tokens front ∧ s = front ++ rest

theorem Ends.append {tokens tokens' : List Token} {s rest rest' : List Glyph} (h : Ends tokens s rest)
    (h' : Ends tokens' rest rest') : Ends (tokens ++ tokens') s rest' := by
  obtain ⟨front, hfront, rfl⟩ := h
  obtain ⟨front', hfront', rfl⟩ := h'
  exact ⟨front ++ front', hfront.append hfront', (List.append_assoc ..).symm⟩

theorem Ends.of_skipSpace {token : Token} {s rest : List Glyph} (h : skipSpace s = token ++ rest) :
    Ends [token] s rest := by
  obtain ⟨space, hspace, hs⟩ := exists_space s
  exact ⟨space ++ token, spaced_token hspace, by rw [List.append_assoc, ← h, ← hs]⟩

theorem Ends.of_mark {c : Char} {s rest : List Glyph} (h : skipSpace s = some c :: rest) : Ends [[some c]] s rest :=
  of_skipSpace h

theorem of_readWord {word : List Char} {v w : Json} {s rest : List Glyph} (h : readWord word v s = (w, some rest)) :
    w = v ∧ s = word.map some ++ rest := by
  unfold readWord at h
  split at h
  · rename_i hfront
    cases h
    obtain ⟨t, rfl⟩ := List.isPrefixOf_iff_prefix.1 hfront
    have hlength : word.length = (word.map some).length := (List.length_map some).symm
    exact ⟨rfl, by rw [hlength, List.drop_left]⟩
  · cases h

mutual

/-- Only what is written by some tokens is read to its end. -/
theorem written_of_readValue {fuel : Nat} {s rest : List Glyph} {v : Json} (h : readValue fuel s = (v, some rest)) :
    ∃ tokens, Written v tokens ∧ Ends tokens s rest := by
  cases fuel with
  | zero => cases h
  | succ fuel =>
      rw [readValue] at h
      split at h
      · rename_i heq
        obtain ⟨rfl, rfl⟩ := of_readWord h
        exact ⟨_, .null, .of_skipSpace heq⟩
      · rename_i heq
        obtain ⟨rfl, rfl⟩ := of_readWord h
        exact ⟨_, .yes, .of_skipSpace heq⟩
      · rename_i heq
        obtain ⟨rfl, rfl⟩ := of_readWord h
        exact ⟨_, .no, .of_skipSpace heq⟩
      · rename_i heq
        split at h
        · rename_i hread
          cases h
          obtain ⟨gs, hspelt, rfl⟩ := exists_spelt_of_readString hread
          exact ⟨_, .string hspelt, .of_skipSpace heq⟩
        · cases h
      · rename_i rest' heq
        obtain ⟨items, tokens, rfl, hitems, hends⟩ := written_of_arrayAfter h
        exact ⟨_, .array hitems, Ends.append (.of_mark heq) hends⟩
      · rename_i rest' heq
        obtain ⟨members, tokens, rfl, hmembers, hends⟩ := written_of_objectAfter h
        exact ⟨_, .object hmembers, Ends.append (.of_mark heq) hends⟩
      · split at h
        · rename_i hread
          cases h
          obtain ⟨cs, hspelt, hs⟩ := exists_spelt_of_readNumeral hread
          exact ⟨_, .number hspelt, .of_skipSpace hs⟩
        · cases h
termination_by (fuel, 0)

theorem written_of_arrayAfter {fuel : Nat} {s rest : List Glyph} {v : Json}
    (h : arrayAfter fuel (skipSpace s) = (v, some rest)) :
    ∃ items tokens, v = array items ∧ WrittenItems items tokens ∧ Ends tokens s rest := by
  unfold arrayAfter at h
  split at h
  · rename_i heq
    cases h
    exact ⟨_, _, rfl, .none, .of_skipSpace heq⟩
  · rw [readItems_skipSpace] at h
    cases hread : readItems fuel s with
    | mk items rest' =>
        rw [hread] at h
        cases h
        obtain ⟨tokens, -, hitems, hends⟩ := written_of_readItems hread
        exact ⟨_, _, rfl, hitems, hends⟩
termination_by (fuel, 1)

theorem written_of_readItems {fuel : Nat} {s rest : List Glyph} {items : List Json}
    (h : readItems fuel s = (items, some rest)) :
    ∃ tokens, items ≠ [] ∧ WrittenItems items tokens ∧ Ends tokens s rest := by
  cases fuel with
  | zero => cases h
  | succ fuel =>
      cases hread : readValue fuel s with
      | mk v o =>
          cases o with
          | none =>
              rw [readItems, hread] at h
              cases h
          | some rest' =>
              obtain ⟨tokens, hv, hends⟩ := written_of_readValue hread
              rw [readItems_step hread, itemsAfter] at h
              split at h
              · rename_i rest'' heq
                cases hothers : readItems fuel rest'' with
                | mk items' o =>
                    rw [hothers] at h
                    cases h
                    obtain ⟨tokens', hne, hitems, hends'⟩ := written_of_readItems hothers
                    obtain ⟨w, items', rfl⟩ := List.exists_cons_of_ne_nil hne
                    exact ⟨_, List.cons_ne_nil _ _, .more hv hitems, hends.append (Ends.append (.of_mark heq) hends')⟩
              · rename_i heq
                cases h
                exact ⟨_, List.cons_ne_nil _ _, .last hv, hends.append (.of_skipSpace heq)⟩
              · cases h
termination_by (fuel, 0)

theorem written_of_objectAfter {fuel : Nat} {s rest : List Glyph} {v : Json}
    (h : objectAfter fuel (skipSpace s) = (v, some rest)) :
    ∃ members tokens, v = object members ∧ WrittenMembers members tokens ∧ Ends tokens s rest := by
  unfold objectAfter at h
  split at h
  · rename_i heq
    cases h
    exact ⟨_, _, rfl, .none, .of_skipSpace heq⟩
  · rw [readMembers_skipSpace] at h
    cases hread : readMembers fuel s with
    | mk members rest' =>
        rw [hread] at h
        cases h
        obtain ⟨tokens, -, hmembers, hends⟩ := written_of_readMembers hread
        exact ⟨_, _, rfl, hmembers, hends⟩
termination_by (fuel, 1)

theorem written_of_readMembers {fuel : Nat} {s rest : List Glyph} {members : List (Option String × Json)}
    (h : readMembers fuel s = (members, some rest)) :
    ∃ tokens, members ≠ [] ∧ WrittenMembers members tokens ∧ Ends tokens s rest := by
  cases fuel with
  | zero => cases h
  | succ fuel =>
      rw [readMembers] at h
      split at h
      · rename_i s₁ hquote
        split at h
        · cases h
        · rename_i name s₂ hname
          obtain ⟨gs, hspelt, rfl⟩ := exists_spelt_of_readString hname
          split at h
          · rename_i s₃ hcolon
            have hfront : Ends [some '"' :: gs, [some ':']] s s₃ := Ends.append (.of_skipSpace hquote) (.of_mark hcolon)
            split at h
            · cases h
            · rename_i v s₄ hread
              obtain ⟨tokens, hv, hends⟩ := written_of_readValue hread
              split at h
              · rename_i s₅ hcomma
                cases hothers : readMembers fuel s₅ with
                | mk members' o =>
                    rw [hothers] at h
                    cases h
                    obtain ⟨tokens', hne, hmembers, hends'⟩ := written_of_readMembers hothers
                    obtain ⟨m, members', rfl⟩ := List.exists_cons_of_ne_nil hne
                    exact ⟨_, List.cons_ne_nil _ _, .more hspelt hv hmembers,
                      hfront.append (hends.append (Ends.append (.of_mark hcomma) hends'))⟩
              · rename_i s₅ hbrace
                cases h
                exact ⟨_, List.cons_ne_nil _ _, .last hspelt hv, hfront.append (hends.append (.of_mark hbrace))⟩
              · cases h
          · cases h
      · cases h
termination_by (fuel, 0)

end

/-! ### Whole texts -/

theorem Spelt.ofGlyphs {v : Json} {s : List Glyph} (h : Spelt v s) : ∃ rest, AllSpace rest ∧ ofGlyphs s = (v, some rest) := by
  obtain ⟨tokens, hv, front, back, hfront, hback, rfl⟩ := h
  refine ⟨back, hback, readValue_written hv hfront (endsNumber_of_allSpace hback) _ ?_⟩
  rw [List.length_append]
  omega

/-- The texts of a value are those that are read as it, with nothing but white space behind it. -/
theorem spelt_iff {v : Json} {s : List Glyph} : Spelt v s ↔ ∃ rest, AllSpace rest ∧ ofGlyphs s = (v, some rest) := by
  constructor
  · exact Spelt.ofGlyphs
  · rintro ⟨rest, hrest, h⟩
    obtain ⟨tokens, hv, front, hfront, hs⟩ := written_of_readValue h
    exact ⟨tokens, hv, front, rest, hfront, hrest, hs⟩

theorem Spelt.unique {v w : Json} {s : List Glyph} (h : Spelt v s) (h' : Spelt w s) : v = w := by
  obtain ⟨rest, -, hv⟩ := h.ofGlyphs
  obtain ⟨rest', -, hw⟩ := h'.ofGlyphs
  exact congrArg Prod.fst (hv.symm.trans hw)

/-- A text is read as the value it writes. -/
theorem Spelt.readWholeText {α : Type} {v : Json} {s : List Glyph} (h : Spelt v s) (f : Json → Read α) :
    Json.readWholeText f s = f v := by
  obtain ⟨rest, hrest, hread⟩ := h.ofGlyphs
  rw [Json.readWholeText, hread]
  dsimp only
  rw [skipSpace_eq_nil.2 hrest]
  cases f v with
  | ok a => rfl
  | error e => rfl

/-- Only texts of values are read. -/
theorem readWholeText_eq_ok {α : Type} {f : Json → Read α} {s : List Glyph} {a : α} :
    Json.readWholeText f s = .ok a ↔ ∃ v, Spelt v s ∧ f v = .ok a := by
  constructor
  · intro h
    rw [Json.readWholeText] at h
    cases hread : Json.ofGlyphs s with
    | mk v o =>
        rw [hread] at h
        obtain ⟨b, hb, h⟩ := bind_eq_ok.1 h
        cases o with
        | none => cases h
        | some rest =>
            dsimp only at h
            split at h
            · rename_i hempty
              cases h
              rw [List.isEmpty_iff, skipSpace_eq_nil] at hempty
              exact ⟨v, spelt_iff.2 ⟨rest, hempty, hread⟩, hb⟩
            · cases h
  · rintro ⟨v, hv, hread⟩
    rw [hv.readWholeText, hread]

end Json

end AccessControl
