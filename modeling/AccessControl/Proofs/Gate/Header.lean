import AccessControl.Proofs.Gate.Check

/-!
Which headers present which tokens. The grammar of bearer headers is stated on its own (`Presents`); a header yields a
token exactly if it presents it, and every other one is turned away in the same way (`extractBearer_exact`).
-/

namespace AccessControl

theorem eq_or_eq_toUpper {c letter : Char} (h : c.toLower = letter) : c = letter ∨ c = letter.toUpper := by
  by_cases hupper : 65 ≤ c.toNat ∧ c.toNat ≤ 90
  · have hletters : ∀ n < 91, 65 ≤ n → (Char.ofNat n).toLower.toUpper = Char.ofNat n := by decide
    have hc := hletters c.toNat (by omega) hupper.1
    rw [Char.ofNat_toNat, h] at hc
    exact Or.inr hc.symm
  · have hkept : c.toLower = c := dif_neg hupper
    exact Or.inl (hkept.symm.trans h)

theorem spells_of_asciiLower {text word : List Char} (h : asciiLower text = word) : Spells text word := by
  rw [Spells, ← h, asciiLower, List.forall₂_map_right_iff, List.forall₂_same]
  intro c _
  exact eq_or_eq_toUpper rfl

theorem spells_bearer {scheme : List Char} : Spells scheme "bearer".toList ↔ asciiLower scheme = "bearer".toList :=
  ⟨fun h => asciiLower_of_spells h (by simp), spells_of_asciiLower⟩

/-- The header presents the token: it is the word bearer, one space and the token, which neither begins nor ends with a
blank, and there are nothing but blanks in front of the word, between the space and the token, and behind the token. -/
def Presents (header token : List Char) : Prop :=
  ∃ front scheme gap back, header = front ++ scheme ++ [' '] ++ gap ++ token ++ back ∧
    Spells scheme "bearer".toList ∧ token ≠ [] ∧ (∀ c ∈ token.head?, isBlank c = false) ∧
    (∀ c ∈ token.getLast?, isBlank c = false) ∧ ∀ c ∈ front ++ gap ++ back, isBlank c = true

variable {header token : List Char}

theorem bearerToken?_of_presents (h : Presents header token) : bearerToken? header = some token := by
  obtain ⟨front, scheme, gap, back, rfl, hscheme, hne, hfirst, hlast, hblank⟩ := h
  simp only [List.forall_mem_append] at hblank
  obtain ⟨⟨hfront, hgap⟩, hback⟩ := hblank
  have hread := bearerToken?_spaced hfront (spells_bearer.1 hscheme) hgap hne (Text.bare_of_ends hfirst hlast) hback
  simpa using hread

theorem presents_of_bearerToken? (h : bearerToken? header = some token) : Presents header token := by
  obtain ⟨front, back, hfront, hback, hheader⟩ := Text.exists_trim header
  rw [bearerToken?] at h
  dsimp only at h
  split at h
  · cases h
  rename_i space rest hrest
  split at h
  case isFalse => cases h
  rename_i hread
  obtain ⟨hscheme, hne⟩ := hread
  obtain rfl : Text.trim rest = token := Option.some.inj h
  have hspace : space = ' ' := by
    have hfirst := List.head?_dropWhile_not (fun c => decide (c ≠ ' ')) (Text.trim header)
    rw [hrest] at hfirst
    simpa using hfirst
  obtain ⟨gap, tail, hgap, htail, hsplit⟩ := Text.exists_trim rest
  obtain ⟨hfirst, hlast⟩ := Text.ends_trim rest
  refine ⟨front, _, gap, tail ++ back, ?_, spells_of_asciiLower hscheme, hne, hfirst, hlast, ?_⟩
  · calc
      header = front ++ ((Text.trim header).takeWhile (fun c => decide (c ≠ ' ')) ++ ' ' :: rest) ++ back := by
        rw [hspace] at hrest
        rw [← hrest, List.takeWhile_append_dropWhile]
        exact hheader
      _ = front ++ ((Text.trim header).takeWhile (fun c => decide (c ≠ ' ')) ++ ' ' :: (gap ++ Text.trim rest ++ tail)) ++
          back := by rw [← hsplit]
      _ = _ := by simp only [List.append_assoc, List.cons_append, List.nil_append]
  · simp only [List.forall_mem_append]
    exact ⟨⟨hfront, hgap⟩, htail, hback⟩

theorem bearerToken?_eq_some : bearerToken? header = some token ↔ Presents header token :=
  ⟨presents_of_bearerToken?, bearerToken?_of_presents⟩

theorem Presents.unique {token' : List Char} (h : Presents header token) (h' : Presents header token') :
    token = token' :=
  Option.some.inj ((bearerToken?_eq_some.2 h).symm.trans (bearerToken?_eq_some.2 h'))

theorem takeWhile_isBlank_scheme {front scheme rest : List Char} (hfront : ∀ c ∈ front, isBlank c = true)
    (hscheme : Spells scheme "bearer".toList) : (front ++ (scheme ++ rest)).takeWhile isBlank = front := by
  have hbare := Text.bare_of_no_blank fun c => isBlank_of_asciiLower (spells_bearer.1 hscheme) (by decide) (c := c)
  cases scheme with
  | nil => cases hscheme
  | cons c scheme =>
      have hc : ¬ isBlank c = true := by
        rw [Text.dropWhile_isBlank_eq_self.1 hbare.front c rfl]
        exact Bool.false_ne_true
      rw [List.takeWhile_append_of_pos hfront, List.cons_append, List.takeWhile_cons_of_neg hc, List.append_nil]

/-- Directly behind the scheme there is a space or the header presents nothing. -/
theorem Presents.next_eq_space {front scheme rest : List Char} {next : Char}
    (h : Presents (front ++ scheme ++ next :: rest) token) (hfront : ∀ c ∈ front, isBlank c = true)
    (hscheme : Spells scheme "bearer".toList) : next = ' ' := by
  obtain ⟨front', scheme', gap, back, heq, hscheme', -, -, -, hblank⟩ := h
  simp only [List.forall_mem_append] at hblank
  simp only [List.append_assoc] at heq
  have hfronts : front = front' :=
    calc
      front = (front ++ (scheme ++ next :: rest)).takeWhile isBlank := (takeWhile_isBlank_scheme hfront hscheme).symm
      _ = front' := by
        rw [heq]
        exact takeWhile_isBlank_scheme hblank.1.1 hscheme'
  rw [hfronts] at heq
  -- both schemes have as many letters as the word
  have hlength : scheme.length = scheme'.length := hscheme.length_eq.trans hscheme'.length_eq.symm
  obtain ⟨-, hrest⟩ := List.append_inj (List.append_cancel_left heq) hlength
  exact (List.cons.inj hrest).1

theorem extractBearer_eq_ok {header token : String} :
    extractBearer (some header) = .ok token ↔ Presents header.toList token.toList := by
  rw [extractBearer, present_eq_ok, Option.bind_some, Option.map_eq_some_iff]
  simp only [bearerToken?_eq_some]
  constructor
  · rintro ⟨text, htext, rfl⟩
    rwa [String.toList_ofList]
  · intro h
    exact ⟨token.toList, h, String.ofList_toList⟩

/-- A header yields a token exactly if it presents it, and it presents no other. Every other header, and none at all, is
turned away as if there were no valid token. So the token may hold blanks inside, but behind the scheme nothing takes the
place of a space, not even another blank. -/
theorem extractBearer_exact :
    (∀ header token, extractBearer (some header) = .ok token ↔ Presents header.toList token.toList) ∧
      (∀ header token token', Presents header token → Presents header token' → token = token') ∧
      (∀ header, (∀ token, ¬ Presents header.toList token) → extractBearer (some header) = .error .noValidToken) ∧
      extractBearer none = .error .noValidToken ∧ AccessError.noValidToken.kind = .unauthenticated ∧
      (∀ first inside last, isBlank first = false → isBlank last = false →
        let token := String.ofList (first :: (inside ++ [last]))
        extractBearer (some ("bearer " ++ token)) = .ok token) ∧
      ∀ front scheme next rest, (∀ c ∈ front, isBlank c = true) → Spells scheme "bearer".toList → next ≠ ' ' →
        extractBearer (some (String.ofList (front ++ scheme ++ next :: rest))) = .error .noValidToken := by
  have hrefused : ∀ header : String, (∀ token, ¬ Presents header.toList token) →
      extractBearer (some header) = .error .noValidToken := by
    intro header hnone
    have hread : bearerToken? header.toList = none := by
      rw [Option.eq_none_iff_forall_ne_some]
      exact fun token htoken => hnone token (presents_of_bearerToken? htoken)
    rw [extractBearer, Option.bind_some, hread]
    rfl
  refine ⟨fun _ _ => extractBearer_eq_ok, fun _ _ _ => Presents.unique, hrefused, rfl, rfl, ?_, ?_⟩
  · intro first inside last hfirst hlast token
    rw [extractBearer_eq_ok]
    refine ⟨[], "bearer".toList, [], [], ?_, spells_of_asciiLower rfl, ?_, ?_, ?_, ?_⟩
    · simp [token]
    · simp [token]
    · simpa [token] using hfirst
    · have hend : token.toList.getLast? = some last := by
        rw [String.toList_ofList, ← List.cons_append, List.getLast?_concat]
      simpa [hend] using hlast
    · simp
  · intro front scheme next rest hfront hscheme hnext
    apply hrefused
    intro token h
    rw [String.toList_ofList] at h
    exact hnext (h.next_eq_space hfront hscheme)

/-- A token with a space inside is found between blanks of many kinds, and a tab in place of the first space hides it. -/
theorem extractBearer_exact_blanks :
    Presents "\u2003bEaReR \ta b\n".toList "a b".toList ∧ extractBearer (some "\u2003bEaReR \ta b\n") = .ok "a b" ∧
      extractBearer (some "\u2003bEaReR\t a b\n") = .error .noValidToken ∧
      extractBearer (some "bearer a b") = .ok "a b" := by
  obtain ⟨hexact, -, -, -, -, hinside, hnext⟩ := extractBearer_exact
  have hfront : ∀ c ∈ ['\u2003'], isBlank c = true := List.forall_mem_singleton.2 rfl
  have hscheme : Spells "bEaReR".toList "bearer".toList := spells_of_asciiLower (by decide)
  have hpresents : Presents "\u2003bEaReR \ta b\n".toList "a b".toList := by
    refine ⟨['\u2003'], "bEaReR".toList, ['\t'], ['\n'], by decide, hscheme, by decide, ?_, ?_, ?_⟩
    · rintro c ⟨⟩
      rfl
    · rintro c ⟨⟩
      rfl
    · exact List.forall_mem_append.2 ⟨List.forall_mem_append.2 ⟨hfront, List.forall_mem_singleton.2 rfl⟩,
        List.forall_mem_singleton.2 rfl⟩
  refine ⟨hpresents, (hexact _ _).2 hpresents, ?_, hinside 'a' [' '] 'b' (by decide) (by decide)⟩
  exact hnext ['\u2003'] "bEaReR".toList '\t' " a b\n".toList hfront hscheme (by decide)

end AccessControl
