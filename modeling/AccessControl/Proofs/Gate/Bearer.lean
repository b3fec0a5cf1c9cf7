import AccessControl.Gate
import AccessControl.Proofs.Text.Split
import Mathlib.Data.List.DropRight

/-!
Bearer headers. A header that is written as a scheme, one space and a token without blanks at its ends is read back to
this token (`bearerToken?_spaced`), provided the scheme is the word bearer in letters of either case. Blanks in front of
the scheme, before the token and behind it do not count.
-/

namespace AccessControl

namespace Text

/-- No blanks stand at either end. -/
structure Bare (cs : List Char) : Prop where
  front : trimFront cs = cs
  back : trimBack cs = cs

theorem exists_trimBack (cs : List Char) : ∃ back, (∀ c ∈ back, isBlank c = true) ∧ cs = trimBack cs ++ back := by
  refine ⟨(cs.reverse.takeWhile isBlank).reverse, fun c hc => List.mem_takeWhile_imp (List.mem_reverse.1 hc), ?_⟩
  rw [trimBack, ← List.reverse_append, List.takeWhile_append_dropWhile, List.reverse_reverse]

/-- Trimming removes blanks from both ends. -/
theorem exists_trim (cs : List Char) :
    ∃ front back, (∀ c ∈ front, isBlank c = true) ∧ (∀ c ∈ back, isBlank c = true) ∧ cs = front ++ trim cs ++ back := by
  obtain ⟨back, hback, hrest⟩ := exists_trimBack (trimFront cs)
  refine ⟨cs.takeWhile isBlank, back, fun c hc => List.mem_takeWhile_imp hc, hback, ?_⟩
  rw [trim, List.append_assoc, ← hrest]
  exact List.takeWhile_append_dropWhile.symm

theorem dropWhile_isBlank_eq_self {cs : List Char} :
    cs.dropWhile isBlank = cs ↔ ∀ c ∈ cs.head?, isBlank c = false := by
  rw [List.dropWhile_eq_self_iff]
  cases cs with
  | nil => simp
  | cons c cs => simp

/-- A text is bare if it neither begins nor ends with a blank. -/
theorem bare_of_ends {cs : List Char} (hfirst : ∀ c ∈ cs.head?, isBlank c = false)
    (hlast : ∀ c ∈ cs.getLast?, isBlank c = false) : Bare cs where
  front := dropWhile_isBlank_eq_self.2 hfirst
  back := by
    rw [trimBack, List.reverse_eq_iff, dropWhile_isBlank_eq_self, List.head?_reverse]
    exact hlast

theorem bare_of_no_blank {cs : List Char} (h : ∀ c ∈ cs, isBlank c = false) : Bare cs :=
  bare_of_ends (fun c hc => h c (List.mem_of_head? hc)) fun c hc => h c (List.mem_of_getLast? hc)

theorem dropWhile_append_of_eq_self {p : Char → Bool} {cs : List Char} (h : cs.dropWhile p = cs) (hne : cs ≠ [])
    (ds : List Char) : (cs ++ ds).dropWhile p = cs ++ ds := by
  cases cs with
  | nil => exact absurd rfl hne
  | cons c cs =>
      have hc : ¬ p c = true := by
        rw [List.dropWhile_eq_self_iff] at h
        exact h (Nat.zero_lt_succ _)
      exact List.dropWhile_cons_of_neg hc

/-- What stands between bare texts does not matter to the ends. -/
theorem Bare.append {cs ds : List Char} (hcs : Bare cs) (hds : Bare ds) (hfront : cs ≠ []) (hback : ds ≠ [])
    (between : List Char) : Bare (cs ++ between ++ ds) where
  front := by
    rw [trimFront, List.append_assoc]
    exact dropWhile_append_of_eq_self hcs.front hfront _
  back := by
    have hds' : ds.reverse.dropWhile isBlank = ds.reverse := List.reverse_eq_iff.1 hds.back
    rw [trimBack, List.reverse_eq_iff, List.reverse_append]
    exact dropWhile_append_of_eq_self hds' (List.reverse_eq_nil_iff.not.2 hback) _

/-- A text that is bare is what remains of it when blanks are put around it and removed again. -/
theorem trim_append {front cs back : List Char} (hfront : ∀ c ∈ front, isBlank c = true) (hcs : Bare cs) (hne : cs ≠ [])
    (hback : ∀ c ∈ back, isBlank c = true) : trim (front ++ cs ++ back) = cs := by
  have hback' : ∀ c ∈ back.reverse, isBlank c = true := fun c hc => hback c (List.mem_reverse.1 hc)
  have hkept : trimFront (front ++ cs ++ back) = cs ++ back := by
    rw [trimFront, List.append_assoc, List.dropWhile_append_of_pos hfront]
    exact dropWhile_append_of_eq_self hcs.front hne back
  rw [trim, hkept, trimBack, List.reverse_append, List.dropWhile_append_of_pos hback']
  exact hcs.back

/-- What is left of a text when it has been trimmed neither begins nor ends with a blank. -/
theorem ends_trim (cs : List Char) :
    (∀ c ∈ (trim cs).head?, isBlank c = false) ∧ ∀ c ∈ (trim cs).getLast?, isBlank c = false := by
  obtain ⟨back, -, hrest⟩ := exists_trimBack (trimFront cs)
  constructor
  · intro c hc
    have hfront : c ∈ (trimFront cs).head? := by
      have hfirst : (trimBack (trimFront cs)).head? = some c := hc
      rw [hrest, List.head?_append, hfirst]
      rfl
    exact dropWhile_isBlank_eq_self.1 (List.dropWhile_idempotent isBlank cs) c hfront
  · rw [trim, trimBack, List.getLast?_reverse]
    exact dropWhile_isBlank_eq_self.1 (List.dropWhile_idempotent isBlank _)

end Text

/-! ### The scheme -/

theorem toLower_of_isBlank {c : Char} (h : isBlank c = true) : c.toLower = c := by
  have hblanks : (blanks.all fun c => c.toLower == c) = true := by decide
  exact eq_of_beq (List.all_eq_true.1 hblanks c (List.contains_iff_mem.1 h))

/-- A word in letters of either case has no blanks. -/
theorem isBlank_of_asciiLower {scheme word : List Char} (hscheme : asciiLower scheme = word)
    (hword : word.any isBlank = false) {c : Char} (hc : c ∈ scheme) : isBlank c = false := by
  by_contra hblank
  rw [Bool.not_eq_false] at hblank
  have hmem : c.toLower ∈ word := hscheme ▸ List.mem_map_of_mem hc
  rw [toLower_of_isBlank hblank] at hmem
  exact absurd hblank (List.any_eq_false.1 hword c hmem)

/-- A word, a space and a text without blanks at its ends have none at theirs, whatever blanks follow the space. -/
theorem bare_header {scheme gap token : List Char} (hscheme : asciiLower scheme = "bearer".toList) (hne : token ≠ [])
    (htoken : Text.Bare token) : Text.Bare (scheme ++ ' ' :: (gap ++ token)) := by
  have hsolid : ∀ c ∈ scheme, isBlank c = false := fun c hc => isBlank_of_asciiLower hscheme (by decide) hc
  have hfront : scheme ≠ [] := by
    rintro rfl
    cases hscheme
  have h := (Text.bare_of_no_blank hsolid).append htoken hfront hne (' ' :: gap)
  rwa [List.append_assoc, List.cons_append] at h

theorem bearerToken?_spaced {front scheme gap token back : List Char} (hfront : ∀ c ∈ front, isBlank c = true)
    (hscheme : asciiLower scheme = "bearer".toList) (hgap : ∀ c ∈ gap, isBlank c = true) (hne : token ≠ [])
    (htoken : Text.Bare token) (hback : ∀ c ∈ back, isBlank c = true) :
    bearerToken? (front ++ (scheme ++ ' ' :: (gap ++ token)) ++ back) = some token := by
  have hspace : ' ' ∉ scheme := fun hc => absurd (isBlank_of_asciiLower hscheme (by decide) hc) (by decide)
  have hheader : Text.trim (front ++ (scheme ++ ' ' :: (gap ++ token)) ++ back) = scheme ++ ' ' :: (gap ++ token) := by
    apply Text.trim_append hfront (bare_header hscheme hne htoken) _ hback
    exact List.append_ne_nil_of_right_ne_nil _ (List.cons_ne_nil _ _)
  have hrest : Text.trim (gap ++ token) = token := by
    have hnone : ∀ c ∈ ([] : List Char), isBlank c = true := fun c hc => absurd hc List.not_mem_nil
    have h := Text.trim_append hgap htoken hne hnone
    rwa [List.append_nil] at h
  rw [bearerToken?, hheader]
  dsimp only
  rw [Text.dropWhile_ne_append hspace, Text.takeWhile_ne_append hspace]
  dsimp only
  rw [hrest, if_pos ⟨hscheme, hne⟩]

theorem bearerToken?_append {scheme token : List Char} (hscheme : asciiLower scheme = "bearer".toList)
    (hne : token ≠ []) (htoken : Text.Bare token) : bearerToken? (scheme ++ ' ' :: token) = some token := by
  have hnone : ∀ c ∈ ([] : List Char), isBlank c = true := fun c hc => absurd hc List.not_mem_nil
  have h := bearerToken?_spaced hnone hscheme hnone hne htoken hnone
  rwa [List.append_nil, List.nil_append, List.nil_append] at h

theorem extractBearer_append {scheme token : String} (hscheme : asciiLower scheme.toList = "bearer".toList)
    (hne : token.toList ≠ []) (htoken : Text.Bare token.toList) :
    extractBearer (some (scheme ++ " " ++ token)) = .ok token := by
  have hheader : (scheme ++ " " ++ token).toList = scheme.toList ++ ' ' :: token.toList := by
    rw [String.toList_append, String.toList_append, List.append_assoc]
    rfl
  rw [extractBearer, Option.bind_some, hheader, bearerToken?_append hscheme hne htoken, Option.map_some,
    String.ofList_toList]
  rfl

end AccessControl
