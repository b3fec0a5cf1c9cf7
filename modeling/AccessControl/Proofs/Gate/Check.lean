import AccessControl.Proofs.Gate.Bearer
import AccessControl.Proofs.Gate.Identity

/-!
Checking a token and calling with it. Where the gate asks for a token, a check says of a token what the gate does with a
header that bears it: the two find the same caller with the same permissions, or both find none (`check_agrees_with_gate`).
-/

namespace AccessControl

/-- The text is the word, each letter of it in either case. -/
def Spells (text word : List Char) : Prop := List.Forall₂ (fun c letter => c = letter ∨ c = letter.toUpper) text word

theorem asciiLower_of_spells {text word : List Char} (h : Spells text word)
    (hword : ∀ letter ∈ word, letter.toLower = letter ∧ letter.toUpper.toLower = letter) : asciiLower text = word := by
  induction h with
  | nil => rfl
  | @cons c letter text word hc htext ih =>
      have hlower : c.toLower = letter := by
        obtain ⟨hlow, hup⟩ := hword letter List.mem_cons_self
        rcases hc with rfl | rfl
        · exact hlow
        · exact hup
      rw [asciiLower, List.map_cons, hlower]
      exact congrArg (letter :: ·) (ih fun letter hmem => hword letter (List.mem_cons_of_mem _ hmem))

namespace Session

variable {σ : Type}

/-- What a check tells of the context that a token resolves to. -/
def report : Except AccessError Context → TokenCheck
  | .ok context => ⟨true, context.username, context.permissions⟩
  | .error _ => ⟨false, none, Table.empty⟩

theorem check_fst (service : TokenService σ) (d : Directory) (token : String) (s : σ) :
    (check service d token s).1 = report (Gate.resolve service d token s).1 := by
  rw [check]
  split <;> rename_i h <;> rw [h] <;> rfl

end Session

namespace Gate

variable {σ : Type}

theorem authenticate_of_extracted {g : Gate} {operation : String} (hasked : operation ∉ g.bypass)
    {authorization : Option String} {token : String} (htoken : extractBearer authorization = .ok token)
    (service : TokenService σ) (d : Directory) (s : σ) :
    g.authenticate service d operation authorization s = resolve service d token s := by
  rw [authenticate, if_neg (mt isBypassed_iff.1 hasked), htoken]

/-- A check of a token and a call that bears it in a header come to the same, wherever the header is asked for and
however the word bearer is written in it. -/
theorem check_agrees_with_gate (g : Gate) (service : TokenService σ) (d : Directory) (s : σ)
    {operation scheme token : String} (hasked : operation ∉ g.bypass)
    (hscheme : Spells scheme.toList "bearer".toList) (hfilled : token ≠ "")
    (hfirst : ∀ c ∈ token.toList.head?, isBlank c = false) (hlast : ∀ c ∈ token.toList.getLast?, isBlank c = false) :
    let checked := Session.check service d token s
    let called := g.authenticate service d operation (some (scheme ++ " " ++ token)) s
    (checked.1.valid = true ↔ ∃ context, called.1 = .ok context) ∧
      (∀ context, called.1 = .ok context →
        checked.1.username = context.username ∧ context.username ≠ none ∧
          checked.1.permissions = context.permissions) ∧
      (checked.1.valid = false → checked.1.username = none ∧ checked.1.permissions = Table.empty) ∧
      checked.2 = called.2 := by
  intro checked called
  have hword : asciiLower scheme.toList = "bearer".toList := asciiLower_of_spells hscheme (by simp)
  have hne : token.toList ≠ [] := fun hnil => hfilled (String.toList_eq_nil_iff.1 hnil)
  have hextracted := extractBearer_append hword hne (Text.bare_of_ends hfirst hlast)
  have hcalled : called = resolve service d token s := authenticate_of_extracted hasked hextracted service d s
  have hchecked : checked.1 = Session.report called.1 := by rw [hcalled, Session.check_fst]
  refine ⟨?_, ?_, ?_, ?_⟩
  · rw [hchecked]
    cases called.1 with
    | ok context => exact ⟨fun _ => ⟨context, rfl⟩, fun _ => rfl⟩
    | error e => exact ⟨nofun, nofun⟩
  · intro context hok
    rw [hchecked, hok]
    rw [hcalled] at hok
    obtain ⟨subject, a, -, rfl⟩ := resolve_eq_ok.1 hok
    exact ⟨rfl, nofun, rfl⟩
  · rw [hchecked]
    cases called.1 with
    | ok context => exact nofun
    | error e => exact fun _ => ⟨rfl, rfl⟩
  · rw [hcalled, resolve_snd]
    exact Session.check_snd service d token s

/-- A name with a blank inside, which is a token for itself at `onceOnly`. -/
def annLee : Account := ⟨"ann lee", ["read-only"], "", none, none, 0, true, none, false⟩

/-- A check of this token and a call that bears it find its holder. Once it is used up, the call is turned away and a
check finds nobody. -/
theorem check_agrees_with_gate_inside_blank :
    let d : Directory := ⟨.ofList [("ann lee", annLee)], .empty⟩
    let check := Session.check onceOnly d "ann lee"
    let call := Gate.standard.authenticate onceOnly d "list" (some ("bEARer" ++ " " ++ "ann lee"))
    "list" ∉ Gate.standard.bypass ∧ Spells "bEARer".toList "bearer".toList ∧
      (call (["ann lee"], .fresh)).1 = .ok (d.contextFor annLee) ∧ (check (["ann lee"], .fresh)).1.valid = true ∧
      (check (["ann lee"], .fresh)).1.permissions = d.effectivePermissions "ann lee" ∧
      (call ([], .fresh)).1 = .error .noValidToken ∧ (check ([], .fresh)).1.username = none := by
  intro d check call
  have hasked : "list" ∉ Gate.standard.bypass := by decide
  have hscheme : Spells "bEARer".toList "bearer".toList := by simp [Spells]
  have hcalled : (call (["ann lee"], .fresh)).1 = .ok (d.contextFor annLee) := by rfl
  have hrefused : (call ([], .fresh)).1 = .error .noValidToken := by rfl
  have hfilled : "ann lee" ≠ "" := by decide
  have hfirst : ∀ c ∈ "ann lee".toList.head?, isBlank c = false := by
    rintro c ⟨⟩
    decide
  have hlast : ∀ c ∈ "ann lee".toList.getLast?, isBlank c = false := by
    rintro c ⟨⟩
    decide
  have hagree := fun s => check_agrees_with_gate Gate.standard onceOnly d s hasked hscheme hfilled hfirst hlast
  obtain ⟨hvalid, hsame, -, -⟩ := hagree (["ann lee"], .fresh)
  obtain ⟨hvalid', -, hnobody, -⟩ := hagree ([], .fresh)
  obtain ⟨-, -, hpermissions⟩ := hsame _ hcalled
  refine ⟨hasked, hscheme, hcalled, hvalid.2 ⟨_, hcalled⟩, hpermissions, hrefused, (hnobody ?_).1⟩
  rw [← Bool.not_eq_true, hvalid', not_exists]
  intro context hok
  rw [hrefused] at hok
  cases hok

end Gate

end AccessControl
