import AccessControl.Gate
import AccessControl.Proofs.Directory.Changes
import AccessControl.Repository

/-!
What the gate lets through. A call is admitted if its operation is let through unasked, or if it bears a token
that stands for an enabled account (`Bears`); every other call is refused with one and the same error, whichever
stage refused it.
-/

namespace AccessControl

/-! ### Tokens and credentials -/

theorem extractBearer_eq_error {authorization : Option String} {e : AccessError}
    (h : extractBearer authorization = .error e) : e = .noValidToken := by
  rw [extractBearer] at h
  cases hbearer : (authorization.bind fun header => bearerToken? header.toList).map String.ofList with
  | some token =>
      rw [hbearer] at h
      cases h
  | none =>
      rw [hbearer] at h
      cases h
      rfl

namespace Directory

/-- The context of the holder of an account. -/
def contextFor (d : Directory) (a : Account) : Context :=
  .authenticated ⟨a.username, a.name, a.email⟩ (d.effectivePermissions a.username)

theorem verifyCredentials_eq_ok {d : Directory} {h : Hasher} {username password : String} {a : Account} :
    d.verifyCredentials h username password = .ok a ↔
      d.users.get? username = some a ∧ a.enabled = true ∧ h.verify password a.passwordHash = .ok true := by
  simp only [verifyCredentials, bind_eq_ok, present_eq_ok, demand_eq_ok, pure_eq_ok]
  constructor
  · rintro ⟨b, hget, -, henabled, verified, hverify, -, rfl, rfl⟩
    exact ⟨hget, henabled, hverify⟩
  · rintro ⟨hget, henabled, hverify⟩
    exact ⟨a, hget, (), henabled, true, hverify, (), rfl, rfl⟩

end Directory

namespace Gate

variable {σ : Type}

/-- The token stands for the account under `subject`: it is active and signed for this subject, and the account is
enabled. -/
structure Bears (service : TokenService σ) (d : Directory) (token : String) (s : σ) (subject : String)
    (a : Account) : Prop where
  active : (service.introspect token s).1 = .ok subject
  signed : ∃ claims, service.verify token = .ok claims ∧ claims.subject = subject
  held : d.users.get? subject = some a
  enabled : a.enabled = true

/-- The calls that are admitted, each with the context it is given. -/
inductive Admits (g : Gate) (service : TokenService σ) (d : Directory) (operation : String)
    (authorization : Option String) (s : σ) : Context → Prop
  | bypassed (unasked : operation ∈ g.bypass) : Admits g service d operation authorization s .anonymous
  | bearer (token subject : String) (a : Account) (asked : operation ∉ g.bypass)
      (extracted : extractBearer authorization = .ok token) (bears : Bears service d token s subject a) :
      Admits g service d operation authorization s (d.contextFor a)

section

variable {service : TokenService σ} {d : Directory} {token subject : String} {s : σ} {context : Context}
  {verified : Except AccessError VerifiedClaims} {e : AccessError}

theorem contextOf_eq_ok :
    contextOf d subject verified = .ok context ↔
      (∃ claims, verified = .ok claims ∧ claims.subject = subject) ∧
        ∃ a, d.users.get? subject = some a ∧ a.enabled = true ∧ d.contextFor a = context := by
  unfold contextOf
  split
  · rename_i claims a hget
    split
    · rename_i h
      constructor
      · intro hcontext
        exact ⟨⟨claims, rfl, h.1⟩, a, hget, h.2, Except.ok.inj hcontext⟩
      · rintro ⟨-, b, hget', -, rfl⟩
        rw [hget] at hget'
        cases hget'
        rfl
    · rename_i h
      constructor
      · intro hcontext
        cases hcontext
      · rintro ⟨⟨claims', hverified, hsubject⟩, b, hget', henabled, -⟩
        rw [hget] at hget'
        cases hverified
        cases hget'
        exact absurd ⟨hsubject, henabled⟩ h
  · rename_i hnone
    constructor
    · intro hcontext
      cases hcontext
    · rintro ⟨⟨claims, hverified, -⟩, a, hget, -⟩
      exact absurd hget (hnone claims a hverified)

theorem contextOf_eq_error (h : contextOf d subject verified = .error e) : e = .noValidToken := by
  unfold contextOf at h
  split at h
  · split at h
    · cases h
    · cases h
      rfl
  · cases h
    rfl

/-! ### Resolving a token -/

theorem resolve_eq_ok :
    (resolve service d token s).1 = .ok context ↔
      ∃ subject a, Bears service d token s subject a ∧ d.contextFor a = context := by
  unfold resolve
  split
  · rename_i subject s' hactive
    show contextOf d subject (service.verify token) = .ok context ↔ _
    rw [contextOf_eq_ok]
    constructor
    · rintro ⟨hsigned, a, hget, henabled, hcontext⟩
      exact ⟨subject, a, ⟨by rw [hactive], hsigned, hget, henabled⟩, hcontext⟩
    · rintro ⟨subject', a, hbears, hcontext⟩
      have hsame := hbears.active
      rw [hactive] at hsame
      cases hsame
      exact ⟨hbears.signed, a, hbears.held, hbears.enabled, hcontext⟩
  · rename_i e s' hinactive
    constructor
    · intro h
      cases h
    · rintro ⟨subject, a, hbears, -⟩
      have hactive := hbears.active
      rw [hinactive] at hactive
      cases hactive

theorem resolve_eq_error (h : (resolve service d token s).1 = .error e) : e = .noValidToken := by
  unfold resolve at h
  split at h
  · exact contextOf_eq_error h
  · cases h
    rfl

/-- Resolving a token does no more to the state than looking the token up does. -/
theorem resolve_snd : (resolve service d token s).2 = (service.introspect token s).2 := by
  unfold resolve
  split <;> rename_i h <;> rw [h]

/-- What a token resolves to depends on the state through what the look-up tells alone. -/
theorem resolve_fst (service : TokenService σ) (d : Directory) (token : String) (s : σ) :
    (resolve service d token s).1 =
      match (service.introspect token s).1 with
      | .ok subject => contextOf d subject (service.verify token)
      | .error _ => .error .noValidToken := by
  unfold resolve
  split <;> rename_i h <;> rw [h]

end

/-! ### Admission -/

section

variable {g : Gate} {service : TokenService σ} {d : Directory} {operation : String}
  {authorization : Option String} {s : σ} {context : Context} {e : AccessError}

theorem isBypassed_iff : g.isBypassed operation = true ↔ operation ∈ g.bypass := List.contains_iff_mem

/-- What becomes of a call: it is let through unasked, it bears no token, or its token is resolved. -/
theorem authenticate_cases (g : Gate) (service : TokenService σ) (d : Directory) (operation : String)
    (authorization : Option String) (s : σ) :
    operation ∈ g.bypass ∧ g.authenticate service d operation authorization s = (.ok .anonymous, s) ∨
      operation ∉ g.bypass ∧
        ((∃ e, extractBearer authorization = .error e ∧
            g.authenticate service d operation authorization s = (.error .noValidToken, s)) ∨
          ∃ token, extractBearer authorization = .ok token ∧
            g.authenticate service d operation authorization s = resolve service d token s) := by
  unfold authenticate
  by_cases hbypassed : operation ∈ g.bypass
  · rw [if_pos (isBypassed_iff.2 hbypassed)]
    exact Or.inl ⟨hbypassed, rfl⟩
  · rw [if_neg (mt isBypassed_iff.1 hbypassed)]
    refine Or.inr ⟨hbypassed, ?_⟩
    cases hextracted : extractBearer authorization with
    | error e =>
        rw [extractBearer_eq_error hextracted]
        exact Or.inl ⟨.noValidToken, rfl, rfl⟩
    | ok token => exact Or.inr ⟨token, rfl, rfl⟩

theorem authenticate_eq_ok :
    (g.authenticate service d operation authorization s).1 = .ok context ↔
      g.Admits service d operation authorization s context := by
  rcases authenticate_cases g service d operation authorization s with
    ⟨hbypassed, h⟩ | ⟨hasked, ⟨e, hnone, h⟩ | ⟨token, hextracted, h⟩⟩
  · rw [h]
    constructor
    · intro hok
      cases hok
      exact Admits.bypassed hbypassed
    · intro hadmits
      cases hadmits with
      | bypassed unasked => rfl
      | bearer token subject a asked extracted bears => exact absurd hbypassed asked
  · rw [h]
    constructor
    · intro hok
      cases hok
    · intro hadmits
      cases hadmits with
      | bypassed unasked => exact absurd unasked hasked
      | bearer token subject a asked extracted bears =>
          rw [hnone] at extracted
          cases extracted
  · rw [h, resolve_eq_ok]
    constructor
    · rintro ⟨subject, a, hbears, rfl⟩
      exact Admits.bearer token subject a hasked hextracted hbears
    · intro hadmits
      cases hadmits with
      | bypassed unasked => exact absurd unasked hasked
      | bearer token' subject a asked extracted bears =>
          rw [hextracted] at extracted
          cases extracted
          exact ⟨subject, a, bears, rfl⟩

theorem authenticate_eq_error (hrefused : (g.authenticate service d operation authorization s).1 = .error e) :
    e = .noValidToken := by
  rcases authenticate_cases g service d operation authorization s with
    ⟨-, h⟩ | ⟨-, ⟨e', -, h⟩ | ⟨token, -, h⟩⟩ <;> rw [h] at hrefused
  · cases hrefused
  · cases hrefused
    rfl
  · exact resolve_eq_error hrefused

/-- The gate looks up the token of a call, where it asks for one, and leaves all else as it was. -/
theorem authenticate_snd (g : Gate) (service : TokenService σ) (d : Directory) (operation : String)
    (authorization : Option String) (s : σ) :
    (g.authenticate service d operation authorization s).2 = s ∨
      ∃ token, extractBearer authorization = .ok token ∧
        (g.authenticate service d operation authorization s).2 = (service.introspect token s).2 := by
  rcases authenticate_cases g service d operation authorization s with
    ⟨-, h⟩ | ⟨-, ⟨e, -, h⟩ | ⟨token, hextracted, h⟩⟩ <;> rw [h]
  · exact Or.inl rfl
  · exact Or.inl rfl
  · exact Or.inr ⟨token, hextracted, resolve_snd⟩

end

/-- The gate admits exactly the calls of `Admits`, each with its context, and refuses all others with one error,
which tells neither the stage nor the cause. Whatever an introspection leaves alone in the state around the gate,
the gate leaves alone. -/
theorem authenticate_exact (g : Gate) (service : TokenService σ) (d : Directory) (operation : String)
    (authorization : Option String) (s : σ) :
    (∀ context, (g.authenticate service d operation authorization s).1 = .ok context ↔
      g.Admits service d operation authorization s context) ∧
    ((g.authenticate service d operation authorization s).1 = .error .noValidToken ↔
      ∀ context, ¬ g.Admits service d operation authorization s context) ∧
    AccessError.noValidToken.kind = .unauthenticated ∧
    ∀ {ρ : Type} (view : σ → ρ), (∀ token t, view (service.introspect token t).2 = view t) →
      view (g.authenticate service d operation authorization s).2 = view s := by
  refine ⟨fun context => authenticate_eq_ok, ?_, rfl, fun view hview => ?_⟩
  · constructor
    · intro hrefused context hadmits
      rw [authenticate_eq_ok.2 hadmits] at hrefused
      cases hrefused
    · intro hnone
      cases hresult : (g.authenticate service d operation authorization s).1 with
      | ok context => exact absurd (authenticate_eq_ok.1 hresult) (hnone context)
      | error e => rw [authenticate_eq_error hresult]
  · rcases authenticate_snd g service d operation authorization s with h | ⟨token, -, h⟩
    · rw [h]
    · rw [h, hview]

/-- A service at which a name is a token for itself, once. A repository stands beside the names that are left. -/
def onceOnly : TokenService (List String × Repository) where
  issue subject s := (.ok ⟨subject, 0⟩, subject :: s.1, s.2)
  revoke token s := (.ok (), s.1.erase token, s.2)
  introspect token s :=
    if token ∈ s.1 then (.ok token, s.1.erase token, s.2) else (.error .tokenInactive, s)
  verify token := .ok ⟨token, 0⟩

def ann : Account := ⟨"ann", [], "", none, none, 0, true, none, false⟩

/-- Ann is admitted with her token and then no more, and the repository beside the gate stays as it is. -/
theorem authenticate_exact_once (r : Repository) :
    let d : Directory := ⟨.ofList [("ann", ann)], .empty⟩
    let first := Gate.standard.authenticate onceOnly d "list" (some "Bearer ann") (["ann"], r)
    first.1 = .ok (d.contextFor ann) ∧ first.2.2 = r ∧
      (Gate.standard.authenticate onceOnly d "list" (some "Bearer ann") first.2).1 = .error .noValidToken := by
  intro d first
  have hview : ∀ token t, (onceOnly.introspect token t).2.2 = t.2 := by
    intro token t
    rw [onceOnly]
    dsimp only
    split <;> rfl
  obtain ⟨hadmitted, -, -, hkept⟩ :=
    authenticate_exact Gate.standard onceOnly d "list" (some "Bearer ann") (["ann"], r)
  have hbears : Bears onceOnly d "ann" (["ann"], r) "ann" ann := ⟨rfl, ⟨⟨"ann", 0⟩, rfl, rfl⟩, rfl, rfl⟩
  refine ⟨(hadmitted _).2 (.bearer "ann" "ann" ann (by decide) rfl hbears), hkept Prod.snd hview, ?_⟩
  rfl

end Gate

end AccessControl
