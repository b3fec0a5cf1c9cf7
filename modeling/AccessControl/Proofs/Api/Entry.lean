import AccessControl.Proofs.Api.Authorization
import AccessControl.Proofs.Api.Sessions

/-!
What a login opens. Its token resolves until it expires, whatever else is active (`resolve_of_granted`), and a request
that sends it in a bearer header is one of this caller (`bears_of_granted`).
-/

namespace AccessControl.Api

variable {api : Api} {e : Event} {l : Login} {now : Int64} {username password : String} {r : Request}

/-- The token of a login opens the gate until it expires, whatever else is active. -/
theorem resolve_of_granted (haccepts : api.authority.signer.AcceptsOwn) (hnamed : api.repository.cache.Named)
    (hact : e.act = .login username password) (hgranted : api.granted e = some l) (hcounted : 0 ≤ e.time)
    (hlater : e.time ≤ now) (hheld : now < l.expiresAt) :
    ∃ context, (api.step e).resolve now l.token = .ok context ∧ context.username = some l.username ∧
      context.permissions = l.permissions := by
  obtain ⟨a, hget, henabled, hname, hpermissions⟩ := holder_of_granted hact hgranted
  have hkept : (api.step e).repository = api.repository := by rw [step, hact]
  have hissues := issues_of_granted hgranted
  have hregistry : (api.step e).registry =
      api.registry.add e.time (api.authority.digest l.token) ⟨l.username, l.expiresAt⟩ := by
    rcases step_cases api e with ⟨l', hgranted', -, -, h⟩ | ⟨t, hnone, -⟩ | ⟨t, hnone, -⟩ | ⟨hnone, -⟩
    · rw [hgranted] at hgranted'
      cases hgranted'
      exact h
    all_goals
      rw [hgranted] at hnone
      cases hnone
  have hkey : l.username = username := by rw [hname, hnamed username a hget]
  have hactive : (api.step e).registry.active.get? (api.authority.digest l.token) =
      some ⟨l.username, l.expiresAt⟩ := by
    rw [hregistry]
    exact Table.get?_insert_eq_some.2 (Or.inl ⟨rfl, rfl⟩)
  have hverify := hissues.verify haccepts hcounted hlater (Int64.le_of_lt hheld) ""
  refine ⟨api.repository.cache.contextFor a, ?_, ?_, ?_⟩
  · rw [resolve, Gate.resolve_eq_ok, hkept, step_authority]
    refine ⟨l.username, a, ⟨?_, ⟨_, hverify, rfl⟩, by rw [hkey, hget], henabled⟩, rfl⟩
    exact Registry.introspect_eq_ok.2 ⟨_, hactive, hheld, rfl⟩
  · rw [hname]
    rfl
  · rw [hpermissions, hname]
    rfl

/-- An issued token gets through in a header. -/
theorem headerText_issued {a : TokenAuthority} {issuedAt : Int64} (h : a.Issues issuedAt l) :
    Request.headerText (some ("Bearer" ++ " " ++ l.token)) = some ("Bearer" ++ " " ++ l.token) := by
  obtain ⟨id, hissued⟩ := h
  have hprintable : ∀ c ∈ l.token.toList, ' ' ≤ c ∧ c ≤ '~' := by
    intro c hc
    refine a.printable_issued issuedAt id l.username ?_
    rwa [hissued]
  rw [Request.headerText, Option.filter_eq_some_iff]
  refine ⟨rfl, ?_⟩
  rw [String.toList_append, List.all_append, Bool.and_eq_true]
  refine ⟨by decide, List.all_eq_true.2 fun c hc => ?_⟩
  simp only [hprintable c hc, decide_true, Bool.and_self, Bool.or_true]

theorem bears_of_granted (haccepts : api.authority.signer.AcceptsOwn) (hnamed : api.repository.cache.Named)
    (hact : e.act = .login username password) (hgranted : api.granted e = some l) (hcounted : 0 ≤ e.time)
    (hlater : e.time ≤ now) (hheld : now < l.expiresAt)
    (hheader : r.authorization = some ("Bearer" ++ " " ++ l.token)) :
    ∃ context, Bears now (api.step e) r context ∧ context.username = some l.username ∧
      context.permissions = l.permissions := by
  obtain ⟨context, hresolved, hcontext⟩ := resolve_of_granted haccepts hnamed hact hgranted hcounted hlater hheld
  have hissues := issues_of_granted hgranted
  refine ⟨context, ⟨l.token, ?_, hresolved⟩, hcontext⟩
  rw [Request.credentials, hheader, headerText_issued hissues]
  exact hissues.extractBearer rfl

end AccessControl.Api
