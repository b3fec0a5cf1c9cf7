import AccessControl.Proofs.Api.Runs

/-!
Sessions at the assembled service, in every run. What the registry shows at any time are the logins in force
(`Regular.shows`); so a token resolves exactly if it is the token of one and the account is there and
enabled, whatever was written since, and logins and logouts take effect at once (`assembled_keeps_sessions`).
-/

namespace AccessControl.Api

def resolve (api : Api) (now : Int64) (token : String) : Except AccessError Context :=
  (Gate.resolve (api.authority.service now "") api.repository.cache token api.registry).1

def authenticate (api : Api) (now : Int64) (operation : String) (authorization : Option String) :
    Except AccessError Context :=
  (Gate.standard.authenticate (api.authority.service now "") api.repository.cache operation authorization
    api.registry).1

/-- The context of the holder of a token: the token is that of a login in force, and the account that this was for is
there and enabled. -/
def StandsFor (api : Api) (events : List Event) (token : String) (context : Context) : Prop :=
  ∃ l a, api.InForce events l ∧ l.token = token ∧
    (api.after events).repository.cache.users.get? l.username = some a ∧ a.enabled = true ∧
    context = .authenticated ⟨l.username, a.name, a.email⟩
      ((api.after events).repository.cache.effectivePermissions l.username)

section

variable {api : Api} {events : List Event} {e : Event} {l : Login} {now : Int64} {token : String}

/-! ### What is active is in force -/

/-- The token is that of a login in force, with its account and expiry. -/
def Told (api : Api) (events : List Event) (token : String) (t : ActiveToken) : Prop :=
  ∃ l, api.InForce events l ∧ l.token = token ∧ t = ⟨l.username, l.expiresAt⟩

theorem told_snoc {s : String} {u : ActiveToken} :
    api.Told (events ++ [e]) s u ↔
      (∃ l, (api.after events).granted e = some l ∧ l.token = s ∧ u = ⟨l.username, l.expiresAt⟩) ∨
        (api.Told events s u ∧ e.act ≠ .logout s) := by
  simp only [Told, inForce_snoc, or_and_right, exists_or]
  refine or_congr_right ⟨?_, ?_⟩
  · rintro ⟨l, ⟨hl, hkept⟩, rfl, rfl⟩
    exact ⟨⟨l, hl, rfl, rfl⟩, hkept⟩
  · rintro ⟨⟨l, hl, rfl, rfl⟩, hkept⟩
    exact ⟨l, ⟨hl, hkept⟩, rfl, rfl⟩

theorem told_snoc_idle (hnone : (api.after events).granted e = none) (hstays : ∀ t, e.act ≠ .logout t) (s : String)
    (u : ActiveToken) : api.Told (events ++ [e]) s u ↔ api.Told events s u := by
  simp only [told_snoc, hnone, hstays, reduceCtorEq, false_and, exists_false, false_or, ne_eq, not_false_eq_true,
    and_true]

theorem shows_snoc (h : (api.after events).registry.Shows api.authority.digest now (api.Told events))
    (hregular : api.Regular (events ++ [e]) now token) :
    (api.after (events ++ [e])).registry.Shows api.authority.digest now (api.Told (events ++ [e])) := by
  have hcases := step_cases (api.after events) e
  rw [after_authority, ← after_snoc] at hcases
  have htime := hregular.time_le List.mem_concat_self
  rcases hcases with ⟨l, hgranted, hstays, -, hregistry⟩ | ⟨left, hnone, hact, hregistry⟩ |
    ⟨looked, hnone, hstays, hregistry⟩ | ⟨hnone, hstays, hregistry⟩
  · rw [hregistry]
    have hlogin : api.Granted (events ++ [e]) l := granted_snoc.2 (Or.inr hgranted)
    refine h.add htime (fun s u => ?_) fun s u hs hdigest => ?_
    · simp only [told_snoc, hgranted, hstays, Option.some.injEq, exists_eq_left', ne_eq, not_false_eq_true, and_true,
        eq_comm]
    · -- the same token again is for the same account and until the same time
      obtain ⟨l', hl', rfl, rfl⟩ := hs
      have hlogin' : api.Granted (events ++ [e]) l' := granted_snoc.2 (Or.inl hl'.granted)
      have htoken := hregular.distinguished _ _ (Or.inr hlogin'.concerns) (Or.inr hlogin.concerns) hdigest
      obtain ⟨husername, hexpires⟩ := hlogin'.eq_of_token hlogin htoken
      exact ⟨htoken, by rw [husername, hexpires]⟩
  · rw [hregistry]
    refine h.remove (fun s u => ?_) fun s u hs hdigest => ?_
    · simp only [told_snoc, hnone, hact, reduceCtorEq, false_and, exists_false, false_or, ne_eq, Act.logout.injEq,
        eq_comm]
    · obtain ⟨l, hl, rfl, -⟩ := hs
      have hleft : api.Concerns (events ++ [e]) left := Or.inr ⟨e, List.mem_concat_self, hact⟩
      exact hregular.distinguished _ _ (Or.inr (hl.granted.concerns.snoc e)) (Or.inr hleft) hdigest
  · exact h.of_pruned (by rw [hregistry, Registry.pruned_introspect htime]) (told_snoc_idle hnone hstays)
  · exact h.of_pruned (by rw [hregistry]) (told_snoc_idle hnone hstays)

theorem Regular.shows (h : api.Regular events now token) (hfresh : api.registry = .empty) :
    (api.after events).registry.Shows api.authority.digest now (api.Told events) := by
  induction events using List.reverseRecOn with
  | nil =>
      have hnone : ∀ s u, ¬ api.Told [] s u := by
        rintro s u ⟨l, ⟨before, e, later, hevents, -⟩, -⟩
        exact List.append_ne_nil_of_right_ne_nil _ (List.cons_ne_nil _ _) hevents.symm
      have hempty : Registry.Shows .empty api.authority.digest now (api.Told []) := Registry.shows_empty hnone
      rwa [← hfresh] at hempty
  | append_singleton events e ih => exact shows_snoc (ih h.init) h

/-! ### Resolving -/

theorem resolve_eq_ok (hfresh : api.registry = .empty) (haccepts : api.authority.signer.AcceptsOwn)
    (hnamed : (api.after events).repository.cache.Named) (h : api.Regular events now token) {context : Context} :
    (api.after events).resolve now token = .ok context ↔ api.StandsFor events token context := by
  have hone : ∀ s u, api.Told events s u → api.authority.digest s = api.authority.digest token → s = token := by
    rintro s u ⟨l, hl, rfl, -⟩ hdigest
    exact h.distinguished _ _ (Or.inr hl.granted.concerns) (Or.inl rfl) hdigest
  rw [resolve, Gate.resolve_eq_ok, after_authority]
  constructor
  · rintro ⟨subject, a, hbears, rfl⟩
    obtain ⟨t, ⟨l, hl, rfl, rfl⟩, -, rfl⟩ := ((h.shows hfresh).introspect_eq_ok hone).1 hbears.active
    have hname := hnamed _ a hbears.held
    exact ⟨l, a, hl, rfl, hbears.held, hbears.enabled, by rw [Directory.contextFor, hname]⟩
  · rintro ⟨l, a, hl, rfl, hheld, henabled, rfl⟩
    have hunexpired := h.unexpired l hl.granted
    obtain ⟨e, he, hissues⟩ := hl.granted.issued
    have hverify := hissues.verify haccepts (h.counted e he) (h.time_le he) (Int64.le_of_lt hunexpired) ""
    have hname := hnamed _ a hheld
    refine ⟨l.username, a, ⟨?_, ⟨_, hverify, rfl⟩, hheld, henabled⟩, by rw [Directory.contextFor, hname]⟩
    exact ((h.shows hfresh).introspect_eq_ok hone).2 ⟨_, ⟨l, hl, rfl, rfl⟩, hunexpired, rfl⟩

theorem authenticate_of_bearer {operation : String} (hasked : operation ∉ Gate.standard.bypass)
    {authorization : Option String} (hbearer : extractBearer authorization = .ok token) (api : Api) (now : Int64) :
    api.authenticate now operation authorization = api.resolve now token := by
  rcases Gate.standard.authenticate_cases (api.authority.service now "") api.repository.cache operation authorization
    api.registry with ⟨hbypassed, -⟩ | ⟨-, ⟨e, hnone, -⟩ | ⟨token', hextracted, h⟩⟩
  · exact absurd hbypassed hasked
  · rw [hbearer] at hnone
    cases hnone
  · rw [hbearer] at hextracted
    cases hextracted
    rw [authenticate, h, resolve]

theorem resolve_eq_error (h : ∀ context, api.resolve now token ≠ .ok context) :
    api.resolve now token = .error .noValidToken := by
  cases hresolve : api.resolve now token with
  | ok context => exact absurd hresolve (h context)
  | error error => rw [Gate.resolve_eq_error hresolve]

/-! ### Logging in and out -/

theorem holder_of_granted {username password : String} (hact : e.act = .login username password)
    (hgranted : api.granted e = some l) :
    ∃ a, api.repository.cache.users.get? username = some a ∧ a.enabled = true ∧ l.username = a.username ∧
      l.permissions = api.repository.cache.effectivePermissions l.username := by
  cases hverified : api.repository.cache.verifyCredentials e.circumstances.hasher username password with
  | error error =>
      rw [granted_of_refused hact hverified] at hgranted
      cases hgranted
  | ok a =>
      rw [granted_of_verified hact hverified] at hgranted
      obtain rfl := Option.some.inj hgranted
      obtain ⟨hheld, henabled, -⟩ := Directory.verifyCredentials_eq_ok.1 hverified
      exact ⟨a, hheld, henabled, rfl, rfl⟩

theorem step_of_denied {username password : String} (hact : e.act = .login username password)
    (hdenied : api.granted e = none) : api.step e = api := by
  cases hverified : api.repository.cache.verifyCredentials e.circumstances.hasher username password with
  | error error => exact step_of_refused hact hverified
  | ok a =>
      rw [granted_of_verified hact hverified] at hdenied
      cases hdenied

/-- A login that was just granted stands for the account that was asked for, with the permissions that it was answered
with. -/
theorem standsFor_granted {username password : String} (hnamed : (api.after events).repository.cache.Named)
    (hact : e.act = .login username password) (hgranted : (api.after events).granted e = some l) :
    l.username = username ∧ ∃ context, api.StandsFor (events ++ [e]) l.token context ∧
      context.username = some l.username ∧ context.permissions = l.permissions := by
  obtain ⟨a, hheld, henabled, hname, hpermissions⟩ := holder_of_granted hact hgranted
  have hkept : (api.after (events ++ [e])).repository = (api.after events).repository := by
    rw [after_snoc, step, hact]
  have hkey : l.username = username := by rw [hname, hnamed username a hheld]
  refine ⟨hkey, .authenticated ⟨l.username, a.name, a.email⟩ l.permissions, ?_, rfl, rfl⟩
  refine ⟨l, a, inForce_snoc.2 (Or.inl hgranted), rfl, ?_, henabled, ?_⟩
  · rw [hkept, hkey, hheld]
  · rw [hkept, hpermissions]

theorem resolve_logout (h : e.act = .logout token) {other : String}
    (hother : api.authority.digest other ≠ api.authority.digest token) :
    (api.step e).resolve now other = api.resolve now other := by
  have hkept : (api.step e).repository = api.repository := by rw [step, h]
  have hregistry : (api.step e).registry = api.registry.remove (api.authority.digest token) := by
    rw [step, h]
    rfl
  rw [resolve, resolve, Gate.resolve_fst, Gate.resolve_fst, hkept, hregistry, step_authority,
    TokenAuthority.service_introspect, TokenAuthority.service_introspect, Registry.introspect_remove_of_ne hother]

end

/-! ### The lifecycle -/

/-- How a service keeps sessions, in every run and at every moment: who a token stands for; that a login which is denied
changes nothing; that a logout of one token leaves the others as they are; that a login opens the gate at once; and that
a logout closes it at once. -/
structure KeepsSessions (api : Api) : Prop where
  resolves : ∀ events now token context, api.Regular events now token →
    ((api.after events).resolve now token = .ok context ↔ api.StandsFor events token context)
  denied : ∀ events e username password, e.act = .login username password → (api.after events).granted e = none →
    api.after (events ++ [e]) = api.after events
  others : ∀ events e token now other, e.act = .logout token →
    api.authority.digest other ≠ api.authority.digest token →
    (api.after (events ++ [e])).resolve now other = (api.after events).resolve now other
  opened : ∀ events e username password l now operation scheme, e.act = .login username password →
    (api.after events).granted e = some l → api.Regular (events ++ [e]) now l.token →
    operation ∉ Gate.standard.bypass → asciiLower scheme.toList = "bearer".toList →
    l.username = username ∧ ∃ context,
      (api.after (events ++ [e])).authenticate now operation (some (scheme ++ " " ++ l.token)) = .ok context ∧
        context.username = some username ∧ context.permissions = l.permissions
  closed : ∀ events e token now operation authorization, e.act = .logout token →
    api.Regular (events ++ [e]) now token → operation ∉ Gate.standard.bypass →
    extractBearer authorization = .ok token →
    (api.after (events ++ [e])).authenticate now operation authorization = .error .noValidToken

/-- A service over a repository whose accounts stand under their own usernames keeps sessions, whatever its issuer, its
digest and its positive lifespan, if the signatures of its signer are accepted. -/
theorem assembled_keeps_sessions {r : Repository} (hcache : r.cache.Named) (hstored : r.store.Describes Directory.Named)
    {signer : Signer} (haccepts : signer.AcceptsOwn) (digest : String → String) {lifespan : Int64}
    (hpos : 0 < lifespan) :
    ∃ api, Api.assemble r signer digest lifespan = .ok api ∧ api.KeepsSessions := by
  let api : Api := ⟨r, .empty, ⟨signer, digest, lifespan, hpos⟩⟩
  have hassembled : Api.assemble r signer digest lifespan = .ok api := by
    rw [assemble, TokenAuthority.make, dif_pos hpos]
    rfl
  have hfirst : api.repository.cache.Named := hcache
  have hnamed : ∀ events, (api.after events).repository.cache.Named :=
    fun events => (after_keeps Directory.named_kept hfirst hstored events).1
  have hresolves : ∀ events now token context, api.Regular events now token →
      ((api.after events).resolve now token = .ok context ↔ api.StandsFor events token context) :=
    fun events now token context h => resolve_eq_ok rfl haccepts (hnamed events) h
  refine ⟨api, hassembled, hresolves, ?_, ?_, ?_, ?_⟩
  · intro events e username password hact hdenied
    rw [after_snoc, step_of_denied hact hdenied]
  · intro events e token now other hact hother
    rw [after_snoc, resolve_logout hact (by rwa [after_authority])]
  · intro events e username password l now operation scheme hact hgranted hregular hasked hscheme
    obtain ⟨hkey, context, hstands, hname, hpermissions⟩ := standsFor_granted (hnamed events) hact hgranted
    obtain ⟨e', -, hissues⟩ := (granted_snoc.2 (Or.inr hgranted)).issued
    rw [authenticate_of_bearer hasked (hissues.extractBearer hscheme)]
    have hresolved := (hresolves _ now l.token context hregular).2 hstands
    exact ⟨hkey, context, hresolved, by rw [hname, hkey], hpermissions⟩
  · intro events e token now operation authorization hact hregular hasked hbearer
    rw [authenticate_of_bearer hasked hbearer]
    refine resolve_eq_error fun context hresolved => ?_
    obtain ⟨l, a, hl, htoken, -⟩ := (hresolves _ now token context hregular).1 hresolved
    rcases inForce_snoc.1 hl with hgranted | ⟨-, hkept⟩
    · rw [granted, hact] at hgranted
      cases hgranted
    · exact hkept (by rw [hact, htoken])

/-- A run is regular at any moment by which none of its events is as long ago as tokens last, if the digest tells all
tokens apart. -/
theorem regular_of_injective {api : Api} (hdigest : Function.Injective api.authority.digest) {events : List Event}
    {now : Int64} (hcounted : ∀ e ∈ events, 0 ≤ e.time)
    (hordered : (events.map Event.time ++ [now]).Pairwise (· ≤ ·))
    (hspan : ∀ e ∈ events, now < timeAfter e.time api.authority.lifespan) (token : String) :
    api.Regular events now token where
  counted := hcounted
  ordered := hordered
  unexpired l hl := by
    obtain ⟨e, he, id, hissued⟩ := hl.issued
    have hexpires : timeAfter e.time api.authority.lifespan = l.expiresAt := congrArg IssuedToken.expiresAt hissued
    rw [← hexpires]
    exact hspan e he
  distinguished s t _ _ h := hdigest h

/-- A scheme whose signatures repeat the key and the message. -/
def echoing : SignatureScheme := ⟨id, fun seed message => seed ++ message, fun key message s => s == key ++ message⟩

/-- A repository on which ann's account was made. -/
def annRepository : Repository := Repository.fresh.performed (.newAccount "ann" [] .none)

def annService : Api := ⟨annRepository, .empty, ⟨⟨echoing, [7], "issuer"⟩, id, 3600, by decide⟩⟩

def annAccount : Account := ⟨"ann", [], "hashed::pw", none, none, 0, true, none, false⟩

def annLogin : Login := Session.loginFor annRepository.cache annAccount (annService.authority.issued 5 "id" "ann")

def annEnters : Event := ⟨⟨5, .marking⟩, "id", .login "ann" "pw"⟩

def annLeaves : Event := ⟨⟨6, .marking⟩, "", .logout annLogin.token⟩

/-- Ann is admitted after her login, and no more after her logout. -/
theorem ann_enters_and_leaves :
    ∃ api, Api.assemble annRepository ⟨echoing, [7], "issuer"⟩ id 3600 = .ok api ∧
      api.granted annEnters = some annLogin ∧
      (∃ context, (api.after [annEnters]).authenticate 6 "list" (some ("bearer" ++ " " ++ annLogin.token)) =
        .ok context ∧ context.username = some "ann") ∧
      (api.after [annEnters, annLeaves]).authenticate 7 "list" (some ("bearer" ++ " " ++ annLogin.token)) =
        .error .noValidToken := by
  have hempty : Directory.empty.Named := fun key a hget => by cases hget
  obtain ⟨hcache, hstored⟩ := Site.performed_keeps Repository.fresh (.newAccount "ann" [] .none) Directory.named_kept
    hempty ⟨.empty, rfl, hempty⟩
  have haccepts : Signer.AcceptsOwn ⟨echoing, [7], "issuer"⟩ := fun message => beq_self_eq_true _
  have hpos : (0 : Int64) < 3600 := by decide
  obtain ⟨api, hassembled, hkeeps⟩ := assembled_keeps_sessions hcache hstored haccepts id hpos
  obtain rfl : annService = api := Except.ok.inj hassembled
  have hverified : annService.repository.cache.verifyCredentials .marking "ann" "pw" = .ok annAccount := by rfl
  have hgranted : annService.granted annEnters = some annLogin := granted_of_verified rfl hverified
  have hentered : annService.Regular [annEnters] 6 annLogin.token :=
    regular_of_injective Function.injective_id (by decide) (by decide) (by decide) _
  have hleft : annService.Regular [annEnters, annLeaves] 7 annLogin.token :=
    regular_of_injective Function.injective_id (by decide) (by decide) (by decide) _
  refine ⟨annService, hassembled, hgranted, ?_, ?_⟩
  · obtain ⟨-, context, hadmitted, hname, -⟩ := hkeeps.opened [] annEnters "ann" "pw" annLogin 6 "list" "bearer" rfl
      hgranted hentered (by decide) rfl
    exact ⟨context, hadmitted, hname⟩
  · refine hkeeps.closed [annEnters] annLeaves annLogin.token 7 "list" _ rfl hleft (by decide) ?_
    have hissues : annService.authority.Issues 5 annLogin := ⟨"id", rfl⟩
    exact hissues.extractBearer rfl

end AccessControl.Api
