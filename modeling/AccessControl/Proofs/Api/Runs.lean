import AccessControl.Api
import AccessControl.Proofs.Directory.Credentials
import AccessControl.Proofs.Token.History

/-!
Runs of the assembled service: logins, logouts, checks of tokens and writes in any order, at the times that the clock
shows. Whatever a call does to the service is one of these events (`answer_snd`). What one event does to the active
tokens is said once (`step_cases`); which logins are in force after a run is said without the registry, by the events
alone (`InForce`).
-/

namespace AccessControl.Api

/-! ### Runs -/

/-- What is done to sessions and to the directory behind them. Each write has its own faults of the store. -/
inductive Act
  | login (username password : String)
  | logout (token : String)
  | check (token : String)
  | write (f : Faults) (command : Command)

/-- An act with what it finds around it. `id` becomes the id of a token that is issued. -/
structure Event where
  circumstances : Circumstances
  id : String
  act : Act

def Event.time (e : Event) : Int64 := e.circumstances.now

def serviceAt (api : Api) (e : Event) : TokenService Registry := api.authority.service e.time e.id

def logIn (api : Api) (e : Event) (username password : String) : Except AccessError Login × Registry :=
  Session.login (api.serviceAt e) e.circumstances.hasher api.repository.cache username password api.registry

/-- What a login gives, if it succeeds. -/
def granted (api : Api) (e : Event) : Option Login :=
  match e.act with
  | .login username password => (api.logIn e username password).1.toOption
  | _ => none

def step (api : Api) (e : Event) : Api :=
  match e.act with
  | .login username password => { api with registry := (api.logIn e username password).2 }
  | .logout token => { api with registry := (Session.logout (api.serviceAt e) token api.registry).2 }
  | .check token =>
    { api with registry := (Session.check (api.serviceAt e) api.repository.cache token api.registry).2 }
  | .write f command => { api with repository := api.repository.performed ⟨e.circumstances, f, command⟩ }

def after (api : Api) (events : List Event) : Api := events.foldl step api

/-- The act that a call comes to, if it does anything to the service. -/
def actOf (store : Store) : Call → Option Act
  | .login username password => some (.login username password)
  | .logout authorization => (extractBearer authorization).toOption.map .logout
  | .check token => some (.check token)
  | .change command => some (.write ⟨store.putFault, store.getFault⟩ command)
  | _ => none

/-- Answering a call does no more to the service than its act does. -/
theorem answer_snd (c : Circumstances) (id : String) (api : Api) (call : Call) :
    (api.answer c id call).2 =
      match actOf api.repository.store call with
      | some act => api.step ⟨c, id, act⟩
      | none => api := by
  cases call with
  | logout authorization =>
      simp only [answer, actOf]
      cases extractBearer authorization with
      | error e => rfl
      | ok token => rfl
  | _ => rfl

/-! ### Logins in force -/

def Granted (api : Api) (events : List Event) (l : Login) : Prop :=
  ∃ before e later, events = before ++ e :: later ∧ (api.after before).granted e = some l

/-- The login was granted, and since then its token was not passed to a logout. -/
def InForce (api : Api) (events : List Event) (l : Login) : Prop :=
  ∃ before e later, events = before ++ e :: later ∧ (api.after before).granted e = some l ∧
    ∀ e' ∈ later, e'.act ≠ .logout l.token

/-- The token was given to a login or passed to a logout. -/
def Concerns (api : Api) (events : List Event) (token : String) : Prop :=
  (∃ l, api.Granted events l ∧ l.token = token) ∨ ∃ e ∈ events, e.act = .logout token

/-- What a run and a moment after it are taken to be like: the clock, which counts from 1970, never goes back; no
token that was given to a login has expired; and the digest tells the tokens of the run, and the one that is asked
for, apart. -/
structure Regular (api : Api) (events : List Event) (now : Int64) (token : String) : Prop where
  counted : ∀ e ∈ events, 0 ≤ e.time
  ordered : (events.map Event.time ++ [now]).Pairwise (· ≤ ·)
  unexpired : ∀ l, api.Granted events l → now < l.expiresAt
  distinguished : ∀ s t, (s = token ∨ api.Concerns events s) → (t = token ∨ api.Concerns events t) →
    api.authority.digest s = api.authority.digest t → s = t

section

variable {api : Api} {events : List Event} {e : Event} {l : Login} {now : Int64} {token : String}

theorem after_snoc (api : Api) (events : List Event) (e : Event) :
    api.after (events ++ [e]) = (api.after events).step e := by
  rw [after, List.foldl_append]
  rfl

theorem granted_snoc :
    api.Granted (events ++ [e]) l ↔ api.Granted events l ∨ (api.after events).granted e = some l :=
  exists_split_snoc.trans or_comm

theorem inForce_snoc :
    api.InForce (events ++ [e]) l ↔
      (api.after events).granted e = some l ∨ (api.InForce events l ∧ e.act ≠ .logout l.token) := by
  refine exists_split_snoc.trans (or_congr (and_iff_left (List.forall_mem_nil _)) ?_)
  simp only [InForce, List.forall_mem_append, List.forall_mem_singleton, ← and_assoc, exists_and_right]

theorem InForce.granted (h : api.InForce events l) : api.Granted events l := by
  obtain ⟨before, e, later, hevents, hgranted, -⟩ := h
  exact ⟨before, e, later, hevents, hgranted⟩

theorem Granted.concerns (h : api.Granted events l) : api.Concerns events l.token := Or.inl ⟨l, h, rfl⟩

theorem Concerns.snoc (h : api.Concerns events token) (e : Event) :
    api.Concerns (events ++ [e]) token := by
  rcases h with ⟨l, hl, htoken⟩ | ⟨e', he', hact⟩
  · exact Or.inl ⟨l, granted_snoc.2 (Or.inl hl), htoken⟩
  · exact Or.inr ⟨e', List.mem_append_left _ he', hact⟩

/-! ### Regular runs -/

theorem Regular.time_le (h : api.Regular events now token) (he : e ∈ events) : e.time ≤ now :=
  (List.pairwise_append.1 h.ordered).2.2 _ (List.mem_map_of_mem he) _ List.mem_cons_self

theorem Regular.init (h : api.Regular (events ++ [e]) now token) : api.Regular events now token where
  counted e' he' := h.counted e' (List.mem_append_left _ he')
  ordered := by
    refine h.ordered.sublist (List.Sublist.append_right ?_ [now])
    rw [List.map_append]
    exact List.sublist_append_left _ _
  unexpired l hl := h.unexpired l (granted_snoc.2 (Or.inl hl))
  distinguished s t hs ht :=
    h.distinguished s t (hs.imp_right fun hs => hs.snoc e) (ht.imp_right fun ht => ht.snoc e)

/-! ### One event -/

theorem step_authority (api : Api) (e : Event) : (api.step e).authority = api.authority := by
  unfold step
  split <;> rfl

section

variable {username password : String}

theorem granted_of_verified {a : Account} (hact : e.act = .login username password)
    (hverified : api.repository.cache.verifyCredentials e.circumstances.hasher username password = .ok a) :
    api.granted e =
      some (Session.loginFor api.repository.cache a (api.authority.issued e.time e.id a.username)) := by
  rw [granted, hact]
  simp only [logIn, serviceAt, TokenAuthority.login_of_verified hverified]
  rfl

theorem granted_of_refused {error : AccessError} (hact : e.act = .login username password)
    (hrefused : api.repository.cache.verifyCredentials e.circumstances.hasher username password = .error error) :
    api.granted e = none := by
  rw [granted, hact]
  simp only [logIn, Session.login_of_refused hrefused]
  rfl

theorem step_of_refused {error : AccessError} (hact : e.act = .login username password)
    (hrefused : api.repository.cache.verifyCredentials e.circumstances.hasher username password = .error error) :
    api.step e = api := by
  rw [step, hact]
  simp only [logIn, Session.login_of_refused hrefused]

end

/-- What an event can do to the registry: a login that is granted adds its token, a logout removes its token, a check
looks a token up, and nothing else touches it. -/
theorem step_cases (api : Api) (e : Event) :
    (∃ l, api.granted e = some l ∧ (∀ t, e.act ≠ .logout t) ∧ api.authority.Issues e.time l ∧
      (api.step e).registry =
        api.registry.add e.time (api.authority.digest l.token) ⟨l.username, l.expiresAt⟩) ∨
    (∃ token, api.granted e = none ∧ e.act = .logout token ∧
      (api.step e).registry = api.registry.remove (api.authority.digest token)) ∨
    (∃ token, api.granted e = none ∧ (∀ t, e.act ≠ .logout t) ∧
      (api.step e).registry = (api.registry.introspect e.time (api.authority.digest token)).2) ∨
    (api.granted e = none ∧ (∀ t, e.act ≠ .logout t) ∧ (api.step e).registry = api.registry) := by
  obtain ⟨c, id, act⟩ := e
  cases act with
  | login username password =>
      cases hverified : api.repository.cache.verifyCredentials c.hasher username password with
      | error error =>
          have hsame := step_of_refused (e := ⟨c, id, .login username password⟩) rfl hverified
          exact Or.inr (Or.inr (Or.inr ⟨granted_of_refused rfl hverified, nofun, by rw [hsame]⟩))
      | ok a =>
          refine Or.inl ⟨_, granted_of_verified rfl hverified, nofun, ⟨id, rfl⟩, ?_⟩
          simp only [step, logIn, serviceAt, TokenAuthority.login_of_verified hverified]
          rfl
  | logout token => exact Or.inr (Or.inl ⟨token, rfl, rfl, rfl⟩)
  | check token =>
      refine Or.inr (Or.inr (Or.inl ⟨token, rfl, nofun, ?_⟩))
      exact Session.check_snd (api.authority.service c.now id) api.repository.cache token api.registry
  | write f command => exact Or.inr (Or.inr (Or.inr ⟨rfl, nofun, rfl⟩))

theorem after_authority (api : Api) (events : List Event) : (api.after events).authority = api.authority := by
  induction events using List.reverseRecOn with
  | nil => rfl
  | append_singleton events e ih => rw [after_snoc, step_authority, ih]

theorem step_keeps {P : Directory → Prop} (hP : Directory.Kept P) (hcache : P api.repository.cache)
    (hstored : api.repository.store.Describes P) (e : Event) :
    P (api.step e).repository.cache ∧ (api.step e).repository.store.Describes P := by
  unfold step
  split
  · exact ⟨hcache, hstored⟩
  · exact ⟨hcache, hstored⟩
  · exact ⟨hcache, hstored⟩
  · exact Site.performed_keeps api.repository _ hP hcache hstored

theorem after_keeps {P : Directory → Prop} (hP : Directory.Kept P) (hcache : P api.repository.cache)
    (hstored : api.repository.store.Describes P) (events : List Event) :
    P (api.after events).repository.cache ∧ (api.after events).repository.store.Describes P := by
  induction events using List.reverseRecOn with
  | nil => exact ⟨hcache, hstored⟩
  | append_singleton events e ih =>
      rw [after_snoc]
      exact step_keeps hP ih.1 ih.2 e

theorem issues_of_granted (h : api.granted e = some l) : api.authority.Issues e.time l := by
  rcases step_cases api e with ⟨l', hgranted, -, hissues, -⟩ | ⟨token, hnone, -⟩ | ⟨token, hnone, -⟩ | ⟨hnone, -⟩
  · rw [hgranted] at h
    cases h
    exact hissues
  all_goals
    rw [hnone] at h
    cases h

theorem Granted.issued (h : api.Granted events l) : ∃ e ∈ events, api.authority.Issues e.time l := by
  obtain ⟨before, e, later, rfl, hgranted⟩ := h
  have hissues := issues_of_granted hgranted
  rw [after_authority] at hissues
  exact ⟨e, List.mem_append_right _ List.mem_cons_self, hissues⟩

/-- A token that is given to two logins is given for one account and until one time. -/
theorem Granted.eq_of_token {l' : Login} (h : api.Granted events l) (h' : api.Granted events l')
    (htoken : l.token = l'.token) : l.username = l'.username ∧ l.expiresAt = l'.expiresAt := by
  obtain ⟨e, -, hissues⟩ := h.issued
  obtain ⟨e', -, hissues'⟩ := h'.issued
  exact hissues.eq_of_token hissues' htoken

end

end AccessControl.Api
