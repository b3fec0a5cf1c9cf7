import AccessControl.Proofs.Api.Entry
import AccessControl.Proofs.Repository.Redaction

/-!
Password hashes stay inside. What a service answers, save to logins and password changes, and what becomes of it, is
the same on the service and on what redaction leaves of it (`handle_redacted`). So two services that differ in nothing
but password hashes answer every sequence of other requests alike, and then still differ in nothing else
(`visits_alike`).
-/

namespace AccessControl

/-! ### The gate -/

namespace Gate

variable {σ : Type}

theorem contextOf_redacted (d : Directory) (subject : String) (verified : Except AccessError VerifiedClaims) :
    contextOf d.redacted subject verified = contextOf d subject verified := by
  have hget : d.redacted.users.get? subject = (d.users.get? subject).map Account.redacted := Table.get?_map ..
  simp only [contextOf, hget, Directory.redacted_effectivePermissions]
  cases verified with
  | error e => rfl
  | ok claims =>
      cases d.users.get? subject with
      | none => rfl
      | some a => rfl

theorem resolve_redacted (service : TokenService σ) (d : Directory) (token : String) (s : σ) :
    resolve service d.redacted token s = resolve service d token s := by
  simp only [resolve, contextOf_redacted]

theorem authenticate_redacted (g : Gate) (service : TokenService σ) (d : Directory) (operation : String)
    (authorization : Option String) (s : σ) :
    g.authenticate service d.redacted operation authorization s =
      g.authenticate service d operation authorization s := by
  simp only [authenticate, resolve_redacted]

end Gate

theorem Session.check_redacted {σ : Type} (service : TokenService σ) (d : Directory) (token : String) (s : σ) :
    check service d.redacted token s = check service d token s := by
  simp only [check, Gate.resolve_redacted]

/-! ### Calls -/

/-- The call compares a password with a stored hash. -/
def Call.ChecksSecret : Call → Prop
  | login _ _ => True
  | change command => command.ChecksSecret
  | _ => False

/-- Where passwords are compared with stored hashes. -/
def Resource.checksSecret : Resource → Bool
  | login | accountPassword _ => true
  | _ => false

theorem Resource.Reads.checksSecret {r : Request} {resource : Resource} {call : Call} (h : resource.Reads r call)
    (hchecks : call.ChecksSecret) : resource.checksSecret = true := by
  cases h with
  | login username password verb body => rfl
  | changePassword segment username current new verb named body => rfl
  | _ => cases hchecks

theorem Response.ofAnswer_redacted (command : Command) (answer : Answer) :
    ofAnswer command answer.redacted = ofAnswer command answer := by
  cases answer with
  | done => rfl
  | account a => rfl
  | role r => rfl

namespace Api

def redacted (api : Api) : Api := { api with repository := api.repository.redacted }

theorem ofResult_map {α β : Type} (f : β → Response) (g : α → β) (x : Except AccessError α) :
    ofResult f (g <$> x) = ofResult (fun a => f (g a)) x := by
  cases x with
  | ok a => rfl
  | error e => rfl

theorem receive_redacted (now : Int64) (api : Api) (r : Request) : api.redacted.receive now r = api.receive now r := by
  simp only [receive, contextOf, redacted, Repository.redacted, Gate.authenticate_redacted]

/-- Answering a call that compares no password is the same on a redacted service, up to the hashes in what becomes of
the service. -/
theorem answer_redacted (c : Circumstances) (tokenId : String) (api : Api) {call : Call} (h : ¬ call.ChecksSecret) :
    api.redacted.answer c.redacted tokenId call = Prod.map id redacted (api.answer c tokenId call) := by
  cases call with
  | health => rfl
  | login username password => exact absurd trivial h
  | logout authorization =>
      simp only [answer]
      cases extractBearer authorization with
      | error e => rfl
      | ok token => rfl
  | check token =>
      simp only [answer, redacted, Repository.redacted, Session.check_redacted]
      rfl
  | listAccounts =>
      simp only [answer, redacted, Repository.redacted, Directory.redacted_accounts, List.map_map]
      rfl
  | getAccount username =>
      simp only [answer, redacted, Repository.redacted, Directory.redacted_getAccount, ofResult_map]
      rfl
  | listRoles => rfl
  | getRole name => rfl
  | change command =>
      have hrun := Repository.run_redacted c api.repository h
      simp only [answer, redacted, hrun, Prod.map, ofResult_map, Response.ofAnswer_redacted]
      rfl

/-- The path of the request does not lead to where passwords are compared with stored hashes. -/
def Spares (r : Request) : Prop := (Resource.ofPath? r.path).any Resource.checksSecret = false

instance (r : Request) : Decidable (Spares r) := inferInstanceAs (Decidable (_ = _))

theorem spares_receive {now : Int64} {api : Api} {r : Request} (h : Spares r) {call : Call}
    (hcall : (api.receive now r).1 = .ok call) : ¬ call.ChecksSecret := by
  have hreception := reception now api r
  rw [hcall] at hreception
  cases hreception with
  | received resource context call path caller reads permitted =>
      intro hchecks
      rw [Spares, path] at h
      have hresource : resource.checksSecret = false := h
      rw [reads.checksSecret hchecks] at hresource
      cases hresource

theorem handle_redacted (c : Circumstances) (tokenId : String) (api : Api) {r : Request} (h : Spares r) :
    api.redacted.handle c.redacted tokenId r = Prod.map id redacted (api.handle c tokenId r) := by
  have hcall : ∀ call, (api.receive c.now r).1 = .ok call → ¬ call.ChecksSecret := fun call => spares_receive h
  have hreceived : api.redacted.receive c.redacted.now r = api.receive c.now r := receive_redacted c.now api r
  unfold handle
  rw [hreceived]
  generalize api.receive c.now r = received at *
  obtain ⟨result, registry⟩ := received
  cases result with
  | error response => rfl
  | ok call =>
      have hanswer := answer_redacted c tokenId { api with registry } (hcall call rfl)
      have hsame : ({ api.redacted with registry } : Api) = redacted { api with registry } := rfl
      dsimp only
      rw [hsame, hanswer]
      rfl

/-! ### Sequences of requests -/

/-- A request with what it finds around it: the time and the hasher, how the store fails meanwhile, and the id for a
token that is issued. -/
structure Visit where
  circumstances : Circumstances
  faults : Faults
  tokenId : String
  request : Request

/-- The visit without the hashes that would be made for it. -/
def Visit.redacted (v : Visit) : Visit := { v with circumstances := v.circumstances.redacted }

def under (api : Api) (f : Faults) : Api :=
  { api with repository := ⟨api.repository.store.under f, api.repository.cache⟩ }

def visit (api : Api) (v : Visit) : Response × Api :=
  (api.under v.faults).handle v.circumstances v.tokenId v.request

/-- The responses to the visits, one after the other, and the service after them. -/
def visits (api : Api) : List Visit → List Response × Api
  | [] => ([], api)
  | v :: rest =>
    let (response, next) := api.visit v
    let (responses, last) := next.visits rest
    (response :: responses, last)

theorem visit_redacted (api : Api) {v : Visit} (h : Spares v.request) :
    api.redacted.visit v.redacted = Prod.map id redacted (api.visit v) :=
  handle_redacted v.circumstances v.tokenId (api.under v.faults) h

theorem visits_redacted (api : Api) {vs : List Visit} (h : ∀ v ∈ vs, Spares v.request) :
    api.redacted.visits (vs.map Visit.redacted) = Prod.map id redacted (api.visits vs) := by
  induction vs generalizing api with
  | nil => rfl
  | cons v rest ih =>
      rw [List.forall_mem_cons] at h
      rw [List.map_cons, visits, visits, visit_redacted api h.1]
      dsimp only [Prod.map]
      rw [ih _ h.2]
      rfl

/-- Two services that differ in nothing but password hashes, visited by the same requests at the same times while
their stores fail alike and their hashers make hashes of the same secrets, whatever the hashes, answer each request
alike, if none leads to logins or password changes; and then too they differ in nothing but password hashes. -/
theorem visits_alike {api api' : Api} (hsame : api.redacted = api'.redacted) {vs vs' : List Visit}
    (hvisits : vs.map Visit.redacted = vs'.map Visit.redacted) (hspared : ∀ v ∈ vs, Spares v.request) :
    (api.visits vs).1 = (api'.visits vs').1 ∧ (api.visits vs).2.redacted = (api'.visits vs').2.redacted := by
  have hspared' : ∀ v ∈ vs', Spares v.request := by
    have hredacted : ∀ w ∈ vs.map Visit.redacted, Spares w.request := List.forall_mem_map.2 hspared
    rw [hvisits] at hredacted
    exact fun v hv => hredacted v.redacted (List.mem_map_of_mem hv)
  have hruns : Prod.map id redacted (api.visits vs) = Prod.map id redacted (api'.visits vs') := by
    rw [← visits_redacted api hspared, ← visits_redacted api' hspared', hsame, hvisits]
  exact ⟨(Prod.mk.inj hruns).1, (Prod.mk.inj hruns).2⟩

/-- A hasher whose hashes are the secrets behind a salt. -/
def salted (salt : String) : Hasher :=
  ⟨fun secret => .ok (salt ++ secret), fun secret hash => .ok (salt ++ secret == hash)⟩

def makeAnn : Command := .createAccount ⟨"ann", some "pw", none, none, true, ["administrator"], none, false⟩

/-- The service on which ann was made an administrator, with a hash that was made with a salt. -/
def saltedService (salt : String) : Api :=
  { annService with repository := (Repository.fresh.run ⟨0, salted salt⟩ makeAnn).2 }

def saltedAnn (salt : String) : Account := { annAccount with roles := ["administrator"], passwordHash := salt ++ "pw" }

def saltedLogin (salt : String) : Event := ⟨⟨5, salted salt⟩, "id", .login "ann" "pw"⟩

def annAsks (method target body : String) : Request :=
  ⟨method, target, some ("Bearer" ++ " " ++ annLogin.token), some "application/json", body.toUTF8⟩

def annLooks (salt : String) : Visit := ⟨⟨6, salted salt⟩, .none, "", annAsks "GET" "/api/users/ann" ""⟩

/-- Ann looks at her account, renames herself while the store takes nothing, and sets up another account. -/
def annVisits (salt : String) : List Visit :=
  [annLooks salt,
   ⟨⟨7, salted salt⟩, .readOnly, "", annAsks "PUT" "/api/users/ann" "\x7b\"name\":\"Ann\"\x7d"⟩,
   ⟨⟨8, salted salt⟩, .none, "", annAsks "POST" "/api/users" "\x7b\"username\":\"bo\",\"password\":\"pw\"\x7d"⟩]

theorem salted_verified (salt : String) :
    (saltedService salt).repository.cache.verifyCredentials (salted salt) "ann" "pw" = .ok (saltedAnn salt) :=
  Directory.verifyCredentials_eq_ok.2 ⟨rfl, rfl, congrArg Except.ok (beq_self_eq_true _)⟩

/-- Ann is let in after her login, and is shown her account. -/
theorem ann_is_shown :
    (((saltedService "a").step (saltedLogin "a")).visit (annLooks "a")).1 = ok (saltedAnn "a").shown := by
  have hnamed : (saltedService "a").repository.cache.Named := Directory.named_empty.putAccount (a := saltedAnn "a") rfl
  have hgranted := granted_of_verified (e := saltedLogin "a") rfl (salted_verified "a")
  have hheld : 6 < annLogin.expiresAt := by decide
  obtain ⟨context, hbears, -, hpermissions⟩ := bears_of_granted (r := annAsks "GET" "/api/users/ann" "")
    (fun message => beq_self_eq_true _) hnamed rfl hgranted (by decide) (by decide) hheld rfl
  have hpermitted : (Call.getAccount "ann").permit context = .ok () := by
    refine Context.require_of_allows ?_
    rw [hpermissions]
    decide
  have hpath : Resource.ofPath? (annAsks "GET" "/api/users/ann" "").path = some (.account "ann") := by decide
  obtain ⟨registry, hhandle⟩ := handle_of_bears ⟨6, salted "a"⟩ "" hpath rfl hbears rfl rfl hpermitted (by decide)
  exact congrArg Prod.fst hhandle

theorem ann_visits_alike :
    let api salt := (saltedService salt).step (saltedLogin salt)
    (api "a").repository.cache ≠ (api "b").repository.cache ∧
      ((api "a").visit (annLooks "a")).1 = ok (saltedAnn "a").shown ∧
      ((api "a").visits (annVisits "a")).1 = ((api "b").visits (annVisits "b")).1 ∧
      ((api "a").visits (annVisits "a")).2.redacted = ((api "b").visits (annVisits "b")).2.redacted := by
  have hmade : ∀ salt, (Repository.fresh.redacted.run (Circumstances.redacted ⟨0, salted salt⟩) makeAnn).2 =
      (saltedService salt).repository.redacted := by
    intro salt
    rw [Repository.run_redacted _ _ (id : ¬ makeAnn.ChecksSecret)]
    rfl
  have hsame : ∀ salt, ((saltedService salt).step (saltedLogin salt)).redacted =
      { annService with
        repository := (saltedService salt).repository.redacted
        registry := (annService.authority.issue 5 "id" "ann" .empty).2 } := by
    intro salt
    simp only [step, saltedLogin, logIn, serviceAt, TokenAuthority.login_of_verified (salted_verified salt)]
    rfl
  refine ⟨by decide, ann_is_shown, visits_alike ?_ rfl (by decide)⟩
  rw [hsame "a", hsame "b", ← hmade "a", ← hmade "b"]
  rfl

end Api

end AccessControl
