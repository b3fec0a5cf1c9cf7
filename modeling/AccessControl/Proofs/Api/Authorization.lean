import AccessControl.Api
import AccessControl.Proofs.Gate.Admission
import AccessControl.Proofs.Token.Registry

/-!
Who is served. Besides health, logins whose credentials verify and token checks, a request is served only to the
bearer of a token that resolves, and then only if its context holds what the table demands for the operation
(`Resource.demands`), logs itself out, or changes its own password. Any other request is turned away, and nothing
that a later request could see has changed.
-/

namespace AccessControl

open Json

/-! ### What contexts allow -/

theorem Context.allows_of_require {context : Context} {s : Scope} {permissions : List Permission} {u : Unit}
    (h : context.require s permissions = .ok u) : ∀ p ∈ permissions, context.permissions.allows s p = true := by
  unfold require at h
  split at h
  · rename_i held hget
    split at h
    · rename_i hall
      intro p hp
      rw [Grants.allows, hget]
      exact List.all_eq_true.1 hall p hp
    · cases h
  · cases h

theorem Context.require_of_allows {context : Context} {s : Scope} {p : Permission}
    (h : context.permissions.allows s p = true) : context.require s [p] = .ok () := by
  rw [Grants.allows] at h
  rw [require]
  cases hget : context.permissions.get? s with
  | none =>
      rw [hget] at h
      cases h
  | some held =>
      rw [hget] at h
      have hheld : held.holds p = true := h
      simp only [List.all_cons, List.all_nil, hheld, Bool.and_true, if_true]

theorem Context.username_of_requireSelf {context : Context} {username : String} {u : Unit}
    (h : context.requireSelf username = .ok u) : context.username = some username := by
  unfold requireSelf at h
  split at h
  · assumption
  · cases h

namespace Resource

/-- What the bearer of a token must hold in the scope of users, by resource and verb; `none` where something else
decides. -/
def demands (verb : String) : Resource → Option (List Permission)
  | accounts | roles =>
    match verb with
    | "GET" => some [.read]
    | "POST" => some [.create]
    | _ => none
  | account _ | role _ =>
    match verb with
    | "GET" => some [.read]
    | "PUT" => some [.update]
    | "DELETE" => some [.delete]
    | _ => none
  | clones _ =>
    match verb with
    | "POST" => some [.read, .create]
    | _ => none
  | _ => none

/-- Resources that are reached without a token. -/
def isOpen : Resource → Bool
  | health | login | check => true
  | _ => false

/-- No path that leads to a resource is itself one of the names the gate lets through. -/
theorem operation_not_bypassed {path : List Char} {resource : Resource} (hpath : ofPath? path = some resource)
    (hclosed : resource.isOpen = false) : resource.operation path ∉ Gate.standard.bypass := by
  have hname : ∀ name ∈ Gate.standard.bypass, ofPath? name.toList = none := by decide
  have hother : String.ofList path ∉ Gate.standard.bypass := by
    intro hmem
    have hnone := hname _ hmem
    rw [String.toList_ofList, hpath] at hnone
    cases hnone
  cases resource with
  | health => cases hclosed
  | login => cases hclosed
  | check => cases hclosed
  | logout =>
      show "logout" ∉ Gate.standard.bypass
      decide
  | accounts => exact hother
  | account segment => exact hother
  | accountPassword segment => exact hother
  | roles => exact hother
  | role segment => exact hother
  | clones segment => exact hother

/-- The operations of the service: which call a request reads as on a resource. -/
inductive Reads (r : Request) : Resource → Call → Prop
  | health (verb : r.verb = "GET") : Reads r .health .health
  | login (username password : String) (verb : r.verb = "POST")
      (body : r.payload (readTextPair "username" "password") = .ok (username, password)) :
      Reads r .login (.login username password)
  | logout (verb : r.verb = "POST") : Reads r .logout (.logout r.credentials)
  | check (token : String) (verb : r.verb = "POST") (body : r.payload (readSingleText "token") = .ok token) :
      Reads r .check (.check token)
  | listAccounts (verb : r.verb = "GET") : Reads r .accounts .listAccounts
  | createAccount (input : AccountInput) (verb : r.verb = "POST")
      (body : r.payload AccountInput.readNew = .ok input) : Reads r .accounts (.change (.createAccount input))
  | getAccount (segment username : String) (verb : r.verb = "GET") (named : readSegment segment = .ok username) :
      Reads r (.account segment) (.getAccount username)
  | updateAccount (segment username : String) (input : AccountInput) (verb : r.verb = "PUT")
      (named : readSegment segment = .ok username)
      (body : r.payload (AccountInput.readReplacement username) = .ok input) :
      Reads r (.account segment) (.change (.updateAccount input))
  | deleteAccount (segment username : String) (verb : r.verb = "DELETE")
      (named : readSegment segment = .ok username) : Reads r (.account segment) (.change (.deleteAccount username))
  | changePassword (segment username current new : String) (verb : r.verb = "PUT")
      (named : readSegment segment = .ok username)
      (body : r.payload (readTextPair "old_password" "new_password") = .ok (current, new)) :
      Reads r (.accountPassword segment) (.change (.changePassword username current new))
  | listRoles (verb : r.verb = "GET") : Reads r .roles .listRoles
  | createRole (input : RoleInput) (verb : r.verb = "POST") (body : r.payload RoleInput.readJson = .ok input) :
      Reads r .roles (.change (.createRole input))
  | getRole (segment name : String) (verb : r.verb = "GET") (named : readSegment segment = .ok name) :
      Reads r (.role segment) (.getRole name)
  | updateRole (segment name : String) (input : RoleInput) (verb : r.verb = "PUT")
      (named : readSegment segment = .ok name) (body : r.payload RoleInput.readJson = .ok input) :
      Reads r (.role segment) (.change (.updateRole { input with name }))
  | deleteRole (segment name : String) (verb : r.verb = "DELETE") (named : readSegment segment = .ok name) :
      Reads r (.role segment) (.change (.deleteRole name))
  | cloneRole (segment source name : String) (verb : r.verb = "POST") (named : readSegment segment = .ok source)
      (body : r.payload (readSingleText "new_name") = .ok name) :
      Reads r (.clones segment) (.change (.cloneRole source name))

theorem reads_of_reader {r : Request} {resource : Resource} {call : Call} {read : Request → Except Rejection Call}
    (hread : resource.reader? r.verb = some read) (hcall : read r = .ok call) : Reads r resource call := by
  cases resource with
  | health =>
      dsimp only [reader?] at hread
      split at hread <;> cases hread
      rename_i verb
      cases hcall
      exact Reads.health verb
  | login =>
      dsimp only [reader?] at hread
      split at hread <;> cases hread
      rename_i verb
      obtain ⟨⟨username, password⟩, body, hcall⟩ := bind_eq_ok.1 hcall
      cases hcall
      exact Reads.login username password verb body
  | logout =>
      dsimp only [reader?] at hread
      split at hread <;> cases hread
      rename_i verb
      cases hcall
      exact Reads.logout verb
  | check =>
      dsimp only [reader?] at hread
      split at hread <;> cases hread
      rename_i verb
      obtain ⟨token, body, hcall⟩ := bind_eq_ok.1 hcall
      cases hcall
      exact Reads.check token verb body
  | accounts =>
      dsimp only [reader?] at hread
      split at hread <;> cases hread <;> rename_i verb
      · cases hcall
        exact Reads.listAccounts verb
      · obtain ⟨input, body, hcall⟩ := bind_eq_ok.1 hcall
        cases hcall
        exact Reads.createAccount input verb body
  | account segment =>
      dsimp only [reader?] at hread
      split at hread <;> cases hread <;> rename_i verb <;> obtain ⟨username, named, hcall⟩ := bind_eq_ok.1 hcall
      · cases hcall
        exact Reads.getAccount segment username verb named
      · obtain ⟨input, body, hcall⟩ := bind_eq_ok.1 hcall
        cases hcall
        exact Reads.updateAccount segment username input verb named body
      · cases hcall
        exact Reads.deleteAccount segment username verb named
  | accountPassword segment =>
      dsimp only [reader?] at hread
      split at hread <;> cases hread
      rename_i verb
      obtain ⟨username, named, hcall⟩ := bind_eq_ok.1 hcall
      obtain ⟨⟨current, new⟩, body, hcall⟩ := bind_eq_ok.1 hcall
      cases hcall
      exact Reads.changePassword segment username current new verb named body
  | roles =>
      dsimp only [reader?] at hread
      split at hread <;> cases hread <;> rename_i verb
      · cases hcall
        exact Reads.listRoles verb
      · obtain ⟨input, body, hcall⟩ := bind_eq_ok.1 hcall
        cases hcall
        exact Reads.createRole input verb body
  | role segment =>
      dsimp only [reader?] at hread
      split at hread <;> cases hread <;> rename_i verb <;> obtain ⟨name, named, hcall⟩ := bind_eq_ok.1 hcall
      · cases hcall
        exact Reads.getRole segment name verb named
      · obtain ⟨input, body, hcall⟩ := bind_eq_ok.1 hcall
        cases hcall
        exact Reads.updateRole segment name input verb named body
      · cases hcall
        exact Reads.deleteRole segment name verb named
  | clones segment =>
      dsimp only [reader?] at hread
      split at hread <;> cases hread
      rename_i verb
      obtain ⟨source, named, hcall⟩ := bind_eq_ok.1 hcall
      obtain ⟨name, body, hcall⟩ := bind_eq_ok.1 hcall
      cases hcall
      exact Reads.cloneRole segment source name verb named body

end Resource

/-! ### Responses -/

namespace Response

def Succeeds (r : Response) : Prop := 200 ≤ r.status ∧ r.status < 300

instance (r : Response) : Decidable r.Succeeds := inferInstanceAs (Decidable (_ ∧ _))

theorem not_succeeds_refusal (e : AccessError) : ¬ (refusal e).Succeeds := by
  rintro ⟨-, hlt⟩
  have hge : 400 ≤ e.kind.status := by cases e.kind <;> decide
  exact absurd hlt (Nat.not_lt.2 (Nat.le_trans (by decide) hge))

theorem not_succeeds_rejection (r : Rejection) : ¬ (rejection r).Succeeds := by
  rintro ⟨-, hlt⟩
  have hge : 400 ≤ r.status := by cases r <;> decide
  exact absurd hlt (Nat.not_lt.2 (Nat.le_trans (by decide) hge))

end Response

namespace Api

variable {c : Circumstances} {id : String} {api : Api} {r : Request} {resource : Resource} {context : Context}
  {call : Call}

/-- The request bears a token that the gate resolves to this context. -/
def Bears (now : Int64) (api : Api) (r : Request) (context : Context) : Prop :=
  ∃ token, extractBearer r.credentials = .ok token ∧
    (Gate.resolve (api.authority.service now "") api.repository.cache token api.registry).1 = .ok context

/-- What entitles a request to be served on a resource. -/
inductive Entitled (c : Circumstances) (api : Api) (r : Request) : Resource → Prop
  | health (verb : r.verb = "GET") : Entitled c api r .health
  | login (username password : String) (a : Account) (verb : r.verb = "POST")
      (body : r.payload (readTextPair "username" "password") = .ok (username, password))
      (verified : api.repository.cache.verifyCredentials c.hasher username password = .ok a) :
      Entitled c api r .login
  | check (token : String) (verb : r.verb = "POST") (body : r.payload (readSingleText "token") = .ok token) :
      Entitled c api r .check
  | logout (context : Context) (verb : r.verb = "POST") (bears : Bears c.now api r context) :
      Entitled c api r .logout
  | granted (resource : Resource) (context : Context) (permissions : List Permission)
      (bears : Bears c.now api r context) (demanded : resource.demands r.verb = some permissions)
      (held : ∀ p ∈ permissions, context.permissions.allows .user p = true) : Entitled c api r resource
  | ownPassword (segment username : String) (context : Context) (verb : r.verb = "PUT")
      (bears : Bears c.now api r context) (named : readSegment segment = .ok username)
      (own : context.username = some username) : Entitled c api r (.accountPassword segment)

/-- The request got no success, and document, cache and active tokens are what they were. -/
structure TurnedAway (now : Int64) (api : Api) (x : Response × Api) : Prop where
  refused : ¬ x.1.Succeeds
  document : x.2.repository.store.content = api.repository.store.content
  cache : x.2.repository.cache = api.repository.cache
  tokens : x.2.registry.pruned now = api.registry.pruned now

/-! ### Receiving -/

theorem contextOf_eq_ok {now : Int64} (hpath : Resource.ofPath? r.path = some resource)
    (h : (api.contextOf now resource r).1 = .ok context) : resource.isOpen = true ∨ Bears now api r context := by
  cases hopen : resource.isOpen with
  | true => exact Or.inl rfl
  | false =>
      have hclosed : resource ≠ .health := by
        rintro rfl
        cases hopen
      rw [contextOf, if_neg hclosed, Gate.authenticate_eq_ok] at h
      cases h with
      | bypassed unasked => exact absurd unasked (Resource.operation_not_bypassed hpath hopen)
      | bearer token subject a asked extracted bears =>
          exact Or.inr ⟨token, extracted, Gate.resolve_eq_ok.2 ⟨subject, a, bears, rfl⟩⟩

theorem contextOf_of_bears {now : Int64} (hpath : Resource.ofPath? r.path = some resource)
    (hclosed : resource.isOpen = false) (hbears : Bears now api r context) :
    (api.contextOf now resource r).1 = .ok context := by
  have hhealth : resource ≠ .health := by
    rintro rfl
    cases hclosed
  obtain ⟨token, hextracted, hresolved⟩ := hbears
  obtain ⟨subject, a, hheld, rfl⟩ := Gate.resolve_eq_ok.1 hresolved
  rw [contextOf, if_neg hhealth, Gate.authenticate_eq_ok]
  exact Gate.Admits.bearer token subject a (Resource.operation_not_bypassed hpath hclosed) hextracted hheld

theorem contextOf_pruned (now : Int64) (api : Api) (resource : Resource) (r : Request) :
    (api.contextOf now resource r).2.pruned now = api.registry.pruned now := by
  unfold contextOf
  split
  · rfl
  · rcases Gate.authenticate_snd Gate.standard (api.authority.service now "") api.repository.cache
      (resource.operation r.path) r.credentials api.registry with h | ⟨token, -, h⟩
    · rw [h]
    · rw [h]
      exact Registry.pruned_introspect (Int64.le_refl _) _

theorem reads_of_callOf (h : callOf context resource r = .ok call) :
    resource.Reads r call ∧ call.permit context = .ok () := by
  unfold callOf at h
  split at h
  · cases h
  · rename_i read hread
    split at h
    · cases h
    · rename_i call' hcall
      split at h
      · rename_i hpermit
        cases h
        exact ⟨Resource.reads_of_reader hread hcall, hpermit⟩
      · cases h

theorem not_succeeds_callOf {response : Response} (h : callOf context resource r = .error response) :
    ¬ response.Succeeds := by
  unfold callOf at h
  split at h
  · cases h
    decide
  · split at h
    · cases h
      exact Response.not_succeeds_rejection _
    · split at h
      · cases h
      · cases h
        exact Response.not_succeeds_refusal _

/-- What receiving a request can come to: a refusal, or a call that its caller may make. -/
inductive Reception (now : Int64) (api : Api) (r : Request) : Except Response Call → Prop
  | refused (response : Response) (refusal : ¬ response.Succeeds) : Reception now api r (.error response)
  | received (resource : Resource) (context : Context) (call : Call) (path : Resource.ofPath? r.path = some resource)
      (caller : resource.isOpen = true ∨ Bears now api r context) (reads : resource.Reads r call)
      (permitted : call.permit context = .ok ()) : Reception now api r (.ok call)

theorem reception (now : Int64) (api : Api) (r : Request) : Reception now api r (api.receive now r).1 := by
  unfold receive
  cases hpath : Resource.ofPath? r.path with
  | none => exact Reception.refused (.bare 404) (by decide)
  | some resource =>
      dsimp only
      split
      · rename_i context registry hcontext
        have hcaller := contextOf_eq_ok hpath (congrArg Prod.fst hcontext)
        dsimp only
        cases hcall : callOf context resource r with
        | error response => exact Reception.refused response (not_succeeds_callOf hcall)
        | ok call =>
            obtain ⟨hreads, hpermitted⟩ := reads_of_callOf hcall
            exact Reception.received resource context call hpath hcaller hreads hpermitted
      · rename_i e registry hcontext
        exact Reception.refused (.refusal e) (Response.not_succeeds_refusal e)

theorem receive_pruned (now : Int64) (api : Api) (r : Request) :
    (api.receive now r).2.pruned now = api.registry.pruned now := by
  unfold receive
  split
  · rfl
  · rename_i resource hpath
    have htokens := contextOf_pruned now api resource r
    split <;> rename_i hcontext <;> rwa [hcontext] at htokens

/-- A call that its caller may make entitles the request, if a login is one whose credentials verify. -/
theorem entitled_of_reads (hcaller : resource.isOpen = true ∨ Bears c.now api r context)
    (hreads : resource.Reads r call) (hpermitted : call.permit context = .ok ())
    (hlogin : ∀ username password, call = .login username password →
      ∃ a, api.repository.cache.verifyCredentials c.hasher username password = .ok a) : Entitled c api r resource := by
  have hbears : resource.isOpen = false → Bears c.now api r context := by
    intro hclosed
    refine hcaller.resolve_left ?_
    rw [hclosed]
    exact Bool.false_ne_true
  have hgranted : ∀ permissions, resource.isOpen = false → resource.demands r.verb = some permissions →
      context.require .user permissions = .ok () → Entitled c api r resource :=
    fun permissions hclosed hdemanded hrequired =>
      Entitled.granted resource context permissions (hbears hclosed) hdemanded (Context.allows_of_require hrequired)
  cases hreads with
  | health verb => exact Entitled.health verb
  | login username password verb body =>
      obtain ⟨a, hverified⟩ := hlogin username password rfl
      exact Entitled.login username password a verb body hverified
  | logout verb => exact Entitled.logout context verb (hbears rfl)
  | check token verb body => exact Entitled.check token verb body
  | changePassword segment username current new verb named body =>
      exact Entitled.ownPassword segment username context verb (hbears rfl) named
        (Context.username_of_requireSelf hpermitted)
  | listAccounts verb => exact hgranted [.read] rfl (by rw [verb]; rfl) hpermitted
  | createAccount input verb body => exact hgranted [.create] rfl (by rw [verb]; rfl) hpermitted
  | getAccount segment username verb named => exact hgranted [.read] rfl (by rw [verb]; rfl) hpermitted
  | updateAccount segment username input verb named body =>
      exact hgranted [.update] rfl (by rw [verb]; rfl) hpermitted
  | deleteAccount segment username verb named => exact hgranted [.delete] rfl (by rw [verb]; rfl) hpermitted
  | listRoles verb => exact hgranted [.read] rfl (by rw [verb]; rfl) hpermitted
  | createRole input verb body => exact hgranted [.create] rfl (by rw [verb]; rfl) hpermitted
  | getRole segment name verb named => exact hgranted [.read] rfl (by rw [verb]; rfl) hpermitted
  | updateRole segment name input verb named body => exact hgranted [.update] rfl (by rw [verb]; rfl) hpermitted
  | deleteRole segment name verb named => exact hgranted [.delete] rfl (by rw [verb]; rfl) hpermitted
  | cloneRole segment source name verb named body =>
      exact hgranted [.read, .create] rfl (by rw [verb]; rfl) hpermitted

/-! ### Answering -/

/-- A call that the bearer of a token may make is answered. -/
theorem handle_of_bears (c : Circumstances) (id : String) {read : Request → Except Rejection Call}
    (hpath : Resource.ofPath? r.path = some resource)
    (hclosed : resource.isOpen = false) (hbears : Bears c.now api r context)
    (hread : resource.reader? r.verb = some read) (hcall : read r = .ok call)
    (hpermitted : call.permit context = .ok ()) (hwhole : r.method ≠ "HEAD") :
    ∃ registry, api.handle c id r = answer c id { api with registry } call := by
  have hcontext := contextOf_of_bears hpath hclosed hbears
  have hcallOf : callOf context resource r = .ok call := by
    simp only [callOf, hread, hcall, hpermitted]
  refine ⟨(api.contextOf c.now resource r).2, ?_⟩
  generalize hreceived : api.contextOf c.now resource r = received at hcontext
  obtain ⟨result, registry⟩ := received
  obtain rfl : result = .ok context := hcontext
  simp only [handle, receive, hpath, hreceived, hcallOf, if_neg hwhole]

theorem answer_login_of_error (api : Api) {username password : String} {e : AccessError}
    (h : api.repository.cache.verifyCredentials c.hasher username password = .error e) :
    api.answer c id (.login username password) = (.refusal e, api) := by
  rw [answer, Session.login, h]
  rfl

/-- A response given with nothing done but a look at the token turns the request away, if it is no success. -/
theorem turnedAway_of_refused {now : Int64} {response : Response} {registry : Registry}
    (hrefused : ¬ response.Succeeds) (htokens : registry.pruned now = api.registry.pruned now) (method : String) :
    TurnedAway now api
      (if method = "HEAD" then response.withoutBody else response, { api with registry }) where
  refused := by
    split
    · exact hrefused
    · exact hrefused
  document := rfl
  cache := rfl
  tokens := htokens

/-- Every request is entitled to what it gets, or it is turned away: whatever changes the document, the cache or
the active tokens, and whatever succeeds, was entitled. -/
theorem entitled_or_turnedAway (c : Circumstances) (id : String) (api : Api) (r : Request) :
    (∃ resource, Resource.ofPath? r.path = some resource ∧ Entitled c api r resource) ∨
      TurnedAway c.now api (api.handle c id r) := by
  have htokens := receive_pruned c.now api r
  have hreception := reception c.now api r
  unfold handle
  generalize api.receive c.now r = received at *
  obtain ⟨result, registry⟩ := received
  cases hreception with
  | refused response refusal => exact Or.inr (turnedAway_of_refused refusal htokens r.method)
  | received resource context call path caller reads permitted =>
      by_cases hfails : ∃ username password e, call = .login username password ∧
          api.repository.cache.verifyCredentials c.hasher username password = .error e
      · obtain ⟨username, password, e, rfl, hverify⟩ := hfails
        dsimp only
        rw [answer_login_of_error { api with registry } hverify]
        exact Or.inr (turnedAway_of_refused (Response.not_succeeds_refusal e) htokens r.method)
      · refine Or.inl ⟨resource, path, entitled_of_reads caller reads permitted fun username password hlogin => ?_⟩
        cases hverify : api.repository.cache.verifyCredentials c.hasher username password with
        | ok a => exact ⟨a, rfl⟩
        | error e => exact absurd ⟨username, password, e, hlogin, hverify⟩ hfails

end Api

end AccessControl
