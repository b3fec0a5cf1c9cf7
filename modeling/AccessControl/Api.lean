import AccessControl.Http.Call
import AccessControl.Http.Response
import AccessControl.Repository
import AccessControl.Settings
import AccessControl.Token.Registry

/-!
The assembled service: a repository, the active tokens and the authority that issues them. A request is first
received, which settles what it asks for and whether its caller may ask it, and then answered.
-/

namespace AccessControl

structure Api where
  repository : Repository
  registry : Registry
  authority : TokenAuthority

namespace Api

/-! ### Setting up -/

/-- The service over a repository. No token is active yet. -/
def assemble (repository : Repository) (signer : Signer) (digest : String → String) (lifespan : Int64) :
    Except AccessError Api := do
  let authority ← TokenAuthority.make signer digest lifespan
  return { repository, registry := .empty, authority }

def ensureAdmin (c : Circumstances) (admin : Option AdminSettings) (r : Repository) :
    Except AccessError Repository :=
  match admin with
  | none => .ok r
  | some admin =>
    match r.run c (.ensureAdmin admin.username admin.password) with
    | (.ok _, r) => .ok r
    | (.error e, _) => .error e

/-- The service that the settings describe, over what their store holds. -/
def boot (c : Circumstances) (scheme : SignatureScheme) (seed : List UInt8) (digest : String → String)
    (settings : Settings) (store : Store) : Except AccessError Api := do
  settings.checkStore
  let repository ← Repository.load store
  let repository ← ensureAdmin c settings.admin repository
  assemble repository ⟨scheme, seed, settings.issuer⟩ digest settings.lifespan

/-! ### Receiving -/

/-- The context of a request for a resource. Only the health of the service is told to anyone. -/
def contextOf (now : Int64) (api : Api) (resource : Resource) (r : Request) :
    Except AccessError Context × Registry :=
  if resource = .health then (.ok .anonymous, api.registry)
  else
    Gate.standard.authenticate (api.authority.service now "") api.repository.cache (resource.operation r.path)
      r.credentials api.registry

/-- The call that a caller makes on a resource, or the response to one that cannot be made. -/
def callOf (context : Context) (resource : Resource) (r : Request) : Except Response Call :=
  match resource.reader? r.verb with
  | none => .error (.bare 405)
  | some read =>
    match read r with
    | .error rejection => .error (.rejection rejection)
    | .ok call =>
      match call.permit context with
      | .ok () => .ok call
      | .error e => .error (.refusal e)

/-- The call that a request makes, or the response to one that makes none. -/
def receive (now : Int64) (api : Api) (r : Request) : Except Response Call × Registry :=
  match Resource.ofPath? r.path with
  | none => (.error (.bare 404), api.registry)
  | some resource =>
    match api.contextOf now resource r with
    | (.ok context, registry) => (callOf context resource r, registry)
    | (.error e, registry) => (.error (.refusal e), registry)

/-! ### Answering -/

def ofResult {α : Type} (f : α → Response) : Except AccessError α → Response
  | .ok a => f a
  | .error e => .refusal e

def ok (v : Json) : Response := ⟨200, .value v⟩

/-- Answers a call that was received. `id` becomes the id of a token that is issued. -/
def answer (c : Circumstances) (id : String) (api : Api) : Call → Response × Api
  | .health => (ok (.record [("status", .text "ok")]), api)
  | .login username password =>
    let (login, registry) :=
      Session.login (api.authority.service c.now id) c.hasher api.repository.cache username password api.registry
    (ofResult (fun l => ok l.shown) login, { api with registry })
  | .logout authorization =>
    match extractBearer authorization with
    | .error e => (.refusal e, api)
    | .ok token =>
      let (done, registry) := Session.logout (api.authority.service c.now id) token api.registry
      (ofResult (fun _ => .bare 204) done, { api with registry })
  | .check token =>
    let (check, registry) :=
      Session.check (api.authority.service c.now id) api.repository.cache token api.registry
    (ok check.shown, { api with registry })
  | .listAccounts => (ok (.array (api.repository.cache.accounts.map Account.shown)), api)
  | .getAccount username => (ofResult (fun a => ok a.shown) (api.repository.cache.getAccount username), api)
  | .listRoles => (ok (.array (api.repository.cache.allRoles.map Role.shown)), api)
  | .getRole name => (ofResult (fun r => ok r.shown) (api.repository.cache.getRole name), api)
  | .change command =>
    let (answer, repository) := api.repository.run c command
    (ofResult (Response.ofAnswer command) answer, { api with repository })

def handle (c : Circumstances) (id : String) (api : Api) (r : Request) : Response × Api :=
  let (received, registry) := api.receive c.now r
  let api := { api with registry }
  let (response, api) :=
    match received with
    | .ok call => answer c id api call
    | .error response => (response, api)
  (if r.method = "HEAD" then response.withoutBody else response, api)

/-- The secrets that a request gives to the hasher to be hashed. -/
def hashed (c : Circumstances) (api : Api) (r : Request) : List String :=
  match (api.receive c.now r).1 with
  | .ok (.change command) => (command.attempt c api.repository.cache).hashed
  | _ => []

end Api

end AccessControl
