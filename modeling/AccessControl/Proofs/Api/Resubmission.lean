import AccessControl.Proofs.Api.Entry
import AccessControl.Proofs.Directory.Resolution
import AccessControl.Proofs.Http.Payload

/-!
Sending back what was shown. The body in which an account is shown, sent as an update of this account, renews its time
of change and nothing else; the body in which a custom role is shown changes nothing at all
(`shown_can_be_sent_back`).
-/

namespace AccessControl

open Json

namespace Directory

variable {c : Circumstances} {d : Directory} {key : String} {a : Account} {role : Role}

theorem updateAccount_ofAccount (hheld : d.users.get? key = some a) (hname : a.username = key)
    (hroles : ∀ name ∈ a.roles, d.knowsRole name = true) :
    (d.updateAccount c (.ofAccount key a)).outcome =
      .ok ({ a with lastUpdate := c.now }, d.putAccount key { a with lastUpdate := c.now }) := by
  have hrenewal : (AccountInput.ofAccount key a).renewal a c.now none = { a with lastUpdate := c.now } := by
    rw [← hname]
    rfl
  exact updateAccount_eq_ok.2 ⟨none, rfl, a, hheld, hroles, hrenewal, by rw [hrenewal]; rfl⟩

theorem updateRole_ofRole (hd : d.WellFormed) (hheld : d.roles.get? key = some role) :
    d.updateRole { RoleInput.ofRole role with name := key } = .ok (role, d) := by
  obtain ⟨hname, hnamed, hfree, hcustom⟩ := hd.role hheld
  have hsame : d.putRole role = d := by rw [putRole, hname, Table.insert_of_get? hheld]
  have hrole : (RoleInput.mk key role.description role.system (Grants.transport role.grants)).role .modified =
      .ok role := by
    refine RoleInput.role_eq_ok.2 ⟨role.grants, Grants.ofNames_transport role.grants, hcustom, hnamed, ?_⟩
    rw [← hname, ← hcustom]
  exact updateRole_eq_ok.2 ⟨hfree, Table.contains_iff.2 ⟨role, hheld⟩, hrole, hsame⟩

end Directory

namespace Api

/-- The request asks for an update of what its path leads to, with a value as its body, for a caller who may make
updates. -/
structure Updates (now : Int64) (api : Api) (r : Request) (resource : Resource) (v : Json) : Prop where
  method : r.method = "PUT"
  path : Resource.ofPath? r.path = some resource
  announced : ((Request.headerText r.contentType).any fun t => MediaType.isJson t.toList) = true
  body : r.body = v.render.toUTF8
  limited : r.body.size ≤ Request.bodyLimit
  caller : ∃ context, Bears now api r context ∧ context.permissions.allows .user .update = true

section

variable {c : Circumstances} {api : Api} {r : Request} {resource : Resource} {v : Json} {segment key : String}

theorem Updates.verb (h : Updates c.now api r resource v) : r.verb = "PUT" := by
  rw [Request.verb, h.method]
  rfl

theorem Updates.payload {α : Type} {f : Json → Read α} {x : α} (h : Updates c.now api r resource v)
    (hread : readWholeText f (Glyph.ofBytes v.render.toUTF8) = .ok x) : r.payload f = .ok x := by
  rw [Request.payload, if_pos h.announced, if_neg (Nat.not_lt.2 h.limited), h.body, hread]

/-- An update is answered with what its command comes to. -/
theorem Updates.handle (h : Updates c.now api r resource v) (hclosed : resource.isOpen = false) (command : Command)
    {read : Request → Except Rejection Call} (hreader : resource.reader? "PUT" = some read)
    (hcall : read r = .ok (.change command))
    (hpermit : ∀ context, (Call.change command).permit context = context.require .user [.update]) (id : String) :
    (api.handle c id r).1 = ofResult (Response.ofAnswer command) (api.repository.run c command).1 ∧
      (api.handle c id r).2.repository = (api.repository.run c command).2 := by
  obtain ⟨context, hbears, hallowed⟩ := h.caller
  have hpermitted : (Call.change command).permit context = .ok () := by
    rw [hpermit]
    exact Context.require_of_allows hallowed
  have hread : resource.reader? r.verb = some read := by rwa [h.verb]
  obtain ⟨registry, hhandle⟩ := handle_of_bears c id h.path hclosed hbears hread hcall hpermitted
    (by rw [h.method]; decide)
  rw [hhandle]
  exact ⟨rfl, rfl⟩

/-- The account comes back from the body in which it is shown with its time of change renewed, under a name that is not
asked for again, and nothing else happens; so it is for every request that sends this body. -/
structure Renews (c : Circumstances) (api : Api) (key : String) (a : Account) : Prop where
  read : readWholeText (AccountInput.readReplacement key) (Glyph.ofBytes a.shown.render.toUTF8) = .ok (.ofAccount key a)
  run : api.repository.run c (.updateAccount (.ofAccount key a)) =
    (.ok (.account { a with lastUpdate := c.now }),
      api.repository.took (api.repository.cache.putAccount key { a with lastUpdate := c.now }))
  served : ∀ id r segment, readSegment segment = .ok key → Updates c.now api r (.account segment) a.shown →
    (api.handle c id r).1 = ok { a with lastUpdate := c.now }.shown ∧
      (api.handle c id r).2.repository =
        api.repository.took (api.repository.cache.putAccount key { a with lastUpdate := c.now })

/-- The role comes back from the body in which it is shown as it is, and nothing else happens; so it is for every
request that sends this body. -/
structure Keeps (c : Circumstances) (api : Api) (key : String) (role : Role) : Prop where
  read : readWholeText RoleInput.readJson (Glyph.ofBytes role.shown.render.toUTF8) = .ok (.ofRole role)
  run : api.repository.run c (.updateRole { RoleInput.ofRole role with name := key }) =
    (.ok (.role role), api.repository.took api.repository.cache)
  served : ∀ id r segment, readSegment segment = .ok key → Updates c.now api r (.role segment) role.shown →
    (api.handle c id r).1 = ok role.shown ∧
      (api.handle c id r).2.repository = api.repository.took api.repository.cache

theorem renews_of_held {a : Account} (hformed : api.repository.cache.WellFormed)
    (hresolved : api.repository.cache.Resolves) (haccepting : api.repository.store.putFault = none)
    (hheld : api.repository.cache.users.get? key = some a) : Renews c api key a := by
  have hread : readWholeText (AccountInput.readReplacement key) (Glyph.ofBytes a.shown.render.toUTF8) =
      .ok (.ofAccount key a) := by
    rw [readWholeText_render _ a.writable_shown, AccountInput.readReplacement_shown]
  have hroles : ∀ name ∈ a.roles, api.repository.cache.knowsRole name = true :=
    fun name hname => (Directory.knowsRole_eq_isSome _ name).trans (hresolved name ⟨key, a, hheld, hname⟩)
  have hattempt : (Command.attempt c api.repository.cache (.updateAccount (.ofAccount key a))).outcome =
      .ok (.account { a with lastUpdate := c.now },
        api.repository.cache.putAccount key { a with lastUpdate := c.now }) :=
    Command.answeringAccount_eq_ok.2
      ⟨_, Directory.updateAccount_ofAccount hheld (hformed.account hheld).1 hroles, rfl⟩
  have hrun := Repository.run_of_accepting haccepting hattempt
  refine ⟨hread, hrun, fun id r segment hsegment hupdates => ?_⟩
  have hhandle := hupdates.handle rfl (.updateAccount (.ofAccount key a)) rfl
    (by simp only [hsegment, hupdates.payload hread, ok_bind]; rfl) (fun _ => rfl) id
  rw [hrun] at hhandle
  exact hhandle

theorem keeps_of_held {role : Role} (hformed : api.repository.cache.WellFormed)
    (haccepting : api.repository.store.putFault = none) (hheld : api.repository.cache.roles.get? key = some role) :
    Keeps c api key role := by
  have hread : readWholeText RoleInput.readJson (Glyph.ofBytes role.shown.render.toUTF8) = .ok (.ofRole role) := by
    rw [readWholeText_render _ role.writable_shown, RoleInput.readJson_shown]
  have hattempt : (Command.attempt c api.repository.cache
      (.updateRole { RoleInput.ofRole role with name := key })).outcome = .ok (.role role, api.repository.cache) :=
    Command.answeringRole_eq_ok.2 ⟨_, Directory.updateRole_ofRole hformed hheld, rfl⟩
  have hrun := Repository.run_of_accepting haccepting hattempt
  refine ⟨hread, hrun, fun id r segment hsegment hupdates => ?_⟩
  have hhandle := hupdates.handle rfl (.updateRole { RoleInput.ofRole role with name := key }) rfl
    (by simp only [hsegment, hupdates.payload hread, ok_bind]; rfl) (fun _ => rfl) id
  rw [hrun] at hhandle
  exact hhandle

end

/-- As long as the store takes what it is given, every account and every custom role can be sent back as it is shown.
An account keeps its hash and its expiration date, a role its scopes without permissions. -/
theorem shown_can_be_sent_back {api : Api} (hformed : api.repository.cache.WellFormed)
    (hresolved : api.repository.cache.Resolves) (haccepting : api.repository.store.putFault = none)
    (c : Circumstances) :
    (∀ key a, api.repository.cache.users.get? key = some a → Renews c api key a) ∧
      ∀ key role, api.repository.cache.roles.get? key = some role → Keeps c api key role :=
  ⟨fun _ _ => renews_of_held hformed hresolved haccepting, fun _ _ => keeps_of_held hformed haccepting⟩

/-- A custom role with a scope in which it permits nothing. -/
def keeper : Role := ⟨"keeper", none, false, .ofList [(.pool, .none), (.hosts, .ofList [.read])]⟩

/-- An administrator with this role, whose password expires. -/
def annKeeper : Account :=
  { annAccount with roles := ["keeper", "administrator"], pwdExpirationDate := some 9, pwdUpdateRequired := true }

def keeperDirectory : Directory := (Directory.empty.putRole keeper).putAccount "ann" annKeeper

def keeperService : Api := { annService with repository := Repository.fresh.took keeperDirectory }

def keeperLogin : Login :=
  Session.loginFor keeperDirectory annKeeper (annService.authority.issued 5 "id" "ann")

/-- Ann sends the role back as it is shown. -/
def keeperUpdate : Request :=
  ⟨"PUT", "/api/roles/keeper", some ("Bearer" ++ " " ++ keeperLogin.token), some "application/json",
    keeper.shown.render.toUTF8⟩

theorem wellFormed_keeperDirectory : keeperDirectory.WellFormed :=
  (Directory.wellFormed_empty.putRole (by rfl) (by rfl) rfl).putAccount (a := annKeeper) (by rfl)

theorem resolves_keeperDirectory : keeperDirectory.Resolves := by
  intro name hassigns
  rcases Directory.assigns_putAccount hassigns with hmem | ⟨key, a, hget, -⟩
  · rcases List.mem_pair.1 hmem with rfl | rfl
    · rfl
    · rfl
  · cases hget

theorem updates_keeper : Updates 7 (keeperService.step annEnters) keeperUpdate (.role "keeper") keeper.shown where
  method := rfl
  path := by decide
  announced := by decide
  body := rfl
  limited := by decide
  caller := by
    have hverified : keeperDirectory.verifyCredentials .marking "ann" "pw" = .ok annKeeper := by rfl
    have hnamed : keeperDirectory.Named := fun key a hget => (wellFormed_keeperDirectory.account hget).1
    have hgranted : keeperService.granted annEnters = some keeperLogin := granted_of_verified rfl hverified
    have hheld : 7 < keeperLogin.expiresAt := by decide
    obtain ⟨context, hbears, -, hpermissions⟩ := bears_of_granted (r := keeperUpdate)
      (fun message => beq_self_eq_true _) hnamed rfl hgranted (by decide) (by decide) hheld rfl
    refine ⟨context, hbears, ?_⟩
    rw [hpermissions]
    decide

theorem keeper_comes_back :
    ((keeperService.step annEnters).handle ⟨7, .marking⟩ "" keeperUpdate).1 = ok keeper.shown ∧
      ((keeperService.step annEnters).handle ⟨7, .marking⟩ "" keeperUpdate).2.repository.cache = keeperDirectory ∧
      Renews ⟨7, .marking⟩ (keeperService.step annEnters) "ann" annKeeper := by
  have hformed : (keeperService.step annEnters).repository.cache.WellFormed := wellFormed_keeperDirectory
  obtain ⟨haccount, hrole⟩ := shown_can_be_sent_back hformed resolves_keeperDirectory rfl ⟨7, .marking⟩
  obtain ⟨hshown, hrepository⟩ := (hrole "keeper" keeper rfl).served "" keeperUpdate "keeper" rfl updates_keeper
  exact ⟨hshown, congrArg Repository.cache hrepository, haccount "ann" annKeeper rfl⟩

end Api

end AccessControl
