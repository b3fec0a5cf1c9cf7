import AccessControl.Proofs.Api.Entry
import AccessControl.Proofs.Repository.AdminReset
import AccessControl.Proofs.Settings

/-!
Starting the service. Settings that were read with a store in memory are refused by nothing that comes later: the
service starts, and the administrator they name, if any, can log in at once and is admitted with the token
(`accepted_settings_boot`).
-/

namespace AccessControl

/-- The first hasher hashes every secret, and the second one verifies the secret against this hash. -/
def Hasher.Serves (h h' : Hasher) : Prop :=
  ∀ secret, ∃ hash, h.hash secret = .ok hash ∧ h'.verify secret hash = .ok true

namespace Directory

variable {c : Circumstances} {d : Directory} {username password hash : String}

/-- The account that is made for an administrator who has none. -/
def adminAccount (username hash : String) (now : Int64) : Account :=
  (adminInput username "" none).account hash none now

theorem ensureAdmin_of_absent (habsent : d.users.get? username = none) (hnamed : blankText username = false)
    (hfilled : password ≠ "") (hhashed : c.hasher.hash password = .ok hash) :
    (d.ensureAdmin c username password).outcome =
      .ok (adminAccount username hash c.now, d.putAccount username (adminAccount username hash c.now)) := by
  have hplace : (d.users.contains username || !blankText username) = true := by
    rw [hnamed, Bool.not_false, Bool.or_true]
  have hemail : d.emailOf username = none := by rw [emailOf, habsent, Option.bind_none]
  rw [outcome_ensureAdmin hfilled, hplace, hhashed, hemail]
  rfl

/-- The permissions of an enabled account whose one role is a system role that no custom role hides. -/
theorem effectivePermissions_of_systemRole {a : Account} {name : String} {role : Role}
    (hheld : d.users.get? username = some a) (henabled : a.enabled = true) (hroles : a.roles = [name])
    (hcustom : d.roles.get? name = none) (hsystem : Catalogue.find? name = some role) :
    d.effectivePermissions username = Role.mergedGrants [role] := by
  have hresolve : d.resolve? name = some role := by rw [resolve?, hcustom, hsystem]
  simp only [effectivePermissions, hheld, henabled, hroles, if_true, List.filterMap_cons, hresolve, List.filterMap_nil]

end Directory

/-- Every scope of the administrator's role holds something, so nothing is lost when grants are merged. -/
theorem Catalogue.administrator_grants :
    ∃ role, find? "administrator" = some role ∧ Role.mergedGrants [role] = role.grants := ⟨_, rfl, rfl⟩

namespace Api

/-! ### The administrator -/

section

variable {api : Api} {c : Circumstances} {h : Hasher} {admin : AdminSettings} {hash : String}

/-- The directory that holds the administrator's account alone. -/
def adminOnly (admin : AdminSettings) (hash : String) (now : Int64) : Directory :=
  Directory.empty.putAccount admin.username (Directory.adminAccount admin.username hash now)

theorem get?_adminOnly (admin : AdminSettings) (hash : String) (now : Int64) :
    (adminOnly admin hash now).users.get? admin.username = some (Directory.adminAccount admin.username hash now) :=
  Table.get?_insert_eq_some.2 (Or.inl ⟨rfl, rfl⟩)

theorem named_adminOnly (admin : AdminSettings) (hash : String) (now : Int64) : (adminOnly admin hash now).Named :=
  Directory.named_empty.putAccount rfl

/-- On a store that was never written the administrator gets an account. -/
theorem ensureAdmin_fresh (hnamed : blankText admin.username = false) (hfilled : blankText admin.password = false)
    (hhashed : c.hasher.hash admin.password = .ok hash) :
    ensureAdmin c (some admin) Repository.fresh =
      .ok (Repository.fresh.took (adminOnly admin hash c.now)) := by
  have hne : admin.password ≠ "" := by
    intro hempty
    rw [hempty] at hfilled
    cases hfilled
  have hattempt := Directory.ensureAdmin_of_absent (d := .empty) rfl hnamed hne hhashed
  have houtcome : (Command.attempt c .empty (.ensureAdmin admin.username admin.password)).outcome =
      .ok (.done, adminOnly admin hash c.now) := by
    rw [Command.attempt, Attempt.outcome_bind, hattempt]
    rfl
  have hrun := Repository.run_of_accepting (r := Repository.fresh) rfl houtcome
  rw [ensureAdmin, hrun]

/-- How the administrator enters: the login with the name and the password from the settings. -/
def adminEnters (admin : AdminSettings) (h : Hasher) (now : Int64) (id : String) : Event :=
  ⟨⟨now, h⟩, id, .login admin.username admin.password⟩

/-- The login is that of an administrator who gets in: for the account that was asked for, with nothing pending and
every permission of the role, and with a token that opens the gate until it expires. The token lasts unless time has
run out already, and opens the gate if the clock counts from 1970. -/
structure Admitted (api : Api) (admin : AdminSettings) (e : Event) (l : Login) : Prop where
  granted : api.granted e = some l
  username : l.username = admin.username
  settled : l.pwdUpdateRequired = false ∧ l.pwdExpirationDate = none
  permissions : ∃ role, Catalogue.find? "administrator" = some role ∧ l.permissions = role.grants
  lasts : e.time < Int64.maxValue → e.time < l.expiresAt
  opens : 0 ≤ e.time → ∀ later operation scheme, e.time ≤ later → later < l.expiresAt →
    operation ∉ Gate.standard.bypass → asciiLower scheme.toList = "bearer".toList →
    ∃ context, (api.step e).authenticate later operation (some (scheme ++ " " ++ l.token)) = .ok context ∧
      context.username = some admin.username ∧ context.permissions = l.permissions

theorem admitted_of_adminOnly {now bootedAt : Int64} {id : String}
    (hcache : api.repository.cache = adminOnly admin hash bootedAt) (haccepts : api.authority.signer.AcceptsOwn)
    (hverify : h.verify admin.password hash = .ok true) : ∃ l, Admitted api admin (adminEnters admin h now id) l := by
  have hget := get?_adminOnly admin hash bootedAt
  have hnamed : api.repository.cache.Named := by
    rw [hcache]
    exact named_adminOnly admin hash bootedAt
  have hverified : api.repository.cache.verifyCredentials h admin.username admin.password =
      .ok (Directory.adminAccount admin.username hash bootedAt) := by
    rw [hcache]
    exact Directory.verifyCredentials_eq_ok.2 ⟨hget, rfl, hverify⟩
  have hgranted := granted_of_verified (e := adminEnters admin h now id) rfl hverified
  obtain ⟨role, hrole, hgrants⟩ := Catalogue.administrator_grants
  refine ⟨_, hgranted, rfl, ⟨rfl, rfl⟩, ⟨role, hrole, ?_⟩, fun hroom => ?_, ?_⟩
  · rw [← hgrants, ← Directory.effectivePermissions_of_systemRole hget rfl rfl rfl hrole, ← hcache]
    rfl
  · exact lt_timeAfter hroom api.authority.lifespan_pos
  · intro hcounted later operation scheme hlater hheld hasked hscheme
    rw [authenticate_of_bearer hasked ((issues_of_granted hgranted).extractBearer hscheme)]
    exact resolve_of_granted haccepts hnamed rfl hgranted hcounted hlater hheld

end

/-! ### Starting -/

/-- Settings that could be read, with a store in memory, start a service, if secrets can be hashed. The administrator
that is asked for has the name and the password from the variables and is admitted with them at any time. -/
theorem accepted_settings_boot {lookup : String → Option String} {settings : Settings}
    (hread : Settings.ofVariables lookup = .ok settings) (hmemory : settings.store = .memory) (c : Circumstances)
    {h : Hasher} (hserves : c.hasher.Serves h) {scheme : SignatureScheme} {seed : List UInt8}
    (haccepts : Signer.AcceptsOwn ⟨scheme, seed, settings.issuer⟩) (digest : String → String) :
    ∃ api, boot c scheme seed digest settings .empty = .ok api ∧
      ∀ admin, settings.admin = some admin →
        lookup "ADMIN_USERNAME" = some admin.username ∧ lookup "ADMIN_PASSWORD" = some admin.password ∧
          ∀ now id, ∃ l, Admitted api admin (adminEnters admin h now id) l := by
  have hsound := Settings.sound_ofVariables hread
  have hstore : settings.checkStore = .ok () := by rw [Settings.checkStore, hmemory]
  have hmake : TokenAuthority.make ⟨scheme, seed, settings.issuer⟩ digest settings.lifespan =
      .ok ⟨⟨scheme, seed, settings.issuer⟩, digest, settings.lifespan, hsound.lifespan_pos⟩ :=
    dif_pos hsound.lifespan_pos
  have hboot : ∀ r, ensureAdmin c settings.admin Repository.fresh = .ok r →
      boot c scheme seed digest settings .empty =
        .ok ⟨r, .empty, ⟨⟨scheme, seed, settings.issuer⟩, digest, settings.lifespan, hsound.lifespan_pos⟩⟩ := by
    intro r hr
    have hload : Repository.load .empty = .ok Repository.fresh := rfl
    simp only [boot, hstore, hload, hr, assemble, hmake, ok_bind]
    rfl
  cases hadmin : settings.admin with
  | none =>
      rw [hadmin] at hboot
      refine ⟨_, hboot Repository.fresh rfl, fun admin hnone => ?_⟩
      cases hnone
  | some admin =>
      obtain ⟨husername, hnamed, hpassword, hfilled⟩ := hsound.admin hadmin
      obtain ⟨hash, hhashed, hverify⟩ := hserves admin.password
      rw [hadmin] at hboot
      refine ⟨_, hboot _ (ensureAdmin_fresh hnamed hfilled hhashed), ?_⟩
      rintro _ ⟨⟩
      exact ⟨husername, hpassword, fun now id => admitted_of_adminOnly rfl haccepts hverify⟩

/-- Variables that ask for an administrator whose name begins with a blank, and for tokens that last one second. -/
def rootVariables : String → Option String
  | "CREATE_ADMIN" => some "TRUE"
  | "ADMIN_USERNAME" => some " root"
  | "ADMIN_PASSWORD" => some "pw"
  | "ACCESS_TOKEN_LIFESPAN_SECONDS" => some "+1"
  | _ => none

def rootSettings : Settings where
  host := "127.0.0.1"
  port := 9969
  store := .memory
  documentKey := "mgr/dashboard/accessdb_v2"
  issuer := "http://localhost:9969"
  lifespan := 1
  admin := some ⟨" root", "pw"⟩

theorem root_is_admitted :
    Settings.ofVariables rootVariables = .ok rootSettings ∧
      ∃ api, boot ⟨0, .marking⟩ echoing [7] id rootSettings .empty = .ok api ∧
        ∃ l, Admitted api ⟨" root", "pw"⟩ (adminEnters ⟨" root", "pw"⟩ .marking 5 "id") l := by
  have hread : Settings.ofVariables rootVariables = .ok rootSettings := by rfl
  have hserves : Hasher.marking.Serves .marking := fun secret => ⟨_, rfl, congrArg Except.ok (beq_self_eq_true _)⟩
  have haccepts : Signer.AcceptsOwn ⟨echoing, [7], rootSettings.issuer⟩ := fun message => beq_self_eq_true _
  obtain ⟨api, hboot, hadmin⟩ := accepted_settings_boot hread rfl ⟨0, .marking⟩ hserves haccepts id
  obtain ⟨-, -, hadmitted⟩ := hadmin ⟨" root", "pw"⟩ rfl
  exact ⟨hread, api, hboot, hadmitted 5 "id"⟩

end Api

end AccessControl
