import AccessControl.Command
import AccessControl.Proofs.Attempt
import AccessControl.Proofs.Table

/-!
What the commands do to a directory. For each command that can be refused it is said exactly when it is
not, and with what result; together, a command changes a directory in one of five ways (`attempt_change`).
-/

namespace AccessControl

/-- The input names this secret. An empty one counts as none. -/
def AccountInput.Brings (input : AccountInput) (secret : String) : Prop := input.password = some secret ∧ secret ≠ ""

theorem AccountInput.secret?_eq_some {input : AccountInput} {secret : String} :
    input.secret? = some secret ↔ input.Brings secret := by
  rw [secret?, Option.filter_eq_some_iff, decide_eq_true_eq, Brings]

/-- The account that replaces `previous`: without a new hash the old one and its expiration date stay. -/
def AccountInput.renewal (input : AccountInput) (previous : Account) (now : Int64) : Option String → Account
  | some hash => input.account hash input.pwdExpirationDate now
  | none => input.account previous.passwordHash previous.pwdExpirationDate now

theorem AccountInput.renewal_username (input : AccountInput) (previous : Account) (now : Int64)
    (hash : Option String) : (input.renewal previous now hash).username = input.username := by
  cases hash <;> rfl

theorem AccountInput.renewal_roles (input : AccountInput) (previous : Account) (now : Int64)
    (hash : Option String) : (input.renewal previous now hash).roles = input.roles := by
  cases hash <;> rfl

/-- To require a text that is not blank is to demand that it is not, if what follows looks at nothing but the text. -/
theorem FilledText.required_bind {α : Type} {text : String} {cause : AccessError}
    {f : FilledText → Except AccessError α} {x : Except AccessError α} (hf : ∀ name, name.text = text → f name = x) :
    (required text cause >>= f) = demand (!blankText text) cause >>= fun _ => x := by
  cases hblank : blankText text with
  | true =>
      rw [required_of_blank hblank]
      rfl
  | false =>
      rw [required_of_filled hblank]
      exact hf ⟨text, hblank⟩ rfl

theorem Role.custom_eq (name : String) (description : Option String) (grants : Grants) :
    Role.custom name description grants =
      demand (!blankText name) .blankRoleName >>= fun _ => .ok ⟨name, description, false, grants⟩ := by
  refine FilledText.required_bind fun filled hfilled => ?_
  rw [hfilled]
  rfl

theorem Role.custom_eq_ok {name : String} {description : Option String} {grants : Grants} {r : Role} :
    Role.custom name description grants = .ok r ↔
      blankText name = false ∧ ⟨name, description, false, grants⟩ = r := by
  simp [custom_eq]

theorem RoleInput.role_eq_ok {input : RoleInput} {act : SystemRoleAct} {r : Role} :
    input.role act = .ok r ↔
      ∃ grants, Grants.ofNames input.grants.entries = .ok grants ∧ input.system = false ∧
        blankText input.name = false ∧ ⟨input.name, input.description, false, grants⟩ = r := by
  simp [role, Role.custom_eq_ok]

namespace Command

theorem outcome_answeringAccount (x : Attempt (Account × Directory)) :
    (answeringAccount x).outcome = Prod.map .account id <$> x.outcome := by
  rw [answeringAccount, Attempt.outcome_bind, map_eq_pure_bind]
  rfl

theorem outcome_answeringRole (x : Except AccessError (Role × Directory)) :
    (answeringRole x).outcome = Prod.map .role id <$> x := by
  rw [answeringRole, Attempt.outcome_bind, Attempt.outcome_lift, map_eq_pure_bind]
  rfl

theorem outcome_done (x : Attempt Directory) :
    (do return (Answer.done, ← x) : Attempt (Answer × Directory)).outcome = (.done, ·) <$> x.outcome := by
  rw [Attempt.outcome_bind, map_eq_pure_bind]
  rfl

variable {d next : Directory} {answer : Answer}

theorem answeringAccount_eq_ok {x : Attempt (Account × Directory)} :
    (answeringAccount x).outcome = .ok (answer, next) ↔ ∃ a, x.outcome = .ok (a, next) ∧ .account a = answer := by
  rw [answeringAccount, Attempt.outcome_bind, bind_eq_ok]
  constructor
  · rintro ⟨⟨a, d⟩, hx, h⟩
    cases h
    exact ⟨a, hx, rfl⟩
  · rintro ⟨a, hx, rfl⟩
    exact ⟨(a, next), hx, rfl⟩

theorem answeringRole_eq_ok {x : Except AccessError (Role × Directory)} :
    (answeringRole x).outcome = .ok (answer, next) ↔ ∃ r, x = .ok (r, next) ∧ .role r = answer := by
  rw [answeringRole, Attempt.outcome_bind, Attempt.outcome_lift, bind_eq_ok]
  constructor
  · rintro ⟨⟨r, d⟩, hx, h⟩
    cases h
    exact ⟨r, hx, rfl⟩
  · rintro ⟨r, hx, rfl⟩
    exact ⟨(r, next), hx, rfl⟩

theorem done_eq_ok {x : Attempt Directory} :
    (do return (Answer.done, ← x) : Attempt (Answer × Directory)).outcome = .ok (answer, next) ↔
      x.outcome = .ok next ∧ .done = answer := by
  rw [Attempt.outcome_bind, bind_eq_ok]
  constructor
  · rintro ⟨d, hx, h⟩
    cases h
    exact ⟨hx, rfl⟩
  · rintro ⟨hx, rfl⟩
    exact ⟨next, hx, rfl⟩

end Command

namespace Directory

theorem knowsRole_eq_true {d : Directory} {name : String} :
    d.knowsRole name = true ↔ Catalogue.reserves name = true ∨ d.roles.contains name = true := by
  rw [knowsRole, Bool.or_eq_true]

theorem knowsRole_eq_false {d : Directory} {name : String} :
    d.knowsRole name = false ↔ Catalogue.reserves name = false ∧ d.roles.contains name = false := by
  rw [knowsRole, Bool.or_eq_false_iff]

@[simp] theorem checkRoles_eq_ok {d : Directory} {names : List String} {u : Unit} :
    d.checkRoles names = .ok u ↔ ∀ name ∈ names, d.knowsRole name = true := by
  rw [checkRoles]
  cases hfind : names.find? (!d.knowsRole ·) with
  | some name =>
      have hunknown := List.find?_some hfind
      have hmem := List.mem_of_find?_eq_some hfind
      constructor
      · intro h
        cases h
      · intro h
        rw [h name hmem] at hunknown
        cases hunknown
  | none =>
      rw [List.find?_eq_none] at hfind
      exact ⟨fun _ name hmem => by simpa using hfind name hmem, fun _ => rfl⟩

/-- Some account holds the role of this name. -/
def Assigns (d : Directory) (name : String) : Prop := ∃ key a, d.users.get? key = some a ∧ name ∈ a.roles

theorem holders_eq_nil {d : Directory} {name : String} : d.holders name = [] ↔ ¬ d.Assigns name := by
  rw [holders, List.filter_eq_nil_iff]
  constructor
  · rintro h ⟨key, a, hget, hmem⟩
    exact h a (Table.mem_values_iff.2 ⟨key, hget⟩) (List.contains_iff_mem.2 hmem)
  · intro h a hmem hrole
    obtain ⟨key, hget⟩ := Table.mem_values_iff.1 hmem
    exact h ⟨key, a, hget, List.contains_iff_mem.1 hrole⟩

/-! ### Accounts -/

section Accounts

variable {c : Circumstances} {d next : Directory} {a : Account}

/-- What creating an account comes to, with the demand that its name is not blank written out. -/
theorem outcome_createAccount (c : Circumstances) (input : AccountInput) (d : Directory) :
    (d.createAccount c input).outcome = do
      demand (!blankText input.username) .blankUsername
      let secret ← present input.secret? .emptyPassword
      let hash ← c.hasher.hash secret
      demand (!d.users.contains input.username) (.accountExists input.username)
      d.checkRoles input.roles
      return (input.account hash input.pwdExpirationDate c.now,
        d.putAccount input.username (input.account hash input.pwdExpirationDate c.now)) := by
  simp only [createAccount, Attempt.outcome_bind, Attempt.outcome_lift, Attempt.outcome_hashing, Attempt.outcome_pure]
  refine FilledText.required_bind fun username husername => ?_
  rw [husername]
  rfl

theorem createAccount_eq_ok {input : AccountInput} :
    (d.createAccount c input).outcome = .ok (a, next) ↔
      blankText input.username = false ∧
      ∃ secret, input.secret? = some secret ∧ ∃ hash, c.hasher.hash secret = .ok hash ∧
        d.users.contains input.username = false ∧ (∀ name ∈ input.roles, d.knowsRole name = true) ∧
        input.account hash input.pwdExpirationDate c.now = a ∧
        d.putAccount input.username (input.account hash input.pwdExpirationDate c.now) = next := by
  simp [outcome_createAccount]

theorem updateAccount_eq_ok {input : AccountInput} :
    (d.updateAccount c input).outcome = .ok (a, next) ↔
      ∃ hash, (hashNew c.hasher input.secret?).outcome = .ok hash ∧
      ∃ previous, d.users.get? input.username = some previous ∧
        (∀ name ∈ input.roles, d.knowsRole name = true) ∧ input.renewal previous c.now hash = a ∧
        d.putAccount input.username (input.renewal previous c.now hash) = next := by
  simp only [updateAccount, getAccount, Attempt.outcome_bind, Attempt.outcome_lift, Attempt.outcome_pure,
    bind_eq_ok, present_eq_ok, checkRoles_eq_ok, exists_const, Except.ok.injEq, Prod.mk.injEq]
  rfl

theorem changePassword_eq_ok {username current new : String} :
    (d.changePassword c username current new).outcome = .ok next ↔
      new ≠ "" ∧ ∃ a, d.users.get? username = some a ∧ c.hasher.verify current a.passwordHash = .ok true ∧
        ∃ hash, c.hasher.hash new = .ok hash ∧
          d.putAccount username { a with passwordHash := hash, pwdUpdateRequired := false, lastUpdate := c.now } =
            next := by
  simp [changePassword, getAccount]

theorem ensureAdmin_eq_ok {username password : String} :
    (d.ensureAdmin c username password).outcome = .ok (a, next) ↔
      (∃ previous, d.users.get? username = some previous ∧
        (d.updateAccount c (adminInput username password previous.email)).outcome = .ok (a, next)) ∨
      (d.users.get? username = none ∧
        (d.createAccount c (adminInput username password none)).outcome = .ok (a, next)) := by
  rw [ensureAdmin]
  cases d.users.get? username with
  | some previous => simp
  | none => simp

end Accounts

/-! ### Roles -/

section Roles

variable {d next : Directory} {r : Role}

theorem createRole_eq_ok {input : RoleInput} :
    d.createRole input = .ok (r, next) ↔
      d.knowsRole input.name = false ∧ input.role .created = .ok r ∧ d.putRole r = next := by
  simp only [createRole, bind_eq_ok, demand_eq_ok, pure_eq_ok, Prod.mk.injEq, Bool.not_eq_true']
  constructor
  · rintro ⟨-, hfree, role, hrole, rfl, rfl⟩
    exact ⟨hfree, hrole, rfl⟩
  · rintro ⟨hfree, hrole, rfl⟩
    exact ⟨(), hfree, r, hrole, rfl, rfl⟩

theorem updateRole_eq_ok {input : RoleInput} :
    d.updateRole input = .ok (r, next) ↔
      Catalogue.reserves input.name = false ∧ d.roles.contains input.name = true ∧
        input.role .modified = .ok r ∧ d.putRole r = next := by
  simp only [updateRole, bind_eq_ok, demand_eq_ok, pure_eq_ok, Prod.mk.injEq, Bool.not_eq_true']
  constructor
  · rintro ⟨-, hfree, -, hknown, role, hrole, rfl, rfl⟩
    exact ⟨hfree, hknown, hrole, rfl⟩
  · rintro ⟨hfree, hknown, hrole, rfl⟩
    exact ⟨(), hfree, (), hknown, r, hrole, rfl, rfl⟩

theorem deleteRole_eq_ok {name : String} :
    d.deleteRole name = .ok next ↔
      Catalogue.reserves name = false ∧ d.roles.contains name = true ∧ d.holders name = [] ∧
        { d with roles := d.roles.erase name } = next := by
  rw [deleteRole]
  cases d.holders name with
  | nil => simp
  | cons holder rest => simp

theorem cloneRole_eq_ok {source name : String} :
    d.cloneRole source name = .ok (r, next) ↔
      ∃ role, d.resolve? source = some role ∧ role.cloneAs name = .ok r ∧ d.knowsRole name = false ∧
        d.putRole r = next := by
  simp only [cloneRole, bind_eq_ok, present_eq_ok, demand_eq_ok, pure_eq_ok, Prod.mk.injEq, Bool.not_eq_true']
  constructor
  · rintro ⟨role, hsource, clone, hclone, -, hfree, rfl, rfl⟩
    exact ⟨role, hsource, hclone, hfree, rfl⟩
  · rintro ⟨role, hsource, hclone, hfree, rfl⟩
    exact ⟨role, hsource, r, hclone, (), hfree, rfl, rfl⟩

end Roles

/-! ### The five changes -/

/-- What a command that is not refused makes of a directory. -/
inductive Change (d : Directory) : Directory → Prop
  | account (a : Account) (named : blankText a.username = false ∨ d.users.contains a.username = true)
      (resolved : ∀ name ∈ a.roles, d.knowsRole name = true) : Change d (d.putAccount a.username a)
  | secret (key : String) (a b : Account) (held : d.users.get? key = some a) (sameName : b.username = a.username)
      (sameRoles : b.roles = a.roles) : Change d (d.putAccount key b)
  | accountGone (key : String) : Change d (d.deleteAccount key)
  | role (r : Role) (named : blankText r.name = false) (free : Catalogue.reserves r.name = false)
      (custom : r.system = false) : Change d (d.putRole r)
  | roleGone (name : String) (free : ¬ d.Assigns name) : Change d { d with roles := d.roles.erase name }

theorem Change.ofRole {d : Directory} {input : RoleInput} {act : SystemRoleAct} {r : Role}
    (hrole : input.role act = .ok r) (hfree : Catalogue.reserves input.name = false) : Change d (d.putRole r) := by
  obtain ⟨grants, -, -, hnamed, rfl⟩ := RoleInput.role_eq_ok.1 hrole
  exact Change.role _ hnamed hfree rfl

section Commands

variable {c : Circumstances} {d next : Directory}

theorem createAccount_change {input : AccountInput} {a : Account}
    (h : (d.createAccount c input).outcome = .ok (a, next)) : Change d next := by
  obtain ⟨hnamed, secret, -, hash, -, -, hroles, -, rfl⟩ := createAccount_eq_ok.1 h
  exact Change.account (input.account hash input.pwdExpirationDate c.now) (Or.inl hnamed) hroles

theorem updateAccount_change {input : AccountInput} {a : Account}
    (h : (d.updateAccount c input).outcome = .ok (a, next)) : Change d next := by
  obtain ⟨hash, -, previous, hget, hroles, -, rfl⟩ := updateAccount_eq_ok.1 h
  have hname := input.renewal_username previous c.now hash
  have hheld : d.users.contains (input.renewal previous c.now hash).username = true := by
    rw [hname, Table.contains, hget]
    rfl
  have hknown : ∀ name ∈ (input.renewal previous c.now hash).roles, d.knowsRole name = true := by
    rwa [input.renewal_roles previous c.now hash]
  have hchange := Change.account (input.renewal previous c.now hash) (Or.inr hheld) hknown
  rwa [hname] at hchange

theorem createRole_change {input : RoleInput} {r : Role} (h : d.createRole input = .ok (r, next)) :
    Change d next := by
  obtain ⟨hfree, hrole, rfl⟩ := createRole_eq_ok.1 h
  exact Change.ofRole hrole (knowsRole_eq_false.1 hfree).1

theorem updateRole_change {input : RoleInput} {r : Role} (h : d.updateRole input = .ok (r, next)) :
    Change d next := by
  obtain ⟨hfree, -, hrole, rfl⟩ := updateRole_eq_ok.1 h
  exact Change.ofRole hrole hfree

theorem cloneRole_change {source name : String} {r : Role} (h : d.cloneRole source name = .ok (r, next)) :
    Change d next := by
  obtain ⟨role, -, hclone, hfree, rfl⟩ := cloneRole_eq_ok.1 h
  obtain ⟨hnamed, rfl⟩ := Role.custom_eq_ok.1 hclone
  exact Change.role _ hnamed (knowsRole_eq_false.1 hfree).1 rfl

/-- Each of the nine commands changes a directory in one of the five ways, if it is not refused. -/
theorem attempt_change {command : Command} {answer : Answer}
    (h : (command.attempt c d).outcome = .ok (answer, next)) : Change d next := by
  cases command with
  | createAccount input =>
      obtain ⟨a, h, -⟩ := Command.answeringAccount_eq_ok.1 h
      exact createAccount_change h
  | updateAccount input =>
      obtain ⟨a, h, -⟩ := Command.answeringAccount_eq_ok.1 h
      exact updateAccount_change h
  | deleteAccount username =>
      cases h
      exact Change.accountGone username
  | changePassword username current new =>
      obtain ⟨h, -⟩ := Command.done_eq_ok.1 h
      obtain ⟨-, a, hget, -, hash, -, rfl⟩ := changePassword_eq_ok.1 h
      exact Change.secret username a _ hget rfl rfl
  | ensureAdmin username password =>
      rw [Command.attempt, Attempt.outcome_bind, bind_eq_ok] at h
      obtain ⟨⟨a, d'⟩, h, hnext⟩ := h
      cases hnext
      rcases ensureAdmin_eq_ok.1 h with ⟨previous, -, h⟩ | ⟨-, h⟩
      · exact updateAccount_change h
      · exact createAccount_change h
  | createRole input =>
      obtain ⟨r, h, -⟩ := Command.answeringRole_eq_ok.1 h
      exact createRole_change h
  | updateRole input =>
      obtain ⟨r, h, -⟩ := Command.answeringRole_eq_ok.1 h
      exact updateRole_change h
  | deleteRole name =>
      obtain ⟨h, -⟩ := Command.done_eq_ok.1 h
      obtain ⟨-, -, hholders, rfl⟩ := deleteRole_eq_ok.1 h
      exact Change.roleGone name (holders_eq_nil.1 hholders)
  | cloneRole source name =>
      obtain ⟨r, h, -⟩ := Command.answeringRole_eq_ok.1 h
      exact cloneRole_change h

end Commands

end Directory

end AccessControl
