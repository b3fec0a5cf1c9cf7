import AccessControl.Proofs.Directory.Changes
import AccessControl.Proofs.Repository.Operation

/-!
Writes that work on the cache in place. A step of such a write may fail after an earlier one has assigned something,
and nothing takes the assignment back. The nine commands check all they demand before their first assignment, so they
come to the same as the commands that work on a copy (`performInPlace_eq`), and a command that is refused leaves
everything as it was (`write_is_atomic`).
-/

namespace AccessControl

/-- Works on a directory in place: what was assigned before a failure stays. -/
abbrev Mutation := ExceptT AccessError (StateM Directory)

namespace Mutation

variable {α β : Type}

def check (x : Except AccessError α) : Mutation α := ExceptT.mk (pure x)

def assignAccount (key : String) (a : Account) : Mutation Unit := modify fun d => d.putAccount key a

/-- Assigns to a part of the account under `key`, if there is one. -/
def amendAccount (key : String) (f : Account → Account) : Mutation Unit :=
  modify fun d =>
    match d.users.get? key with
    | some a => d.putAccount key (f a)
    | none => d

def removeAccount (key : String) : Mutation Unit := modify fun d => d.deleteAccount key

def assignRole (key : String) (r : Role) : Mutation Unit := modify fun d => { d with roles := d.roles.insert key r }

def removeRole (key : String) : Mutation Unit := modify fun d => { d with roles := d.roles.erase key }

/-! ### The commands in place -/

def createAccount (c : Circumstances) (input : AccountInput) : Mutation Account := do
  let username ← check (FilledText.required input.username .blankUsername)
  let secret ← check (present input.secret? .emptyPassword)
  let passwordHash ← check (c.hasher.hash secret)
  let d ← get
  check (demand (!d.users.contains username.text) (.accountExists username.text))
  check (d.checkRoles input.roles)
  let account := { input.account passwordHash input.pwdExpirationDate c.now with username := username.text }
  assignAccount account.username account
  return account

def updateAccount (c : Circumstances) (input : AccountInput) : Mutation Account := do
  let newHash ← check (Directory.hashNew c.hasher input.secret?).outcome
  let d ← get
  let previous ← check (present (d.users.get? input.username) (.accountNotFound input.username))
  check (d.checkRoles input.roles)
  let account :=
    match newHash with
    | some passwordHash => input.account passwordHash input.pwdExpirationDate c.now
    | none => input.account previous.passwordHash previous.pwdExpirationDate c.now
  assignAccount account.username account
  return account

/-- The account is found in its place and changed there, field by field. -/
def changePassword (c : Circumstances) (username current new : String) : Mutation Unit := do
  check (demand (new ≠ "") .emptyNewPassword)
  let account ← check (present ((← get).users.get? username) (.accountNotFound username))
  check (demand (← check (c.hasher.verify current account.passwordHash)) .wrongCurrentPassword)
  let passwordHash ← check (c.hasher.hash new)
  amendAccount username fun a => { a with passwordHash }
  amendAccount username fun a => { a with pwdUpdateRequired := false }
  amendAccount username fun a => { a with lastUpdate := c.now }

def ensureAdmin (c : Circumstances) (username password : String) : Mutation Account := do
  match (← get).users.get? username with
  | some existing => updateAccount c (Directory.adminInput username password existing.email)
  | none => createAccount c (Directory.adminInput username password none)

/-- Puts a role under its name, which must not be taken. -/
def insertNewRole (r : Role) : Mutation Role := do
  check (demand (!(← get).knowsRole r.name) (.roleExists r.name))
  assignRole r.name r
  return r

def createRole (input : RoleInput) : Mutation Role := do
  check (demand (!Catalogue.reserves input.name) (.roleExists input.name))
  check (demand (!(← get).roles.contains input.name) (.roleExists input.name))
  insertNewRole (← check (input.role .created))

/-- The role is found in its place first and replaced there. -/
def updateRole (input : RoleInput) : Mutation Role := do
  check (demand (!Catalogue.reserves input.name) (.systemRole .modified))
  check (demand ((← get).roles.contains input.name) (.roleNotFound input.name))
  let role ← check (input.role .modified)
  assignRole input.name role
  return role

def deleteRole (name : String) : Mutation Unit := do
  check (demand (!Catalogue.reserves name) (.systemRole .deleted))
  let d ← get
  check (demand (d.roles.contains name) (.roleNotFound name))
  match d.holders name with
  | holder :: _ => throw (.roleInUse name holder.username)
  | [] => removeRole name

def cloneRole (source name : String) : Mutation Role := do
  let role ← check (present ((← get).resolve? source) (.roleNotFound source))
  insertNewRole (← check (role.cloneAs name))

end Mutation

def Command.inPlace (c : Circumstances) : Command → Mutation Answer
  | createAccount input => do return .account (← Mutation.createAccount c input)
  | updateAccount input => do return .account (← Mutation.updateAccount c input)
  | deleteAccount username => do Mutation.removeAccount username; return .done
  | changePassword username current new => do Mutation.changePassword c username current new; return .done
  | ensureAdmin username password => do let _ ← Mutation.ensureAdmin c username password; return .done
  | createRole input => do return .role (← Mutation.createRole input)
  | updateRole input => do return .role (← Mutation.updateRole input)
  | deleteRole name => do Mutation.deleteRole name; return .done
  | cloneRole source name => do return .role (← Mutation.cloneRole source name)

/-! ### Places and copies -/

namespace Directory

theorem get?_putAccount (d : Directory) (key : String) (a : Account) :
    (d.putAccount key a).users.get? key = some a :=
  Table.get?_insert_eq_some.2 (Or.inl ⟨rfl, rfl⟩)

theorem putAccount_putAccount (d : Directory) (key : String) (a b : Account) :
    (d.putAccount key a).putAccount key b = d.putAccount key b := by
  refine congrArg (Directory.mk · d.roles) (Table.ext_get? fun k => ?_)
  rw [putAccount, Table.get?_insert, Table.get?_insert, Table.get?_insert]
  split <;> rfl

end Directory

namespace Mutation

variable {α β : Type} {d : Directory}

/-- Comes from `d` to a result in its directory, or to an error in `d` itself. -/
def ComesTo (m : Mutation α) (d : Directory) : Except AccessError (α × Directory) → Prop
  | .ok (a, next) => m.run d = (.ok a, next)
  | .error e => m.run d = (.error e, d)

theorem ComesTo.check {x : Except AccessError α} {f : α → Mutation β} {g : α → Except AccessError (β × Directory)}
    (h : ∀ a, x = .ok a → ComesTo (f a) d (g a)) : ComesTo (Mutation.check x >>= f) d (x >>= g) := by
  cases x with
  | ok a => exact h a rfl
  | error e => exact rfl

theorem ComesTo.get {f : Directory → Mutation β} {x : Except AccessError (β × Directory)} (h : ComesTo (f d) d x) :
    ComesTo (MonadState.get >>= f) d x := by
  cases x with
  | ok y => exact h
  | error e => exact h

/-- An answer made of the result cannot fail, so it does not matter that the directory has changed by then. -/
theorem ComesTo.answering {m : Mutation α} {x : Except AccessError (α × Directory)} (h : ComesTo m d x) (f : α → β) :
    ComesTo (m >>= fun a => pure (f a)) d (x >>= fun y => .ok (f y.1, y.2)) := by
  have hrun : ∀ y d', m.run d = (y, d') → (m >>= fun a => pure (f a)).run d = (y.map f, d') := by
    intro y d' hm
    show (ExceptT.bindCont (fun a => pure (f a)) (m.run d).1 : StateM Directory _) (m.run d).2 = _
    rw [hm]
    cases y <;> rfl
  cases x with
  | ok y => exact hrun _ _ h
  | error e => exact hrun _ _ h

section Commands

variable (c : Circumstances) (d : Directory)

theorem createAccount_comesTo (input : AccountInput) :
    ComesTo (createAccount c input) d (d.createAccount c input).outcome := by
  simp only [Directory.createAccount, Attempt.outcome_bind, Attempt.outcome_lift, Attempt.outcome_hashing]
  refine ComesTo.check fun _ _ => ComesTo.check fun secret _ => ComesTo.check fun hash _ => ComesTo.get ?_
  refine ComesTo.check fun _ _ => ComesTo.check fun _ _ => ?_
  rfl

theorem updateAccount_comesTo (input : AccountInput) :
    ComesTo (updateAccount c input) d (d.updateAccount c input).outcome := by
  simp only [Directory.updateAccount, Directory.getAccount, Attempt.outcome_bind, Attempt.outcome_lift]
  refine ComesTo.check fun hash _ => ComesTo.get (ComesTo.check fun previous _ => ComesTo.check fun _ _ => ?_)
  cases hash with
  | none => rfl
  | some hash => rfl

/-- The three assignments come to the one account that is put in place of the old one. -/
theorem run_amendAccount {key : String} {a : Account} (hget : d.users.get? key = some a) (hash : String)
    (now : Int64) :
    (do amendAccount key fun a => { a with passwordHash := hash }
        amendAccount key fun a => { a with pwdUpdateRequired := false }
        amendAccount key fun a => { a with lastUpdate := now } : Mutation Unit).run d =
      (.ok (), d.putAccount key { a with passwordHash := hash, pwdUpdateRequired := false, lastUpdate := now }) := by
  have hamend : ∀ {d : Directory} {a : Account} (f : Account → Account), d.users.get? key = some a →
      (amendAccount key f).run d = (.ok (), d.putAccount key (f a)) := by
    intro d a f hget
    show (Except.ok (), match d.users.get? key with | some a => d.putAccount key (f a) | none => d) = _
    rw [hget]
  have hthen : ∀ {d d' : Directory} {m m' : Mutation Unit}, m.run d = (.ok (), d') →
      (do m; m' : Mutation Unit).run d = m'.run d' := by
    intro d d' m m' hm
    show (ExceptT.bindCont (fun _ => m') (m.run d).1 : StateM Directory _) (m.run d).2 = _
    rw [hm]
    rfl
  rw [hthen (hamend _ hget), hthen (hamend _ (d.get?_putAccount key _)), hamend _ (Directory.get?_putAccount _ key _),
    Directory.putAccount_putAccount, Directory.putAccount_putAccount]

theorem changePassword_comesTo (username current new : String) :
    ComesTo (changePassword c username current new) d
      ((fun next => ((), next)) <$> (d.changePassword c username current new).outcome) := by
  simp only [Directory.changePassword, Directory.getAccount, Attempt.outcome_bind, Attempt.outcome_lift,
    Attempt.outcome_hashing, map_bind]
  refine ComesTo.check fun _ _ => ComesTo.get (ComesTo.check fun a hheld => ComesTo.check fun _ _ => ?_)
  refine ComesTo.check fun _ _ => ComesTo.check fun hash _ => ?_
  exact run_amendAccount d (present_eq_ok.1 hheld) hash c.now

theorem ensureAdmin_comesTo (username password : String) :
    ComesTo (ensureAdmin c username password) d (d.ensureAdmin c username password).outcome := by
  rw [Directory.ensureAdmin]
  refine ComesTo.get ?_
  cases d.users.get? username with
  | some previous => exact updateAccount_comesTo c d _
  | none => exact createAccount_comesTo c d _

end Commands

section Roles

variable (d : Directory)

theorem demand_free (name : String) (e : AccessError) :
    demand (!d.knowsRole name) e =
      demand (!Catalogue.reserves name) e >>= fun _ => demand (!d.roles.contains name) e := by
  rw [Directory.knowsRole]
  cases Catalogue.reserves name <;> cases d.roles.contains name <;> rfl

theorem insertNewRole_comesTo (r : Role) :
    ComesTo (insertNewRole r) d (demand (!d.knowsRole r.name) (.roleExists r.name) >>= fun _ => .ok (r, d.putRole r)) :=
  ComesTo.get (ComesTo.check fun _ _ => rfl)

/-- The name is checked twice, and the second time it is still free. -/
theorem createRole_comesTo (input : RoleInput) : ComesTo (createRole input) d (d.createRole input) := by
  rw [Directory.createRole, demand_free, bind_assoc]
  refine ComesTo.check fun _ hnew => ComesTo.get (ComesTo.check fun _ hfree => ComesTo.check fun r hrole => ?_)
  have hinsert := insertNewRole_comesTo d r
  obtain ⟨grants, -, -, -, rfl⟩ := RoleInput.role_eq_ok.1 hrole
  rw [demand_free, hnew, hfree] at hinsert
  exact hinsert

theorem updateRole_comesTo (input : RoleInput) : ComesTo (updateRole input) d (d.updateRole input) := by
  refine ComesTo.check fun _ _ => ComesTo.get (ComesTo.check fun _ _ => ComesTo.check fun r hrole => ?_)
  obtain ⟨grants, -, -, -, rfl⟩ := RoleInput.role_eq_ok.1 hrole
  rfl

theorem deleteRole_comesTo (name : String) :
    ComesTo (deleteRole name) d ((fun next => ((), next)) <$> d.deleteRole name) := by
  simp only [Directory.deleteRole, map_bind]
  refine ComesTo.check fun _ _ => ComesTo.get (ComesTo.check fun _ _ => ?_)
  cases d.holders name with
  | nil => rfl
  | cons holder rest => rfl

theorem cloneRole_comesTo (source name : String) : ComesTo (cloneRole source name) d (d.cloneRole source name) := by
  refine ComesTo.get (ComesTo.check fun role _ => ComesTo.check fun clone hclone => ?_)
  obtain ⟨-, rfl⟩ := Role.custom_eq_ok.1 hclone
  exact insertNewRole_comesTo d _

end Roles

/-- Every command in place comes to what it attempts on a copy. In particular, where it fails it has not assigned
anything yet. -/
theorem inPlace_comesTo (c : Circumstances) (d : Directory) (command : Command) :
    ComesTo (command.inPlace c) d (command.attempt c d).outcome := by
  cases command with
  | createAccount input =>
      rw [Command.attempt, Command.answeringAccount, Attempt.outcome_bind]
      exact (createAccount_comesTo c d input).answering Answer.account
  | updateAccount input =>
      rw [Command.attempt, Command.answeringAccount, Attempt.outcome_bind]
      exact (updateAccount_comesTo c d input).answering Answer.account
  | deleteAccount username => exact rfl
  | changePassword username current new =>
      have h := (changePassword_comesTo c d username current new).answering fun _ => Answer.done
      rw [bind_map_left] at h
      rw [Command.attempt, Attempt.outcome_bind]
      exact h
  | ensureAdmin username password =>
      rw [Command.attempt, Attempt.outcome_bind]
      exact (ensureAdmin_comesTo c d username password).answering fun _ => Answer.done
  | createRole input =>
      rw [Command.attempt, Command.answeringRole, Attempt.outcome_bind]
      exact (createRole_comesTo d input).answering Answer.role
  | updateRole input =>
      rw [Command.attempt, Command.answeringRole, Attempt.outcome_bind]
      exact (updateRole_comesTo d input).answering Answer.role
  | deleteRole name =>
      have h := (deleteRole_comesTo d name).answering fun _ => Answer.done
      rw [bind_map_left] at h
      rw [Command.attempt, Attempt.outcome_bind]
      exact h
  | cloneRole source name =>
      rw [Command.attempt, Command.answeringRole, Attempt.outcome_bind]
      exact (cloneRole_comesTo d source name).answering Answer.role

end Mutation

namespace Repository

/-- Lets a mutation loose on the cache, and writes the cache through if the mutation does not fail. -/
def write {α : Type} (r : Repository) (m : Mutation α) : Except AccessError α × Repository :=
  match m.run r.cache with
  | (.error e, cache) => (.error e, ⟨r.store, cache⟩)
  | (.ok a, cache) =>
    match r.store.put (Document.ofDirectory cache).toBytes with
    | (.ok (), store) => (.ok a, ⟨store, cache⟩)
    | (.error e, store) => (.error e, ⟨store, reloaded store cache⟩)

def performInPlace (r : Repository) (op : Operation) : Except AccessError Answer × Repository :=
  write ⟨r.store.under op.faults, r.cache⟩ (op.command.inPlace op.circumstances)

theorem performInPlace_eq (r : Repository) (op : Operation) : r.performInPlace op = r.perform op := by
  have hcomes := Mutation.inPlace_comesTo op.circumstances r.cache op.command
  have hrun : r.perform op = commit ⟨r.store.under op.faults, r.cache⟩ (r.cache.attempted op) := rfl
  rw [hrun, performInPlace, write, Directory.attempted]
  generalize (op.command.attempt op.circumstances r.cache).outcome = x at *
  cases x with
  | ok y =>
      rw [show (op.command.inPlace op.circumstances).run r.cache = (.ok y.1, y.2) from hcomes]
      rfl
  | error e =>
      rw [show (op.command.inPlace op.circumstances).run r.cache = (.error e, r.cache) from hcomes]
      rfl

/-- The courses of an operation as far as its write goes: there is none, the store takes it, or the store answers with
an error. -/
theorem perform_cases (r : Repository) (op : Operation) :
    (∃ e, r.perform op = (.error e, ⟨r.store.under op.faults, r.cache⟩)) ∨
    (∃ answer next, op.faults.put = none ∧
      r.perform op = (.ok answer, ⟨(r.store.under op.faults).took next, next⟩)) ∨
    ∃ e cache, op.faults.put = some e ∧ r.perform op = (.error e, ⟨(r.store.under op.faults).tried, cache⟩) := by
  have hcourse := r.course op
  generalize r.perform op = x at *
  cases hcourse with
  | refused e refusal => exact Or.inl ⟨e, rfl⟩
  | stored answer next attempted accepted => exact Or.inr (Or.inl ⟨answer, next, accepted, rfl⟩)
  | restored answer next d e attempted rejected readable => exact Or.inr (Or.inr ⟨e, d, rejected, rfl⟩)
  | strayed answer next e e' attempted rejected unreadable => exact Or.inr (Or.inr ⟨e, next, rejected, rfl⟩)

/-- An operation in place comes to the same as on a copy. It writes at most once and succeeds exactly if it writes
and the store takes it; if it does not write, cache and store are what they were; and if the store does not take the
write, it answers with the error of the store, whatever comes of reading back. -/
theorem write_is_atomic (r : Repository) (op : Operation) :
    r.performInPlace op = r.perform op ∧
    ((r.performed op).store.puts = r.store.puts ∨ (r.performed op).store.puts = r.store.puts + 1) ∧
    ((∃ answer, (r.perform op).1 = .ok answer) ↔ r.Writes op ∧ op.faults.put = none) ∧
    (¬ r.Writes op → (r.performed op).cache = r.cache ∧ (r.performed op).store = r.store.under op.faults) ∧
    ∀ e, r.Writes op → op.faults.put = some e → (r.perform op).1 = .error e := by
  refine ⟨r.performInPlace_eq op, ?_⟩
  unfold Writes performed
  rcases r.perform_cases op with ⟨e, h⟩ | ⟨answer, next, haccepted, h⟩ | ⟨e, cache, hrejected, h⟩ <;> rw [h]
  · exact ⟨Or.inl rfl, ⟨nofun, fun hok => absurd rfl hok.1⟩, fun _ => ⟨rfl, rfl⟩, fun _ hwrites => absurd rfl hwrites⟩
  · refine ⟨Or.inr rfl, ⟨fun _ => ⟨Nat.succ_ne_self _, haccepted⟩, fun _ => ⟨answer, rfl⟩⟩,
      fun hidle => absurd (Nat.succ_ne_self _) hidle, fun e _ hput => ?_⟩
    rw [haccepted] at hput
    cases hput
  · refine ⟨Or.inr rfl, ⟨nofun, fun hok => ?_⟩, fun hidle => absurd (Nat.succ_ne_self _) hidle, fun e' _ hput => ?_⟩
    · rw [hrejected] at hok
      cases hok.2
    · rw [hrejected] at hput
      cases hput
      rfl

/-- In an outage, a new account is answered with the error of the store, and a role without a name leaves all as it
was. -/
theorem write_is_atomic_in_outage :
    fresh.Writes .lostAccount ∧ (fresh.perform .lostAccount).1 = .error (.other .internal "store unavailable") ∧
      ¬ fresh.Writes (.newRole " " .outage) ∧ (fresh.performed (.newRole " " .outage)).cache = fresh.cache := by
  have hwrites : fresh.Writes .lostAccount := by decide
  have hidle : ¬ fresh.Writes (.newRole " " .outage) := by decide
  obtain ⟨-, -, -, -, herror⟩ := write_is_atomic fresh .lostAccount
  obtain ⟨-, -, -, hkept, -⟩ := write_is_atomic fresh (.newRole " " .outage)
  exact ⟨hwrites, herror _ hwrites rfl, hidle, (hkept hidle).1⟩

end Repository

end AccessControl
