import AccessControl.Proofs.Directory.Changes

/-!
Directories seen without their password hashes. Redaction blanks every hash and forgets how secrets are checked. A
command that checks no password comes to the same on a directory and on what redaction leaves of it
(`attempt_redacted`), so nothing it does, and no refusal of it, depends on a hash.
-/

namespace AccessControl

/-! ### What redaction leaves -/

/-- The account with no hash. -/
def Account.redacted (a : Account) : Account := { a with passwordHash := "" }

/-- What is left of a hasher without its hashes: whether it makes one of a secret, and how it fails if it does not. -/
def Hasher.redacted (h : Hasher) : Hasher := ⟨fun secret => (fun _ => "") <$> h.hash secret, fun _ _ => .ok false⟩

def Circumstances.redacted (c : Circumstances) : Circumstances := ⟨c.now, c.hasher.redacted⟩

def Directory.redacted (d : Directory) : Directory := ⟨d.users.map Account.redacted, d.roles⟩

def Answer.redacted : Answer → Answer
  | done => .done
  | account a => .account a.redacted
  | role r => .role r

/-- The command compares a password with a stored hash. -/
def Command.ChecksSecret : Command → Prop
  | changePassword _ _ _ => True
  | _ => False

namespace Directory

/-! ### Reading -/

@[simp] theorem redacted_checkRoles (d : Directory) (names : List String) :
    d.redacted.checkRoles names = d.checkRoles names := rfl

@[simp] theorem redacted_getAccount (d : Directory) (username : String) :
    d.redacted.getAccount username = Account.redacted <$> d.getAccount username := by
  rw [getAccount, getAccount, redacted, Table.get?_map]
  cases d.users.get? username with
  | some a => rfl
  | none => rfl

@[simp] theorem redacted_accounts (d : Directory) : d.redacted.accounts = d.accounts.map Account.redacted := by
  simp only [accounts, sortAccounts, redacted, Table.values_map]
  refine (List.map_mergeSort fun a _ b _ => ?_).symm
  rfl

@[simp] theorem redacted_holders (d : Directory) (role : String) :
    d.redacted.holders role = (d.holders role).map Account.redacted := by
  simp only [holders, redacted, Table.values_map, List.filter_map]
  rfl

@[simp] theorem redacted_effectivePermissions (d : Directory) (username : String) :
    d.redacted.effectivePermissions username = d.effectivePermissions username := by
  simp only [effectivePermissions, redacted, Table.get?_map]
  cases d.users.get? username with
  | some a => rfl
  | none => rfl

/-! ### Accounts -/

@[simp] theorem redacted_putAccount (d : Directory) (key : String) (a : Account) :
    (d.putAccount key a).redacted = d.redacted.putAccount key a.redacted := by
  simp only [putAccount, redacted, Table.map_insert]

@[simp] theorem redacted_deleteAccount (d : Directory) (username : String) :
    (d.deleteAccount username).redacted = d.redacted.deleteAccount username := by
  simp only [deleteAccount, redacted, Table.map_erase]

theorem createAccount_redacted (c : Circumstances) (input : AccountInput) (d : Directory) :
    (d.redacted.createAccount c.redacted input).outcome =
      Prod.map Account.redacted redacted <$> (d.createAccount c input).outcome := by
  have hcontains : d.redacted.users.contains input.username = d.users.contains input.username := Table.contains_map ..
  rw [outcome_createAccount, outcome_createAccount]
  simp only [Circumstances.redacted, Hasher.redacted, hcontains, redacted_checkRoles, map_bind, bind_map_left, map_pure,
    Prod.map, redacted_putAccount]
  rfl

theorem hashNew_redacted (h : Hasher) (secret : Option String) :
    (hashNew h.redacted secret).outcome = (Option.map fun _ => "") <$> (hashNew h secret).outcome := by
  cases secret with
  | some secret =>
      simp only [hashNew, Hasher.redacted, Attempt.outcome_bind, Attempt.outcome_pure, Attempt.outcome_hashing,
        map_bind, bind_map_left, map_ok, Option.map_some]
  | none => rfl

theorem updateAccount_redacted (c : Circumstances) (input : AccountInput) (d : Directory) :
    (d.redacted.updateAccount c.redacted input).outcome =
      Prod.map Account.redacted redacted <$> (d.updateAccount c input).outcome := by
  simp only [updateAccount, Circumstances.redacted, hashNew_redacted, redacted_getAccount, redacted_checkRoles,
    Attempt.outcome_bind, Attempt.outcome_lift, Attempt.outcome_pure, map_bind, bind_map_left, map_ok, Prod.map,
    redacted_putAccount]
  refine bind_congr fun hash => ?_
  cases hash with
  | some hash => rfl
  | none => rfl

theorem ensureAdmin_redacted (c : Circumstances) (username password : String) (d : Directory) :
    (d.redacted.ensureAdmin c.redacted username password).outcome =
      Prod.map Account.redacted redacted <$> (d.ensureAdmin c username password).outcome := by
  have hget : d.redacted.users.get? username = (d.users.get? username).map Account.redacted := Table.get?_map ..
  rw [ensureAdmin, ensureAdmin, hget]
  cases d.users.get? username with
  | some existing => exact updateAccount_redacted c _ d
  | none => exact createAccount_redacted c _ d

/-! ### Roles -/

theorem createRole_redacted (input : RoleInput) (d : Directory) :
    d.redacted.createRole input = Prod.map id redacted <$> d.createRole input := by
  simp only [createRole, map_bind]
  rfl

theorem updateRole_redacted (input : RoleInput) (d : Directory) :
    d.redacted.updateRole input = Prod.map id redacted <$> d.updateRole input := by
  simp only [updateRole, map_bind]
  rfl

theorem cloneRole_redacted (source name : String) (d : Directory) :
    d.redacted.cloneRole source name = Prod.map id redacted <$> d.cloneRole source name := by
  simp only [cloneRole, map_bind]
  rfl

theorem deleteRole_redacted (name : String) (d : Directory) :
    d.redacted.deleteRole name = redacted <$> d.deleteRole name := by
  simp only [deleteRole, map_bind, redacted_holders]
  cases d.holders name with
  | nil => rfl
  | cons holder rest => rfl

end Directory

/-! ### Commands -/

namespace Command

theorem answeringAccount_redacted {x y : Attempt (Account × Directory)}
    (h : y.outcome = Prod.map Account.redacted Directory.redacted <$> x.outcome) :
    (answeringAccount y).outcome = Prod.map Answer.redacted Directory.redacted <$> (answeringAccount x).outcome := by
  simp only [outcome_answeringAccount, h, Functor.map_map]
  rfl

theorem answeringRole_redacted {x y : Except AccessError (Role × Directory)}
    (h : y = Prod.map id Directory.redacted <$> x) :
    (answeringRole y).outcome = Prod.map Answer.redacted Directory.redacted <$> (answeringRole x).outcome := by
  simp only [outcome_answeringRole, h, Functor.map_map]
  rfl

/-- A command that checks no password comes to the same on a redacted directory, up to the hashes in its answer and in
what it makes of the directory. -/
theorem attempt_redacted (c : Circumstances) (d : Directory) {command : Command} (h : ¬ command.ChecksSecret) :
    (command.attempt c.redacted d.redacted).outcome =
      Prod.map Answer.redacted Directory.redacted <$> (command.attempt c d).outcome := by
  cases command with
  | createAccount input => exact answeringAccount_redacted (Directory.createAccount_redacted c input d)
  | updateAccount input => exact answeringAccount_redacted (Directory.updateAccount_redacted c input d)
  | deleteAccount username =>
      show Except.ok (Answer.done, d.redacted.deleteAccount username) = Except.ok (Answer.done, _)
      rw [Directory.redacted_deleteAccount]
  | changePassword username current new => exact absurd trivial h
  | ensureAdmin username password =>
      simp only [attempt, Attempt.outcome_bind, Directory.ensureAdmin_redacted, bind_map_left, map_bind]
      rfl
  | createRole input => exact answeringRole_redacted (Directory.createRole_redacted input d)
  | updateRole input => exact answeringRole_redacted (Directory.updateRole_redacted input d)
  | deleteRole name =>
      simp only [attempt, Attempt.outcome_bind, Attempt.outcome_lift, Directory.deleteRole_redacted, bind_map_left,
        map_bind]
      rfl
  | cloneRole source name => exact answeringRole_redacted (Directory.cloneRole_redacted source name d)

end Command

end AccessControl
