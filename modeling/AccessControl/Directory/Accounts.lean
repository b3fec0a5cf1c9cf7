import AccessControl.Attempt
import AccessControl.Directory

/-!
Reading and changing accounts. Every change checks all it demands before it touches the directory, and
returns the changed directory beside its answer.
-/

namespace AccessControl

structure AccountInput where
  username : String
  password : Option String
  name : Option String
  email : Option String
  enabled : Bool
  roles : List String
  pwdExpirationDate : Option Int64
  pwdUpdateRequired : Bool
  deriving DecidableEq

namespace AccountInput

/-- The password that is asked for, if it is not empty. -/
def secret? (input : AccountInput) : Option String := input.password.filter (· ≠ "")

def account (input : AccountInput) (passwordHash : String) (expiration : Option Int64)
    (now : Int64) : Account :=
  { username := input.username, roles := input.roles, passwordHash, name := input.name, email := input.email,
    lastUpdate := now, enabled := input.enabled, pwdExpirationDate := expiration,
    pwdUpdateRequired := input.pwdUpdateRequired }

end AccountInput

/-- What an attempt finds around it: the time and the hasher. -/
structure Circumstances where
  now : Int64
  hasher : Hasher

namespace Directory

def putAccount (d : Directory) (key : String) (a : Account) : Directory := { d with users := d.users.insert key a }

def getAccount (d : Directory) (username : String) : Except AccessError Account :=
  present (d.users.get? username) (.accountNotFound username)

/-- Refuses the first name that stands for no role. -/
def checkRoles (d : Directory) (names : List String) : Except AccessError Unit :=
  match names.find? (!d.knowsRole ·) with
  | some name => .error (.unresolvedRole name)
  | none => .ok ()

def createAccount (c : Circumstances) (input : AccountInput) (d : Directory) : Attempt (Account × Directory) := do
  let username ← FilledText.required input.username .blankUsername
  let secret ← present input.secret? .emptyPassword
  let passwordHash ← c.hasher.hashing secret
  demand (!d.users.contains username.text) (.accountExists username.text)
  d.checkRoles input.roles
  let account := { input.account passwordHash input.pwdExpirationDate c.now with username := username.text }
  return (account, d.putAccount username.text account)

def hashNew (h : Hasher) : Option String → Attempt (Option String)
  | some secret => do return some (← h.hashing secret)
  | none => return none

/-- Replaces an account. Without a new secret the hash and the expiration date stay. -/
def updateAccount (c : Circumstances) (input : AccountInput) (d : Directory) : Attempt (Account × Directory) := do
  let newHash ← hashNew c.hasher input.secret?
  let previous ← d.getAccount input.username
  d.checkRoles input.roles
  let account :=
    match newHash with
    | some passwordHash => input.account passwordHash input.pwdExpirationDate c.now
    | none => input.account previous.passwordHash previous.pwdExpirationDate c.now
  return (account, d.putAccount input.username account)

/-- Removes an account. It need not exist. -/
def deleteAccount (username : String) (d : Directory) : Directory := { d with users := d.users.erase username }

def changePassword (c : Circumstances) (username current new : String) (d : Directory) : Attempt Directory := do
  demand (new ≠ "") .emptyNewPassword
  let account ← d.getAccount username
  demand (← c.hasher.verify current account.passwordHash) .wrongCurrentPassword
  let passwordHash ← c.hasher.hashing new
  return d.putAccount username { account with passwordHash, pwdUpdateRequired := false, lastUpdate := c.now }

def adminInput (username password : String) (email : Option String) : AccountInput :=
  { username, password := some password, name := some "default administrator", email, enabled := true,
    roles := ["administrator"], pwdExpirationDate := none, pwdUpdateRequired := false }

/-- Creates the administrator's account, or resets it and keeps its email. -/
def ensureAdmin (c : Circumstances) (username password : String) (d : Directory) :
    Attempt (Account × Directory) :=
  match d.users.get? username with
  | some existing => d.updateAccount c (adminInput username password existing.email)
  | none => d.createAccount c (adminInput username password none)

def verifyCredentials (h : Hasher) (username password : String) (d : Directory) : Except AccessError Account := do
  let account ← present (d.users.get? username) .badCredentials
  demand account.enabled .badCredentials
  demand (← h.verify password account.passwordHash) .badCredentials
  return account

end Directory

end AccessControl
