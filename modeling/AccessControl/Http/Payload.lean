import AccessControl.Command
import AccessControl.Document
import AccessControl.Gate

/-!
What travels in bodies: accounts without their password hashes, roles, logins and checks on the way out, and
what callers ask for on the way in.
-/

namespace AccessControl

open Json

/-! ### Answers -/

def Grants.shown (g : Grants) : Json := .ofEntries Json.texts (Grants.transport g).entries

def Account.shown (a : Account) : Json :=
  .record [("username", .text a.username), ("roles", .texts a.roles), ("name", .optional .text a.name),
    ("email", .optional .text a.email), ("last_update", .int a.lastUpdate), ("enabled", .bool a.enabled),
    ("pwd_expiration_date", .optional .int a.pwdExpirationDate),
    ("pwd_update_required", .bool a.pwdUpdateRequired)]

def Role.shown (r : Role) : Json :=
  .record [("name", .text r.name), ("description", .optional .text r.description), ("system", .bool r.system),
    ("scopes_permissions", Grants.shown r.grants)]

def Login.shown (l : Login) : Json :=
  .record [("token", .text l.token), ("expires_at", .int l.expiresAt), ("username", .text l.username),
    ("pwd_update_required", .bool l.pwdUpdateRequired),
    ("pwd_expiration_date", .optional .int l.pwdExpirationDate), ("permissions", Grants.shown l.permissions)]

def TokenCheck.shown (t : TokenCheck) : Json :=
  .record [("valid", .bool t.valid), ("username", .optional .text t.username),
    ("permissions", Grants.shown t.permissions)]

/-! ### Requests -/

namespace AccountInput

/-- The fields that may be given whenever an account is written. -/
def detailFields : List Field :=
  [field "name" (readOptional readText) true, field "email" (readOptional readText) true,
   field "enabled" readBool true, field "roles" (readList readText) true,
   field "pwd_expiration_date" (readOptional readInt) true, field "pwd_update_required" readBool true]

def readDetails (username : String) (password : Option String) (given : String → Option Json) :
    Read AccountInput := do
  let name ← withDefault none (readOptional readText) (given "name")
  let email ← withDefault none (readOptional readText) (given "email")
  let enabled ← withDefault true readBool (given "enabled")
  let roles ← withDefault [] (readList readText) (given "roles")
  let pwdExpirationDate ← withDefault none (readOptional readInt) (given "pwd_expiration_date")
  let pwdUpdateRequired ← withDefault false readBool (given "pwd_update_required")
  return { username, password, name, email, enabled, roles, pwdExpirationDate, pwdUpdateRequired }

def readNew : Json → Read AccountInput :=
  readRecord (field "username" readText false :: field "password" readText false :: detailFields) fun given => do
    let username ← required readText (given "username")
    let password ← required readText (given "password")
    readDetails username (some password) given

/-- An account that replaces the one of the given name. -/
def readReplacement (username : String) : Json → Read AccountInput :=
  readRecord (field "password" (readOptional readText) true :: detailFields) fun given => do
    let password ← withDefault none (readOptional readText) (given "password")
    readDetails username password given

end AccountInput

namespace RoleInput

def readGrants : Json → Read (Table String (List String)) := readTable .ok (readList readText)

def fields : List Field :=
  [field "name" readText true, field "description" (readOptional readText) true, field "system" readBool true,
   field "scopes_permissions" readGrants true]

def readJson : Json → Read RoleInput :=
  readRecord fields fun given => do
    let name ← withDefault "" readText (given "name")
    let description ← withDefault none (readOptional readText) (given "description")
    let system ← withDefault false readBool (given "system")
    let grants ← withDefault Table.empty readGrants (given "scopes_permissions")
    return { name, description, system, grants }

end RoleInput

def readTextPair (first second : String) : Json → Read (String × String) :=
  readRecord [field first readText false, field second readText false] fun given => do
    return (← required readText (given first), ← required readText (given second))

def readSingleText (name : String) : Json → Read String :=
  readRecord [field name readText false] fun given => required readText (given name)

end AccessControl
