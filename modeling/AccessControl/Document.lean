import AccessControl.Directory
import AccessControl.Json.Printer
import AccessControl.Json.Record

/-!
The access document: the directory as it is stored, with a version. Its text is JSON with the fields of each
record in a fixed order; reading takes any order, passes over unknown fields and fills in defaults.
-/

namespace AccessControl

structure Document where
  users : Table String Account
  roles : Table String Role
  version : Int64
  deriving DecidableEq

/-- The version that every new document carries. -/
def Document.currentVersion : Int64 := 2

/-! ### Writing -/

/-- An object with one member for each entry, in the order of the entries. -/
def Json.ofEntries {α : Type} (f : α → Json) (entries : List (String × α)) : Json :=
  .record (entries.map fun e => (e.1, f e.2))

def PermissionSet.toJson (ps : PermissionSet) : Json := .texts (ps.toList.map Permission.name)

def Grants.toJson (g : Grants) : Json := .record (g.entries.map fun e => (e.1.name, e.2.toJson))

def Role.toJson (r : Role) : Json :=
  .record [("name", .text r.name), ("description", .optional .text r.description), ("system", .bool r.system),
    ("scopes_permissions", Grants.toJson r.grants)]

def Account.toJson (a : Account) : Json :=
  .record [("username", .text a.username), ("roles", .texts a.roles), ("password", .text a.passwordHash),
    ("name", .optional .text a.name), ("email", .optional .text a.email), ("lastUpdate", .int a.lastUpdate),
    ("enabled", .bool a.enabled), ("pwdExpirationDate", .optional .int a.pwdExpirationDate),
    ("pwdUpdateRequired", .bool a.pwdUpdateRequired)]

namespace Document

/-- The document that lists its entries in the given orders. -/
def jsonOf (users : List (String × Account)) (roles : List (String × Role)) (version : Int64) : Json :=
  .record [("users", .ofEntries Account.toJson users), ("roles", .ofEntries Role.toJson roles),
    ("version", .int version)]

def toJson (d : Document) : Json := jsonOf d.users.entries d.roles.entries d.version

def toBytes (d : Document) : ByteArray := d.toJson.render.toUTF8

end Document

/-! ### Reading -/

open Json

def Scope.readJson : Json → Read Scope := readName Scope.ofName?

def Permission.readJson : Json → Read Permission := readName Permission.ofName?

def Scope.readKey (text : String) : Read Scope :=
  match Scope.ofName? text with
  | some s => .ok s
  | none => .error .mismatch

def PermissionSet.readJson (v : Json) : Read PermissionSet := (readList Permission.readJson v).map .ofList

def Grants.readJson : Json → Read Grants := readTable Scope.readKey PermissionSet.readJson

def Role.fields : List Field :=
  [field "name" readText false, field "description" (readOptional readText) true, field "system" readBool true,
   field "scopes_permissions" (readOr Table.empty Grants.readJson) true]

def Role.readJson : Json → Read Role :=
  readRecord fields fun given => do
    let name ← required readText (given "name")
    let description ← withDefault none (readOptional readText) (given "description")
    let system ← withDefault false readBool (given "system")
    let grants ← withDefault Table.empty (readOr Table.empty Grants.readJson) (given "scopes_permissions")
    return { name, description, system, grants }

def Account.fields : List Field :=
  [field "username" readText false, field "roles" (readOr [] (readList readText)) true,
   field "password" readText false, field "name" (readOptional readText) true,
   field "email" (readOptional readText) true, field "lastUpdate" readInt true, field "enabled" readBool true,
   field "pwdExpirationDate" (readOptional readInt) true, field "pwdUpdateRequired" readBool true]

def Account.readJson : Json → Read Account :=
  readRecord fields fun given => do
    let username ← required readText (given "username")
    let roles ← withDefault [] (readOr [] (readList readText)) (given "roles")
    let passwordHash ← required readText (given "password")
    let name ← withDefault none (readOptional readText) (given "name")
    let email ← withDefault none (readOptional readText) (given "email")
    let lastUpdate ← withDefault 0 readInt (given "lastUpdate")
    let enabled ← withDefault false readBool (given "enabled")
    let pwdExpirationDate ← withDefault none (readOptional readInt) (given "pwdExpirationDate")
    let pwdUpdateRequired ← withDefault false readBool (given "pwdUpdateRequired")
    return { username, roles, passwordHash, name, email, lastUpdate, enabled, pwdExpirationDate,
             pwdUpdateRequired }

namespace Document

def readUsers : Json → Read (Table String Account) := readOr Table.empty (readTable .ok Account.readJson)

def readRoles : Json → Read (Table String Role) := readOr Table.empty (readTable .ok Role.readJson)

def fields : List Field :=
  [field "users" readUsers true, field "roles" readRoles true, field "version" readInt true]

def readJson : Json → Read Document :=
  readRecord fields fun given => do
    let users ← withDefault Table.empty readUsers (given "users")
    let roles ← withDefault Table.empty readRoles (given "roles")
    let version ← withDefault 0 readInt (given "version")
    return { users, roles, version }

def ofBytes (b : ByteArray) : Except AccessError Document :=
  match readWholeText readJson (Glyph.ofBytes b) with
  | .ok d => .ok d
  | .error _ => .error .unreadableDocument

def ofDirectory (d : Directory) : Document := ⟨d.users, d.roles, currentVersion⟩

def directory (d : Document) : Directory := ⟨d.users, d.roles⟩

end Document

end AccessControl
