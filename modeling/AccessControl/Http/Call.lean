import AccessControl.Http.Payload
import AccessControl.Http.Request

/-!
What can be asked of the service: resources by their paths, calls on them by method, and what a caller must
hold to make a call.
-/

namespace AccessControl

inductive Call
  | health
  | login (username password : String)
  | logout (authorization : Option String)
  | check (token : String)
  | listAccounts
  | getAccount (username : String)
  | listRoles
  | getRole (name : String)
  | change (command : Command)
  deriving DecidableEq

/-- Refuses a caller who may not make a call. The administrator's account is not set up from outside. -/
def Call.permit (context : Context) : Call → Except AccessError Unit
  | health | login _ _ | logout _ | check _ => .ok ()
  | listAccounts | getAccount _ | listRoles | getRole _ => context.require .user [.read]
  | change (.createAccount _) | change (.createRole _) => context.require .user [.create]
  | change (.updateAccount _) | change (.updateRole _) => context.require .user [.update]
  | change (.deleteAccount _) | change (.deleteRole _) => context.require .user [.delete]
  | change (.cloneRole _ _) => context.require .user [.read, .create]
  | change (.changePassword username _ _) => context.requireSelf username
  | change (.ensureAdmin _ _) => .error .insufficientPermissions

/-- What a path leads to. Names of accounts and roles are kept as the path has them. -/
inductive Resource
  | health
  | login
  | logout
  | check
  | accounts
  | account (segment : String)
  | accountPassword (segment : String)
  | roles
  | role (segment : String)
  | clones (segment : String)
  deriving DecidableEq

namespace Resource

/-- A name at the end of a path is not empty; one in the middle may be. -/
def ofSegments? : List String → Option Resource
  | ["", "health"] => some health
  | ["", "api", "auth", "login"] => some login
  | ["", "api", "auth", "logout"] => some logout
  | ["", "api", "auth", "check"] => some check
  | ["", "api", "users"] => some accounts
  | ["", "api", "users", name] => if name = "" then none else some (account name)
  | ["", "api", "users", name, "password"] => some (accountPassword name)
  | ["", "api", "roles"] => some roles
  | ["", "api", "roles", name] => if name = "" then none else some (role name)
  | ["", "api", "roles", name, "clone"] => some (clones name)
  | _ => none

def ofPath? (path : List Char) : Option Resource := ofSegments? ((Text.split '/' path).map String.ofList)

/-- The name by which the gate knows a call. -/
def operation (path : List Char) : Resource → String
  | login => "login"
  | logout => "logout"
  | check => "check"
  | _ => String.ofList path

/-- How calls are read from requests, by resource and verb; `none` where the verb is not served. -/
def reader? (verb : String) : Resource → Option (Request → Except Rejection Call)
  | health =>
    match verb with
    | "GET" => some fun _ => .ok .health
    | _ => none
  | login =>
    match verb with
    | "POST" => some fun r => do
      let (username, password) ← r.payload (readTextPair "username" "password")
      return .login username password
    | _ => none
  | logout =>
    match verb with
    | "POST" => some fun r => .ok (.logout r.credentials)
    | _ => none
  | check =>
    match verb with
    | "POST" => some fun r => return .check (← r.payload (readSingleText "token"))
    | _ => none
  | accounts =>
    match verb with
    | "GET" => some fun _ => .ok .listAccounts
    | "POST" => some fun r => return .change (.createAccount (← r.payload AccountInput.readNew))
    | _ => none
  | account segment =>
    match verb with
    | "GET" => some fun _ => return .getAccount (← readSegment segment)
    | "PUT" => some fun r => do
      let username ← readSegment segment
      return .change (.updateAccount (← r.payload (AccountInput.readReplacement username)))
    | "DELETE" => some fun _ => return .change (.deleteAccount (← readSegment segment))
    | _ => none
  | accountPassword segment =>
    match verb with
    | "PUT" => some fun r => do
      let username ← readSegment segment
      let (current, new) ← r.payload (readTextPair "old_password" "new_password")
      return .change (.changePassword username current new)
    | _ => none
  | roles =>
    match verb with
    | "GET" => some fun _ => .ok .listRoles
    | "POST" => some fun r => return .change (.createRole (← r.payload RoleInput.readJson))
    | _ => none
  | role segment =>
    match verb with
    | "GET" => some fun _ => return .getRole (← readSegment segment)
    | "PUT" => some fun r => do
      let name ← readSegment segment
      return .change (.updateRole { ← r.payload RoleInput.readJson with name })
    | "DELETE" => some fun _ => return .change (.deleteRole (← readSegment segment))
    | _ => none
  | clones segment =>
    match verb with
    | "POST" => some fun r => do
      let source ← readSegment segment
      return .change (.cloneRole source (← r.payload (readSingleText "new_name")))
    | _ => none

end Resource

end AccessControl
