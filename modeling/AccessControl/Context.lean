import AccessControl.Grants
import AccessControl.Json.Record
import AccessControl.Json.Printer

/-!
Who is asking: an identity and the grants it held when it was authenticated.
-/

namespace AccessControl

structure Identity where
  username : String
  displayName : Option String
  email : Option String
  deriving DecidableEq

namespace Identity

open Json

def toJson (i : Identity) : Json :=
  .record [("username", .text i.username), ("display_name", .optional .text i.displayName),
    ("email", .optional .text i.email)]

def fields : List Field :=
  [field "username" readText false, field "display_name" (readOptional readText) false,
   field "email" (readOptional readText) false]

def readJson : Json → Read Identity :=
  readRecord fields fun given => do
    let username ← required readText (given "username")
    let displayName ← withDefault none (readOptional readText) (given "display_name")
    let email ← withDefault none (readOptional readText) (given "email")
    return { username, displayName, email }

end Identity

structure Context where
  identity : Option Identity
  permissions : Grants
  deriving DecidableEq

namespace Context

def anonymous : Context := ⟨none, Table.empty⟩

def authenticated (i : Identity) (permissions : Grants) : Context := ⟨some i, permissions⟩

def username (c : Context) : Option String := c.identity.map (·.username)

/-- Demands every listed permission in a scope. A scope that is not granted at all fails even an empty
list. -/
def require (c : Context) (s : Scope) (permissions : List Permission) : Except AccessError Unit :=
  match c.permissions.get? s with
  | some held => if permissions.all held.holds then .ok () else .error .insufficientPermissions
  | none => .error .insufficientPermissions

def requireSelf (c : Context) (username : String) : Except AccessError Unit :=
  if c.username = some username then .ok () else .error .notOwnAccount

end Context

end AccessControl
