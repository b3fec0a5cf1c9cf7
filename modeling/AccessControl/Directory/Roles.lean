import AccessControl.Attempt
import AccessControl.Directory

/-!
Reading and changing custom roles. The names of system roles are refused on every way in.
-/

namespace AccessControl

/-- What is asked of a custom role when it is created or replaced. Grants are still names. -/
structure RoleInput where
  name : String
  description : Option String
  system : Bool
  grants : Table String (List String)
  deriving DecidableEq

/-- The role an input describes, if its grants can be read, it is not a system role and its name is not
blank. -/
def RoleInput.role (input : RoleInput) (act : SystemRoleAct) : Except AccessError Role := do
  let grants ← Grants.ofNames input.grants.entries
  demand (!input.system) (.systemRole act)
  Role.custom input.name input.description grants

namespace Directory

def putRole (d : Directory) (r : Role) : Directory := { d with roles := d.roles.insert r.name r }

def getRole (d : Directory) (name : String) : Except AccessError Role := present (d.role? name) (.roleNotFound name)

/-- A taken name is refused before anything else about the input is looked at. -/
def createRole (input : RoleInput) (d : Directory) : Except AccessError (Role × Directory) := do
  demand (!d.knowsRole input.name) (.roleExists input.name)
  let role ← input.role .created
  return (role, d.putRole role)

def updateRole (input : RoleInput) (d : Directory) : Except AccessError (Role × Directory) := do
  demand (!Catalogue.reserves input.name) (.systemRole .modified)
  demand (d.roles.contains input.name) (.roleNotFound input.name)
  let role ← input.role .modified
  return (role, d.putRole role)

/-- Removes a custom role that no account holds. -/
def deleteRole (name : String) (d : Directory) : Except AccessError Directory := do
  demand (!Catalogue.reserves name) (.systemRole .deleted)
  demand (d.roles.contains name) (.roleNotFound name)
  match d.holders name with
  | holder :: _ => .error (.roleInUse name holder.username)
  | [] => return { d with roles := d.roles.erase name }

/-- Copies a custom or system role to a new custom role. -/
def cloneRole (source name : String) (d : Directory) : Except AccessError (Role × Directory) := do
  let role ← present (d.resolve? source) (.roleNotFound source)
  let clone ← role.cloneAs name
  demand (!d.knowsRole name) (.roleExists name)
  return (clone, d.putRole clone)

end Directory

end AccessControl
