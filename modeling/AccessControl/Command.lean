import AccessControl.Directory.Accounts
import AccessControl.Directory.Roles

/-!
The nine commands that change a directory, as values, and what each attempts.
-/

namespace AccessControl

inductive Command
  | createAccount (input : AccountInput)
  | updateAccount (input : AccountInput)
  | deleteAccount (username : String)
  | changePassword (username current new : String)
  | ensureAdmin (username password : String)
  | createRole (input : RoleInput)
  | updateRole (input : RoleInput)
  | deleteRole (name : String)
  | cloneRole (source name : String)
  deriving DecidableEq

inductive Answer
  | done
  | account (a : Account)
  | role (r : Role)
  deriving DecidableEq

namespace Command

def answeringAccount (x : Attempt (Account × Directory)) : Attempt (Answer × Directory) := do
  let (a, d) ← x
  return (.account a, d)

def answeringRole (x : Except AccessError (Role × Directory)) : Attempt (Answer × Directory) := do
  let (r, d) ← x
  return (.role r, d)

def attempt (c : Circumstances) (d : Directory) : Command → Attempt (Answer × Directory)
  | createAccount input => answeringAccount (d.createAccount c input)
  | updateAccount input => answeringAccount (d.updateAccount c input)
  | deleteAccount username => return (.done, d.deleteAccount username)
  | changePassword username current new => do return (.done, ← d.changePassword c username current new)
  | ensureAdmin username password => do
    let (_, d) ← d.ensureAdmin c username password
    return (.done, d)
  | createRole input => answeringRole (d.createRole input)
  | updateRole input => answeringRole (d.updateRole input)
  | deleteRole name => do return (.done, ← d.deleteRole name)
  | cloneRole source name => answeringRole (d.cloneRole source name)

end Command

end AccessControl
