import AccessControl.Catalogue

/-!
The directory: every account and every custom role. Reading it never fails; what is absent is `none` or
empty.
-/

namespace AccessControl

/-- A principal that can log in. Times are seconds since 1970. -/
structure Account where
  username : String
  roles : List String
  passwordHash : String
  name : Option String
  email : Option String
  lastUpdate : Int64
  enabled : Bool
  pwdExpirationDate : Option Int64
  pwdUpdateRequired : Bool
  deriving DecidableEq

def Account.hasRole (a : Account) (name : String) : Bool := a.roles.contains name

structure Directory where
  users : Table String Account
  roles : Table String Role
  deriving DecidableEq

namespace Directory

def empty : Directory := ⟨.empty, .empty⟩

/-! ### Looking up roles -/

/-- The role a name stands for: the custom role, else the system role. -/
def resolve? (d : Directory) (name : String) : Option Role :=
  match d.roles.get? name with
  | some role => some role
  | none => Catalogue.find? name

/-- The role shown under a name: the system role, else the custom role. -/
def role? (d : Directory) (name : String) : Option Role :=
  match Catalogue.find? name with
  | some role => some role
  | none => d.roles.get? name

/-- Whether an account may hold a role of this name. -/
def knowsRole (d : Directory) (name : String) : Bool := Catalogue.reserves name || d.roles.contains name

/-! ### Listings -/

/-- Accounts by increasing username; accounts of one username keep their order. -/
def sortAccounts (l : List Account) : List Account :=
  l.mergeSort fun a b => (compare a.username b.username).isLE

/-- Roles by increasing name; roles of one name keep their order. -/
def sortRoles (l : List Role) : List Role := l.mergeSort fun a b => (compare a.name b.name).isLE

def accounts (d : Directory) : List Account := sortAccounts d.users.values

def allRoles (d : Directory) : List Role := Catalogue.roles ++ sortRoles d.roles.values

def holders (d : Directory) (role : String) : List Account := d.users.values.filter (·.hasRole role)

/-! ### Permissions -/

/-- All that the roles of an enabled account grant. Names that stand for no role count for nothing. -/
def effectivePermissions (d : Directory) (username : String) : Grants :=
  match d.users.get? username with
  | some account => if account.enabled then Role.mergedGrants (account.roles.filterMap d.resolve?) else .empty
  | none => .empty

end Directory

end AccessControl
