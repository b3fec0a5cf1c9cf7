import AccessControl.Error
import AccessControl.Table

/-!
Grants: which permissions are held in which scope. A scope may be present with no permission in it; a
union of roles drops such scopes.
-/

namespace AccessControl

structure PermissionSet where
  read : Bool
  create : Bool
  update : Bool
  delete : Bool
  deriving DecidableEq

namespace PermissionSet

def holds (ps : PermissionSet) : Permission → Bool
  | .read => ps.read
  | .create => ps.create
  | .update => ps.update
  | .delete => ps.delete

def ofPred (p : Permission → Bool) : PermissionSet := ⟨p .read, p .create, p .update, p .delete⟩

def none : PermissionSet := ofPred fun _ => false

def ofList (l : List Permission) : PermissionSet := ofPred fun p => l.contains p

def union (a b : PermissionSet) : PermissionSet := ofPred fun p => a.holds p || b.holds p

/-- The members, each once and by increasing rank. -/
def toList (ps : PermissionSet) : List Permission := Permission.all.filter ps.holds

def isEmpty (ps : PermissionSet) : Bool := ps.toList.isEmpty

theorem ext_holds {a b : PermissionSet} (h : ∀ p, a.holds p = b.holds p) : a = b := by
  cases a; cases b
  exact congr (congr (congr (congrArg mk (h .read)) (h .create)) (h .update)) (h .delete)

@[simp] theorem holds_ofPred (f : Permission → Bool) (p : Permission) : (ofPred f).holds p = f p := by
  cases p <;> rfl

@[simp] theorem holds_none (p : Permission) : none.holds p = false := holds_ofPred _ p

@[simp] theorem holds_union (a b : PermissionSet) (p : Permission) :
    (a.union b).holds p = (a.holds p || b.holds p) := holds_ofPred _ p

@[simp] theorem holds_ofList (l : List Permission) (p : Permission) : (ofList l).holds p = l.contains p :=
  holds_ofPred _ p

@[simp] theorem mem_toList {ps : PermissionSet} {p : Permission} : p ∈ ps.toList ↔ ps.holds p = true := by
  simp [toList, Permission.mem_all]

theorem toList_increasing (ps : PermissionSet) : ps.toList.Pairwise fun p q => p.rank < q.rank :=
  List.Pairwise.filter _ (by decide)

theorem ofList_toList (ps : PermissionSet) : ofList ps.toList = ps := by
  apply ext_holds
  intro p
  rw [holds_ofList, Bool.eq_iff_iff, List.contains_iff_mem, mem_toList]

theorem none_union (ps : PermissionSet) : none.union ps = ps := by
  apply ext_holds
  intro p
  rw [holds_union, holds_none, Bool.false_or]

end PermissionSet

abbrev Grants := Table Scope PermissionSet

namespace Grants

def allows (g : Grants) (s : Scope) (p : Permission) : Bool :=
  match g.get? s with
  | some ps => ps.holds p
  | none => false

/-- Adds permissions to a scope, which is present afterwards even if they are none. -/
def extend (g : Grants) (s : Scope) (ps : PermissionSet) : Grants :=
  g.insert s (((g.get? s).getD .none).union ps)

def join (g h : Grants) : Grants := h.entries.foldl (fun g e => g.extend e.1 e.2) g

def pruned (g : Grants) : Grants := g.filter (!·.isEmpty)

/-! ### Reading grants from names -/

def readScope (text : String) : Except AccessError Scope :=
  match Scope.ofName? text with
  | some s => .ok s
  | none => .error (.unknownScope text)

def readPermission (text : String) : Except AccessError Permission :=
  match Permission.ofName? text with
  | some p => .ok p
  | none => .error (.unknownPermission text)

/-- Reads one entry, the scope before its permissions. -/
def readEntry (entry : String × List String) : Except AccessError (Scope × PermissionSet) := do
  let scope ← readScope entry.1
  let permissions ← entry.2.mapM readPermission
  return (scope, .ofList permissions)

/-- Reads grants from scope names with permission names. Entries of one scope add up; the first unknown
name in reading order is reported. -/
def ofNames (entries : List (String × List String)) : Except AccessError Grants := do
  let read ← entries.mapM readEntry
  return read.foldl (fun g e => g.extend e.1 e.2) .empty

/-- Scope names with permission names, in the order of scopes and permissions. -/
def toNames (g : Grants) : List (String × List String) :=
  g.entries.map fun e => (e.1.name, e.2.toList.map Permission.name)

/-- The names as they travel: by scope name in alphabetical order. -/
def transport (g : Grants) : Table String (List String) := .ofList g.toNames

end Grants

end AccessControl
