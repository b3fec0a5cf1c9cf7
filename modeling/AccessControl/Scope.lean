/-!
The scopes in which permissions are granted and the four permissions. Both have a fixed order, that of
their definition, and one name each.
-/

namespace AccessControl

/-- A category of administrable resources. -/
inductive Scope
  | hosts
  | configOpt
  | pool
  | osd
  | monitor
  | rbdImage
  | iscsi
  | rbdMirroring
  | rgw
  | cephfs
  | manager
  | log
  | grafana
  | prometheus
  | user
  | dashboardSettings
  | nfsGanesha
  | nvmeOf
  deriving DecidableEq

namespace Scope

def all : List Scope :=
  [hosts, configOpt, pool, osd, monitor, rbdImage, iscsi, rbdMirroring, rgw, cephfs, manager, log, grafana,
   prometheus, user, dashboardSettings, nfsGanesha, nvmeOf]

def name : Scope → String
  | hosts => "hosts"
  | configOpt => "config-opt"
  | pool => "pool"
  | osd => "osd"
  | monitor => "monitor"
  | rbdImage => "rbd-image"
  | iscsi => "iscsi"
  | rbdMirroring => "rbd-mirroring"
  | rgw => "rgw"
  | cephfs => "cephfs"
  | manager => "manager"
  | log => "log"
  | grafana => "grafana"
  | prometheus => "prometheus"
  | user => "user"
  | dashboardSettings => "dashboard-settings"
  | nfsGanesha => "nfs-ganesha"
  | nvmeOf => "nvme-of"

def ofName? (text : String) : Option Scope := all.find? (·.name == text)

def rank (s : Scope) : Nat := all.idxOf s

theorem ofName?_name (s : Scope) : ofName? s.name = some s := by cases s <;> decide

theorem eq_of_ofName? {text : String} {s : Scope} (h : ofName? text = some s) : text = s.name := by
  have hn := List.find?_some h
  exact (eq_of_beq hn).symm

theorem ofName?_eq_some {text : String} {s : Scope} : ofName? text = some s ↔ text = s.name :=
  ⟨eq_of_ofName?, fun h => h ▸ ofName?_name s⟩

theorem rank_injective {a b : Scope} (h : a.rank = b.rank) : a = b := by
  have at_rank : ∀ s : Scope, all[s.rank]? = some s := by intro s; cases s <;> decide
  have := at_rank a
  rw [h, at_rank b] at this
  exact (Option.some.inj this).symm

instance : Ord Scope := ⟨fun a b => compare a.rank b.rank⟩

theorem compare_eq (a b : Scope) : compare a b = compare a.rank b.rank := rfl

instance : Std.TransOrd Scope where
  eq_swap := by intro a b; simp only [compare_eq]; exact Std.OrientedCmp.eq_swap
  isLE_trans := by intro a b c; simp only [compare_eq]; exact Std.TransCmp.isLE_trans

instance : Std.LawfulEqOrd Scope where
  compare_self := by intro a; simp only [compare_eq]; exact Std.ReflCmp.compare_self
  eq_of_compare := by
    intro a b h
    rw [compare_eq] at h
    exact rank_injective (Std.LawfulEqOrd.eq_of_compare h)

end Scope

/-- An action that can be granted within a scope. -/
inductive Permission
  | read
  | create
  | update
  | delete
  deriving DecidableEq

namespace Permission

def all : List Permission := [read, create, update, delete]

def name : Permission → String
  | read => "read"
  | create => "create"
  | update => "update"
  | delete => "delete"

def ofName? (text : String) : Option Permission := all.find? (·.name == text)

/-- The place in the order in which permissions are listed. -/
def rank (p : Permission) : Nat := all.idxOf p

theorem mem_all (p : Permission) : p ∈ all := by cases p <;> decide

theorem ofName?_name (p : Permission) : ofName? p.name = some p := by cases p <;> decide

theorem eq_of_ofName? {text : String} {p : Permission} (h : ofName? text = some p) : text = p.name := by
  have hn := List.find?_some h
  exact (eq_of_beq hn).symm

theorem ofName?_eq_some {text : String} {p : Permission} : ofName? text = some p ↔ text = p.name :=
  ⟨eq_of_ofName?, fun h => h ▸ ofName?_name p⟩

end Permission

end AccessControl
