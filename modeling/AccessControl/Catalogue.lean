import AccessControl.Role

/-!
The system roles. Their names are reserved: a name belongs either to the catalogue or to custom roles.
-/

namespace AccessControl

namespace Catalogue

def full : PermissionSet := .ofList Permission.all

def readOnly : PermissionSet := .ofList [.read]

def systemRole (name description : String) (grants : List (Scope × PermissionSet)) : Role :=
  ⟨name, some description, true, .ofList grants⟩

def roles : List Role :=
  [systemRole "administrator" "allows full permissions for all security scopes"
     [(.cephfs, full), (.configOpt, full), (.dashboardSettings, full), (.grafana, full), (.hosts, full),
      (.iscsi, full), (.log, full), (.manager, full), (.monitor, full), (.nfsGanesha, full), (.osd, full),
      (.pool, full), (.prometheus, full), (.rbdImage, full), (.rbdMirroring, full), (.rgw, full), (.user, full)],
   systemRole "block-manager" "allows full permissions for rbd-image, rbd-mirroring, and iscsi scopes"
     [(.rbdImage, full), (.pool, readOnly), (.iscsi, full), (.rbdMirroring, full), (.grafana, readOnly)],
   systemRole "cephfs-manager" "allows full permissions for the cephfs scope"
     [(.cephfs, full), (.grafana, readOnly)],
   systemRole "cluster-manager" "allows full permissions for the hosts, osd, mon, mgr, and config-opt scopes"
     [(.hosts, full), (.osd, full), (.monitor, full), (.manager, full), (.configOpt, full), (.log, full),
      (.grafana, readOnly)],
   systemRole "ganesha-manager" "allows full permissions for the nfs-ganesha scope"
     [(.nfsGanesha, full), (.cephfs, full), (.rgw, full), (.grafana, readOnly)],
   systemRole "pool-manager" "allows full permissions for the pool scope"
     [(.pool, full), (.grafana, readOnly)],
   systemRole "read-only" "allows read permission for all security scope except dashboard settings and config-opt"
     [(.cephfs, readOnly), (.grafana, readOnly), (.hosts, readOnly), (.iscsi, readOnly), (.log, readOnly),
      (.manager, readOnly), (.monitor, readOnly), (.nfsGanesha, readOnly), (.osd, readOnly), (.pool, readOnly),
      (.prometheus, readOnly), (.rbdImage, readOnly), (.rbdMirroring, readOnly), (.rgw, readOnly),
      (.user, readOnly)],
   systemRole "rgw-manager" "allows full permissions for the rgw scope"
     [(.rgw, full), (.grafana, readOnly)]]

def find? (name : String) : Option Role := roles.find? (·.name == name)

/-- Whether a name is reserved for a system role. -/
def reserves (name : String) : Bool := (find? name).isSome

end Catalogue

end AccessControl
