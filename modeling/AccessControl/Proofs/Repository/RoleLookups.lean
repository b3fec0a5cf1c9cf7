import AccessControl.Proofs.Directory.Listings
import AccessControl.Proofs.Directory.Permissions
import AccessControl.Proofs.Site

/-!
Looking up roles. A role is shown after a look among the system roles first; permissions and copies go by a look among the
custom roles first; role references and listings go through both. As long as no custom role bears the name of a system role,
all these agree for every name (`RolesApart.lookupsAgree`), and no command of a repository makes one that does
(`lookups_agree_after`).
-/

namespace AccessControl

/-- Of roles with distinct names only one has the name of a member. -/
theorem Role.filter_name_of_mem {l : List Role} (hdistinct : l.Pairwise fun r r' => r.name ≠ r'.name) {r : Role}
    (hmem : r ∈ l) : l.filter (fun r' => r'.name = r.name) = [r] := by
  obtain ⟨before, after, rfl⟩ := List.append_of_mem hmem
  rw [List.pairwise_append, List.pairwise_cons] at hdistinct
  obtain ⟨-, ⟨hafter, -⟩, hbefore⟩ := hdistinct
  have hnone : before.filter (fun r' => r'.name = r.name) = [] := by
    rw [List.filter_eq_nil_iff]
    intro r' hr'
    simpa using hbefore r' hr' r List.mem_cons_self
  have hnone' : after.filter (fun r' => r'.name = r.name) = [] := by
    rw [List.filter_eq_nil_iff]
    intro r' hr'
    simpa using (hafter r' hr').symm
  rw [List.filter_append, List.filter_cons_of_pos (by simp), hnone, hnone', List.nil_append]

namespace Directory

/-- Under this name nothing is found: no role is shown, none counts for permissions or can be copied, no account may hold
it, and none of this name is listed. -/
structure FindsNothing (d : Directory) (name : String) : Prop where
  shown : d.getRole name = .error (.roleNotFound name)
  resolved : d.resolve? name = none
  copied : ∀ copy, d.cloneRole name copy = .error (.roleNotFound name)
  refused : d.checkRoles [name] = .error (.unresolvedRole name)
  unlisted : ∀ r ∈ d.allRoles, r.name ≠ name

/-- Under this name one role is found wherever the name is looked up: it is shown, it is the role that counts for
permissions, it is what is copied under any name that is free, accounts may hold it, and it is the only role of the name
that is listed. -/
structure Finds (d : Directory) (name : String) (role : Role) : Prop where
  shown : d.getRole name = .ok role
  resolved : d.resolve? name = some role
  copied : ∀ copy made next, d.cloneRole name copy = .ok (made, next) ↔
    blankText copy = false ∧ d.getRole copy = .error (.roleNotFound copy) ∧
      made = ⟨copy, role.description, false, role.grants⟩ ∧ next = d.putRole made
  accepted : d.checkRoles [name] = .ok ()
  listed : d.allRoles.filter (fun r => r.name = name) = [role]

/-- All ways of looking up roles agree about every name, and what is accepted of accounts and what these hold in effect
goes by the roles that are shown. -/
structure LookupsAgree (d : Directory) : Prop where
  names : ∀ name, d.FindsNothing name ∨ ∃ role, d.Finds name role
  references : ∀ names, d.checkRoles names = .ok () ↔ ∀ name ∈ names, ∃ role, d.getRole name = .ok role
  permissions : ∀ username s p, (d.effectivePermissions username).allows s p = true ↔
    ∃ a, d.users.get? username = some a ∧ a.enabled = true ∧
      ∃ name ∈ a.roles, ∃ role, d.getRole name = .ok role ∧ role.grants.allows s p = true

variable {d : Directory} {name : String} {r : Role}

theorem getRole_eq_ok : d.getRole name = .ok r ↔ d.role? name = some r := present_eq_ok

theorem getRole_eq_error : d.getRole name = .error (.roleNotFound name) ↔ d.role? name = none := by
  rw [getRole]
  cases d.role? name with
  | none => exact ⟨fun _ => rfl, fun _ => rfl⟩
  | some r => exact ⟨(nomatch ·), (nomatch ·)⟩

/-! ### Listings -/

namespace RolesApart

variable (hd : d.RolesApart)
include hd

/-- A role is listed exactly if its own name stands for it. -/
theorem mem_allRoles_iff : r ∈ d.allRoles ↔ d.StandsFor r.name r := by
  rw [mem_allRoles]
  constructor
  · rintro (hlisted | ⟨key, hget⟩)
    · -- the name is reserved, so there is no custom role under it
      cases hcustom : d.roles.get? r.name with
      | none => exact .system r hcustom hlisted rfl
      | some custom =>
          obtain ⟨-, hfree⟩ := hd r.name custom hcustom
          rw [Catalogue.reserves_eq_true.2 ⟨r, hlisted, rfl⟩] at hfree
          cases hfree
    · obtain ⟨rfl, -⟩ := hd key r hget
      exact .custom r hget
  · intro h
    generalize r.name = name at h
    cases h with
    | custom held => exact Or.inr ⟨name, held⟩
    | system unhidden listed named => exact Or.inl listed

theorem name_of_standsFor (h : d.StandsFor name r) : r.name = name := by
  cases h with
  | custom held => exact (hd name r held).1
  | system unhidden listed named => exact named

/-! ### All ways of looking up -/

theorem getRole_eq_ok_iff : d.getRole name = .ok r ↔ d.StandsFor name r := by
  rw [getRole_eq_ok, ← hd.resolve?_eq_role?, resolve?_eq_some]

theorem checkRoles_eq_ok_iff {names : List String} :
    d.checkRoles names = .ok () ↔ ∀ name ∈ names, ∃ role, d.getRole name = .ok role := by
  simp only [checkRoles_eq_ok, knowsRole_eq_true_iff, hd.getRole_eq_ok_iff]

theorem findsNothing (h : d.resolve? name = none) : d.FindsNothing name where
  shown := by rwa [getRole_eq_error, ← hd.resolve?_eq_role?]
  resolved := h
  copied copy := by
    rw [cloneRole, h]
    rfl
  refused := by
    rw [checkRoles, List.find?_cons_of_pos (by rw [knowsRole_eq_false_iff.2 h]; rfl)]
  unlisted := by
    rintro r hr rfl
    exact resolve?_eq_none.1 h r (hd.mem_allRoles_iff.1 hr)

theorem finds (h : d.resolve? name = some r) : d.Finds name r where
  shown := by rwa [getRole_eq_ok, ← hd.resolve?_eq_role?]
  resolved := h
  copied copy made next := by
    rw [cloneRole_eq_ok, getRole_eq_error, ← hd.resolve?_eq_role?, ← knowsRole_eq_false_iff, h]
    constructor
    · rintro ⟨role, hrole, hclone, hfree, rfl⟩
      cases hrole
      obtain ⟨hnamed, rfl⟩ := Role.custom_eq_ok.1 hclone
      exact ⟨hnamed, hfree, rfl, rfl⟩
    · rintro ⟨hnamed, hfree, rfl, rfl⟩
      exact ⟨r, rfl, Role.custom_eq_ok.2 ⟨hnamed, rfl⟩, hfree, rfl⟩
  accepted := by
    rw [checkRoles_eq_ok]
    intro other hother
    rw [List.mem_singleton.1 hother, knowsRole_eq_isSome, h]
    rfl
  listed := by
    have hstands := resolve?_eq_some.1 h
    obtain rfl := hd.name_of_standsFor hstands
    exact Role.filter_name_of_mem hd.allRoles_distinct (hd.mem_allRoles_iff.2 hstands)

theorem lookupsAgree : d.LookupsAgree where
  names name := by
    cases h : d.resolve? name with
    | none => exact Or.inl (hd.findsNothing h)
    | some role => exact Or.inr ⟨role, hd.finds h⟩
  references names := hd.checkRoles_eq_ok_iff
  permissions username s p := by
    rw [effectivePermissions_eq, Role.allows_mergedGrants]
    simp only [mem_rolesInForce, hd.getRole_eq_ok_iff]
    constructor
    · rintro ⟨role, ⟨a, hget, henabled, name, hname, hrole⟩, hallows⟩
      exact ⟨a, hget, henabled, name, hname, role, hrole, hallows⟩
    · rintro ⟨a, hget, henabled, name, hname, role, hrole, hallows⟩
      exact ⟨role, ⟨a, hget, henabled, name, hname, hrole⟩, hallows⟩

end RolesApart

end Directory

namespace Repository

/-- Whatever a repository alone on its store did since it was loaded, all ways of looking up a role agree, if there was no
document at first or its custom roles were apart from the system roles. -/
theorem lookups_agree_after {s : Store} {r : Repository} (hload : Repository.load s = .ok r)
    (hinitial : s.content = none ∨ s.Describes Directory.RolesApart) (ops : List Operation) :
    (r.after ops).cache.LookupsAgree := by
  obtain ⟨hcache, hstored⟩ := loaded_keeps hload Directory.rolesApart_empty hinitial
  exact (after_keeps Directory.rolesApart_kept hcache hstored ops).1.lookupsAgree

/-- A custom role is made in an outage and stays in the cache, a system role is copied, and no role is made under the name
of a system role. -/
def shadowing : List Operation :=
  [.newRole "ops" .outage, .under .none (.cloneRole "read-only" "viewer"), .newRole "read-only" .none]

/-- The role that the outage left, the copy and the system role are found, and nothing under another name. -/
theorem lookups_agree_shadowing :
    Repository.load .empty = .ok fresh ∧
      (∃ role, (fresh.after shadowing).cache.Finds "ops" role) ∧
      (∃ role, (fresh.after shadowing).cache.Finds "viewer" role ∧ role.system = false) ∧
      (∃ role, (fresh.after shadowing).cache.Finds "read-only" role ∧ role.system = true) ∧
      (fresh.after shadowing).cache.FindsNothing "gone" := by
  have hload : Repository.load .empty = .ok fresh := rfl
  have hagree := lookups_agree_after hload (Or.inl rfl) shadowing
  have hfound : ∀ name role, (fresh.after shadowing).cache.resolve? name = some role →
      (fresh.after shadowing).cache.Finds name role := by
    intro name role hrole
    rcases hagree.names name with hnothing | ⟨role', hfinds⟩
    · rw [hnothing.resolved] at hrole
      cases hrole
    · rw [hfinds.resolved] at hrole
      cases hrole
      exact hfinds
  refine ⟨hload, ⟨_, hfound "ops" _ rfl⟩, ⟨_, hfound "viewer" _ rfl, rfl⟩, ⟨_, hfound "read-only" _ rfl, rfl⟩, ?_⟩
  rcases hagree.names "gone" with hnothing | ⟨role, hfinds⟩
  · exact hnothing
  · have hgone : (fresh.after shadowing).cache.resolve? "gone" = none := by decide
    rw [hfinds.resolved] at hgone
    cases hgone

end Repository

end AccessControl
