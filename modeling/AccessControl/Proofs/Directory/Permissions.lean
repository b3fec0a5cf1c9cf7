import AccessControl.Proofs.Directory.Resolution
import AccessControl.Proofs.Grants.Union

/-!
Effective permissions. An enabled account holds what the roles grant that its role names stand for, and nothing else; of
the list of names only this matters, which names in it stand for a role (`effectivePermissions_exact`).
-/

namespace AccessControl

namespace Directory

variable {d : Directory} {username : String} {a : Account} {r : Role}

/-- The roles that an account brings into force: those that its role names stand for, if it is enabled. -/
def rolesInForce (d : Directory) (username : String) : List Role :=
  ((d.users.get? username).filter (·.enabled)).toList.flatMap fun a => a.roles.filterMap d.resolve?

theorem mem_rolesInForce :
    r ∈ d.rolesInForce username ↔
      ∃ a, d.users.get? username = some a ∧ a.enabled = true ∧ ∃ name ∈ a.roles, d.StandsFor name r := by
  simp only [rolesInForce, List.mem_flatMap, Option.mem_toList, Option.filter_eq_some_iff, List.mem_filterMap,
    resolve?_eq_some, and_assoc]

theorem mem_rolesInForce_of_get? (hget : d.users.get? username = some a) :
    r ∈ d.rolesInForce username ↔ a.enabled = true ∧ ∃ name ∈ a.roles, d.StandsFor name r := by
  rw [mem_rolesInForce]
  constructor
  · rintro ⟨b, hb, hrole⟩
    rw [hget] at hb
    cases hb
    exact hrole
  · intro hrole
    exact ⟨a, hget, hrole⟩

theorem effectivePermissions_eq (d : Directory) (username : String) :
    d.effectivePermissions username = Role.mergedGrants (d.rolesInForce username) := by
  rw [effectivePermissions, rolesInForce]
  cases d.users.get? username with
  | none => rfl
  | some a =>
      dsimp only [Option.filter]
      split
      · simp
      · rfl

theorem standsFor_putAccount {key name : String} : (d.putAccount key a).StandsFor name r ↔ d.StandsFor name r := by
  rw [← resolve?_eq_some, ← resolve?_eq_some]
  rfl

/-- An account that holds other names, of which the same stand for roles, brings the same roles into force. -/
theorem rolesInForce_renamed {names : List String} (hget : d.users.get? username = some a)
    (hsame : ∀ name r, d.StandsFor name r → (name ∈ names ↔ name ∈ a.roles)) :
    r ∈ (d.putAccount username { a with roles := names }).rolesInForce username ↔ r ∈ d.rolesInForce username := by
  have hput : (d.putAccount username { a with roles := names }).users.get? username = some { a with roles := names } :=
    Table.get?_insert_eq_some.2 (Or.inl ⟨rfl, rfl⟩)
  rw [mem_rolesInForce_of_get? hput, mem_rolesInForce_of_get? hget]
  simp only [standsFor_putAccount]
  refine and_congr_right fun _ => exists_congr fun name => and_congr_left fun hr => ?_
  exact hsame name r hr

/-- The effective permissions are exactly those that some role grants which a name held by the enabled account stands
for. No scope is without permissions. The list of names may be changed in its order, its repetitions and the names that
stand for nothing. -/
theorem effectivePermissions_exact (d : Directory) (username : String) :
    (∀ s p, (d.effectivePermissions username).allows s p = true ↔
      ∃ a, d.users.get? username = some a ∧ a.enabled = true ∧
        ∃ name ∈ a.roles, ∃ r, d.StandsFor name r ∧ ∃ ps, r.grants.get? s = some ps ∧ ps.holds p = true) ∧
    (∀ s ps, (d.effectivePermissions username).get? s = some ps → ∃ p, ps.holds p = true) ∧
    ∀ a names, d.users.get? username = some a →
      (∀ name r, d.StandsFor name r → (name ∈ names ↔ name ∈ a.roles)) →
      (d.putAccount username { a with roles := names }).effectivePermissions username =
        d.effectivePermissions username := by
  simp only [effectivePermissions_eq]
  refine ⟨fun s p => ?_, fun s ps hget => Role.compact_mergedGrants _ s ps hget, fun a names hget hsame => ?_⟩
  · rw [Role.allows_mergedGrants]
    simp only [mem_rolesInForce, Grants.allows_eq_true]
    constructor
    · rintro ⟨r, ⟨a, hget, henabled, name, hname, hr⟩, hgrants⟩
      exact ⟨a, hget, henabled, name, hname, r, hr, hgrants⟩
    · rintro ⟨a, hget, henabled, name, hname, r, hr, hgrants⟩
      exact ⟨r, ⟨a, hget, henabled, name, hname, hr⟩, hgrants⟩
  · exact Role.mergedGrants_congr fun r => rolesInForce_renamed hget hsame

/-- An account that holds a custom role twice, a system role, and a role that is gone. -/
def dora : Account := ⟨"dora", ["gone", "ops", "read-only", "ops"], "", none, none, 0, true, none, false⟩

def opsRole : Role := ⟨"ops", none, false, .ofList [(.pool, .ofList [.create]), (.nvmeOf, .none)]⟩

def doraOnly : Directory := ⟨.ofList [("dora", dora)], .ofList [("ops", opsRole)]⟩

/-- Dora may read and create pools, and has no entry for the scope that her custom role leaves empty. Naming each of her
two roles once comes to the same. -/
theorem effectivePermissions_exact_dora :
    doraOnly.users.get? "dora" = some dora ∧
      (∀ name r, doraOnly.StandsFor name r → (name ∈ ["read-only", "ops"] ↔ name ∈ dora.roles)) ∧
      (doraOnly.effectivePermissions "dora").allows .pool .create = true ∧
      (doraOnly.effectivePermissions "dora").allows .pool .read = true ∧
      (doraOnly.effectivePermissions "dora").get? .nvmeOf = none ∧
      (doraOnly.putAccount "dora" { dora with roles := ["read-only", "ops"] }).effectivePermissions "dora" =
        doraOnly.effectivePermissions "dora" := by
  have hget : doraOnly.users.get? "dora" = some dora := rfl
  have hgone : ∀ r, ¬ doraOnly.StandsFor "gone" r := resolve?_eq_none.1 rfl
  have hsame : ∀ name r, doraOnly.StandsFor name r → (name ∈ ["read-only", "ops"] ↔ name ∈ dora.roles) := by
    intro name r hr
    have hne : name ≠ "gone" := by
      rintro rfl
      exact hgone r hr
    simp only [dora, List.mem_cons, List.not_mem_nil, or_false, hne, false_or]
    constructor
    · rintro (rfl | rfl) <;> simp
    · rintro (rfl | rfl | rfl) <;> simp
  obtain ⟨hallows, -, hrenamed⟩ := effectivePermissions_exact doraOnly "dora"
  refine ⟨hget, hsame, ?_, ?_, rfl, hrenamed dora _ hget hsame⟩
  · exact (hallows .pool .create).2 ⟨dora, hget, rfl, "ops", by decide, opsRole, .custom _ rfl, _, rfl, rfl⟩
  · obtain ⟨role, hrole, hreads⟩ : ∃ role, Catalogue.find? "read-only" = some role ∧
        ∃ ps, role.grants.get? .pool = some ps ∧ ps.holds .read = true := ⟨_, rfl, _, rfl, rfl⟩
    obtain ⟨hlisted, hnamed⟩ := Catalogue.find?_eq_some.1 hrole
    exact (hallows .pool .read).2
      ⟨dora, hget, rfl, "read-only", by decide, role, .system _ rfl hlisted hnamed, hreads⟩

end Directory

end AccessControl
