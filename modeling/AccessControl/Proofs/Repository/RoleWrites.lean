import AccessControl.Proofs.Directory.Resolution
import AccessControl.Proofs.Grants.Words
import AccessControl.Proofs.Repository.Outcome

/-!
The exact outcome of the commands that change roles. For each of them the causes of refusal are listed in the order in
which they count, and it is said what role is made of an input that is not refused (`role_writes_exact`).
-/

namespace AccessControl

namespace Catalogue

/-- Some system role has this name. -/
def Names (name : String) : Prop := ∃ r ∈ roles, r.name = name

theorem names_iff {name : String} : Names name ↔ (!reserves name) = false := by
  rw [Bool.not_eq_false', reserves_eq_true, Names]

end Catalogue

/-! ### Inputs -/

namespace RoleInput

/-- What may be wrong with an input, in the order in which it is reported: a word that names nothing, the mark of a
system role, a blank name. -/
def flaws (input : RoleInput) (act : SystemRoleAct) : List Cause :=
  [.atFirst Word.Unknown (Grants.words input.grants.entries) .invalidArgument Word.refusal,
   .when (input.system = true) .invalidArgument (.systemRole act),
   .when (Blank input.name) .invalidArgument .blankRoleName]

/-- The role is a custom role with the name and the description of the input, and with exactly the scopes and the
permissions that it names. -/
structure Describes (input : RoleInput) (role : Role) : Prop where
  name : role.name = input.name
  description : role.description = input.description
  custom : role.system = false
  scopes : ∀ s, (∃ ps, role.grants.get? s = some ps) ↔ ∃ texts, input.grants.get? s.name = some texts
  permissions : ∀ s p, role.grants.allows s p = true ↔ ∃ texts, input.grants.get? s.name = some texts ∧ p.name ∈ texts

variable {input : RoleInput} {act : SystemRoleAct}

theorem describes_of_ofNames {g : Grants} (h : Grants.ofNames input.grants.entries = .ok g) :
    input.Describes ⟨input.name, input.description, false, g⟩ := by
  refine ⟨rfl, rfl, rfl, fun s => ?_, fun s p => ?_⟩
  · rw [← Table.contains_iff, Grants.contains_of_ofNames h]
    simp [Table.mem_entries_iff]
  · rw [Grants.allows_of_ofNames h]
    simp [Table.mem_entries_iff]

theorem role_settles (input : RoleInput) (act : SystemRoleAct) :
    Settles (input.flaws act) input.Describes (input.role act) := by
  refine Settles.of_first (Grants.ofNames_failsAtFirst _) Word.kind_refusal fun g hg => ?_
  refine Settles.of_demand (by simp) rfl fun _ => ?_
  rw [Role.custom_eq]
  refine Settles.of_demand blank_iff rfl fun _ => ?_
  exact Settles.finish (describes_of_ofNames hg)

end RoleInput

/-! ### Directories -/

namespace Directory

/-- The name is that of a system role, or there is a custom role under it. -/
def Taken (d : Directory) (name : String) : Prop := Catalogue.Names name ∨ ∃ role, d.roles.get? name = some role

theorem taken_iff {d : Directory} {name : String} : d.Taken name ↔ (!d.knowsRole name) = false := by
  rw [Bool.not_eq_false', knowsRole_eq_true, Catalogue.reserves_eq_true, Table.contains_iff, Taken, Catalogue.Names]

/-- The role is a custom copy, under the name, of the role that the source stands for. -/
def Copies (d : Directory) (source name : String) (copy : Role) : Prop :=
  ∃ role, d.StandsFor source role ∧ copy = ⟨name, role.description, false, role.grants⟩

/-- The role is in use: it is refused with the name of some account that holds it. -/
def inUse (d : Directory) (name : String) : Cause where
  applies := d.Assigns name
  errors e := e.kind = .invalidArgument ∧
    ∃ key a, d.users.get? key = some a ∧ name ∈ a.roles ∧ e = .roleInUse name a.username

variable (d : Directory)

theorem createRole_settles (input : RoleInput) :
    Settles (.when (d.Taken input.name) .alreadyExists (.roleExists input.name) :: input.flaws .created)
      (fun x => input.Describes x.1 ∧ d.SetsRole input.name (some x.1) x.2) (d.createRole input) := by
  refine Settles.of_demand taken_iff rfl fun _ => ?_
  rw [bind_pure_comp]
  refine (input.role_settles .created).map fun role hrole => ⟨hrole, ?_⟩
  rw [← hrole.name]
  exact d.setsRole_putRole role

theorem updateRole_settles (input : RoleInput) :
    Settles (.when (Catalogue.Names input.name) .invalidArgument (.systemRole .modified) ::
        .when (d.roles.get? input.name = none) .notFound (.roleNotFound input.name) :: input.flaws .modified)
      (fun x => input.Describes x.1 ∧ d.SetsRole input.name (some x.1) x.2) (d.updateRole input) := by
  refine Settles.of_demand Catalogue.names_iff rfl fun _ => ?_
  refine Settles.of_demand Table.contains_eq_false.symm rfl fun _ => ?_
  rw [bind_pure_comp]
  refine (input.role_settles .modified).map fun role hrole => ⟨hrole, ?_⟩
  rw [← hrole.name]
  exact d.setsRole_putRole role

theorem deleteRole_settles (name : String) :
    Settles [.when (Catalogue.Names name) .invalidArgument (.systemRole .deleted),
        .when (d.roles.get? name = none) .notFound (.roleNotFound name), d.inUse name]
      (fun next => d.SetsRole name none next) (d.deleteRole name) := by
  refine Settles.of_demand Catalogue.names_iff rfl fun _ => ?_
  refine Settles.of_demand Table.contains_eq_false.symm rfl fun _ => ?_
  -- the listed holders are the accounts that hold the role, and the first of them is reported
  cases hholders : d.holders name with
  | nil =>
      have hfree : ¬ d.Assigns name := holders_eq_nil.1 hholders
      exact ⟨fun hassigns => absurd hassigns hfree, fun _ => Settles.finish ⟨rfl, Table.setTo_erase ..⟩⟩
  | cons holder rest =>
      obtain ⟨hmem, hrole⟩ := List.mem_filter.1 (hholders ▸ List.mem_cons_self : holder ∈ d.holders name)
      obtain ⟨key, hget⟩ := Table.mem_values_iff.1 hmem
      have hholds : name ∈ holder.roles := List.contains_iff_mem.1 hrole
      refine ⟨fun _ => ⟨_, ⟨rfl, key, holder, hget, hholds, rfl⟩, rfl⟩, fun hfree => ?_⟩
      exact absurd ⟨key, holder, hget, hholds⟩ hfree

theorem cloneRole_settles (source name : String) :
    Settles [.when (d.Unresolved source) .notFound (.roleNotFound source),
        .when (Blank name) .invalidArgument .blankRoleName,
        .when (d.Taken name) .alreadyExists (.roleExists name)]
      (fun x => d.Copies source name x.1 ∧ d.SetsRole name (some x.1) x.2) (d.cloneRole source name) := by
  refine Settles.of_present resolve?_eq_none.symm rfl fun role hrole => ?_
  rw [Role.cloneAs, Role.custom_eq, bind_assoc]
  refine Settles.of_demand blank_iff rfl fun _ => ?_
  refine Settles.of_demand taken_iff rfl fun _ => ?_
  exact Settles.finish ⟨⟨role, resolve?_eq_some.1 hrole, rfl⟩, d.setsRole_putRole _⟩

end Directory

/-! ### Repositories -/

namespace Repository

/-- The commands that change roles are refused exactly for these causes, in this order, and a refusal leaves the
repository as it was. Otherwise the accounts stay as they are, and of the roles only the one under the name is set or
removed: to what the input describes, or to a custom copy of what the source stands for. -/
theorem role_writes_exact (r : Repository) (c : Circumstances) (haccepting : r.store.putFault = none) :
    (∀ input : RoleInput, r.Answers c (.createRole input)
      (.when (r.cache.Taken input.name) .alreadyExists (.roleExists input.name) :: input.flaws .created)
      fun answer next => ∃ role, answer = .role role ∧ input.Describes role ∧
        r.cache.SetsRole input.name (some role) next) ∧
    (∀ input : RoleInput, r.Answers c (.updateRole input)
      (.when (Catalogue.Names input.name) .invalidArgument (.systemRole .modified) ::
        .when (r.cache.roles.get? input.name = none) .notFound (.roleNotFound input.name) :: input.flaws .modified)
      fun answer next => ∃ role, answer = .role role ∧ input.Describes role ∧
        r.cache.SetsRole input.name (some role) next) ∧
    (∀ name, r.Answers c (.deleteRole name)
      [.when (Catalogue.Names name) .invalidArgument (.systemRole .deleted),
       .when (r.cache.roles.get? name = none) .notFound (.roleNotFound name), r.cache.inUse name]
      fun answer next => answer = .done ∧ r.cache.SetsRole name none next) ∧
    ∀ source name, r.Answers c (.cloneRole source name)
      [.when (r.cache.Unresolved source) .notFound (.roleNotFound source),
       .when (Blank name) .invalidArgument .blankRoleName,
       .when (r.cache.Taken name) .alreadyExists (.roleExists name)]
      fun answer next => ∃ role, answer = .role role ∧ r.cache.Copies source name role ∧
        r.cache.SetsRole name (some role) next := by
  refine ⟨fun input => ?_, fun input => ?_, fun name => ?_, fun source name => ?_⟩
  · exact answers_of_map haccepting (Command.outcome_answeringRole _) (r.cache.createRole_settles input)
  · exact answers_of_map haccepting (Command.outcome_answeringRole _) (r.cache.updateRole_settles input)
  · exact answers_of_done haccepting (Command.outcome_done _) (r.cache.deleteRole_settles name)
  · exact answers_of_map haccepting (Command.outcome_answeringRole _) (r.cache.cloneRole_settles source name)

/-- Ann holds the only custom role. -/
def crew : Repository :=
  ⟨.empty, ⟨.ofList [("ann", ⟨"ann", ["ops"], "", none, none, 0, true, none, false⟩)],
    .ofList [("ops", ⟨"ops", none, false, .empty⟩)]⟩⟩

/-- A taken name is reported before an unknown permission, and this before the mark of a system role. Ann's role cannot
be removed; a system role can be copied. -/
theorem role_writes_exact_crew :
    crew.store.putFault = none ∧
      (crew.run ⟨0, .marking⟩ (.createRole ⟨"administrator", none, true, .ofList [("pool", ["launch"])]⟩)).1 =
        .error (.roleExists "administrator") ∧
      (crew.run ⟨0, .marking⟩ (.updateRole ⟨"ops", none, true, .ofList [("pool", ["read", "launch"])]⟩)).1 =
        .error (.unknownPermission "launch") ∧
      (∃ holder, (crew.run ⟨0, .marking⟩ (.deleteRole "ops")).1 = .error (.roleInUse "ops" holder)) ∧
      ∃ role, (crew.run ⟨0, .marking⟩ (.cloneRole "read-only" "viewer")).1 = .ok (.role role) ∧
        role.system = false := by
  have hfree : ∀ name, Catalogue.reserves name = false → ¬ Catalogue.Names name := fun name hname hnames =>
    Bool.false_ne_true (hname.symm.trans (Catalogue.reserves_eq_true.2 hnames))
  have hheld : crew.cache.roles.get? "ops" ≠ none := by decide
  obtain ⟨hcreate, hupdate, hdelete, hclone⟩ := role_writes_exact crew ⟨0, .marking⟩ rfl
  refine ⟨rfl, ?_, ?_, ?_, ?_⟩
  · have hreserved : Catalogue.Names "administrator" := Catalogue.reserves_eq_true.1 rfl
    obtain ⟨e, ⟨he, -⟩, hrun⟩ :=
      (hcreate ⟨"administrator", none, true, .ofList [("pool", ["launch"])]⟩).settled.1 (Or.inl hreserved)
    rw [hrun, he]
  · have hlaunch : Word.Unknown (.permission "launch") := by
      intro p
      cases p <;> decide
    have hwords : Grants.words (Table.ofList [("pool", ["read", "launch"])]).entries =
        [.scope "pool", .permission "read", .permission "launch"] := rfl
    have hmem : .permission "launch" ∈ Grants.words (Table.ofList [("pool", ["read", "launch"])]).entries := by
      simp [hwords]
    obtain ⟨e, ⟨w, hfirst, he, -⟩, hrun⟩ :=
      (((hupdate ⟨"ops", none, true, .ofList [("pool", ["read", "launch"])]⟩).settled.2 (hfree _ rfl)).2 hheld).1
        ⟨_, hmem, hlaunch⟩
    have hw : w = .permission "launch" := by
      have hmem := hfirst.mem
      have hunknown := hfirst.holds
      simp only [hwords, List.mem_cons, List.not_mem_nil, or_false] at hmem
      rcases hmem with rfl | rfl | rfl
      · exact absurd rfl (hunknown .pool)
      · exact absurd rfl (hunknown .read)
      · rfl
    rw [hrun, he, hw]
    rfl
  · have hassigns : crew.cache.Assigns "ops" := ⟨"ann", _, rfl, by simp⟩
    obtain ⟨e, ⟨-, key, holder, -, -, he⟩, hrun⟩ := (((hdelete "ops").settled.2 (hfree _ rfl)).2 hheld).1 hassigns
    exact ⟨holder.username, by rw [hrun, he]⟩
  · have hsource : ¬ ∀ role, ¬ crew.cache.StandsFor "read-only" role :=
      fun h => Option.some_ne_none _ (Directory.resolve?_eq_none.2 h)
    have hnamed : ¬ Blank "viewer" := by
      intro h
      exact Bool.false_ne_true (h 'v' (by decide))
    have hnew : ¬ crew.cache.Taken "viewer" := by
      rintro (hnames | ⟨role, hrole⟩)
      · exact hfree _ rfl hnames
      · exact Option.some_ne_none _ hrole.symm
    obtain ⟨answer, hrun, next, -, role, rfl, ⟨source, -, rfl⟩, -⟩ :=
      (((hclone "read-only" "viewer").settled.2 hsource).2 hnamed).2 hnew
    exact ⟨_, hrun, rfl⟩

end Repository

end AccessControl
