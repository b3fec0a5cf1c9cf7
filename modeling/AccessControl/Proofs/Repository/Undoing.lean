import AccessControl.Proofs.Site

/-!
Taking back a creation. A role or an account that was just created can be removed at once, and then cache and store are as
if nothing had happened (`creations_taken_back`). For accounts this is so in every directory; a new role can be removed
because no account holds a role that is not there, which is what keeps a directory sound.
-/

namespace AccessControl

namespace Directory

variable {d next : Directory}

/-- A role that was put under a free name is held by no account, and can be removed. -/
theorem deleteRole_putRole (hd : d.Sound) (role : Role) (hfree : d.knowsRole role.name = false) :
    (d.putRole role).deleteRole role.name = .ok d := by
  obtain ⟨hcustom, hnew⟩ := knowsRole_eq_false.1 hfree
  have hunassigned : ¬ (d.putRole role).Assigns role.name := by
    intro hassigns
    rcases hd role.name hassigns with hreserved | hheld
    · rw [hcustom] at hreserved
      cases hreserved
    · rw [hnew] at hheld
      cases hheld
  refine deleteRole_eq_ok.2 ⟨hcustom, Table.contains_insert.2 (Or.inl rfl), holders_eq_nil.2 hunassigned, ?_⟩
  rw [putRole, Table.erase_insert (Table.contains_eq_false.1 hnew)]

theorem deleteRole_of_createRole (hd : d.Sound) {input : RoleInput} {role : Role}
    (h : d.createRole input = .ok (role, next)) : next.deleteRole input.name = .ok d := by
  obtain ⟨hfree, hrole, rfl⟩ := createRole_eq_ok.1 h
  obtain ⟨grants, -, -, -, rfl⟩ := RoleInput.role_eq_ok.1 hrole
  exact deleteRole_putRole hd ⟨input.name, _, false, _⟩ hfree

theorem deleteRole_of_cloneRole (hd : d.Sound) {source name : String} {role : Role}
    (h : d.cloneRole source name = .ok (role, next)) : next.deleteRole name = .ok d := by
  obtain ⟨original, -, hclone, hfree, rfl⟩ := cloneRole_eq_ok.1 h
  obtain ⟨-, rfl⟩ := Role.custom_eq_ok.1 hclone
  exact deleteRole_putRole hd ⟨name, _, false, _⟩ hfree

theorem deleteAccount_of_createAccount {c : Circumstances} {input : AccountInput} {a : Account}
    (h : (d.createAccount c input).outcome = .ok (a, next)) : next.deleteAccount input.username = d := by
  obtain ⟨-, secret, -, hash, -, hnew, -, -, rfl⟩ := createAccount_eq_ok.1 h
  rw [deleteAccount, putAccount, Table.erase_insert (Table.contains_eq_false.1 hnew)]

/-- Whatever the one command makes of the directory, the other one makes the directory of that again. -/
def Undoes (d : Directory) (removal creation : Command) : Prop :=
  ∀ c answer next, (creation.attempt c d).outcome = .ok (answer, next) →
    ∀ c', (removal.attempt c' next).outcome = .ok (.done, d)

theorem undoes_createRole (hd : d.Sound) (input : RoleInput) :
    d.Undoes (.deleteRole input.name) (.createRole input) := by
  intro c answer next hcreated c'
  obtain ⟨role, hcreated, -⟩ := Command.answeringRole_eq_ok.1 hcreated
  exact Command.done_eq_ok.2 ⟨deleteRole_of_createRole hd hcreated, rfl⟩

theorem undoes_cloneRole (hd : d.Sound) (source name : String) :
    d.Undoes (.deleteRole name) (.cloneRole source name) := by
  intro c answer next hcloned c'
  obtain ⟨role, hcloned, -⟩ := Command.answeringRole_eq_ok.1 hcloned
  exact Command.done_eq_ok.2 ⟨deleteRole_of_cloneRole hd hcloned, rfl⟩

theorem undoes_createAccount (d : Directory) (input : AccountInput) :
    d.Undoes (.deleteAccount input.username) (.createAccount input) := by
  intro c answer next hcreated c'
  obtain ⟨a, hcreated, -⟩ := Command.answeringAccount_eq_ok.1 hcreated
  exact congrArg (fun d => Except.ok (Answer.done, d)) (deleteAccount_of_createAccount hcreated)

end Directory

namespace Repository

/-- Whenever the one command is answered, the other one right after it is answered too, if the store takes it; then the cache
is as it was before the two, and so are the accounts and roles in the store. -/
def TakesBack (r : Repository) (removal creation : Command) : Prop :=
  ∀ op op' answer, op.command = creation → op'.command = removal → op'.faults.put = none →
    (r.perform op).1 = .ok answer →
      ((r.performed op).perform op').1 = .ok .done ∧ ((r.performed op).performed op').cache = r.cache ∧
        Store.directoryOf ((r.performed op).performed op').store.content = Store.directoryOf r.store.content

theorem InStep.takesBack {r : Repository} (hr : r.InStep) {removal creation : Command}
    (h : r.cache.Undoes removal creation) : r.TakesBack removal creation := by
  intro op op' answer hcreation hremoval haccepting hanswer
  obtain ⟨hcreated, -⟩ := stored_of_ok hanswer
  rw [Directory.attempted, hcreation] at hcreated
  have hremoved : (r.performed op).cache.attempted op' = .ok (.done, r.cache) := by
    rw [Directory.attempted, hremoval]
    exact h _ _ _ hcreated _
  obtain ⟨hdone, hcache⟩ := perform_of_accepting haccepting hremoved
  obtain ⟨-, hstored⟩ := stored_of_ok hdone
  rw [InStep, hcache] at hstored
  exact ⟨hdone, hcache, hstored.trans hr.symm⟩

/-- A creation is taken back by the removal that follows it at once, in every repository that is alone on its store, was
loaded from a sound document or none, and could read its store back whenever a write was not taken. -/
theorem creations_taken_back {s : Store} {r : Repository} (hload : Repository.load s = .ok r)
    (hinitial : s.content = none ∨ s.Describes Directory.Sound) {ops : List Operation}
    (hrecoverable : ∀ op ∈ ops, op.faults.Recoverable) :
    (∀ input, (r.after ops).TakesBack (.deleteRole input.name) (.createRole input)) ∧
      (∀ source name, (r.after ops).TakesBack (.deleteRole name) (.cloneRole source name)) ∧
      ∀ input, (r.after ops).TakesBack (.deleteAccount input.username) (.createAccount input) := by
  obtain ⟨hcache, hstored⟩ := loaded_keeps hload Directory.sound_empty hinitial
  obtain ⟨hsound, -⟩ := after_keeps Directory.sound_kept hcache hstored ops
  have hstep := (inStep_of_load hload).after_recoverable hrecoverable
  refine ⟨fun input => ?_, fun source name => ?_, fun input => ?_⟩
  · exact hstep.takesBack (Directory.undoes_createRole hsound input)
  · exact hstep.takesBack (Directory.undoes_cloneRole hsound source name)
  · exact hstep.takesBack (Directory.undoes_createAccount _ input)

/-- The store does not take an account at first; then a role is made and given to another account. -/
def staffing : List Operation :=
  [.newAccount "hank" [] .readOnly, .newRole "ops" .none, .newAccount "ann" ["ops"] .none]

def copying : Operation := .under .none (.cloneRole "ops" "crew")

/-- A copy of the role that is held can be taken back, and so can the account when the store takes it. -/
theorem creations_taken_back_staffing :
    Repository.load .empty = .ok fresh ∧ (∀ op ∈ staffing, op.faults.Recoverable) ∧
      (∃ role, ((fresh.after staffing).perform copying).1 = .ok (.role role)) ∧
      (((fresh.after staffing).performed copying).performed (.under .none (.deleteRole "crew"))).cache =
        (fresh.after staffing).cache ∧
      (∃ a, ((fresh.after staffing).perform (.newAccount "hank" ["ops"] .none)).1 = .ok (.account a)) ∧
      (((fresh.after staffing).performed (.newAccount "hank" ["ops"] .none)).performed
        (.under .none (.deleteAccount "hank"))).cache = (fresh.after staffing).cache := by
  have hload : Repository.load .empty = .ok fresh := rfl
  have hrecoverable : ∀ op ∈ staffing, op.faults.Recoverable := by
    simp [staffing, Operation.newRole, Operation.newAccount, Operation.under, Faults.Recoverable, Faults.none,
      Faults.readOnly]
  obtain ⟨-, hclone, hcreate⟩ := creations_taken_back hload (Or.inl rfl) hrecoverable
  have hcopied : ((fresh.after staffing).perform copying).1 = .ok (.role ⟨"crew", none, false, .empty⟩) := rfl
  have hhired : ((fresh.after staffing).perform (.newAccount "hank" ["ops"] .none)).1 =
      .ok (.account ⟨"hank", ["ops"], "hashed::pw", none, none, 0, true, none, false⟩) := rfl
  obtain ⟨-, hcopy, -⟩ := hclone "ops" "crew" copying (.under .none (.deleteRole "crew")) _ rfl rfl rfl hcopied
  obtain ⟨-, hhire, -⟩ :=
    hcreate ⟨"hank", some "pw", none, none, true, ["ops"], none, false⟩ (.newAccount "hank" ["ops"] .none)
      (.under .none (.deleteAccount "hank")) _ rfl rfl rfl hhired
  exact ⟨hload, hrecoverable, ⟨_, hcopied⟩, hcopy, ⟨_, hhired⟩, hhire⟩

end Repository

end AccessControl
