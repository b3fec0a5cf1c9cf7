import AccessControl.Proofs.Directory.Changes
import AccessControl.Proofs.Gate.Admission
import AccessControl.Proofs.Repository.Runs
import Mathlib.Data.Set.Operations

/-!
Which secret an account answers to. Commands set secrets by different rules: some must name one, some keep the old
one if none is named. After every run that began on an empty store, an account answers to the secret that was set
last for it by an acknowledged operation since the account was created (`answers_to_last_secret`).
-/

namespace AccessControl

/-- Hashers that are as one: a hash that any of them makes of a secret is verified by each of them for this secret
alone. Hashing may fail, and may give another hash each time. -/
def Hasher.Agree (hashers : Set Hasher) : Prop :=
  ∀ h ∈ hashers, ∀ h' ∈ hashers, ∀ secret hash, h.hash secret = .ok hash →
    ∀ password, h'.verify password hash = .ok (decide (password = secret))

namespace Command

/-- The secret that a command sets for an account, if it is not refused. -/
def secretFor (username : String) : Command → Option String
  | createAccount input | updateAccount input => if input.username = username then input.secret? else none
  | changePassword name _ new => if name = username then some new else none
  | ensureAdmin name password => if name = username then (some password).filter (· ≠ "") else none
  | _ => none

/-- The command has nothing to do with the secret of an account: it is about roles or another account, or replaces
the account without naming a secret. -/
def Spares (username : String) : Command → Prop
  | createAccount input => input.username ≠ username
  | updateAccount input => input.username ≠ username ∨ input.secret? = none
  | deleteAccount name => name ≠ username
  | changePassword name _ _ => name ≠ username
  | ensureAdmin name _ => name ≠ username
  | createRole _ | updateRole _ | deleteRole _ | cloneRole _ _ => True

end Command

/-! ### What commands do about secrets -/

namespace Directory

def storedHash (d : Directory) (username : String) : Option String := (d.users.get? username).map (·.passwordHash)

/-- What becomes of the stored hash of an account, by the secret that is set for it: a hash of this secret is stored,
or, if there is none, the hash is left alone. -/
inductive SecretChange (h : Hasher) (username : String) (d next : Directory) : Option String → Prop
  | set (secret hash : String) (filled : secret ≠ "") (hashed : h.hash secret = .ok hash)
      (stored : next.storedHash username = some hash) : SecretChange h username d next (some secret)
  | kept (same : next.storedHash username = d.storedHash username) : SecretChange h username d next none

variable {c : Circumstances} {d next : Directory} {username : String} {a : Account}

theorem storedHash_putAccount (d : Directory) (key : String) (a : Account) (username : String) :
    (d.putAccount key a).storedHash username =
      if username = key then some a.passwordHash else d.storedHash username := by
  rw [storedHash, putAccount, Table.get?_insert]
  simp only [Std.compare_eq_iff_eq]
  split <;> rfl

theorem storedHash_deleteAccount (d : Directory) (key username : String) :
    (d.deleteAccount key).storedHash username = if username = key then none else d.storedHash username := by
  rw [storedHash, deleteAccount, Table.get?_erase]
  simp only [Std.compare_eq_iff_eq]
  split <;> rfl

/-- Whatever is put under another key leaves the secret of an account alone. -/
theorem secretChange_of_ne {h : Hasher} {key : String} (hkey : key ≠ username) (named : Option String) :
    SecretChange h username d (d.putAccount key a) (if key = username then named else none) := by
  rw [if_neg hkey]
  refine SecretChange.kept ?_
  rw [storedHash_putAccount, if_neg (Ne.symm hkey)]

theorem createAccount_secretChange {input : AccountInput} (h : (d.createAccount c input).outcome = .ok (a, next)) :
    SecretChange c.hasher username d next (if input.username = username then input.secret? else none) := by
  obtain ⟨-, secret, hsecret, hash, hhashed, -, -, -, rfl⟩ := createAccount_eq_ok.1 h
  by_cases hname : input.username = username
  · rw [if_pos hname, hsecret]
    refine SecretChange.set secret hash (AccountInput.secret?_eq_some.1 hsecret).2 hhashed ?_
    rw [storedHash_putAccount, if_pos hname.symm]
    rfl
  · exact secretChange_of_ne hname _

theorem updateAccount_secretChange {input : AccountInput} (h : (d.updateAccount c input).outcome = .ok (a, next)) :
    SecretChange c.hasher username d next (if input.username = username then input.secret? else none) := by
  obtain ⟨new, hnew, previous, hget, -, -, rfl⟩ := updateAccount_eq_ok.1 h
  by_cases hname : input.username = username
  · rw [if_pos hname]
    cases hsecret : input.secret? with
    | none =>
        rw [hsecret] at hnew
        cases hnew
        refine SecretChange.kept ?_
        rw [storedHash_putAccount, if_pos hname.symm, storedHash, ← hname, hget]
        rfl
    | some secret =>
        rw [hsecret, hashNew, Attempt.outcome_bind, bind_eq_ok] at hnew
        obtain ⟨hash, hhashed, hnew⟩ := hnew
        cases hnew
        refine SecretChange.set secret hash (AccountInput.secret?_eq_some.1 hsecret).2 hhashed ?_
        rw [storedHash_putAccount, if_pos hname.symm]
        rfl
  · exact secretChange_of_ne hname _

theorem changePassword_secretChange {name current new : String}
    (h : (d.changePassword c name current new).outcome = .ok next) :
    SecretChange c.hasher username d next (if name = username then some new else none) := by
  obtain ⟨hfilled, a, -, -, hash, hhashed, rfl⟩ := changePassword_eq_ok.1 h
  by_cases hname : name = username
  · rw [if_pos hname]
    refine SecretChange.set new hash hfilled hhashed ?_
    rw [storedHash_putAccount, if_pos hname.symm]
  · exact secretChange_of_ne hname _

/-- A command that is not refused does about the secret of an account what its name for it says, unless it removes
the account. -/
theorem attempt_secretChange {command : Command} {answer : Answer}
    (h : (command.attempt c d).outcome = .ok (answer, next)) (hstays : command ≠ .deleteAccount username) :
    SecretChange c.hasher username d next (command.secretFor username) := by
  cases command with
  | createAccount input =>
      obtain ⟨a, h, -⟩ := Command.answeringAccount_eq_ok.1 h
      exact createAccount_secretChange h
  | updateAccount input =>
      obtain ⟨a, h, -⟩ := Command.answeringAccount_eq_ok.1 h
      exact updateAccount_secretChange h
  | deleteAccount name =>
      cases h
      refine SecretChange.kept ?_
      rw [storedHash_deleteAccount, if_neg]
      rintro rfl
      exact hstays rfl
  | changePassword name current new =>
      obtain ⟨h, -⟩ := Command.done_eq_ok.1 h
      exact changePassword_secretChange h
  | ensureAdmin name password =>
      rw [Command.attempt, Attempt.outcome_bind, bind_eq_ok] at h
      obtain ⟨⟨a, d'⟩, h, hnext⟩ := h
      cases hnext
      rcases ensureAdmin_eq_ok.1 h with ⟨previous, -, h⟩ | ⟨-, h⟩
      · exact updateAccount_secretChange h
      · exact createAccount_secretChange h
  | createRole input =>
      obtain ⟨r, h, -⟩ := Command.answeringRole_eq_ok.1 h
      obtain ⟨-, -, rfl⟩ := createRole_eq_ok.1 h
      exact SecretChange.kept rfl
  | updateRole input =>
      obtain ⟨r, h, -⟩ := Command.answeringRole_eq_ok.1 h
      obtain ⟨-, -, -, rfl⟩ := updateRole_eq_ok.1 h
      exact SecretChange.kept rfl
  | deleteRole name =>
      obtain ⟨h, -⟩ := Command.done_eq_ok.1 h
      obtain ⟨-, -, -, rfl⟩ := deleteRole_eq_ok.1 h
      exact SecretChange.kept rfl
  | cloneRole source name =>
      obtain ⟨r, h, -⟩ := Command.answeringRole_eq_ok.1 h
      obtain ⟨role, -, -, -, rfl⟩ := cloneRole_eq_ok.1 h
      exact SecretChange.kept rfl

theorem storedHash_of_get? (hget : d.users.get? username = some a) : d.storedHash username = some a.passwordHash := by
  rw [storedHash, hget]
  rfl

theorem contains_eq_isSome (d : Directory) (username : String) :
    d.users.contains username = (d.storedHash username).isSome := by
  rw [storedHash, Option.isSome_map, Table.contains]

end Directory

theorem Command.Spares.ne_delete {command : Command} {username : String} (h : command.Spares username) :
    command ≠ .deleteAccount username := by
  rintro rfl
  exact h rfl

theorem Command.Spares.unnamed {command : Command} {username : String} (h : command.Spares username) :
    command.secretFor username = none := by
  cases command with
  | createAccount input => exact if_neg h
  | updateAccount input =>
      rcases h with hname | hsecret
      · exact if_neg hname
      · rw [secretFor, hsecret]
        exact ite_self none
  | deleteAccount name => rfl
  | changePassword name current new => exact if_neg h
  | ensureAdmin name password => exact if_neg h
  | createRole input => rfl
  | updateRole input => rfl
  | deleteRole name => rfl
  | cloneRole source name => rfl

/-! ### Runs -/

namespace Repository

/-- The operation makes an account that was not there. -/
def Creates (username : String) (x : Repository × Operation) : Prop :=
  x.1.cache.users.contains username = false ∧ (x.1.performed x.2).cache.users.contains username = true

instance (username : String) (x : Repository × Operation) : Decidable (Creates username x) :=
  inferInstanceAs (Decidable (_ ∧ _))

/-- The secret that was set last for an account since it was created, after one more operation. Only acknowledged
operations count. -/
def remember (username : String) (secret : Option String) (x : Repository × Operation) : Option String :=
  match (x.1.perform x.2).1 with
  | .error _ => secret
  | .ok _ =>
    if Creates username x then x.2.command.secretFor username else (x.2.command.secretFor username).or secret

/-- The secret that a run of acknowledged operations set last for an account since it was created. -/
def lastSecret (r : Repository) (username : String) (ops : List Operation) : Option String :=
  (r.trace ops).foldl (remember username) none

/-- Some operation of the run was acknowledged, set this secret for the account and made this hash of it. -/
def Hashed (r : Repository) (username : String) (ops : List Operation) (secret hash : String) : Prop :=
  ∃ x ∈ r.trace ops, (∃ answer, (x.1.perform x.2).1 = .ok answer) ∧ x.2.command.secretFor username = some secret ∧
    x.2.circumstances.hasher.hash secret = .ok hash

variable {r : Repository} {op : Operation} {ops : List Operation} {username : String}

theorem mem_of_mem_trace {x : Repository × Operation} (h : x ∈ r.trace ops) : x.2 ∈ ops := by
  induction ops generalizing r with
  | nil => cases h
  | cons op ops ih =>
      rcases List.mem_cons.1 h with rfl | h
      · exact List.mem_cons_self
      · exact List.mem_cons_of_mem _ (ih h)

theorem lastSecret_snoc :
    r.lastSecret username (ops ++ [op]) = remember username (r.lastSecret username ops) (r.after ops, op) := by
  rw [lastSecret, trace_snoc, List.foldl_append]
  rfl

/-- What one operation comes to for an account: all about its secret stays, a new secret is set and remembered, or
the account is gone. -/
inductive Turn (r : Repository) (op : Operation) (username : String) : Prop
  | kept (same : (r.performed op).cache.storedHash username = r.cache.storedHash username)
      (remembered : ∀ known, remember username known (r, op) = known)
  | set (answer : Answer) (secret hash : String) (acknowledged : (r.perform op).1 = .ok answer)
      (named : op.command.secretFor username = some secret) (filled : secret ≠ "")
      (hashed : op.circumstances.hasher.hash secret = .ok hash)
      (stored : (r.performed op).cache.storedHash username = some hash)
      (remembered : ∀ known, remember username known (r, op) = some secret)
  | gone (absent : (r.performed op).cache.storedHash username = none)

theorem remember_of_error {e : AccessError} (hrefused : (r.perform op).1 = .error e) (known : Option String) :
    remember username known (r, op) = known := by
  rw [remember, hrefused]

theorem remember_of_unnamed {answer : Answer} (hacknowledged : (r.perform op).1 = .ok answer)
    (hunnamed : op.command.secretFor username = none)
    (hsame : (r.performed op).cache.storedHash username = r.cache.storedHash username) (known : Option String) :
    remember username known (r, op) = known := by
  have hcreates : ¬ Creates username (r, op) := by
    rintro ⟨hbefore, hafter⟩
    rw [Directory.contains_eq_isSome] at hbefore hafter
    rw [hsame, hbefore] at hafter
    cases hafter
  rw [remember, hacknowledged]
  dsimp only
  rw [if_neg hcreates, hunnamed]
  rfl

theorem remember_of_named {answer : Answer} {secret : String} (hacknowledged : (r.perform op).1 = .ok answer)
    (hnamed : op.command.secretFor username = some secret) (known : Option String) :
    remember username known (r, op) = some secret := by
  rw [remember, hacknowledged]
  dsimp only
  rw [hnamed]
  exact ite_self _

theorem InStep.turn (hr : r.InStep) (hrecoverable : op.faults.Recoverable) (username : String) :
    Turn r op username := by
  rcases (hr.settles hrecoverable).2 with ⟨⟨e, hrefused⟩, hcache⟩ | ⟨answer, hacknowledged, hattempted⟩
  · exact Turn.kept (by rw [hcache]) (remember_of_error hrefused)
  · by_cases hdelete : op.command = .deleteAccount username
    · rw [Directory.attempted, hdelete] at hattempted
      have hnext : r.cache.deleteAccount username = (r.performed op).cache :=
        congrArg Prod.snd (Except.ok.inj hattempted)
      refine Turn.gone ?_
      rw [← hnext, Directory.storedHash_deleteAccount, if_pos rfl]
    · have hchange := Directory.attempt_secretChange hattempted hdelete
      generalize hnamed : op.command.secretFor username = named at hchange
      cases hchange with
      | set secret hash filled hashed stored =>
          exact Turn.set answer secret hash hacknowledged hnamed filled hashed stored
            (remember_of_named hacknowledged hnamed)
      | kept same => exact Turn.kept same (remember_of_unnamed hacknowledged hnamed same)

/-- A refused operation, and one that has nothing to do with the secret of an account, leave it alone. -/
theorem InStep.turn_kept (hr : r.InStep) (hrecoverable : op.faults.Recoverable)
    (hspared : (∃ e, (r.perform op).1 = .error e) ∨ op.command.Spares username) :
    (r.performed op).cache.storedHash username = r.cache.storedHash username ∧
      ∀ known, remember username known (r, op) = known := by
  rcases (hr.settles hrecoverable).2 with ⟨⟨e, hrefused⟩, hcache⟩ | ⟨answer, hacknowledged, hattempted⟩
  · exact ⟨by rw [hcache], remember_of_error hrefused⟩
  · have hspares : op.command.Spares username := by
      rcases hspared with ⟨e, hrefused⟩ | hspares
      · rw [hacknowledged] at hrefused
        cases hrefused
      · exact hspares
    have hchange := Directory.attempt_secretChange hattempted hspares.ne_delete
    rw [hspares.unnamed] at hchange
    cases hchange with
    | kept same => exact ⟨same, remember_of_unnamed hacknowledged hspares.unnamed same⟩

theorem Hashed.snoc {secret hash : String} (h : r.Hashed username ops secret hash) (op : Operation) :
    r.Hashed username (ops ++ [op]) secret hash := by
  obtain ⟨x, hmem, hx⟩ := h
  refine ⟨x, ?_, hx⟩
  rw [trace_snoc]
  exact List.mem_append_left _ hmem

/-- After every run, the stored hash of an account was made of the secret that was set for it last. -/
theorem storedHash_of_lastSecret (hr : r.InStep) (hempty : r.cache = .empty)
    (hrecoverable : ∀ op ∈ ops, op.faults.Recoverable) {hash : String}
    (hstored : (r.after ops).cache.storedHash username = some hash) :
    ∃ secret, r.lastSecret username ops = some secret ∧ secret ≠ "" ∧ r.Hashed username ops secret hash := by
  induction ops using List.reverseRecOn generalizing hash with
  | nil =>
      rw [show r.after [] = r from rfl, hempty] at hstored
      cases hstored
  | append_singleton ops op ih =>
      rw [List.forall_mem_append] at hrecoverable
      have hstep := hr.after_recoverable hrecoverable.1
      rw [lastSecret_snoc]
      rw [after_snoc] at hstored
      cases hstep.turn (hrecoverable.2 op List.mem_cons_self) username with
      | kept same remembered =>
          rw [same] at hstored
          obtain ⟨secret, hlast, hfilled, hhashed⟩ := ih hrecoverable.1 hstored
          exact ⟨secret, by rw [remembered, hlast], hfilled, hhashed.snoc op⟩
      | set answer secret hash' acknowledged named filled hashed stored remembered =>
          rw [stored] at hstored
          cases hstored
          refine ⟨secret, remembered _, filled, (r.after ops, op), ?_, ⟨answer, acknowledged⟩, named, hashed⟩
          rw [trace_snoc]
          exact List.mem_append_right _ List.mem_cons_self
      | gone absent =>
          rw [absent] at hstored
          cases hstored

/-- After every run that began on an empty store, an account answers to the secret that was set for it last by an
acknowledged operation since it was created, and to no other; the stored value is a hash that was made of this secret
then. What is refused, and what has nothing to do with the secret of an account, leaves it alone. -/
theorem answers_to_last_secret {hashers : Set Hasher} (hagree : Hasher.Agree hashers) {s : Store} {r : Repository}
    (hload : Repository.load s = .ok r) (hempty : s.content = none) (ops : List Operation)
    (hused : ∀ op ∈ ops, op.circumstances.hasher ∈ hashers) (hrecoverable : ∀ op ∈ ops, op.faults.Recoverable) :
    (∀ h ∈ hashers, ∀ username password,
      (∃ a, (r.after ops).cache.verifyCredentials h username password = .ok a) ↔
        ∃ a, (r.after ops).cache.users.get? username = some a ∧ a.enabled = true ∧
          r.lastSecret username ops = some password) ∧
    (∀ username a, (r.after ops).cache.users.get? username = some a →
      ∃ secret, r.lastSecret username ops = some secret ∧ secret ≠ "" ∧
        r.Hashed username ops secret a.passwordHash) ∧
    ∀ op username, op.faults.Recoverable →
      ((∃ e, ((r.after ops).perform op).1 = .error e) ∨ op.command.Spares username) →
        (r.after (ops ++ [op])).cache.storedHash username = (r.after ops).cache.storedHash username ∧
          r.lastSecret username (ops ++ [op]) = r.lastSecret username ops := by
  have hstep := inStep_of_load hload
  have hcache : r.cache = .empty := by
    obtain ⟨d, hdescribed, hr⟩ := bind_eq_ok.1 hload
    cases hr
    rw [Store.load_eq_ok, hempty] at hdescribed
    exact (Except.ok.inj hdescribed.2).symm
  have hstored : ∀ username a, (r.after ops).cache.users.get? username = some a →
      ∃ secret, r.lastSecret username ops = some secret ∧ secret ≠ "" ∧ r.Hashed username ops secret a.passwordHash :=
    fun username a hget =>
      storedHash_of_lastSecret hstep hcache hrecoverable (Directory.storedHash_of_get? hget)
  refine ⟨fun h hh username password => ?_, hstored, fun op username hop hspared => ?_⟩
  · have hverifies : ∀ (a : Account) secret, r.lastSecret username ops = some secret →
        r.Hashed username ops secret a.passwordHash →
          (h.verify password a.passwordHash = .ok true ↔ r.lastSecret username ops = some password) := by
      rintro a secret hlast ⟨x, hmem, -, -, hhashed⟩
      have hmade := hused x.2 (mem_of_mem_trace hmem)
      rw [hagree _ hmade h hh secret a.passwordHash hhashed password, hlast]
      simp [eq_comm]
    constructor
    · rintro ⟨a, hok⟩
      obtain ⟨hget, henabled, hverify⟩ := Directory.verifyCredentials_eq_ok.1 hok
      obtain ⟨secret, hlast, -, hhashed⟩ := hstored username a hget
      exact ⟨a, hget, henabled, (hverifies a secret hlast hhashed).1 hverify⟩
    · rintro ⟨a, hget, henabled, hpassword⟩
      obtain ⟨secret, hlast, -, hhashed⟩ := hstored username a hget
      exact ⟨a, Directory.verifyCredentials_eq_ok.2
        ⟨hget, henabled, (hverifies a secret hlast hhashed).2 hpassword⟩⟩
  · rw [after_snoc, lastSecret_snoc]
    obtain ⟨hsame, hremembered⟩ := (hstep.after_recoverable hrecoverable).turn_kept hop hspared
    exact ⟨hsame, hremembered _⟩

/-- A hasher that makes no hashes for the time being. -/
def jammed : Hasher := ⟨fun _ => .error (.other .internal "hasher broken"), Hasher.marking.verify⟩

theorem marking_agrees_jammed : Hasher.Agree {h | h = .marking ∨ h = jammed} := by
  have hverify : ∀ secret password,
      Hasher.marking.verify password ("hashed::" ++ secret) = .ok (decide (password = secret)) := by
    intro secret password
    refine congrArg Except.ok ?_
    rw [Bool.eq_iff_iff, beq_iff_eq, decide_eq_true_eq, String.append_right_inj]
  rintro h (rfl | rfl) h' hh' secret hash hhash password
  · cases hhash
    rcases hh' with rfl | rfl <;> exact hverify secret password
  · cases hhash

/-- Ann is created once in vain and then with a first secret, is given a second one, and is replaced without one;
another change of her secret fails for want of a hash. -/
def annOperations : List Operation :=
  [.newAccount "ann" [] .readOnly, .newAccount "ann" [] .none,
   .under .none (.changePassword "ann" "pw" "new"),
   .under .none (.updateAccount ⟨"ann", none, some "Ann", none, true, [], none, false⟩),
   ⟨⟨0, jammed⟩, .none, .changePassword "ann" "new" "newer"⟩]

theorem ann_answers_to_new :
    Repository.load .empty = .ok fresh ∧
      (∃ a, (fresh.after annOperations).cache.verifyCredentials .marking "ann" "new" = .ok a) ∧
      ¬ ∃ a, (fresh.after annOperations).cache.verifyCredentials jammed "ann" "newer" = .ok a := by
  have hload : Repository.load .empty = .ok fresh := rfl
  have hlast : fresh.lastSecret "ann" annOperations = some "new" := by decide
  obtain ⟨hanswers, -, -⟩ := answers_to_last_secret marking_agrees_jammed hload rfl annOperations
    (by simp [annOperations, Operation.newAccount, Operation.under])
    (by simp [annOperations, Operation.newAccount, Operation.under, Faults.Recoverable, Faults.none, Faults.readOnly])
  refine ⟨hload, (hanswers _ (Or.inl rfl) "ann" "new").2 ⟨_, rfl, rfl, hlast⟩, fun hanswer => ?_⟩
  obtain ⟨a, -, -, hnewer⟩ := (hanswers _ (Or.inr rfl) "ann" "newer").1 hanswer
  rw [hlast] at hnewer
  exact absurd hnewer (by decide)

end Repository

end AccessControl
