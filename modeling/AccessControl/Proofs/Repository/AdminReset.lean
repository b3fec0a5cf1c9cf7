import AccessControl.Proofs.Repository.AccountWrites
import AccessControl.Proofs.Repository.Runs

/-!
Resetting the administrator. Whether an account is created or replaced for it, the administrator's account comes out the
same, but for the email that it had before; everything else stays as it was, and resetting it once more leaves only
another hash and another time (`admin_reset_exact`).
-/

namespace AccessControl

/-- The account is that of an administrator who was just reset. -/
structure Account.IsAdministrator (a : Account) (username hash : String) (email : Option String) (now : Int64) :
    Prop where
  username : a.username = username
  roles : a.roles = ["administrator"]
  passwordHash : a.passwordHash = hash
  name : a.name = some "default administrator"
  email : a.email = email
  lastUpdate : a.lastUpdate = now
  enabled : a.enabled = true
  pwdExpirationDate : a.pwdExpirationDate = none
  pwdUpdateRequired : a.pwdUpdateRequired = false

/-- Two resets of one account differ in the hash and in the time only. -/
theorem Account.IsAdministrator.renewed {a b : Account} {username hash hash' : String} {email : Option String}
    {now now' : Int64} (ha : a.IsAdministrator username hash email now)
    (hb : b.IsAdministrator username hash' email now') : b = { a with passwordHash := hash', lastUpdate := now' } := by
  obtain ⟨rfl, hroles, rfl, hname, rfl, rfl, henabled, hexpiration, hrequired⟩ := ha
  obtain ⟨husername', hroles', rfl, hname', hemail', rfl, henabled', hexpiration', hrequired'⟩ := hb
  cases b
  simp_all

namespace Directory

/-- The email of the account under a username, if there is such an account and it has one. -/
def emailOf (d : Directory) (username : String) : Option String := (d.users.get? username).bind Account.email

/-- Why an administrator is not reset: there is no account to reset, and none can be made under a blank name; or the
password cannot be hashed. -/
def adminCauses (d : Directory) (h : Hasher) (username password : String) : List Cause :=
  [.when (d.users.get? username = none ∧ Blank username) .invalidArgument .blankUsername,
   .passedOn fun e => h.hash password = .error e]

variable {c : Circumstances} {d : Directory} {username password : String}

theorem secret?_adminInput (hfilled : password ≠ "") (email : Option String) :
    (adminInput username password email).secret? = some password :=
  AccountInput.secret?_eq_some.2 ⟨rfl, hfilled⟩

/-- The role of administrators is a system role, so it is known in every directory. -/
theorem checkRoles_administrator (d : Directory) : d.checkRoles ["administrator"] = .ok () := by
  refine checkRoles_eq_ok.2 fun name hname => ?_
  rw [List.mem_singleton.1 hname, knowsRole_eq_true]
  exact Or.inl rfl

/-- Resetting an administrator does not depend on the account that is there, except for its email. -/
theorem outcome_ensureAdmin (hfilled : password ≠ "") :
    (d.ensureAdmin c username password).outcome = do
      demand (d.users.contains username || !blankText username) .blankUsername
      let hash ← c.hasher.hash password
      let a := (adminInput username password (d.emailOf username)).account hash none c.now
      return (a, d.putAccount username a) := by
  rw [ensureAdmin, emailOf, Table.contains]
  cases hget : d.users.get? username with
  | some previous =>
      have hsecret : (adminInput username password previous.email).secret? = some password :=
        secret?_adminInput hfilled previous.email
      have hroles : d.checkRoles (adminInput username password previous.email).roles = .ok () :=
        d.checkRoles_administrator
      have hheld : d.users.get? (adminInput username password previous.email).username = some previous := hget
      dsimp only
      simp only [updateAccount, hsecret, hashNew, getAccount, hheld, hroles, present, Attempt.outcome_bind,
        Attempt.outcome_lift, Attempt.outcome_hashing, Attempt.outcome_pure]
      cases c.hasher.hash password <;> rfl
  | none =>
      have hsecret : (adminInput username password none).secret? = some password := secret?_adminInput hfilled none
      have hroles : d.checkRoles (adminInput username password none).roles = .ok () := d.checkRoles_administrator
      have hname : (adminInput username password none).username = username := rfl
      have hfree : d.users.contains username = false := Table.contains_eq_false.2 hget
      dsimp only
      rw [outcome_createAccount]
      simp only [hsecret, hroles, hname, hfree, present, ok_bind]
      cases blankText username <;> cases c.hasher.hash password <;> rfl

theorem isAdministrator_account (username password hash : String) (email : Option String) (now : Int64) :
    ((adminInput username password email).account hash none now).IsAdministrator username hash email now :=
  ⟨rfl, rfl, rfl, rfl, rfl, rfl, rfl, rfl, rfl⟩

theorem ensureAdmin_settles (hfilled : password ≠ "") :
    Settles (d.adminCauses c.hasher username password)
      (fun x => (∃ hash, c.hasher.hash password = .ok hash ∧
        x.1.IsAdministrator username hash (d.emailOf username) c.now) ∧ d.SetsAccount username (some x.1) x.2)
      (d.ensureAdmin c username password).outcome := by
  rw [outcome_ensureAdmin hfilled]
  refine Settles.of_demand ?_ rfl fun _ => ?_
  · rw [Bool.or_eq_false_iff, Table.contains_eq_false, blank_iff]
  refine Settles.of_report (fun e => Iff.rfl) fun hash hhash => ?_
  exact Settles.finish ⟨⟨hash, hhash, isAdministrator_account ..⟩, d.setsAccount_putAccount ..⟩

end Directory

namespace Repository

variable {r : Repository} {c : Circumstances} {username password : String}

theorem outcome_attempt_ensureAdmin (c : Circumstances) (d : Directory) (username password : String) :
    ((Command.ensureAdmin username password).attempt c d).outcome =
      (fun x => (.done, x.2)) <$> (d.ensureAdmin c username password).outcome := by
  rw [Command.attempt, Attempt.outcome_bind, map_eq_pure_bind]
  rfl

theorem ensureAdmin_answers (c : Circumstances) (username : String) (haccepting : r.store.putFault = none)
    (hfilled : password ≠ "") :
    r.Answers c (.ensureAdmin username password) (r.cache.adminCauses c.hasher username password)
      fun answer next => answer = .done ∧ ∃ a, (∃ hash, c.hasher.hash password = .ok hash ∧
        a.IsAdministrator username hash (r.cache.emailOf username) c.now) ∧ r.cache.SetsAccount username (some a) next := by
  refine answers_of_settles haccepting ?_
  rw [outcome_attempt_ensureAdmin]
  exact (Directory.ensureAdmin_settles hfilled).map fun x hx => ⟨rfl, x.1, hx⟩

/-- A reset is answered if the password can be hashed and there is an account, or one can be made. -/
theorem run_ensureAdmin (haccepting : r.store.putFault = none) (hfilled : password ≠ "") {hash : String}
    (hhash : c.hasher.hash password = .ok hash)
    (hplace : (∃ a, r.cache.users.get? username = some a) ∨ ¬ Blank username) :
    ∃ a next, r.run c (.ensureAdmin username password) = (.ok .done, r.took next) ∧
      a.IsAdministrator username hash (r.cache.emailOf username) c.now ∧
        r.cache.SetsAccount username (some a) next := by
  have hanswers := (ensureAdmin_answers c username haccepting hfilled).settled
  have hnotBlank : ¬ (r.cache.users.get? username = none ∧ Blank username) := by
    rintro ⟨habsent, hblank⟩
    rcases hplace with ⟨a, hget⟩ | hnamed
    · rw [habsent] at hget
      cases hget
    · exact hnamed hblank
  have hhashes : ¬ ∃ e, c.hasher.hash password = .error e := by
    rintro ⟨e, he⟩
    rw [hhash] at he
    cases he
  obtain ⟨answer, hok, next, htook, rfl, a, ⟨hash', hhash', hadmin⟩, hsets⟩ := (hanswers.2 hnotBlank).2 hhashes
  obtain rfl : hash' = hash := Except.ok.inj (hhash'.symm.trans hhash)
  exact ⟨a, next, Prod.ext hok htook, hadmin, hsets⟩

/-- Right after a reset another one finds the administrator's account, and renews it. -/
theorem run_ensureAdmin_again {c' : Circumstances} {hash hash' : String} {now : Int64} {a : Account} {next : Directory}
    (haccepting : r.store.putFault = none) (hfilled : password ≠ "")
    (hadmin : a.IsAdministrator username hash (r.cache.emailOf username) now)
    (hsets : r.cache.SetsAccount username (some a) next) (hhash : c'.hasher.hash password = .ok hash') :
    ∃ again, (r.took next).run c' (.ensureAdmin username password) = (.ok .done, (r.took next).took again) ∧
      next.SetsAccount username (some { a with passwordHash := hash', lastUpdate := c'.now }) again := by
  have hget : next.users.get? username = some a := hsets.2.here
  obtain ⟨b, again, hrun, hadmin', hsets'⟩ :=
    run_ensureAdmin (r := r.took next) haccepting hfilled hhash (Or.inl ⟨a, hget⟩)
  have hemail : (r.took next).cache.emailOf username = r.cache.emailOf username := by
    show (next.users.get? username).bind Account.email = _
    rw [hget, Option.bind_some, hadmin.email]
  rw [hemail] at hadmin'
  rw [hadmin.renewed hadmin'] at hsets'
  exact ⟨again, hrun, hsets'⟩

/-- With a store that takes what is written and a hasher that hashes the password, a reset of the administrator is answered
exactly if there is an account under the username or this is not blank. Then the account is that of an administrator, with
the email it had; all other accounts and all roles are as before, and another reset changes no more than the hash and the
time. A reset that is refused changes nothing, also if the store was at fault but could be read back. -/
theorem admin_reset_exact (r : Repository) (c : Circumstances) {username password : String} (hfilled : password ≠ "") :
    (r.store.putFault = none → ∀ hash, c.hasher.hash password = .ok hash →
      ((∃ answer, (r.run c (.ensureAdmin username password)).1 = .ok answer) ↔
        (∃ a, r.cache.users.get? username = some a) ∨ ¬ Blank username) ∧
      ∀ answer, (r.run c (.ensureAdmin username password)).1 = .ok answer →
        ∃ a next, (r.run c (.ensureAdmin username password)).2 = r.took next ∧
          a.IsAdministrator username hash (r.cache.emailOf username) c.now ∧
          r.cache.SetsAccount username (some a) next ∧
          ∀ c' hash', c'.hasher.hash password = .ok hash' →
            ∃ again, (r.took next).run c' (.ensureAdmin username password) = (.ok .done, (r.took next).took again) ∧
              next.SetsAccount username (some { a with passwordHash := hash', lastUpdate := c'.now }) again) ∧
    ∀ e, (r.run c (.ensureAdmin username password)).1 = .error e →
      (r.store.putFault = none → (r.run c (.ensureAdmin username password)).2 = r) ∧
      (r.InStep → (r.store.putFault ≠ none → r.store.getFault = none) →
        (r.run c (.ensureAdmin username password)).2.cache = r.cache ∧
          (r.run c (.ensureAdmin username password)).2.InStep) := by
  refine ⟨fun haccepting hash hhash => ?_, fun e hrun => ⟨fun haccepting => ?_, fun hstep hrecoverable => ?_⟩⟩
  · have hiff : (∃ answer, (r.run c (.ensureAdmin username password)).1 = .ok answer) ↔
        (∃ a, r.cache.users.get? username = some a) ∨ ¬ Blank username := by
      refine ⟨fun ⟨answer, hrun⟩ => ?_, fun hplace => ?_⟩
      · by_contra hnone
        rw [not_or, not_not] at hnone
        have habsent : r.cache.users.get? username = none :=
          Option.eq_none_iff_forall_ne_some.2 fun a hget => hnone.1 ⟨a, hget⟩
        obtain ⟨e, -, he⟩ := (ensureAdmin_answers c username haccepting hfilled).settled.1 ⟨habsent, hnone.2⟩
        rw [he] at hrun
        cases hrun
      · obtain ⟨a, next, hrun, -⟩ := run_ensureAdmin haccepting hfilled hhash hplace
        exact ⟨.done, by rw [hrun]⟩
    refine ⟨hiff, fun answer hrun => ?_⟩
    obtain ⟨a, next, htook, hadmin, hsets⟩ := run_ensureAdmin haccepting hfilled hhash (hiff.1 ⟨answer, hrun⟩)
    refine ⟨a, next, by rw [htook], hadmin, hsets, fun c' hash' hhash' => ?_⟩
    exact run_ensureAdmin_again haccepting hfilled hadmin hsets hhash'
  · exact (ensureAdmin_answers c username haccepting hfilled).kept e hrun
  · -- as an operation whose faults are those of the store
    have hsettles := @InStep.settles r ⟨c, ⟨r.store.putFault, r.store.getFault⟩, .ensureAdmin username password⟩ hstep
      hrecoverable
    obtain ⟨hinStep, ⟨-, hcache⟩ | ⟨answer, hok, -⟩⟩ := hsettles
    · exact ⟨hcache, hinStep⟩
    · exact nomatch hok.symm.trans hrun

/-- An administrator who was shut out: disabled, with an expired password and another role. -/
def shutOut : Account :=
  ⟨"root", ["read-only"], "hashed::old", none, some "root@example.com", 3, false, some 5, true⟩

def bystander : Account := ⟨"bob", ["gone"], "", none, none, 0, true, none, false⟩

/-- A repository with that administrator, another account, and one under a blank name. -/
def lockedUp : Repository :=
  ⟨.empty, .ofList [("root", shutOut), ("bob", bystander), (" ", { shutOut with username := " " })], .empty⟩

/-- A hasher with another mark than `marking`. -/
def remarking : Hasher :=
  ⟨fun secret => .ok ("again::" ++ secret), fun secret hash => .ok ("again::" ++ secret == hash)⟩

/-- The administrator is let in again and keeps the email, and the other account stays as it was. A second reset leaves a
new hash and a new time. No account is made under a blank name, but one that is there is reset. -/
theorem admin_reset_exact_lockedUp :
    "pw" ≠ "" ∧ lockedUp.store.putFault = none ∧
      (∃ a next again, (lockedUp.run ⟨7, .marking⟩ (.ensureAdmin "root" "pw")).2 = lockedUp.took next ∧
        next.users.get? "root" = some a ∧ a.enabled = true ∧ a.roles = ["administrator"] ∧
        a.passwordHash = "hashed::pw" ∧ a.email = some "root@example.com" ∧ a.pwdExpirationDate = none ∧
        a.pwdUpdateRequired = false ∧ next.users.get? "bob" = some bystander ∧
        ((lockedUp.took next).run ⟨8, remarking⟩ (.ensureAdmin "root" "pw")).2 = (lockedUp.took next).took again ∧
        again.users.get? "root" = some { a with passwordHash := "again::pw", lastUpdate := 8 }) ∧
      (∃ answer, (lockedUp.run ⟨7, .marking⟩ (.ensureAdmin " " "pw")).1 = .ok answer) ∧
      (lockedUp.run ⟨7, .marking⟩ (.ensureAdmin "" "pw")).1 = .error .blankUsername ∧
      (lockedUp.run ⟨7, .marking⟩ (.ensureAdmin "" "pw")).2 = lockedUp := by
  have hfilled : "pw" ≠ "" := by decide
  have hreset := fun username => @admin_reset_exact lockedUp ⟨7, .marking⟩ username "pw" hfilled
  obtain ⟨hiff, hanswered⟩ := (hreset "root").1 rfl "hashed::pw" rfl
  obtain ⟨answer, hrun⟩ := hiff.2 (Or.inl ⟨shutOut, rfl⟩)
  obtain ⟨a, next, htook, hadmin, hsets, hagain⟩ := hanswered answer hrun
  obtain ⟨again, hrenewed, hsets'⟩ := hagain ⟨8, remarking⟩ "again::pw" rfl
  have hbob : next.users.get? "bob" = lockedUp.cache.users.get? "bob" := hsets.2.elsewhere "bob" (by decide)
  have hblank : (lockedUp.run ⟨7, .marking⟩ (.ensureAdmin "" "pw")).1 = .error .blankUsername := by rfl
  refine ⟨hfilled, rfl, ⟨a, next, again, htook, hsets.2.here, hadmin.enabled, hadmin.roles, hadmin.passwordHash,
    hadmin.email, hadmin.pwdExpirationDate, hadmin.pwdUpdateRequired, hbob, by rw [hrenewed], hsets'.2.here⟩, ?_, hblank, ?_⟩
  · exact ((hreset " ").1 rfl "hashed::pw" rfl).1.2 (Or.inl ⟨_, rfl⟩)
  · exact ((hreset "").2 _ hblank).1 rfl

end Repository

end AccessControl
