import AccessControl.Proofs.Directory.Resolution
import AccessControl.Proofs.Repository.Outcome

/-!
The exact outcome of the commands that change accounts. For each of them the causes of refusal are listed in the order in
which they count; it is said what account is made of an input that is not refused, and when a secret is hashed on the
way, also in vain (`account_writes_exact`).
-/

namespace AccessControl

/-! ### Inputs -/

namespace AccountInput

/-- The account has the hash and the expiration date, was changed at the time, and is as the input says for the rest. -/
structure Describes (input : AccountInput) (hash : String) (expiration : Option Int64) (now : Int64) (a : Account) :
    Prop where
  username : a.username = input.username
  roles : a.roles = input.roles
  passwordHash : a.passwordHash = hash
  name : a.name = input.name
  email : a.email = input.email
  lastUpdate : a.lastUpdate = now
  enabled : a.enabled = input.enabled
  pwdExpirationDate : a.pwdExpirationDate = expiration
  pwdUpdateRequired : a.pwdUpdateRequired = input.pwdUpdateRequired

/-- A new account of the input: under a hash of the secret that it names. -/
def Founds (input : AccountInput) (c : Circumstances) (a : Account) : Prop :=
  ∃ secret hash, input.Brings secret ∧ c.hasher.hash secret = .ok hash ∧
    input.Describes hash input.pwdExpirationDate c.now a

/-- What the input makes of an account: where it names no secret, the hash and the expiration date are those the account
had before. -/
inductive Replaces (input : AccountInput) (c : Circumstances) (previous a : Account) : Prop
  | anew (founded : input.Founds c a)
  | keeping (none : ∀ secret, ¬ input.Brings secret)
      (described : input.Describes previous.passwordHash previous.pwdExpirationDate c.now a)

variable {input : AccountInput} {secret : String}

theorem secret?_eq_none_iff : input.secret? = none ↔ ∀ secret, ¬ input.Brings secret := by
  rw [Option.eq_none_iff_forall_ne_some]
  exact forall_congr' fun secret => not_congr secret?_eq_some

theorem brings_iff_eq {s : String} (hsecret : input.secret? = some secret) : input.Brings s ↔ s = secret := by
  rw [← secret?_eq_some, hsecret, Option.some.injEq, eq_comm]

/-- What is said of the secret of an input is said of the one secret that it names. -/
theorem exists_brings {P : String → Prop} (hsecret : input.secret? = some secret) :
    (∃ s, input.Brings s ∧ P s) ↔ P secret := by
  simp only [brings_iff_eq hsecret, exists_eq_left]

theorem describes_account (input : AccountInput) (hash : String) (expiration : Option Int64) (now : Int64) :
    input.Describes hash expiration now (input.account hash expiration now) :=
  ⟨rfl, rfl, rfl, rfl, rfl, rfl, rfl, rfl, rfl⟩

end AccountInput

/-! ### Directories -/

namespace Directory

/-- Why an account is not created. -/
def creationCauses (d : Directory) (h : Hasher) (input : AccountInput) : List Cause :=
  [.when (Blank input.username) .invalidArgument .blankUsername,
   .when (∀ secret, ¬ input.Brings secret) .invalidArgument .emptyPassword,
   .passedOn fun e => ∃ secret, input.Brings secret ∧ h.hash secret = .error e,
   .when (∃ a, d.users.get? input.username = some a) .alreadyExists (.accountExists input.username),
   .atFirst d.Unresolved input.roles .invalidArgument .unresolvedRole]

/-- Why an account is not replaced. -/
def replacementCauses (d : Directory) (h : Hasher) (input : AccountInput) : List Cause :=
  [.passedOn fun e => ∃ secret, input.Brings secret ∧ h.hash secret = .error e,
   .when (d.users.get? input.username = none) .notFound (.accountNotFound input.username),
   .atFirst d.Unresolved input.roles .invalidArgument .unresolvedRole]

/-- Why a password is not changed. -/
def passwordCauses (d : Directory) (h : Hasher) (username current new : String) : List Cause :=
  [.when (new = "") .invalidArgument .emptyNewPassword,
   .when (d.users.get? username = none) .notFound (.accountNotFound username),
   .passedOn fun e => ∃ a, d.users.get? username = some a ∧ h.verify current a.passwordHash = .error e,
   .when (∃ a, d.users.get? username = some a ∧ h.verify current a.passwordHash = .ok false) .unauthenticated
     .wrongCurrentPassword,
   .passedOn fun e => h.hash new = .error e]

variable (d : Directory) (c : Circumstances)

theorem checkRoles_failsAtFirst (names : List String) :
    FailsAtFirst d.Unresolved .unresolvedRole names (d.checkRoles names) := by
  have hunresolved : ∀ name, (!d.knowsRole name) = true ↔ d.Unresolved name := by
    intro name
    rw [Bool.not_eq_true', knowsRole_eq_false_iff, resolve?_eq_none]
  rw [checkRoles]
  cases hfind : names.find? (!d.knowsRole ·) with
  | some name =>
      obtain ⟨hname, before, after, hnames, hbefore⟩ := List.find?_eq_some_iff_append.1 hfind
      refine Or.inr ⟨name, ⟨before, after, hnames, (hunresolved name).1 hname, fun other hother hno => ?_⟩, rfl⟩
      have hknown := hbefore other hother
      rw [(hunresolved other).2 hno] at hknown
      cases hknown
  | none =>
      refine Or.inl ⟨(), rfl, fun name hmem hname => ?_⟩
      exact List.find?_eq_none.1 hfind name hmem ((hunresolved name).2 hname)

theorem createAccount_settles (input : AccountInput) :
    Settles (d.creationCauses c.hasher input)
      (fun x => input.Founds c x.1 ∧ d.SetsAccount input.username (some x.1) x.2) (d.createAccount c input).outcome := by
  rw [outcome_createAccount]
  refine Settles.of_demand blank_iff rfl fun _ => ?_
  refine Settles.of_present AccountInput.secret?_eq_none_iff.symm rfl fun secret hsecret => ?_
  refine Settles.of_report (fun e => AccountInput.exists_brings hsecret) fun hash hhash => ?_
  refine Settles.of_demand (by rw [Bool.not_eq_false', Table.contains_iff]) rfl fun _ => ?_
  refine Settles.of_first (d.checkRoles_failsAtFirst _) (fun _ => rfl) fun _ _ => ?_
  refine Settles.finish ⟨⟨secret, hash, AccountInput.secret?_eq_some.1 hsecret, hhash, ?_⟩, ?_⟩
  · exact input.describes_account hash _ _
  · exact d.setsAccount_putAccount ..

theorem hashNew_eq_error {h : Hasher} {input : AccountInput} {e : AccessError} :
    (hashNew h input.secret?).outcome = .error e ↔ ∃ secret, input.Brings secret ∧ h.hash secret = .error e := by
  cases hsecret : input.secret? with
  | none =>
      have hnone := AccountInput.secret?_eq_none_iff.1 hsecret
      exact ⟨(nomatch ·), fun ⟨secret, hbrings, _⟩ => absurd hbrings (hnone secret)⟩
  | some secret =>
      rw [AccountInput.exists_brings hsecret, hashNew, Attempt.outcome_bind, Attempt.outcome_hashing]
      cases h.hash secret with
      | ok hash => exact ⟨(nomatch ·), (nomatch ·)⟩
      | error e' => exact ⟨fun he => by cases he; rfl, fun he => by cases he; rfl⟩

theorem replaces_of_hashNew {input : AccountInput} {previous : Account} {hash : Option String}
    (hhash : (hashNew c.hasher input.secret?).outcome = .ok hash) :
    input.Replaces c previous (input.renewal previous c.now hash) := by
  cases hsecret : input.secret? with
  | none =>
      rw [hsecret] at hhash
      cases hhash
      exact .keeping (AccountInput.secret?_eq_none_iff.1 hsecret) (input.describes_account ..)
  | some secret =>
      rw [hsecret, hashNew, Attempt.outcome_bind, Attempt.outcome_hashing] at hhash
      obtain ⟨new, hnew, hsame⟩ := bind_eq_ok.1 hhash
      cases hsame
      exact .anew ⟨secret, new, AccountInput.secret?_eq_some.1 hsecret, hnew, input.describes_account ..⟩

theorem updateAccount_settles (input : AccountInput) :
    Settles (d.replacementCauses c.hasher input)
      (fun x => (∃ previous, d.users.get? input.username = some previous ∧ input.Replaces c previous x.1) ∧
        d.SetsAccount input.username (some x.1) x.2) (d.updateAccount c input).outcome := by
  simp only [updateAccount, getAccount, Attempt.outcome_bind, Attempt.outcome_lift, Attempt.outcome_pure]
  refine Settles.of_report (fun e => hashNew_eq_error.symm) fun hash hhash => ?_
  refine Settles.of_present Iff.rfl rfl fun previous hget => ?_
  refine Settles.of_first (d.checkRoles_failsAtFirst _) (fun _ => rfl) fun _ _ => ?_
  exact Settles.finish ⟨⟨previous, hget, replaces_of_hashNew c hhash⟩, d.setsAccount_putAccount ..⟩

theorem changePassword_settles (username current new : String) :
    Settles (d.passwordCauses c.hasher username current new)
      (fun next => ∃ a hash, d.users.get? username = some a ∧ c.hasher.hash new = .ok hash ∧
        d.SetsAccount username
          (some { a with passwordHash := hash, pwdUpdateRequired := false, lastUpdate := c.now }) next)
      (d.changePassword c username current new).outcome := by
  simp only [changePassword, getAccount, Attempt.outcome_bind, Attempt.outcome_lift, Attempt.outcome_hashing,
    Attempt.outcome_pure]
  refine Settles.of_demand (by simp) rfl fun _ => ?_
  refine Settles.of_present Iff.rfl rfl fun a hget => ?_
  refine Settles.of_report (fun e => by simp [hget]) fun agrees hagrees => ?_
  refine Settles.of_demand (by simp [hget, hagrees]) rfl fun _ => ?_
  refine Settles.of_report (fun e => Iff.rfl) fun hash hhash => ?_
  exact Settles.finish ⟨a, hash, hget, hhash, d.setsAccount_putAccount ..⟩

/-! ### Hashing -/

theorem createAccount_hashesWhen (input : AccountInput) :
    (d.createAccount c input).HashesWhen fun secret => ¬ Blank input.username ∧ input.Brings secret := by
  refine .lift_bind (fun secret hreached => ?_) fun username husername => ?_
  · have hfilled : blankText input.username = false := by simpa using not_blank_iff.1 hreached.1
    exact ⟨_, FilledText.required_of_filled hfilled⟩
  refine .lift_bind (fun secret hreached => ?_) fun secret hsecret => ?_
  · exact ⟨secret, present_eq_ok.2 (AccountInput.secret?_eq_some.2 hreached.2)⟩
  have hnamed : ¬ Blank input.username := FilledText.required_eq_ok.1 husername ▸ username.not_blank
  refine (Attempt.HashesWhen.hashing c.hasher fun s => ?_).bind fun hash => ?_
  · exact (and_iff_right hnamed).trans (AccountInput.brings_iff_eq (present_eq_ok.1 hsecret))
  refine .lift_bind (fun _ => False.elim) fun _ _ => ?_
  exact .lift_bind (fun _ => False.elim) fun _ _ => .pure (fun _ => id) _

theorem hashNew_hashesWhen (h : Hasher) (input : AccountInput) :
    (hashNew h input.secret?).HashesWhen input.Brings := by
  cases hsecret : input.secret? with
  | none => exact .pure (AccountInput.secret?_eq_none_iff.1 hsecret) _
  | some secret =>
      refine (Attempt.HashesWhen.hashing h fun s => ?_).bind fun _ => .pure (fun _ => id) _
      exact AccountInput.brings_iff_eq hsecret

theorem updateAccount_hashesWhen (input : AccountInput) :
    (d.updateAccount c input).HashesWhen input.Brings := by
  refine (hashNew_hashesWhen c.hasher input).bind fun hash => ?_
  refine .lift_bind (fun _ => False.elim) fun _ _ => ?_
  exact .lift_bind (fun _ => False.elim) fun _ _ => .pure (fun _ => id) _

theorem changePassword_hashesWhen (username current new : String) :
    (d.changePassword c username current new).HashesWhen fun secret =>
      secret = new ∧ new ≠ "" ∧
        ∃ a, d.users.get? username = some a ∧ c.hasher.verify current a.passwordHash = .ok true := by
  refine .lift_bind (fun secret hreached => ?_) fun _ hfilled => ?_
  · exact ⟨(), demand_eq_ok.2 (decide_eq_true hreached.2.1)⟩
  refine .lift_bind (fun secret hreached => ?_) fun a hget => ?_
  · obtain ⟨-, -, a, hget, -⟩ := hreached
    exact ⟨a, present_eq_ok.2 hget⟩
  rw [demand_eq_ok, decide_eq_true_eq] at hfilled
  -- from here on the account is known
  simp only [present_eq_ok.1 hget, Option.some.injEq, exists_eq_left']
  refine .lift_bind (fun secret hreached => ⟨true, hreached.2.2⟩) fun agrees hagrees => ?_
  refine .lift_bind (fun secret hreached => ?_) fun _ hagreed => ?_
  · rw [hagrees] at hreached
    exact ⟨(), demand_eq_ok.2 (Except.ok.inj hreached.2.2)⟩
  rw [demand_eq_ok] at hagreed
  refine (Attempt.HashesWhen.hashing c.hasher fun s => ?_).bind fun _ => .pure (fun _ => id) _
  rw [hagrees, hagreed]
  simp [hfilled]

end Directory

/-! ### Repositories -/

namespace Repository

/-- The commands that change accounts are refused exactly for these causes, in this order, and a refusal leaves the
repository as it was; removing an account is never refused. Otherwise the roles stay as they are, and of the accounts
only the one under the username is set or removed. A secret is hashed once if hashing it is reached, whatever comes
afterwards, and else none is. -/
theorem account_writes_exact (r : Repository) (c : Circumstances) (haccepting : r.store.putFault = none) :
    (∀ input : AccountInput,
      r.Answers c (.createAccount input) (r.cache.creationCauses c.hasher input)
        (fun answer next => ∃ a, answer = .account a ∧ input.Founds c a ∧
          r.cache.SetsAccount input.username (some a) next) ∧
      ((Command.createAccount input).attempt c r.cache).HashesWhen fun secret =>
        ¬ Blank input.username ∧ input.Brings secret) ∧
    (∀ input : AccountInput,
      r.Answers c (.updateAccount input) (r.cache.replacementCauses c.hasher input)
        (fun answer next => ∃ a, answer = .account a ∧
          (∃ previous, r.cache.users.get? input.username = some previous ∧ input.Replaces c previous a) ∧
          r.cache.SetsAccount input.username (some a) next) ∧
      ((Command.updateAccount input).attempt c r.cache).HashesWhen input.Brings) ∧
    (∀ username current new,
      r.Answers c (.changePassword username current new) (r.cache.passwordCauses c.hasher username current new)
        (fun answer next => answer = .done ∧ ∃ a hash, r.cache.users.get? username = some a ∧
          c.hasher.hash new = .ok hash ∧ r.cache.SetsAccount username
            (some { a with passwordHash := hash, pwdUpdateRequired := false, lastUpdate := c.now }) next) ∧
      ((Command.changePassword username current new).attempt c r.cache).HashesWhen fun secret =>
        secret = new ∧ new ≠ "" ∧
          ∃ a, r.cache.users.get? username = some a ∧ c.hasher.verify current a.passwordHash = .ok true) ∧
    ∀ username,
      r.Answers c (.deleteAccount username) []
        (fun answer next => answer = .done ∧ r.cache.SetsAccount username none next) ∧
      ((Command.deleteAccount username).attempt c r.cache).HashesWhen fun _ => False := by
  refine ⟨fun input => ⟨?_, ?_⟩, fun input => ⟨?_, ?_⟩, fun username current new => ⟨?_, ?_⟩,
    fun username => ⟨?_, ?_⟩⟩
  · exact answers_of_map haccepting (Command.outcome_answeringAccount _) (r.cache.createAccount_settles c input)
  · exact (r.cache.createAccount_hashesWhen c input).bind fun _ => .pure (fun _ => id) _
  · exact answers_of_map haccepting (Command.outcome_answeringAccount _) (r.cache.updateAccount_settles c input)
  · exact (r.cache.updateAccount_hashesWhen c input).bind fun _ => .pure (fun _ => id) _
  · exact answers_of_done haccepting (Command.outcome_done _) (r.cache.changePassword_settles c username current new)
  · exact (r.cache.changePassword_hashesWhen c username current new).bind fun _ => .pure (fun _ => id) _
  · have hdone : Settles [] (fun next => r.cache.SetsAccount username none next) (.ok (r.cache.deleteAccount username)) :=
      Settles.finish ⟨rfl, Table.setTo_erase ..⟩
    exact answers_of_done haccepting rfl hdone
  · exact .pure (fun _ => id) _

def hank (roles : List String) : AccountInput := ⟨"hank", some "pw", none, none, true, roles, none, false⟩

/-- Hank is not created with a role that is gone, but his password was hashed before that was noticed. It is not hashed
again for changing the password of an account that is missing. Without the role he is created. -/
theorem account_writes_exact_hank :
    fresh.store.putFault = none ∧
      (fresh.run ⟨7, .marking⟩ (.createAccount (hank ["read-only", "gone"]))).1 = .error (.unresolvedRole "gone") ∧
      ((Command.createAccount (hank ["read-only", "gone"])).attempt ⟨7, .marking⟩ fresh.cache).hashed = ["pw"] ∧
      (fresh.run ⟨7, .marking⟩ (.changePassword "hank" "pw" "new")).1 = .error (.accountNotFound "hank") ∧
      ((Command.changePassword "hank" "pw" "new").attempt ⟨7, .marking⟩ fresh.cache).hashed = [] ∧
      (∃ a, (fresh.run ⟨7, .marking⟩ (.createAccount (hank ["read-only"]))).1 = .ok (.account a) ∧
        a.passwordHash = "hashed::pw" ∧ a.lastUpdate = 7) ∧
      (fresh.run ⟨7, .marking⟩ (.deleteAccount "hank")).1 = .ok .done := by
  have hnamed : ¬ Blank "hank" := not_blank_iff.2 rfl
  have hbrings : ∀ roles, (hank roles).Brings "pw" := fun roles => ⟨rfl, by decide⟩
  have hgone : fresh.cache.Unresolved "gone" := Directory.resolve?_eq_none.1 rfl
  have hsystem : ¬ fresh.cache.Unresolved "read-only" := fun h => nomatch Directory.resolve?_eq_none.2 h
  obtain ⟨hcreate, -, hchange, hdelete⟩ := account_writes_exact fresh ⟨7, .marking⟩ rfl
  -- no cause but the last applies to the creation of hank
  have hresolving := fun roles => ((((hcreate (hank roles)).1.settled.2 hnamed).2 fun h => h "pw" (hbrings roles)).2
    fun ⟨e, secret, _, h⟩ => nomatch h).2 fun ⟨a, h⟩ => nomatch h
  refine ⟨rfl, ?_, ?_, ?_, ?_, ?_, ?_⟩
  · obtain ⟨e, ⟨name, hfirst, he, -⟩, hrun⟩ := (hresolving ["read-only", "gone"]).1 ⟨"gone", by decide, hgone⟩
    have hname : name = "gone" := by
      rcases List.mem_pair.1 hfirst.mem with rfl | rfl
      · exact absurd hfirst.holds hsystem
      · rfl
    rw [hrun, he, hname]
  · exact (hcreate _).2.once "pw" ⟨hnamed, hbrings _⟩
  · have hfilled : "new" ≠ "" := by decide
    obtain ⟨e, ⟨he, -⟩, hrun⟩ := ((hchange "hank" "pw" "new").1.settled.2 hfilled).1 rfl
    rw [hrun, he]
  · exact (hchange "hank" "pw" "new").2.never fun secret ⟨_, _, a, hget, _⟩ => nomatch hget
  · have hresolved : ¬ ∃ name ∈ ["read-only"], fresh.cache.Unresolved name := by
      rintro ⟨name, hmem, hname⟩
      rw [List.mem_singleton.1 hmem] at hname
      exact hsystem hname
    obtain ⟨answer, hrun, next, -, a, rfl, ⟨secret, hash, hsecret, hhash, hdescribed⟩, -⟩ :=
      (hresolving ["read-only"]).2 hresolved
    refine ⟨a, hrun, ?_, hdescribed.lastUpdate⟩
    cases hsecret.1
    cases hhash
    exact hdescribed.passwordHash
  · obtain ⟨answer, hrun, next, -, rfl, -⟩ := (hdelete "hank").1.settled
    exact hrun

end Repository

end AccessControl
