import AccessControl.Proofs.Directory.Changes
import AccessControl.Proofs.Repository.Outcome

/-!
Commands about different accounts. What such a command does depends on no account but its own, and changes no other
(`attempt_alike`); so of two commands about different accounts each is answered as if it were alone, and their order does not
matter (`run_swap`). By permuting a list step by step the same follows for any number of them (`account_writes_commute`).
-/

namespace AccessControl

namespace Command

/-- The username of the account that the command is about, if it is about one. -/
def account? : Command → Option String
  | createAccount input | updateAccount input => some input.username
  | deleteAccount username => some username
  | changePassword username _ _ => some username
  | ensureAdmin username _ => some username
  | createRole _ | updateRole _ | deleteRole _ | cloneRole _ _ => none

/-- Every command is about an account, and no two about the same. -/
structure Apart (commands : List Command) : Prop where
  about : ∀ x ∈ commands, ∃ username, x.account? = some username
  distinct : commands.Pairwise fun x y => x.account? ≠ y.account?

theorem Apart.head {x : Command} {commands : List Command} (h : Apart (x :: commands)) :
    ∃ username, x.account? = some username ∧ ∀ y ∈ commands, ∃ other, y.account? = some other ∧ username ≠ other := by
  obtain ⟨username, hx⟩ := h.about x List.mem_cons_self
  refine ⟨username, hx, fun y hy => ?_⟩
  obtain ⟨other, hother⟩ := h.about y (List.mem_cons_of_mem x hy)
  refine ⟨other, hother, fun heq => (List.pairwise_cons.1 h.distinct).1 y hy ?_⟩
  rw [hx, hother, heq]

theorem Apart.tail {x : Command} {commands : List Command} (h : Apart (x :: commands)) : Apart commands :=
  ⟨fun y hy => h.about y (List.mem_cons_of_mem x hy), (List.pairwise_cons.1 h.distinct).2⟩

theorem Apart.perm {l m : List Command} (h : Apart l) (hperm : l.Perm m) : Apart m :=
  ⟨fun x hx => h.about x (hperm.mem_iff.2 hx), h.distinct.perm hperm fun hne => hne.symm⟩

end Command

namespace Directory

/-- The directories have the same roles, and the same account under the username. -/
structure SameFor (username : String) (d d' : Directory) : Prop where
  roles : d'.roles = d.roles
  held : d'.users.get? username = d.users.get? username

/-- Both outcomes are the same refusal, or the same answer with the same account put under the username, or removed. -/
inductive Alike {α : Type} (username : String) (d d' : Directory) :
    Except AccessError (α × Directory) → Except AccessError (α × Directory) → Prop
  | refused (e : AccessError) : Alike username d d' (.error e) (.error e)
  | done (answer : α) (a : Option Account) (next next' : Directory) (sets : d.SetsAccount username a next)
      (sets' : d'.SetsAccount username a next') : Alike username d d' (.ok (answer, next)) (.ok (answer, next'))

section

variable {d d' next next' : Directory} {username other : String} {a b : Option Account}

theorem setsAccount_deleteAccount (d : Directory) (username : String) :
    d.SetsAccount username none (d.deleteAccount username) := ⟨rfl, Table.setTo_erase ..⟩

theorem SetsAccount.sameFor (h : d.SetsAccount username a next) (hne : other ≠ username) : SameFor other d next :=
  ⟨h.1, h.2.elsewhere other hne⟩

/-- Accounts under different usernames are set in any order. -/
theorem SetsAccount.comm {left right : Directory} (hne : username ≠ other) (hleft : d.SetsAccount username a left)
    (hnext : left.SetsAccount other b next) (hright : d.SetsAccount other b right)
    (hnext' : right.SetsAccount username a next') : next = next' := by
  obtain ⟨users, roles⟩ := next
  obtain ⟨users', roles'⟩ := next'
  obtain rfl : roles = roles' := (hnext.1.trans hleft.1).trans (hnext'.1.trans hright.1).symm
  obtain rfl : users = users' := by
    refine Table.ext_get? fun key => ?_
    by_cases hkey : key = username
    · rw [hkey, hnext'.2.here, hnext.2.elsewhere _ hne, hleft.2.here]
    · rw [hnext'.2.elsewhere key hkey]
      by_cases hkey' : key = other
      · rw [hkey', hnext.2.here, hright.2.here]
      · rw [hnext.2.elsewhere key hkey', hleft.2.elsewhere key hkey, hright.2.elsewhere key hkey']
  rfl

end

/-! ### What a command depends on -/

namespace Alike

variable {α β : Type} {username : String} {d d' : Directory}

/-- A step that does not look at the directory. -/
theorem bind {x : Except AccessError β} {f f' : β → Except AccessError (α × Directory)}
    (h : ∀ y, Alike username d d' (f y) (f' y)) : Alike username d d' (x >>= f) (x >>= f') := by
  cases x with
  | ok y => exact h y
  | error e => exact .refused e

theorem map {x x' : Except AccessError (α × Directory)} (g : α → β) (h : Alike username d d' x x') :
    Alike username d d' (Prod.map g id <$> x) (Prod.map g id <$> x') := by
  cases h with
  | refused e => exact .refused e
  | done answer a next next' sets sets' => exact .done (g answer) a next next' sets sets'

theorem put (answer : α) (username : String) (d d' : Directory) (a : Account) :
    Alike username d d' (.ok (answer, d.putAccount username a)) (.ok (answer, d'.putAccount username a)) :=
  .done answer (some a) _ _ (d.setsAccount_putAccount ..) (d'.setsAccount_putAccount ..)

end Alike

namespace SameFor

variable {d d' : Directory} {username : String}

theorem contains (h : SameFor username d d') : d'.users.contains username = d.users.contains username := by
  rw [Table.contains, Table.contains, h.held]

theorem getAccount (h : SameFor username d d') : d'.getAccount username = d.getAccount username := by
  rw [Directory.getAccount, Directory.getAccount, h.held]

theorem checkRoles (h : SameFor username d d') (names : List String) : d'.checkRoles names = d.checkRoles names := by
  have hknows : d'.knowsRole = d.knowsRole := by
    funext name
    rw [knowsRole, knowsRole, h.roles]
  rw [Directory.checkRoles, Directory.checkRoles, hknows]

theorem createAccount_alike (input : AccountInput) (h : SameFor input.username d d') (c : Circumstances) :
    Alike input.username d d' (d.createAccount c input).outcome (d'.createAccount c input).outcome := by
  rw [outcome_createAccount, outcome_createAccount, h.contains, h.checkRoles]
  refine .bind fun _ => .bind fun secret => .bind fun hash => .bind fun _ => .bind fun _ => ?_
  exact .put ..

theorem updateAccount_alike (input : AccountInput) (h : SameFor input.username d d') (c : Circumstances) :
    Alike input.username d d' (d.updateAccount c input).outcome (d'.updateAccount c input).outcome := by
  simp only [updateAccount, Attempt.outcome_bind, Attempt.outcome_lift, Attempt.outcome_pure, h.getAccount, h.checkRoles]
  refine .bind fun hash => .bind fun previous => .bind fun _ => ?_
  exact .put ..

theorem changePassword_alike (h : SameFor username d d') (c : Circumstances) (current new : String) :
    Alike username d d' ((Answer.done, ·) <$> (d.changePassword c username current new).outcome)
      ((.done, ·) <$> (d'.changePassword c username current new).outcome) := by
  simp only [changePassword, Attempt.outcome_bind, Attempt.outcome_lift, Attempt.outcome_hashing, Attempt.outcome_pure,
    h.getAccount, map_bind, map_ok]
  refine .bind fun _ => .bind fun a => .bind fun agrees => .bind fun _ => .bind fun hash => ?_
  exact .put ..

theorem ensureAdmin_alike (h : SameFor username d d') (c : Circumstances) (password : String) :
    Alike username d d' (d.ensureAdmin c username password).outcome (d'.ensureAdmin c username password).outcome := by
  rw [ensureAdmin, ensureAdmin, h.held]
  cases d.users.get? username with
  | some existing => exact updateAccount_alike (adminInput username password existing.email) h c
  | none => exact createAccount_alike (adminInput username password none) h c

end SameFor

/-- A command about an account comes to the same in two directories that are the same for this account. -/
theorem attempt_alike {command : Command} {username : String} (habout : command.account? = some username)
    {d d' : Directory} (h : SameFor username d d') (c : Circumstances) :
    Alike username d d' (command.attempt c d).outcome (command.attempt c d').outcome := by
  cases command with
  | createAccount input =>
      cases habout
      rw [Command.attempt, Command.attempt, Command.outcome_answeringAccount, Command.outcome_answeringAccount]
      exact (SameFor.createAccount_alike input h c).map _
  | updateAccount input =>
      cases habout
      rw [Command.attempt, Command.attempt, Command.outcome_answeringAccount, Command.outcome_answeringAccount]
      exact (SameFor.updateAccount_alike input h c).map _
  | deleteAccount name =>
      cases habout
      exact Alike.done Answer.done none _ _ (d.setsAccount_deleteAccount _) (d'.setsAccount_deleteAccount _)
  | changePassword name current new =>
      cases habout
      rw [Command.attempt, Command.attempt, Command.outcome_done, Command.outcome_done]
      exact h.changePassword_alike c current new
  | ensureAdmin name password =>
      cases habout
      rw [Command.attempt, Command.attempt, Attempt.outcome_bind, Attempt.outcome_bind]
      exact (h.ensureAdmin_alike c password).map fun _ => Answer.done
  | createRole input => cases habout
  | updateRole input => cases habout
  | deleteRole name => cases habout
  | cloneRole source name => cases habout

end Directory

namespace Repository

/-! ### Two commands -/

section

variable {r : Repository} {c : Circumstances} {x y : Command} {username other : String}

/-- Two repositories that are the same for the account of a command both refuse the command for the same reason, or both give
the same answer and store the same account. -/
theorem run_alike {r' : Repository} (haccepting : r.store.putFault = none) (haccepting' : r'.store.putFault = none)
    (hx : x.account? = some username) (hsame : Directory.SameFor username r.cache r'.cache) (c : Circumstances) :
    (∃ e, r.run c x = (.error e, r) ∧ r'.run c x = (.error e, r')) ∨
      ∃ answer a next next', r.run c x = (.ok answer, r.took next) ∧ r'.run c x = (.ok answer, r'.took next') ∧
        r.cache.SetsAccount username a next ∧ r'.cache.SetsAccount username a next' := by
  have halike := Directory.attempt_alike hx hsame c
  generalize hattempt : (x.attempt c r.cache).outcome = outcome at halike
  generalize hattempt' : (x.attempt c r'.cache).outcome = outcome' at halike
  cases halike with
  | refused e => exact Or.inl ⟨e, run_of_refused hattempt, run_of_refused hattempt'⟩
  | done answer a next next' sets sets' =>
      exact Or.inr ⟨answer, a, next, next', run_of_accepting haccepting hattempt,
        run_of_accepting haccepting' hattempt', sets, sets'⟩

/-- A command about one account leaves the directory as it is for the others, and the store as ready to take it. -/
theorem run_spares (haccepting : r.store.putFault = none) (hx : x.account? = some username) (c : Circumstances) :
    (r.run c x).2.store.putFault = none ∧
      ∀ other, other ≠ username → Directory.SameFor other r.cache (r.run c x).2.cache := by
  rcases run_alike haccepting haccepting hx ⟨rfl, rfl⟩ c with ⟨e, hrun, -⟩ | ⟨answer, a, next, -, hrun, -, hsets, -⟩
  · rw [hrun]
    exact ⟨haccepting, fun other _ => ⟨rfl, rfl⟩⟩
  · rw [hrun]
    exact ⟨haccepting, fun other hne => hsets.sameFor hne⟩

/-- After a command about another account a command is answered as if it came first, and does the same to its account. -/
theorem run_apart (haccepting : r.store.putFault = none) (hx : x.account? = some username) (hy : y.account? = some other)
    (hne : username ≠ other) (c : Circumstances) :
    ((r.run c x).2.run c y).1 = (r.run c y).1 ∧
      ((r.run c x).2.run c y).2.cache.users.get? other = (r.run c y).2.cache.users.get? other := by
  obtain ⟨haccepting', hspared⟩ := run_spares haccepting hx c
  have hsame := hspared other hne.symm
  rcases run_alike haccepting haccepting' hy hsame c with ⟨e, hrun, hrun'⟩ | ⟨answer, a, n, n', hrun, hrun', hsets, hsets'⟩
  · rw [hrun, hrun']
    exact ⟨rfl, hsame.held⟩
  · rw [hrun, hrun']
    exact ⟨rfl, hsets'.2.here.trans hsets.2.here.symm⟩

/-- Two commands about different accounts leave the same repository in either order. -/
theorem run_swap (haccepting : r.store.putFault = none) (hx : x.account? = some username) (hy : y.account? = some other)
    (hne : username ≠ other) (c : Circumstances) : ((r.run c x).2.run c y).2 = ((r.run c y).2.run c x).2 := by
  obtain ⟨hacceptingx, hsparedx⟩ := run_spares haccepting hx c
  obtain ⟨hacceptingy, hsparedy⟩ := run_spares haccepting hy c
  rcases run_alike haccepting hacceptingy hx (hsparedy username hne) c with
    ⟨e, hrun, hrun'⟩ | ⟨answer, a, m, m', hrunx, hrunx', hsetsx, hsetsx'⟩
  · rw [hrun, hrun']
  · rcases run_alike haccepting hacceptingx hy (hsparedx other hne.symm) c with
      ⟨e, hrun, hrun'⟩ | ⟨answer', b, n, n', hruny, hruny', hsetsy, hsetsy'⟩
    · rw [hrun, hrun']
    · rw [hruny', hrunx']
      rw [hrunx] at hsetsy'
      rw [hruny] at hsetsx'
      rw [hrunx, hruny, hsetsx.comm hne hsetsy' hsetsy hsetsx']
      rfl

end

/-! ### Any number of commands -/

/-- The repository after commands that run one after the other, all at the same time and with the same hasher. -/
def runAll (c : Circumstances) (r : Repository) (commands : List Command) : Repository :=
  commands.foldl (fun r x => (r.run c x).2) r

/-- The commands with their answers. -/
def answers (c : Circumstances) (r : Repository) : List Command → List (Command × Except AccessError Answer)
  | [] => []
  | x :: commands => (x, (r.run c x).1) :: answers c (r.run c x).2 commands

section

variable {r : Repository} {l m : List Command} {username : String}

/-- Every command is answered as if it were alone. -/
theorem answers_eq (haccepting : r.store.putFault = none) (h : Command.Apart l) (c : Circumstances) :
    r.answers c l = l.map fun x => (x, (r.run c x).1) := by
  induction l generalizing r with
  | nil => rfl
  | cons x l ih =>
      obtain ⟨username, hx, hothers⟩ := h.head
      rw [answers, ih (run_spares haccepting hx c).1 h.tail, List.map_cons]
      refine congrArg _ (List.map_congr_left fun y hy => ?_)
      obtain ⟨other, hother, hne⟩ := hothers y hy
      rw [(run_apart haccepting hx hother hne c).1]

/-- The accounts that no command is about stay as they are. -/
theorem runAll_spares (haccepting : r.store.putFault = none) (h : Command.Apart l)
    (hothers : ∀ y ∈ l, ∃ other, y.account? = some other ∧ username ≠ other) (c : Circumstances) :
    (r.runAll c l).cache.users.get? username = r.cache.users.get? username := by
  induction l generalizing r with
  | nil => rfl
  | cons x l ih =>
      obtain ⟨other, hx, hne⟩ := hothers x List.mem_cons_self
      obtain ⟨haccepting', hspared⟩ := run_spares haccepting hx c
      have hrest : ∀ y ∈ l, ∃ other, y.account? = some other ∧ username ≠ other :=
        fun y hy => hothers y (List.mem_cons_of_mem x hy)
      rw [runAll, List.foldl_cons]
      exact (ih haccepting' h.tail hrest).trans (hspared username hne).held

/-- The order of the commands does not matter to the repository. -/
theorem runAll_perm (haccepting : r.store.putFault = none) (h : Command.Apart l) (hperm : l.Perm m)
    (c : Circumstances) : r.runAll c l = r.runAll c m := by
  induction hperm generalizing r with
  | nil => rfl
  | cons x _ ih =>
      obtain ⟨username, hx, -⟩ := h.head
      exact ih (run_spares haccepting hx c).1 h.tail
  | swap x y l =>
      obtain ⟨username, hy, hothers⟩ := h.head
      obtain ⟨other, hx, hne⟩ := hothers x List.mem_cons_self
      show runAll c ((r.run c y).2.run c x).2 l = runAll c ((r.run c x).2.run c y).2 l
      rw [run_swap haccepting hy hx hne c]
  | trans hperm _ ih ih' => exact (ih haccepting h).trans (ih' haccepting (h.perm hperm))

/-- What a command does to its account is there after all commands. -/
theorem runAll_keeps (haccepting : r.store.putFault = none) (h : Command.Apart l) {x : Command} (hmem : x ∈ l)
    (hx : x.account? = some username) (c : Circumstances) :
    (r.runAll c l).cache.users.get? username = (r.run c x).2.cache.users.get? username := by
  have hfirst := List.perm_cons_erase hmem
  obtain ⟨username', hx', hothers⟩ := (h.perm hfirst).head
  rw [hx] at hx'
  cases hx'
  rw [runAll_perm haccepting h hfirst]
  exact runAll_spares (run_spares haccepting hx c).1 (h.perm hfirst).tail hothers c

end

/-- Commands about different accounts may come in any order: each is answered the same, and the cache and what is stored are
the same in the end. No command is lost; each is answered and leaves its account as if it were alone. -/
theorem account_writes_commute (r : Repository) (c : Circumstances) (haccepting : r.store.putFault = none)
    {l m : List Command} (hapart : Command.Apart l) (hperm : l.Perm m) :
    (r.answers c l).Perm (r.answers c m) ∧ (r.runAll c l).cache = (r.runAll c m).cache ∧
      Store.directoryOf (r.runAll c l).store.content = Store.directoryOf (r.runAll c m).store.content ∧
      ∀ x ∈ l, ∀ username, x.account? = some username →
        (x, (r.run c x).1) ∈ r.answers c m ∧
          (r.runAll c m).cache.users.get? username = (r.run c x).2.cache.users.get? username := by
  have hsame := runAll_perm haccepting hapart hperm c
  have hapart' := hapart.perm hperm
  refine ⟨?_, congrArg cache hsame, congrArg (fun r => Store.directoryOf r.store.content) hsame, ?_⟩
  · rw [answers_eq haccepting hapart, answers_eq haccepting hapart']
    exact hperm.map _
  · intro x hmem username hx
    have hmem' := hperm.mem_iff.1 hmem
    refine ⟨?_, runAll_keeps haccepting hapart' hmem' hx c⟩
    rw [answers_eq haccepting hapart']
    exact List.mem_map_of_mem hmem'

/-- Two accounts, whose secret is "pw". -/
def office : Repository :=
  ⟨.empty, ⟨.ofList [("ann", ⟨"ann", [], "hashed::pw", none, none, 0, true, none, false⟩),
    ("bob", ⟨"bob", [], "hashed::pw", none, none, 0, true, none, false⟩)], .empty⟩⟩

/-- One account is created, one removed, and one gets a new secret; one that is not there is to be replaced. -/
def errands : List Command :=
  [.createAccount ⟨"hank", some "pw", none, none, true, [], none, false⟩, .deleteAccount "ann",
   .changePassword "bob" "pw" "new", .updateAccount ⟨"ruth", none, none, none, true, [], none, false⟩]

/-- In the reverse order the same three errands are done and the same one is refused. -/
theorem account_writes_commute_errands :
    office.store.putFault = none ∧ Command.Apart errands ∧ errands.Perm errands.reverse ∧
      (office.answers ⟨7, .marking⟩ errands).Perm (office.answers ⟨7, .marking⟩ errands.reverse) ∧
      (office.runAll ⟨7, .marking⟩ errands).cache = (office.runAll ⟨7, .marking⟩ errands.reverse).cache ∧
      (.deleteAccount "ann", .ok .done) ∈ office.answers ⟨7, .marking⟩ errands.reverse ∧
      (office.runAll ⟨7, .marking⟩ errands.reverse).cache.users.get? "ann" = none ∧
      (.updateAccount ⟨"ruth", none, none, none, true, [], none, false⟩, .error (.accountNotFound "ruth")) ∈
        office.answers ⟨7, .marking⟩ errands.reverse := by
  have hapart : Command.Apart errands := ⟨by simp [errands, Command.account?], by decide⟩
  have hperm : errands.Perm errands.reverse := errands.reverse_perm.symm
  obtain ⟨hanswers, hcache, -, hkept⟩ := account_writes_commute office ⟨7, .marking⟩ rfl hapart hperm
  obtain ⟨hdeleted, hgone⟩ := hkept (.deleteAccount "ann") (by decide) "ann" rfl
  obtain ⟨hmissing, -⟩ := hkept (.updateAccount ⟨"ruth", none, none, none, true, [], none, false⟩) (by decide) "ruth" rfl
  exact ⟨rfl, hapart, hperm, hanswers, hcache, hdeleted, hgone, hmissing⟩

end Repository

end AccessControl
