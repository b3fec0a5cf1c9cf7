import AccessControl.Proofs.Attempt
import AccessControl.Proofs.Document.RoundTrip
import AccessControl.Repository

/-!
One operation on a repository: a command, what it finds around it, and how the store fails meanwhile. An
operation takes one of four courses (`Course`); what later modules say about runs is read off these.
-/

namespace AccessControl

/-- How the store fails, if it does. -/
structure Faults where
  put : Option AccessError
  get : Option AccessError

namespace Faults

def none : Faults := ⟨Option.none, Option.none⟩

/-- A store that neither takes nor gives anything. -/
def outage : Faults := ⟨some (.other .internal "store unavailable"), some (.other .internal "store unreadable")⟩

/-- A store that can be read but takes nothing. -/
def readOnly : Faults := ⟨some (.other .internal "store unavailable"), Option.none⟩

/-- A store that does not take a write can at least be read back. -/
def Recoverable (f : Faults) : Prop := f.put ≠ Option.none → f.get = Option.none

end Faults

structure Operation where
  circumstances : Circumstances
  faults : Faults
  command : Command

/-! ### Operations with fixed inputs -/

/-- A hasher whose hashes are the secrets behind a mark. -/
def Hasher.marking : Hasher :=
  ⟨fun secret => .ok ("hashed::" ++ secret), fun secret hash => .ok ("hashed::" ++ secret == hash)⟩

namespace Operation

def under (f : Faults) (command : Command) : Operation := ⟨⟨0, .marking⟩, f, command⟩

def newAccount (username : String) (roles : List String) (f : Faults) : Operation :=
  under f (.createAccount ⟨username, some "pw", none, none, true, roles, none, false⟩)

def lostAccount : Operation := newAccount "hank" [] .outage

/-- Removes an account that is not there, which calls for a write all the same. -/
def idle (f : Faults) : Operation := under f (.deleteAccount "nobody")

def newRole (name : String) (f : Faults) : Operation := under f (.createRole ⟨name, none, false, .empty⟩)

end Operation

/-! ### Performing an operation -/

namespace Store

def under (s : Store) (f : Faults) : Store := { s with putFault := f.put, getFault := f.get }

/-- The store after a write was tried. -/
def tried (s : Store) : Store := { s with puts := s.puts + 1 }

/-- The store after it took a directory. -/
def took (s : Store) (d : Directory) : Store := { s.tried with content := some (Document.ofDirectory d).toBytes }

theorem put_of_accepting {s : Store} (h : s.putFault = none) (d : Directory) :
    s.put (Document.ofDirectory d).toBytes = (.ok (), s.took d) := by
  rw [put]
  split
  · rename_i e he
    rw [h] at he
    cases he
  · rfl

theorem put_of_rejecting {s : Store} {e : AccessError} (h : s.putFault = some e) (bytes : ByteArray) :
    s.put bytes = (.error e, s.tried) := by
  rw [put]
  split
  · rename_i e' he
    rw [h] at he
    cases he
    rfl
  · rename_i he
    rw [h] at he
    cases he

end Store

namespace Directory

def attempted (d : Directory) (op : Operation) : Except AccessError (Answer × Directory) :=
  (op.command.attempt op.circumstances d).outcome

/-- The directory with the effects of an operation; a refused operation has none. -/
def applied (d : Directory) (op : Operation) : Directory :=
  match d.attempted op with
  | .ok (_, next) => next
  | .error _ => d

theorem applied_of_ok {d next : Directory} {op : Operation} {answer : Answer}
    (h : d.attempted op = .ok (answer, next)) : d.applied op = next := by
  rw [applied, h]

end Directory

namespace Repository

def perform (r : Repository) (op : Operation) : Except AccessError Answer × Repository :=
  Repository.run op.circumstances ⟨r.store.under op.faults, r.cache⟩ op.command

def performed (r : Repository) (op : Operation) : Repository := (r.perform op).2

/-- The operation calls for a write, whether the store takes it or not. -/
def Writes (r : Repository) (op : Operation) : Prop := (r.performed op).store.puts ≠ r.store.puts

instance (r : Repository) (op : Operation) : Decidable (r.Writes op) := inferInstanceAs (Decidable (_ ≠ _))

/-- The store does not take the write of the operation and cannot be read back either. -/
def Strays (r : Repository) (op : Operation) : Prop :=
  r.Writes op ∧ op.faults.put ≠ none ∧ ∃ e, (r.performed op).store.load = .error e

/-- The cache is what the store describes. -/
def InStep (r : Repository) : Prop := Store.directoryOf r.store.content = .ok r.cache

/-- A repository over a store that was never written. -/
def fresh : Repository := ⟨.empty, .empty⟩

/-! ### The four courses -/

/-- What an operation can come to: refused before any write; stored; not stored and read back; or not stored
and not read back either. -/
inductive Course (r : Repository) (op : Operation) : Except AccessError Answer × Repository → Prop
  | refused (e : AccessError) (refusal : r.cache.attempted op = .error e) :
      Course r op (.error e, ⟨r.store.under op.faults, r.cache⟩)
  | stored (answer : Answer) (next : Directory) (attempted : r.cache.attempted op = .ok (answer, next))
      (accepted : op.faults.put = none) : Course r op (.ok answer, ⟨(r.store.under op.faults).took next, next⟩)
  | restored (answer : Answer) (next d : Directory) (e : AccessError)
      (attempted : r.cache.attempted op = .ok (answer, next)) (rejected : op.faults.put = some e)
      (readable : (r.store.under op.faults).tried.load = .ok d) :
      Course r op (.error e, ⟨(r.store.under op.faults).tried, d⟩)
  | strayed (answer : Answer) (next : Directory) (e e' : AccessError)
      (attempted : r.cache.attempted op = .ok (answer, next)) (rejected : op.faults.put = some e)
      (unreadable : (r.store.under op.faults).tried.load = .error e') :
      Course r op (.error e, ⟨(r.store.under op.faults).tried, next⟩)

/-- The repository after its store took a directory. -/
def took (r : Repository) (d : Directory) : Repository := ⟨r.store.took d, d⟩

theorem run_of_accepting {r : Repository} {c : Circumstances} {command : Command} {answer : Answer} {next : Directory}
    (haccepting : r.store.putFault = none) (hattempt : (command.attempt c r.cache).outcome = .ok (answer, next)) :
    r.run c command = (.ok answer, r.took next) := by
  rw [run, hattempt, commit, Store.put_of_accepting haccepting]
  rfl

theorem course (r : Repository) (op : Operation) : Course r op (r.perform op) := by
  have hrun : r.perform op = commit ⟨r.store.under op.faults, r.cache⟩ (r.cache.attempted op) := rfl
  rw [hrun]
  cases hattempt : r.cache.attempted op with
  | error e => exact Course.refused e hattempt
  | ok x =>
      obtain ⟨answer, next⟩ := x
      rw [commit]
      cases hput : op.faults.put with
      | none =>
          rw [Store.put_of_accepting hput]
          exact Course.stored answer next hattempt hput
      | some e =>
          rw [Store.put_of_rejecting hput]
          dsimp only [reloaded]
          cases hload : (r.store.under op.faults).tried.load with
          | ok d => exact Course.restored answer next d e hattempt hput hload
          | error e' => exact Course.strayed answer next e e' hattempt hput hload

section

variable {r : Repository} {op : Operation}

theorem inStep_of_load {s : Store} (h : Repository.load s = .ok r) : r.InStep := by
  obtain ⟨d, hload, hr⟩ := bind_eq_ok.1 h
  cases hr
  exact (Store.load_eq_ok.1 hload).2

/-- What is answered was attempted and is stored. -/
theorem stored_of_ok {answer : Answer} (h : (r.perform op).1 = .ok answer) :
    r.cache.attempted op = .ok (answer, (r.performed op).cache) ∧ (r.performed op).InStep := by
  unfold performed
  have hcourse := r.course op
  generalize r.perform op = x at *
  cases hcourse with
  | stored answer' next attempted accepted =>
      cases h
      exact ⟨attempted, Store.directoryOf_stored next⟩
  | refused e refusal => cases h
  | restored answer' next d e attempted rejected readable => cases h
  | strayed answer' next e e' attempted rejected unreadable => cases h

/-- What a store takes is answered. -/
theorem perform_of_accepting {answer : Answer} {next : Directory} (haccepting : op.faults.put = none)
    (hattempt : r.cache.attempted op = .ok (answer, next)) :
    (r.perform op).1 = .ok answer ∧ (r.performed op).cache = next := by
  unfold performed
  have hrun : r.perform op = (.ok answer, took ⟨r.store.under op.faults, r.cache⟩ next) :=
    run_of_accepting haccepting hattempt
  rw [hrun]
  exact ⟨rfl, rfl⟩

/-- A write that does not stray puts the cache in step with the store, wherever it was before. -/
theorem inStep_of_writes (hwrites : r.Writes op) (hstays : ¬ r.Strays op) : (r.performed op).InStep := by
  unfold Strays Writes at *
  unfold performed at *
  have hcourse := r.course op
  generalize r.perform op = x at *
  cases hcourse with
  | refused e refusal => exact absurd rfl hwrites
  | stored answer next attempted accepted => exact Store.directoryOf_stored next
  | restored answer next d e attempted rejected readable => exact (Store.load_eq_ok.1 readable).2
  | strayed answer next e e' attempted rejected unreadable =>
      refine absurd ⟨hwrites, ?_, e', unreadable⟩ hstays
      rw [rejected]
      exact nofun

theorem inStep_of_not_writes (hwrites : ¬ r.Writes op) (h : r.InStep) : (r.performed op).InStep := by
  unfold Writes at hwrites
  unfold performed at *
  have hcourse := r.course op
  generalize r.perform op = x at *
  cases hcourse with
  | refused e refusal => exact h
  | stored answer next attempted accepted => exact absurd (Nat.succ_ne_self _) hwrites
  | restored answer next d e attempted rejected readable => exact absurd (Nat.succ_ne_self _) hwrites
  | strayed answer next e e' attempted rejected unreadable => exact absurd (Nat.succ_ne_self _) hwrites

/-- A write that the store does not take leaves what was stored. -/
theorem content_of_not_taken (h : ¬ (r.Writes op ∧ op.faults.put = none)) :
    (r.performed op).store.content = r.store.content := by
  unfold Writes at h
  unfold performed at *
  have hcourse := r.course op
  generalize r.perform op = x at *
  cases hcourse with
  | refused e refusal => rfl
  | stored answer next attempted accepted => exact absurd ⟨Nat.succ_ne_self _, accepted⟩ h
  | restored answer next d e attempted rejected readable => rfl
  | strayed answer next e e' attempted rejected unreadable => rfl

end

end Repository

end AccessControl
