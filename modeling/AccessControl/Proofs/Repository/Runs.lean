import AccessControl.Proofs.Repository.Operation
import Mathlib.Data.List.Infix

/-!
Runs of one repository that is alone on its store. The cache stays in step with the store unless the last
write strayed; and the repository shows and stores nothing but what it acknowledged, unless a straying
operation had an effect.
-/

namespace AccessControl

namespace Repository

/-- The repository after a run of operations. -/
def after (r : Repository) (ops : List Operation) : Repository := ops.foldl performed r

/-- The operations of a run, each with the repository it met. -/
def trace (r : Repository) : List Operation → List (Repository × Operation)
  | [] => []
  | op :: ops => (r, op) :: trace (r.performed op) ops

/-- The last operation of a run that called for a write, with the repository it met. -/
def lastWrite? (r : Repository) (ops : List Operation) : Option (Repository × Operation) :=
  ((r.trace ops).filter fun x => x.1.Writes x.2).getLast?

/-- The directory with the effects of an operation if it was acknowledged by the repository it met. -/
def acknowledge (d : Directory) (x : Repository × Operation) : Directory :=
  match (x.1.perform x.2).1 with
  | .ok _ => d.applied x.2
  | .error _ => d

/-- The directory that a run has acknowledged: the first one with the effects, in order, of the operations
that were answered without an error. -/
def acknowledged (r : Repository) (ops : List Operation) : Directory := (r.trace ops).foldl acknowledge r.cache

/-- All along a run, what is read and what is stored is what was acknowledged so far. -/
def Faithful (r : Repository) (ops : List Operation) : Prop :=
  ∀ before, before <+: ops →
    (r.after before).cache = r.acknowledged before ∧
      Store.directoryOf (r.after before).store.content = .ok (r.acknowledged before)

section

variable {r : Repository} {op : Operation} {ops : List Operation}

theorem after_snoc : r.after (ops ++ [op]) = (r.after ops).performed op := by
  rw [after, List.foldl_append]
  rfl

theorem trace_snoc : r.trace (ops ++ [op]) = r.trace ops ++ [(r.after ops, op)] := by
  induction ops generalizing r with
  | nil => rfl
  | cons first ops ih =>
      rw [List.cons_append, trace, ih]
      rfl

theorem acknowledged_snoc :
    r.acknowledged (ops ++ [op]) = acknowledge (r.acknowledged ops) (r.after ops, op) := by
  rw [acknowledged, trace_snoc, List.foldl_append]
  rfl

/-! ### The cache and the store -/

theorem lastWrite?_snoc_of_writes (h : (r.after ops).Writes op) :
    r.lastWrite? (ops ++ [op]) = some (r.after ops, op) := by
  rw [lastWrite?, trace_snoc, List.filter_append, List.filter_cons_of_pos (by simpa using h), List.filter_nil,
    List.getLast?_concat]

theorem lastWrite?_snoc_of_not_writes (h : ¬ (r.after ops).Writes op) :
    r.lastWrite? (ops ++ [op]) = r.lastWrite? ops := by
  rw [lastWrite?, trace_snoc, List.filter_append, List.filter_cons_of_neg (by simpa using h), List.filter_nil,
    List.append_nil, lastWrite?]

theorem InStep.after (hr : r.InStep) (hlast : ∀ r' op, r.lastWrite? ops = some (r', op) → ¬ r'.Strays op) :
    (r.after ops).InStep := by
  induction ops using List.reverseRecOn with
  | nil => exact hr
  | append_singleton ops op ih =>
      rw [after_snoc]
      by_cases hwrites : (r.after ops).Writes op
      · exact inStep_of_writes hwrites (hlast _ _ (lastWrite?_snoc_of_writes hwrites))
      · rw [lastWrite?_snoc_of_not_writes hwrites] at hlast
        exact inStep_of_not_writes hwrites (ih hlast)

/-- On a repository in step an operation is refused without effect or acknowledged with its effect. -/
theorem InStep.settles (hr : r.InStep) (hrecoverable : op.faults.Recoverable) :
    (r.performed op).InStep ∧
      ((∃ e, (r.perform op).1 = .error e) ∧ (r.performed op).cache = r.cache ∨
        ∃ answer, (r.perform op).1 = .ok answer ∧ r.cache.attempted op = .ok (answer, (r.performed op).cache)) := by
  unfold performed
  have hcourse := r.course op
  generalize r.perform op = x at *
  cases hcourse with
  | refused e refusal => exact ⟨hr, Or.inl ⟨⟨e, rfl⟩, rfl⟩⟩
  | stored answer next attempted accepted =>
      exact ⟨Store.directoryOf_stored next, Or.inr ⟨answer, rfl, attempted⟩⟩
  | restored answer next d e attempted rejected readable =>
      have hdescribed := (Store.load_eq_ok.1 readable).2
      exact ⟨hdescribed, Or.inl ⟨⟨e, rfl⟩, Except.ok.inj (hdescribed.symm.trans hr)⟩⟩
  | strayed answer next e e' attempted rejected unreadable =>
      have hput : op.faults.put ≠ none := by
        rw [rejected]
        exact nofun
      have hload : (r.store.under op.faults).tried.load = .ok r.cache := Store.load_eq_ok.2 ⟨hrecoverable hput, hr⟩
      rw [hload] at unreadable
      cases unreadable

theorem InStep.after_recoverable (hr : r.InStep) (hrecoverable : ∀ op ∈ ops, op.faults.Recoverable) :
    (r.after ops).InStep := by
  induction ops using List.reverseRecOn with
  | nil => exact hr
  | append_singleton ops op ih =>
      rw [List.forall_mem_append] at hrecoverable
      rw [after_snoc]
      exact ((ih hrecoverable.1).settles (hrecoverable.2 op List.mem_cons_self)).1

/-- After every run the cache is what the store describes, unless the last operation that called for a write
strayed. A single write that the store takes, or that it refuses while it can be read, brings the cache of any
repository back in step. -/
theorem cache_in_step {s : Store} {r : Repository} (hload : Repository.load s = .ok r) :
    (∀ ops, (∀ r' op, r.lastWrite? ops = some (r', op) → ¬ r'.Strays op) →
      Store.directoryOf (r.after ops).store.content = .ok (r.after ops).cache) ∧
    ∀ (r' : Repository) (op : Operation), r'.Writes op →
      (op.faults.put = none ∨ ∃ d, (r'.performed op).store.load = .ok d) →
      Store.directoryOf (r'.performed op).store.content = .ok (r'.performed op).cache := by
  refine ⟨fun ops hlast => (inStep_of_load hload).after hlast, fun r' op hwrites hstays => ?_⟩
  refine inStep_of_writes hwrites ?_
  rintro ⟨-, hput, e, hunreadable⟩
  rcases hstays with hnone | ⟨d, hload⟩
  · exact hput hnone
  · rw [hload] at hunreadable
    cases hunreadable

/-- An account created in an outage is in the cache but not in the store. The next write brings the two in step
again, also when the store does not take it. -/
theorem cache_in_step_after_outage :
    Repository.load .empty = .ok fresh ∧
      Store.directoryOf (fresh.after [.lostAccount, .idle .none]).store.content =
        .ok (fresh.after [.lostAccount, .idle .none]).cache ∧
      Store.directoryOf ((fresh.after [.lostAccount]).performed (.idle .readOnly)).store.content =
        .ok ((fresh.after [.lostAccount]).performed (.idle .readOnly)).cache := by
  have hload : Repository.load .empty = .ok fresh := rfl
  have hwrites : (fresh.after [.lostAccount]).Writes (.idle .none) := by decide
  refine ⟨hload, (cache_in_step hload).1 _ fun r' op hlast hstrays => ?_, ?_⟩
  · obtain ⟨rfl, rfl⟩ := Prod.mk.inj (Option.some.inj ((lastWrite?_snoc_of_writes hwrites).symm.trans hlast))
    exact hstrays.2.1 rfl
  · exact (cache_in_step hload).2 _ _ (by decide) (Or.inr ⟨.empty, rfl⟩)

/-! ### What was acknowledged -/

/-- One operation on a repository in step: it shows and stores what it acknowledges exactly when it does not
stray with an effect. -/
theorem InStep.shows_acknowledged_iff (hr : r.InStep) :
    ((r.performed op).cache = acknowledge r.cache (r, op) ∧
      Store.directoryOf (r.performed op).store.content = .ok (acknowledge r.cache (r, op))) ↔
    (r.Strays op → r.cache.applied op = r.cache) := by
  unfold acknowledge Strays Writes
  unfold performed
  have hcourse := r.course op
  generalize r.perform op = x at *
  cases hcourse with
  | refused e refusal => exact ⟨fun _ hstrays => absurd rfl hstrays.1, fun _ => ⟨rfl, hr⟩⟩
  | stored answer next attempted accepted =>
      dsimp only
      rw [Directory.applied_of_ok attempted]
      exact ⟨fun _ hstrays => absurd accepted hstrays.2.1, fun _ => ⟨rfl, Store.directoryOf_stored next⟩⟩
  | restored answer next d e attempted rejected readable =>
      -- what is read back is what the store held before, that is, the cache before
      have hback : d = r.cache := Except.ok.inj ((Store.load_eq_ok.1 readable).2.symm.trans hr)
      refine ⟨fun _ hstrays => ?_, fun _ => ⟨hback, hr⟩⟩
      obtain ⟨-, -, e', hunreadable⟩ := hstrays
      rw [readable] at hunreadable
      cases hunreadable
  | strayed answer next e e' attempted rejected unreadable =>
      rw [Directory.applied_of_ok attempted]
      constructor
      · rintro ⟨hcache, -⟩ -
        exact hcache
      · intro h
        have hput : op.faults.put ≠ none := by
          rw [rejected]
          exact nofun
        exact ⟨h ⟨Nat.succ_ne_self _, hput, e', unreadable⟩, hr⟩

theorem faithful_snoc :
    r.Faithful (ops ++ [op]) ↔
      r.Faithful ops ∧ (r.after (ops ++ [op])).cache = r.acknowledged (ops ++ [op]) ∧
        Store.directoryOf (r.after (ops ++ [op])).store.content = .ok (r.acknowledged (ops ++ [op])) := by
  constructor
  · intro h
    exact ⟨fun before hbefore => h before (hbefore.trans (List.prefix_append ops [op])),
      h _ (List.prefix_refl _)⟩
  · rintro ⟨hops, hlast⟩ before hbefore
    rcases List.prefix_concat_iff.1 hbefore with rfl | hbefore
    · exact hlast
    · exact hops before hbefore

end

/-- A run reads and stores nothing but what it acknowledged exactly when no operation of the run that strayed
had an effect on the cache it met. -/
theorem faithful_iff_strays_idle {s : Store} {r : Repository} (hload : Repository.load s = .ok r)
    (ops : List Operation) :
    r.Faithful ops ↔ ∀ x ∈ r.trace ops, x.1.Strays x.2 → x.1.cache.applied x.2 = x.1.cache := by
  induction ops using List.reverseRecOn with
  | nil =>
      refine ⟨fun _ x hx => absurd hx List.not_mem_nil, fun _ before hbefore => ?_⟩
      rw [List.prefix_nil.1 hbefore]
      exact ⟨rfl, inStep_of_load hload⟩
  | append_singleton ops op ih =>
      rw [faithful_snoc, trace_snoc, List.forall_mem_append, List.forall_mem_singleton, ← ih]
      refine and_congr_right fun hops => ?_
      -- at the end of a faithful run, cache and store both are what was acknowledged
      obtain ⟨hcache, hstored⟩ := hops ops (List.prefix_refl ops)
      rw [← hcache] at hstored
      rw [acknowledged_snoc, after_snoc, ← hcache]
      exact InStep.shows_acknowledged_iff hstored

/-- Removing an account that is not there strays in an outage, without effect. -/
theorem faithful_idle_outage :
    Repository.load .empty = .ok fresh ∧ fresh.Faithful [.idle .outage, .newAccount "hank" [] .none] := by
  have hload : Repository.load .empty = .ok fresh := rfl
  refine ⟨hload, (faithful_iff_strays_idle hload _).2 fun x hx hstrays => ?_⟩
  rcases List.mem_pair.1 hx with rfl | rfl
  · decide
  · exact absurd rfl hstrays.2.1

/-- An account whose creation was refused in an outage is shown afterwards, and stored by the next operation. -/
theorem refused_account_is_stored :
    Repository.load .empty = .ok fresh ∧
      (fresh.perform .lostAccount).1 = .error (.other .internal "store unavailable") ∧
      (∃ d, Store.directoryOf (fresh.after [.lostAccount, .idle .none]).store.content = .ok d ∧
        d.users.contains "hank" = true) ∧
      ¬ fresh.Faithful [.lostAccount, .idle .none] := by
  have hwrites : (fresh.after [.lostAccount]).Writes (.idle .none) := by decide
  have hstored := inStep_of_writes hwrites fun hstrays => hstrays.2.1 rfl
  refine ⟨rfl, rfl, ⟨_, hstored, by decide⟩, fun hfaithful => ?_⟩
  obtain ⟨hcache, -⟩ := hfaithful _ (List.prefix_refl _)
  exact absurd hcache (by decide)

end Repository

end AccessControl
