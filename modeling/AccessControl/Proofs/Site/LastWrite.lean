import AccessControl.Proofs.Site
import Mathlib.Data.List.Induction

/-!
Whose write a site shows. A write replaces the document as a whole; so after every run the store describes exactly
what one repository had in its cache when the store last took a write, and never parts of two caches
(`last_write_wins`). The other caches stay as they were, stale or not. One that fails to write while the store can be
read is read back, and then has all that was written by others.
-/

namespace AccessControl.Site

/-- The event calls for a write, and the store takes it. -/
def Stores (s : Site) : Event → Prop
  | .opens _ => False
  | .operates i op => (s.step (.operates i op)).store.puts ≠ s.store.puts ∧ op.faults.put = none

instance decidableStores (s : Site) : (event : Event) → Decidable (s.Stores event)
  | .opens _ => inferInstanceAs (Decidable False)
  | .operates _ _ => inferInstanceAs (Decidable (_ ∧ _))

/-- The cache that an event has the store take, as its repository has it right afterwards. -/
def stored? (s : Site) : Event → Option Directory
  | .opens _ => none
  | .operates i op => if s.Stores (.operates i op) then (s.step (.operates i op)).caches[i]? else none

/-- The events of a run, each with the site it met. -/
def trace (s : Site) : List Event → List (Site × Event)
  | [] => []
  | event :: events => (s, event) :: trace (s.step event) events

/-- The cache that was stored last in a run, as it was right after that write. -/
def lastStored? (s : Site) (events : List Event) : Option Directory :=
  ((s.trace events).filterMap fun x => x.1.stored? x.2).getLast?

/-- What a run leaves in the store: the cache that was stored last, or what the store described at first. -/
def persisted (s : Site) (events : List Event) : Except AccessError Directory :=
  match s.lastStored? events with
  | some d => .ok d
  | none => Store.directoryOf s.store.content

section

variable {s : Site} {r : Repository} {i : Nat} {op : Operation} {event : Event} {events : List Event}

theorem after_snoc : s.after (events ++ [event]) = (s.after events).step event := by
  rw [after, List.foldl_append]
  rfl

theorem trace_snoc : s.trace (events ++ [event]) = s.trace events ++ [(s.after events, event)] := by
  induction events generalizing s with
  | nil => rfl
  | cons first events ih =>
      rw [List.cons_append, trace, ih]
      rfl

/-- What was stored before counts as long as nothing else is. -/
theorem lastStored?_snoc :
    s.lastStored? (events ++ [event]) = ((s.after events).stored? event).or (s.lastStored? events) := by
  unfold lastStored?
  rw [trace_snoc, List.filterMap_append]
  cases hstored : (s.after events).stored? event with
  | none => simp [hstored]
  | some d => simp [hstored]

/-! ### One event -/

theorem getElem?_withRepository (h : s.repository? i = some r) (next : Repository) :
    (s.withRepository i next).caches[i]? = some next.cache := by
  obtain ⟨cache, hcache, -⟩ := repository?_eq_some.1 h
  obtain ⟨hlt, -⟩ := List.getElem?_eq_some_iff.1 hcache
  exact List.getElem?_set_self hlt

/-- An operation works on its own cache only. -/
theorem step_operates_apart {j : Nat} (hne : j ≠ i) : (s.step (.operates i op)).caches[j]? = s.caches[j]? := by
  cases h : s.repository? i with
  | none => rw [step_operates_none h]
  | some r =>
      rw [step_operates h]
      exact List.getElem?_set_ne hne.symm

theorem caches_prefix_opens (f : Faults) : s.caches <+: (s.step (.opens f)).caches := by
  rw [step]
  cases hopened : (s.under f).opened with
  | error e => exact List.prefix_refl _
  | ok next =>
      obtain ⟨d, -, hnext⟩ := bind_eq_ok.1 hopened
      cases hnext
      exact List.prefix_append _ _

theorem content_opens (f : Faults) : (s.step (.opens f)).store.content = s.store.content := by
  rw [step]
  cases hopened : (s.under f).opened with
  | error e => rfl
  | ok next =>
      obtain ⟨d, -, hnext⟩ := bind_eq_ok.1 hopened
      cases hnext
      rfl

theorem stores_operates (h : s.repository? i = some r) :
    s.Stores (.operates i op) ↔ r.Writes op ∧ op.faults.put = none := by
  rw [Stores, step_operates h]
  obtain ⟨cache, -, rfl⟩ := repository?_eq_some.1 h
  exact Iff.rfl

/-- What an operation leaves in the store: its repository's cache, if the store took it, and else what was there. -/
theorem content_operates (h : s.repository? i = some r) (op : Operation) :
    (s.Stores (.operates i op) ∧
      Store.directoryOf (s.step (.operates i op)).store.content = .ok (r.performed op).cache) ∨
    (¬ s.Stores (.operates i op) ∧ (s.step (.operates i op)).store.content = s.store.content) := by
  have hcontent : (s.step (.operates i op)).store.content = (r.performed op).store.content := by
    rw [step_operates h]
    rfl
  rw [stores_operates h, hcontent]
  by_cases hstores : r.Writes op ∧ op.faults.put = none
  · exact Or.inl ⟨hstores, Repository.inStep_of_writes hstores.1 fun hstrays => hstrays.2.1 hstores.2⟩
  · refine Or.inr ⟨hstores, ?_⟩
    rw [Repository.content_of_not_taken hstores]
    obtain ⟨cache, -, rfl⟩ := repository?_eq_some.1 h
    rfl

/-- What one event leaves in the store. -/
theorem content_step (s : Site) (event : Event) :
    (∃ d, s.stored? event = some d ∧ Store.directoryOf (s.step event).store.content = .ok d) ∨
    (s.stored? event = none ∧ (s.step event).store.content = s.store.content) := by
  cases event with
  | opens f => exact Or.inr ⟨rfl, content_opens f⟩
  | operates i op =>
      rw [stored?]
      cases h : s.repository? i with
      | none =>
          have hidle : ¬ s.Stores (.operates i op) := by
            rintro ⟨hputs, -⟩
            rw [step_operates_none h] at hputs
            exact hputs rfl
          rw [if_neg hidle, step_operates_none h]
          exact Or.inr ⟨rfl, rfl⟩
      | some r =>
          rcases content_operates h op with ⟨hstores, hdescribed⟩ | ⟨hidle, hcontent⟩
          · refine Or.inl ⟨(r.performed op).cache, ?_, hdescribed⟩
            rw [if_pos hstores, step_operates h, getElem?_withRepository h]
          · rw [if_neg hidle]
            exact Or.inr ⟨rfl, hcontent⟩

/-- An operation whose write fails while the store can be read leaves its repository with what the store describes. -/
theorem step_reloads {d : Directory} (h : s.repository? i = some r) (hwrites : r.Writes op)
    (hput : op.faults.put ≠ none) (hget : op.faults.get = none)
    (hstored : Store.directoryOf s.store.content = .ok d) :
    (s.step (.operates i op)).caches[i]? = some d ∧
      (s.step (.operates i op)).store.content = s.store.content := by
  obtain ⟨cache, -, rfl⟩ := repository?_eq_some.1 h
  have hload : (s.store.under op.faults).tried.load = .ok d := Store.load_eq_ok.2 ⟨hget, hstored⟩
  rw [step_operates h, getElem?_withRepository h]
  show some (Repository.performed _ op).cache = _ ∧ (Repository.performed _ op).store.content = _
  unfold Repository.Writes at hwrites
  unfold Repository.performed at *
  have hcourse := Repository.course ⟨s.store, cache⟩ op
  generalize Repository.perform ⟨s.store, cache⟩ op = x at *
  cases hcourse with
  | refused e refusal => exact absurd rfl hwrites
  | stored answer next attempted accepted => exact absurd accepted hput
  | restored answer next d' e attempted rejected readable =>
      rw [hload] at readable
      cases readable
      exact ⟨rfl, rfl⟩
  | strayed answer next e e' attempted rejected unreadable =>
      rw [hload] at unreadable
      cases unreadable

/-! ### Runs -/

theorem directoryOf_after (s : Site) (events : List Event) :
    Store.directoryOf (s.after events).store.content = s.persisted events ∧
      (s.lastStored? events = none → (s.after events).store.content = s.store.content) := by
  induction events using List.reverseRecOn with
  | nil => exact ⟨rfl, fun _ => rfl⟩
  | append_singleton events event ih =>
      rw [persisted, after_snoc, lastStored?_snoc]
      rcases content_step (s.after events) event with ⟨d, hstored, hdescribed⟩ | ⟨hstored, hcontent⟩
      · rw [hstored]
        exact ⟨hdescribed, nofun⟩
      · rw [hstored, hcontent]
        exact ih

/-- No repository is opened on a store that cannot be read, and what is stored later can be. -/
theorem readable_after (store : Store) (events : List Event) :
    ((unopened store).after events).caches = [] ∨
      ∃ d, Store.directoryOf ((unopened store).after events).store.content = .ok d := by
  induction events using List.reverseRecOn with
  | nil => exact Or.inl rfl
  | append_singleton events event ih =>
      rw [after_snoc]
      generalize (unopened store).after events = s at *
      cases event with
      | opens f =>
          rw [step]
          cases hopened : (s.under f).opened with
          | error e => exact ih
          | ok next =>
              obtain ⟨d, hload, hnext⟩ := bind_eq_ok.1 hopened
              cases hnext
              exact Or.inr ⟨d, (Store.load_eq_ok.1 hload).2⟩
      | operates i op =>
          cases h : s.repository? i with
          | none =>
              rw [step_operates_none h]
              exact ih
          | some r =>
              rcases content_operates h op with ⟨-, hdescribed⟩ | ⟨-, hcontent⟩
              · exact Or.inr ⟨_, hdescribed⟩
              · rw [hcontent]
                obtain ⟨cache, hcache, -⟩ := repository?_eq_some.1 h
                refine Or.inr (ih.resolve_left fun hnone => ?_)
                rw [hnone] at hcache
                cases hcache

end

/-- After every run the store describes what one repository had in its cache right after the last write that the store
took, or else is as it was at first. An operation leaves the caches of all other repositories alone; and if its write
fails while the store can be read, its own cache becomes what is stored. -/
theorem last_write_wins (store : Store) (events : List Event) :
    let s := (unopened store).after events
    Store.directoryOf s.store.content = (unopened store).persisted events ∧
    ((unopened store).lastStored? events = none → s.store.content = store.content) ∧
    (∀ f, s.caches <+: (s.step (.opens f)).caches) ∧
    (∀ i op j, j ≠ i → (s.step (.operates i op)).caches[j]? = s.caches[j]?) ∧
    ∀ i op r, s.repository? i = some r → r.Writes op → op.faults.put ≠ none → op.faults.get = none →
      ∃ d, (unopened store).persisted events = .ok d ∧ (s.step (.operates i op)).caches[i]? = some d ∧
        (s.step (.operates i op)).store.content = s.store.content := by
  intro s
  obtain ⟨hstored, huntouched⟩ := directoryOf_after (unopened store) events
  refine ⟨hstored, huntouched, caches_prefix_opens, fun i op j hne => step_operates_apart hne, ?_⟩
  intro i op r h hwrites hput hget
  obtain ⟨cache, hcache, -⟩ := repository?_eq_some.1 h
  have hopen : s.caches ≠ [] := by
    intro hnone
    rw [hnone] at hcache
    cases hcache
  obtain ⟨d, hdescribed⟩ := (readable_after store events).resolve_left hopen
  exact ⟨d, hstored.symm.trans hdescribed, step_reloads h hwrites hput hget hdescribed⟩

/-- Two repositories, of which the first makes an account that the second does not know of. -/
def unnoticed : List Event := [.opens .none, .opens .none, .operates 0 (.newAccount "olga" [] .none)]

/-- A creation by the second, which the store does not take. -/
def rejectedCreation : Operation := .newAccount "pete" [] .readOnly

/-- The second repository comes to know the account when it fails to write; and had its write been taken, the account
would be lost. -/
theorem last_write_wins_unnoticed :
    ∃ r d, ((unopened .empty).after unnoticed).repository? 1 = some r ∧ r.cache = .empty ∧
      (((unopened .empty).after unnoticed).step (.operates 1 rejectedCreation)).caches[1]? = some d ∧
      d.users.keys = ["olga"] ∧
      ∃ d', Store.directoryOf
          ((unopened .empty).after (unnoticed ++ [.operates 1 (.newAccount "pete" [] .none)])).store.content = .ok d' ∧
        d'.users.keys = ["pete"] := by
  obtain ⟨-, -, -, -, hreloads⟩ := last_write_wins .empty unnoticed
  obtain ⟨d, hpersisted, hcache, -⟩ := hreloads 1 rejectedCreation ⟨_, .empty⟩ rfl (by decide) (by decide) rfl
  obtain ⟨hstored, -⟩ := last_write_wins .empty (unnoticed ++ [.operates 1 (.newAccount "pete" [] .none)])
  have holga : (unopened .empty).persisted unnoticed = .ok (Directory.empty.applied (.newAccount "olga" [] .none)) := by
    decide
  rw [holga] at hpersisted
  cases hpersisted
  exact ⟨_, _, rfl, rfl, hcache, by decide, _, hstored, by decide⟩

end AccessControl.Site
