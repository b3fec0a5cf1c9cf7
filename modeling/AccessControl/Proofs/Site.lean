import AccessControl.Proofs.Directory.Integrity
import AccessControl.Proofs.Repository.Runs

/-!
Several repositories on one store, opened at any time, with their operations in any order. A cache may be stale,
and a stale cache may be stored over a newer document; but whatever one change keeps holds all the time of every
cache and of the stored document (`Holds.after`), since a write replaces the document as a whole.
-/

namespace AccessControl

/-- The store can be read, as far as its content goes, and describes a directory with the property. -/
def Store.Describes (s : Store) (P : Directory → Prop) : Prop := ∃ d, Store.directoryOf s.content = .ok d ∧ P d

theorem Store.Describes.of_load {s : Store} {P : Directory → Prop} {d : Directory} (h : s.Describes P)
    (hload : s.load = .ok d) : P d := by
  obtain ⟨d', hdescribed, hd'⟩ := h
  rw [(Store.load_eq_ok.1 hload).2] at hdescribed
  cases hdescribed
  exact hd'

/-- Every role name held by an account stands for a role. -/
def Directory.Resolves (d : Directory) : Prop := ∀ name, d.Assigns name → (d.resolve? name).isSome = true

theorem Directory.Kept.applied {P : Directory → Prop} (hP : Kept P) {d : Directory} (hd : P d) (op : Operation) :
    P (d.applied op) := by
  rw [Directory.applied]
  split
  · rename_i answer next hattempt
    exact hP (attempt_change hattempt) hd
  · exact hd

/-- No custom role bears the name of a system role, and the two orders of looking up a role agree. -/
def Directory.Apart (d : Directory) : Prop :=
  (∀ name, d.roles.contains name = true → Catalogue.reserves name = false) ∧ ∀ name, d.resolve? name = d.role? name

namespace Site

/-- What happens at a site: one more repository is opened, or a repository performs an operation. -/
inductive Event
  | opens (f : Faults)
  | operates (i : Nat) (op : Operation)

def under (s : Site) (f : Faults) : Site := { s with store := s.store.under f }

/-- The site after an event. Nothing happens if the store cannot be read for a new repository, or if there is no
repository of that number. -/
def step (s : Site) : Event → Site
  | .opens f =>
    match (s.under f).opened with
    | .ok next => next
    | .error _ => s
  | .operates i op =>
    match (s.under op.faults).run? op.circumstances i op.command with
    | some (_, next) => next
    | none => s

def after (s : Site) (events : List Event) : Site := events.foldl step s

/-- A site before any repository is opened. -/
def unopened (store : Store) : Site := ⟨store, []⟩

/-- Every cache and the stored document have the property. -/
structure Holds (P : Directory → Prop) (s : Site) : Prop where
  cached : ∀ d ∈ s.caches, P d
  stored : s.store.Describes P

section

variable {P Q : Directory → Prop} {s : Site} {r : Repository} {i : Nat} {op : Operation}

theorem repository?_eq_some :
    s.repository? i = some r ↔ ∃ cache, s.caches[i]? = some cache ∧ ⟨s.store, cache⟩ = r := by
  rw [repository?, Option.map_eq_some_iff]

theorem step_operates (h : s.repository? i = some r) :
    s.step (.operates i op) = s.withRepository i (r.performed op) := by
  obtain ⟨cache, hcache, rfl⟩ := repository?_eq_some.1 h
  have hopen : (s.under op.faults).repository? i = some ⟨s.store.under op.faults, cache⟩ :=
    repository?_eq_some.2 ⟨cache, hcache, rfl⟩
  rw [step, run?, hopen]
  rfl

theorem step_operates_none (h : s.repository? i = none) : s.step (.operates i op) = s := by
  have hclosed : (s.under op.faults).repository? i = none := by
    rw [repository?, Option.map_eq_none_iff] at h ⊢
    exact h
  rw [step, run?, hclosed]
  rfl

/-! ### What every change keeps -/

/-- An operation on one repository leaves cache and store with a property that every change keeps. -/
theorem performed_keeps (r : Repository) (op : Operation) (hP : Directory.Kept P) (hcache : P r.cache)
    (hstored : r.store.Describes P) : P (r.performed op).cache ∧ (r.performed op).store.Describes P := by
  unfold Repository.performed
  have hcourse := r.course op
  generalize r.perform op = x at *
  cases hcourse with
  | refused e refusal => exact ⟨hcache, hstored⟩
  | stored answer next attempted accepted =>
      have hnext := hP (Directory.attempt_change attempted) hcache
      exact ⟨hnext, next, Store.directoryOf_stored next, hnext⟩
  | restored answer next d e attempted rejected readable =>
      -- a write that is not taken leaves the content as it was
      have htried : (r.store.under op.faults).tried.Describes P := hstored
      exact ⟨htried.of_load readable, htried⟩
  | strayed answer next e e' attempted rejected unreadable =>
      exact ⟨hP (Directory.attempt_change attempted) hcache, hstored⟩

theorem Holds.step (hP : Directory.Kept P) (h : s.Holds P) (event : Event) : (s.step event).Holds P := by
  cases event with
  | opens f =>
      rw [Site.step]
      cases hopened : (s.under f).opened with
      | error e => exact h
      | ok next =>
          obtain ⟨d, hload, hnext⟩ := bind_eq_ok.1 hopened
          cases hnext
          have hstored : (s.store.under f).Describes P := h.stored
          refine ⟨fun cache hmem => ?_, hstored⟩
          rcases List.mem_append.1 hmem with hmem | hmem
          · exact h.cached cache hmem
          · rw [List.mem_singleton.1 hmem]
            exact hstored.of_load hload
  | operates i op =>
      cases hrepository : s.repository? i with
      | none =>
          rw [step_operates_none hrepository]
          exact h
      | some r =>
          rw [step_operates hrepository]
          obtain ⟨cache, hcache, rfl⟩ := repository?_eq_some.1 hrepository
          obtain ⟨hnext, hstored⟩ :=
            performed_keeps ⟨s.store, cache⟩ op hP (h.cached cache (List.mem_of_getElem? hcache)) h.stored
          refine ⟨fun d hmem => ?_, hstored⟩
          rcases List.mem_or_eq_of_mem_set hmem with hmem | rfl
          · exact h.cached d hmem
          · exact hnext

theorem Holds.after (hP : Directory.Kept P) (h : s.Holds P) (events : List Event) : (s.after events).Holds P := by
  induction events generalizing s with
  | nil => exact h
  | cons event events ih => exact ih (h.step hP event)

theorem Holds.imp (hPQ : ∀ {d}, P d → Q d) (h : s.Holds P) : s.Holds Q := by
  obtain ⟨d, hdescribed, hd⟩ := h.stored
  exact ⟨fun d hmem => hPQ (h.cached d hmem), d, hdescribed, hPQ hd⟩

theorem holds_unopened {store : Store} (hempty : P .empty) (h : store.content = none ∨ store.Describes P) :
    (unopened store).Holds P := by
  refine ⟨fun d hmem => absurd hmem List.not_mem_nil, ?_⟩
  rcases h with hnone | hdescribed
  · exact ⟨.empty, congrArg Store.directoryOf hnone, hempty⟩
  · exact hdescribed

end

/-! ### Roles that accounts hold -/

section

variable {s : Site} {r : Repository} {i : Nat} {op : Operation} {name : String} {answer : Answer}

/-- A role that was removed is held by no account of the repository that removed it, nor of the store. -/
theorem removed_role_is_free (hrepository : s.repository? i = some r) (hcommand : op.command = .deleteRole name)
    (hanswer : (r.perform op).1 = .ok answer) :
    ∃ d, (s.step (.operates i op)).caches[i]? = some d ∧
      Store.directoryOf (s.step (.operates i op)).store.content = .ok d ∧ ¬ d.Assigns name := by
  rw [step_operates hrepository]
  have hcached : (s.withRepository i (r.performed op)).caches[i]? = some (r.performed op).cache := by
    obtain ⟨cache, hcache, -⟩ := repository?_eq_some.1 hrepository
    obtain ⟨hi, -⟩ := List.getElem?_eq_some_iff.1 hcache
    exact List.getElem?_set_self hi
  refine ⟨(r.performed op).cache, hcached, ?_⟩
  show Store.directoryOf (r.performed op).store.content = .ok (r.performed op).cache ∧ _
  unfold Repository.performed
  have hcourse := r.course op
  generalize r.perform op = x at *
  cases hcourse with
  | stored answer next attempted accepted =>
      rw [Directory.attempted, hcommand] at attempted
      obtain ⟨hdeleted, -⟩ := Command.done_eq_ok.1 attempted
      exact ⟨Store.directoryOf_stored next, Directory.deleteRole_not_assigns hdeleted⟩
  | refused e refusal => cases hanswer
  | restored answer next d e attempted rejected readable => cases hanswer
  | strayed answer next e e' attempted rejected unreadable => cases hanswer

end

/-- Whatever happens at a site whose document is sound at first, every cache and the stored document stay sound.
So no removal of a role leaves an account with a role that stands for nothing. -/
theorem sound_after {store : Store} (hinitial : store.content = none ∨ store.Describes Directory.Sound)
    (events : List Event) :
    ((unopened store).after events).Holds Directory.Sound ∧
      ∀ i op r name answer, ((unopened store).after events).repository? i = some r →
        op.command = .deleteRole name → (r.perform op).1 = .ok answer →
        (((unopened store).after events).step (.operates i op)).Holds Directory.Resolves ∧
          ∃ d, (((unopened store).after events).step (.operates i op)).caches[i]? = some d ∧
            Store.directoryOf (((unopened store).after events).step (.operates i op)).store.content = .ok d ∧
            ¬ d.Assigns name := by
  have hsound := (holds_unopened Directory.sound_empty hinitial).after Directory.sound_kept events
  refine ⟨hsound, fun i op r name answer hrepository hcommand hanswer => ⟨?_, ?_⟩⟩
  · exact (hsound.step Directory.sound_kept _).imp fun hd name => hd.resolves
  · exact removed_role_is_free hrepository hcommand hanswer

/-- One of two repositories makes a role and gives it to an account. -/
def hiring : List Event :=
  [.opens .none, .opens .none, .operates 0 (.newRole "ops" .none), .operates 0 (.newAccount "ann" ["ops"] .none)]

def leaving : List Event := hiring ++ [.operates 0 (.under .none (.deleteAccount "ann"))]

/-- The role can be removed once the account is gone. -/
theorem sound_after_leaving :
    ∃ r, ((unopened .empty).after leaving).repository? 0 = some r ∧
      (r.perform (.under .none (.deleteRole "ops"))).1 = .ok .done ∧
      (((unopened .empty).after leaving).step (.operates 0 (.under .none (.deleteRole "ops")))).Holds
        Directory.Resolves := by
  have hinitial : Store.empty.content = none ∨ Store.empty.Describes Directory.Sound := Or.inl rfl
  obtain ⟨-, hremoval⟩ := sound_after hinitial leaving
  exact ⟨_, rfl, rfl, (hremoval 0 _ _ "ops" .done rfl rfl rfl).1⟩

/-! ### Names and entries -/

/-- Whatever happens at a site whose document is well-formed at first, every cache and the stored document stay
well-formed; so custom roles and system roles stay apart. -/
theorem wellFormed_after {store : Store} (hinitial : store.content = none ∨ store.Describes Directory.WellFormed)
    (events : List Event) :
    ((unopened store).after events).Holds Directory.WellFormed ∧
      ((unopened store).after events).Holds Directory.Apart := by
  have hwell := (holds_unopened Directory.wellFormed_empty hinitial).after Directory.wellFormed_kept events
  exact ⟨hwell, hwell.imp fun hd => ⟨fun name => hd.disjoint, hd.rolesApart.resolve?_eq_role?⟩⟩

/-- A directory with one account, which holds a custom role. -/
def staffed : Directory :=
  (Directory.empty.applied (.newRole "ops" .none)).applied (.newAccount "ann" ["ops"] .none)

theorem wellFormed_after_hiring :
    staffed.users.contains "ann" = true ∧ staffed.roles.contains "ops" = true ∧
      ((unopened (Store.empty.took staffed)).after hiring).Holds Directory.WellFormed := by
  have hops := Directory.wellFormed_kept.applied Directory.wellFormed_empty (.newRole "ops" .none)
  have hstaffed : staffed.WellFormed := Directory.wellFormed_kept.applied hops _
  have hdescribed : (Store.empty.took staffed).Describes Directory.WellFormed :=
    ⟨staffed, Store.directoryOf_stored staffed, hstaffed⟩
  exact ⟨by decide, by decide, (wellFormed_after (Or.inr hdescribed) hiring).1⟩

end Site

/-! ### One repository alone -/

namespace Repository

variable {P : Directory → Prop}

/-- What every change keeps holds of the cache after every run, if it holds at first of the cache and of the
stored document. -/
theorem after_keeps (hP : Directory.Kept P) {r : Repository} (hcache : P r.cache)
    (hstored : r.store.Describes P) (ops : List Operation) :
    P (r.after ops).cache ∧ (r.after ops).store.Describes P := by
  induction ops generalizing r with
  | nil => exact ⟨hcache, hstored⟩
  | cons op ops ih =>
      obtain ⟨hcache, hstored⟩ := Site.performed_keeps r op hP hcache hstored
      exact ih hcache hstored

/-- What holds of the empty directory holds of what is loaded, if it holds of the stored document or there is none. -/
theorem loaded_keeps {s : Store} {r : Repository} (hload : Repository.load s = .ok r) (hempty : P .empty)
    (hinitial : s.content = none ∨ s.Describes P) : P r.cache ∧ r.store.Describes P := by
  obtain ⟨d, hd, hr⟩ := bind_eq_ok.1 hload
  cases hr
  have hstored := (Site.holds_unopened hempty hinitial).stored
  exact ⟨hstored.of_load hd, hstored⟩

end Repository

end AccessControl
