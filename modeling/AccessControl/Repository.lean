import AccessControl.Command
import AccessControl.Store

/-!
A repository: a directory held in memory and written through to a store. A change is kept only if the store
took it; otherwise the directory is read back from the store, as far as the store can be read.
-/

namespace AccessControl

structure Repository where
  store : Store
  cache : Directory

namespace Repository

def load (s : Store) : Except AccessError Repository := do return ⟨s, ← s.load⟩

/-- The directory after a failed write of `next`: what the store holds, or `next` if it cannot be read. -/
def reloaded (s : Store) (next : Directory) : Directory :=
  match s.load with
  | .ok d => d
  | .error _ => next

/-- Carries out what an attempt came to. A refused attempt touches neither store nor cache. -/
def commit {α : Type} (r : Repository) : Except AccessError (α × Directory) → Except AccessError α × Repository
  | .error e => (.error e, r)
  | .ok (a, next) =>
    match r.store.put (Document.ofDirectory next).toBytes with
    | (.ok (), store) => (.ok a, ⟨store, next⟩)
    | (.error e, store) => (.error e, ⟨store, reloaded store next⟩)

def run (c : Circumstances) (r : Repository) (command : Command) : Except AccessError Answer × Repository :=
  r.commit (command.attempt c r.cache).outcome

def exported (r : Repository) : Document := .ofDirectory r.cache

end Repository

/-- Several repositories over one store, each with a cache of its own. -/
structure Site where
  store : Store
  caches : List Directory

namespace Site

def repository? (s : Site) (i : Nat) : Option Repository := s.caches[i]?.map fun cache => ⟨s.store, cache⟩

def opened (s : Site) : Except AccessError Site := do return { s with caches := s.caches ++ [← s.store.load] }

def withRepository (s : Site) (i : Nat) (r : Repository) : Site := ⟨r.store, s.caches.set i r.cache⟩

/-- Runs a command on repository `i`; `none` if there is no such repository. -/
def run? (c : Circumstances) (s : Site) (i : Nat) (command : Command) :
    Option (Except AccessError Answer × Site) :=
  (s.repository? i).map fun r =>
    let (answer, r) := r.run c command
    (answer, s.withRepository i r)

end Site

end AccessControl
