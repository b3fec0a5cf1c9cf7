import AccessControl.Error

/-!
Attempts: computations that may be refused and that may hash secrets on the way. An attempt records every
secret it gave to the hasher, also when it is refused afterwards.
-/

namespace AccessControl

/-- Turns secrets into hashes and checks secrets against hashes. Either may fail with a report of its
own. -/
structure Hasher where
  hash : String → Except AccessError String
  verify : String → String → Except AccessError Bool

/-- What an attempt came to, and the secrets that were hashed for it, in order. -/
structure Attempt (α : Type) where
  hashed : List String
  outcome : Except AccessError α

namespace Attempt

variable {α β : Type}

def ofExcept (r : Except AccessError α) : Attempt α := ⟨[], r⟩

def succeed (a : α) : Attempt α := ofExcept (.ok a)

def andThen (x : Attempt α) (f : α → Attempt β) : Attempt β :=
  match x.outcome with
  | .ok a => ⟨x.hashed ++ (f a).hashed, (f a).outcome⟩
  | .error e => ⟨x.hashed, .error e⟩

instance : Monad Attempt where
  pure := succeed
  bind := andThen

instance : MonadLift (Except AccessError) Attempt := ⟨ofExcept⟩

end Attempt

def Hasher.hashing (h : Hasher) (secret : String) : Attempt String := ⟨[secret], h.hash secret⟩

def demand (condition : Bool) (e : AccessError) : Except AccessError Unit :=
  if condition then .ok () else .error e

def present {α : Type} (a : Option α) (e : AccessError) : Except AccessError α :=
  match a with
  | some a => .ok a
  | none => .error e

end AccessControl
