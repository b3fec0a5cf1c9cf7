import AccessControl.Attempt
import AccessControl.Crypto.Argon2
import AccessControl.Password.Phc
import AccessControl.Token.Signed

/-!
The password hasher. New hashes use the hybrid mode at a given cost; a stored hash is checked at the mode,
version and cost that it names itself.
-/

namespace AccessControl

open Argon2

/-- Settles a cost. Memory must suffice for eight blocks a lane, counted in 32 bits. -/
def checkCost (cost : Cost) : Except CostFault Cost :=
  if cost.memory < 8 ∨ cost.memory < cost.lanes * 8 % UInt32.size then .error .memoryTooSmall
  else if cost.passes < 1 then .error .timeTooSmall
  else if cost.lanes < 1 then .error .noLanes
  else if 0x1000000 ≤ cost.lanes then .error .tooManyLanes
  else .ok cost

namespace PasswordHash

def standardCost : Cost := ⟨19456, 2, 1⟩

def create (cost : Cost) (salt : List UInt8) (secret : String) : String :=
  let output := derive ⟨.hybrid, .v19, cost, [], 32⟩ (utf8 secret.toList) salt
  String.ofList (PhcHash.render "argon2id".toList Version.v19.number
    [(['m'], cost.memory), (['t'], cost.passes), (['p'], cost.lanes)] salt output)

/-! ### Checking a stored hash -/

def modeOf? (name : List Char) : Option Mode :=
  if name = "argon2d".toList then some .dataDependent
  else if name = "argon2i".toList then some .independent
  else if name = "argon2id".toList then some .hybrid
  else none

/-- The version of a number; a hash that names none has the newer one. -/
def versionOf? : Option Nat → Option Version
  | none => some .v19
  | some n => if n = 16 then some .v16 else if n = 19 then some .v19 else none

/-- Bytes given in base64, at most `limit` of them. -/
def shortBytes? (limit : Nat) (value : List Char) : Option (List UInt8) :=
  (Base64.standard.decode? value).filter (·.length ≤ limit)

def takeParam (known : Cost × List UInt8) (param : List Char × List Char) : Option (Cost × List UInt8) :=
  let (cost, data) := known
  match param with
  | (['m'], value) => (PhcHash.decimal? value).map fun n => ({ cost with memory := n }, data)
  | (['t'], value) => (PhcHash.decimal? value).map fun n => ({ cost with passes := n }, data)
  | (['p'], value) => (PhcHash.decimal? value).map fun n => ({ cost with lanes := n }, data)
  | (['k', 'e', 'y', 'i', 'd'], value) => (shortBytes? 8 value).map fun _ => known
  | (['d', 'a', 't', 'a'], value) => (shortBytes? 32 value).map fun data => (cost, data)
  | _ => none

/-- The profile of a hash and its salt, if all it names is known. -/
def profile? (h : PhcHash) (salt : List Char) (size : Nat) : Option (Profile × List UInt8) := do
  let (cost, data) ← h.params.foldlM takeParam (standardCost, [])
  let cost ← (checkCost cost).toOption
  let mode ← modeOf? h.algorithm
  let version ← versionOf? h.version
  let salt ← (Base64.standard.decode? salt).filter (8 ≤ ·.length)
  return (⟨mode, version, cost, data, size⟩, salt)

/-- Whether a secret has the given hash. A text that is no hash has no secret; a hash that names what is
not known cannot be checked. -/
def check (secret stored : String) : Except AccessError Bool :=
  match PhcHash.parse? stored.toList with
  | some h =>
    match h.salt, h.output with
    | some salt, some output =>
      match profile? h salt output.length with
      | some (profile, salt) => .ok (derive profile (utf8 secret.toList) salt = output)
      | none => .error .uncheckablePassword
    | _, _ => .ok false
  | none => .ok false

/-- The hasher at a cost, with the salt of its next hash. -/
def hasher (cost : Cost) (salt : List UInt8) : Hasher := ⟨fun secret => .ok (create cost salt secret), check⟩

end PasswordHash

end AccessControl
