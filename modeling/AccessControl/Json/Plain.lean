import AccessControl.Json.Basic

/-!
Values taken in whole before anything is asked of their shape. All of such a value must be sound; a looser
reader passes over a fault at its very end.
-/

namespace AccessControl

namespace Json

mutual

/-- Whether all strings of a value are texts, its numbers are in range and its nesting stays within `depth`. -/
def isPlain (depth : Nat) : Json → Bool
  | string t => t.isOk
  | number n => !n.overflows
  | array items =>
    match depth with
    | 0 => false
    | depth + 1 => arePlainItems depth items
  | object members =>
    match depth with
    | 0 => false
    | depth + 1 => arePlainMembers depth members
  | broken => false
  | _ => true

def arePlainItems (depth : Nat) : List Json → Bool
  | [] => true
  | v :: rest => v.isPlain depth && arePlainItems depth rest

def arePlainMembers (depth : Nat) : List (Option String × Json) → Bool
  | [] => true
  | (name, v) :: rest => name.isSome && v.isPlain depth && arePlainMembers depth rest

end

mutual

/-- Whether a value is plain but for its last string or number, behind which nothing is left to read but
closing brackets. That one must itself be read to its end before its fault shows. -/
def isBearable (depth : Nat) : Json → Bool
  | string (.error flaw) => flaw = .atEnd
  | number n => !(n.overflows && n.isCutShort)
  | array items =>
    match depth with
    | 0 => false
    | depth + 1 => areBearableItems depth items
  | object members =>
    match depth with
    | 0 => false
    | depth + 1 => areBearableMembers depth members
  | broken => false
  | _ => true

def areBearableItems (depth : Nat) : List Json → Bool
  | [] => true
  | [v] => v.isBearable depth
  | v :: rest => v.isPlain depth && areBearableItems depth rest

def areBearableMembers (depth : Nat) : List (Option String × Json) → Bool
  | [] => true
  | [(name, v)] => name.isSome && v.isBearable depth
  | (name, v) :: rest => name.isSome && v.isPlain depth && areBearableMembers depth rest

end

end Json

end AccessControl
