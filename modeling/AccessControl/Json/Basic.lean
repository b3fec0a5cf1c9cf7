import AccessControl.Json.Numeral

/-!
JSON values as a text shows them: members in their order, repeated names kept, numbers by their digits. A
text that stops making sense is kept up to that point and ends in `broken`.
-/

namespace AccessControl

/-- Where a string, though delimited well, is found to stand for no text: on the way to its closing quote or
once that has been read. -/
inductive Flaw
  | within
  | atEnd
  deriving DecidableEq

/-- A JSON value. A name that stands for no text is `none`. -/
inductive Json
  | null
  | bool (b : Bool)
  | number (n : Numeral)
  | string (text : Except Flaw String)
  | array (items : List Json)
  | object (members : List (Option String × Json))
  | broken

namespace Json

def text (s : String) : Json := string (.ok s)

def int (i : Int64) : Json := number (.ofInt i.toInt)

def ofNat (n : Nat) : Json := number (.ofInt n)

def record (members : List (String × Json)) : Json := object (members.map fun m => (some m.1, m.2))

def texts (l : List String) : Json := array (l.map text)

def optional {α : Type} (f : α → Json) : Option α → Json
  | some a => f a
  | none => null

mutual

/-- Whether a value was read to its end. -/
def complete : Json → Bool
  | array items => completeItems items
  | object members => completeMembers members
  | broken => false
  | _ => true

def completeItems : List Json → Bool
  | [] => true
  | v :: rest => v.complete && completeItems rest

def completeMembers : List (Option String × Json) → Bool
  | [] => true
  | (_, v) :: rest => v.complete && completeMembers rest

end

end Json

end AccessControl
