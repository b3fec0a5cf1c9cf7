import AccessControl.Json.Reader
import AccessControl.Table

/-!
Reading domain values out of JSON. A record is written as an object of its named fields or as an array of
its fields in order; both come down to the list of the values given by field name, so a record is built
from look-ups alone. The first fault in reading order is the one reported.
-/

namespace AccessControl

namespace Json

/-- Why a text is refused: it is no JSON, or its value has not the shape that was asked for. -/
inductive ReadFault
  | malformed
  | mismatch
  deriving DecidableEq

abbrev Read (α : Type) := Except ReadFault α

/-- The fault of a value met where another shape was asked for. -/
def misfit : Json → ReadFault
  | broken => .malformed
  | string (.error _) => .malformed
  | number n => if n.overflows then .malformed else .mismatch
  | _ => .mismatch

/-! ### Plain values -/

def readText : Json → Read String
  | string (.ok t) => .ok t
  | v => .error v.misfit

def readBool : Json → Read Bool
  | bool b => .ok b
  | v => .error v.misfit

def readInt : Json → Read Int64
  | number n =>
    match n.int64? with
    | some i => .ok i
    | none => .error (number n).misfit
  | v => .error v.misfit

def readOptional {α : Type} (f : Json → Read α) : Json → Read (Option α)
  | null => .ok none
  | v => (f v).map some

/-- A value for which `null` stands for a default. -/
def readOr {α : Type} (default : α) (f : Json → Read α) (v : Json) : Read α :=
  (readOptional f v).map (·.getD default)

def readList {α : Type} (f : Json → Read α) : Json → Read (List α)
  | array items => items.mapM f
  | v => .error v.misfit

def readMember {κ α : Type} (key : String → Read κ) (f : Json → Read α) :
    Option String × Json → Read (κ × α)
  | (none, _) => .error .malformed
  | (some name, v) => do
    let k ← key name
    let a ← f v
    return (k, a)

/-- A map given by an object; a repeated name keeps its last value. -/
def readTable {κ α : Type} [Ord κ] [Std.TransOrd κ] [Std.LawfulEqOrd κ] (key : String → Read κ)
    (f : Json → Read α) : Json → Read (Table κ α)
  | object members => (members.mapM (readMember key f)).map Table.ofList
  | v => .error v.misfit

/-- A name out of a fixed list, as a string or as the only name of an object that gives it `null`. -/
def readName {α : Type} (ofName? : String → Option α) : Json → Read α
  | string (.ok t) | object [(some t, null)] =>
    match ofName? t with
    | some a => .ok a
    | none => .error .mismatch
  | v => .error v.misfit

/-! ### Records -/

/-- A field of a record: its stored name, the values that fit it, and whether a record given by order may
end before it. -/
structure Field where
  name : String
  fits : Json → Read Unit
  omissible : Bool

def field {α : Type} (name : String) (f : Json → Read α) (omissible : Bool) : Field :=
  ⟨name, fun v => (f v).map fun _ => (), omissible⟩

def givenInOrder : List Field → List Json → Read (List (String × Json))
  | [], [] => .ok []
  | [], _ :: _ => .error .malformed
  | f :: fields, [] => if f.omissible then givenInOrder fields [] else .error .mismatch
  | f :: fields, v :: values => do
    f.fits v
    let given ← givenInOrder fields values
    return (f.name, v) :: given

/-- The values that members give to the fields by name, after those in `given`. Other names are passed
over; none may be given twice. -/
def givenByName (fields : List Field) :
    List (String × Json) → List (Option String × Json) → Read (List (String × Json))
  | given, [] => .ok given
  | _, (none, _) :: _ => .error .malformed
  | given, (some name, v) :: members =>
    match fields.find? (·.name == name) with
    | none => if v.complete then givenByName fields given members else .error .malformed
    | some f =>
      if (given.lookup name).isSome then .error .mismatch
      else do
        f.fits v
        givenByName fields ((name, v) :: given) members

/-- Reads a record, in either form, from the values it gives to its fields. -/
def readRecord {α : Type} (fields : List Field) (build : (String → Option Json) → Read α) : Json → Read α
  | array values => do
    let given ← givenInOrder fields values
    build fun name => given.lookup name
  | object members => do
    let given ← givenByName fields [] members
    build fun name => given.lookup name
  | v => .error v.misfit

def required {α : Type} (f : Json → Read α) : Option Json → Read α
  | some v => f v
  | none => .error .mismatch

def withDefault {α : Type} (default : α) (f : Json → Read α) : Option Json → Read α
  | some v => f v
  | none => .ok default

/-! ### Whole texts -/

/-- Reads a text that holds one value and nothing after it but space. -/
def readWholeText {α : Type} (f : Json → Read α) (s : List Glyph) : Read α :=
  match ofGlyphs s with
  | (v, rest) => do
    let a ← f v
    match rest with
    | some rest => if (skipSpace rest).isEmpty then return a else .error .malformed
    | none => .error .malformed

end Json

end AccessControl
