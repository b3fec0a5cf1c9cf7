import AccessControl.Text.Base64
import AccessControl.Text.Decimal
import AccessControl.Text.Split

/-!
Password hashes as text: dollar signs in front of an identifier, an optional version, optional parameters, a
salt and an output. What a text holds is kept as written; whether a hash function knows it is not decided
here.
-/

namespace AccessControl

structure PhcHash where
  algorithm : List Char
  version : Option Nat
  params : List (List Char × List Char)
  salt : Option (List Char)
  output : Option (List UInt8)
  deriving DecidableEq

namespace PhcHash

def isNameChar (c : Char) : Bool := c.isLower || c.isDigit || c == '-'

def isValueChar (c : Char) : Bool := c.isAlphanum || c == '/' || c == '+' || c == '.' || c == '-'

def isName (cs : List Char) : Bool := 0 < cs.length && cs.length ≤ 32 && cs.all isNameChar

def isValue (cs : List Char) : Bool := cs.length ≤ 64 && cs.all isValueChar

def decimal? (cs : List Char) : Option Nat := (Decimal.canonical? cs).filter (· < UInt32.size)

def param? (cs : List Char) : Option (List Char × List Char) :=
  match Text.split '=' cs with
  | [name, value] => if isName name && isValue value then some (name, value) else none
  | _ => none

def params? (cs : List Char) : Option (List (List Char × List Char)) :=
  if cs.length ≤ 127 then (Text.split ',' cs).mapM param? else none

def salt? (cs : List Char) : Option (List Char) :=
  if 4 ≤ cs.length && cs.length ≤ 64 && isValue cs then some cs else none

def output? (cs : List Char) : Option (List UInt8) :=
  (Base64.standard.decode? cs).filter fun bytes => 10 ≤ bytes.length && bytes.length ≤ 64

/-- The version field, if the next field is one, and the fields after it. -/
def takeVersion : List (List Char) → Option (Option Nat × List (List Char))
  | ('v' :: '=' :: digits) :: fields =>
    if digits.contains ',' then some (none, ('v' :: '=' :: digits) :: fields)
    else (decimal? digits).map fun n => (some n, fields)
  | fields => some (none, fields)

/-- The parameters, if the next field holds any, and the fields after it. -/
def takeParams : List (List Char) → Option (List (List Char × List Char) × List (List Char))
  | [] => some ([], [])
  | field :: fields =>
    if field.contains '=' then (params? field).map fun params => (params, fields) else some ([], field :: fields)

/-- Salt and output, of which the latter or both may be missing. -/
def takeRest : List (List Char) → Option (Option (List Char) × Option (List UInt8))
  | [] => some (none, none)
  | [salt] => (salt? salt).map fun salt => (some salt, none)
  | [salt, output] => do
    let salt ← salt? salt
    let output ← output? output
    return (some salt, some output)
  | _ => none

def parse? (text : List Char) : Option PhcHash := do
  match Text.split '$' text with
  | [] :: algorithm :: fields =>
    if isName algorithm then
      let (version, fields) ← takeVersion fields
      let (params, fields) ← takeParams fields
      let (salt, output) ← takeRest fields
      return { algorithm, version, params, salt, output }
    else none
  | _ => none

def render (algorithm : List Char) (version : Nat) (params : List (List Char × Nat)) (salt output : List UInt8) :
    List Char :=
  let param (p : List Char × Nat) : List Char := p.1 ++ '=' :: Decimal.render p.2
  '$' :: (algorithm ++ '$' :: 'v' :: '=' :: (Decimal.render version
    ++ '$' :: (List.intercalate [','] (params.map param)
    ++ '$' :: (Base64.standard.encode salt ++ '$' :: Base64.standard.encode output))))

end PhcHash

end AccessControl
