/-!
Whole numbers written in decimal digits, and the limits within which they are read.
-/

namespace AccessControl.Decimal

def render (n : Nat) : List Char := Nat.toDigits 10 n

/-- The number written by one or more digits. -/
def ofDigits? (cs : List Char) : Option Nat :=
  if cs ≠ [] ∧ cs.all Char.isDigit then some (Nat.ofDigitChars 10 cs 0) else none

/-- The number written without a superfluous zero in front. -/
def canonical? (cs : List Char) : Option Nat :=
  match cs with
  | '0' :: _ :: _ => none
  | cs => ofDigits? cs

/-- The number below `limit` written by digits with at most one plus sign in front. -/
def ofUnsigned? (limit : Nat) (cs : List Char) : Option Nat :=
  let digits :=
    match cs with
    | '+' :: digits => digits
    | digits => digits
  (ofDigits? digits).filter (· < limit)

/-- The 64-bit integer written by digits with at most one sign in front. -/
def ofSigned? (cs : List Char) : Option Int64 :=
  match cs with
  | '-' :: digits => ((ofDigits? digits).filter (· ≤ 0x8000000000000000)).map fun n => Int64.ofInt (-n)
  | cs => (ofUnsigned? 0x8000000000000000 cs).map fun n => Int64.ofInt n

end AccessControl.Decimal
