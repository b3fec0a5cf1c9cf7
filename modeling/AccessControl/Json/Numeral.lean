/-!
Numbers as a text writes them. They become 64-bit integers or 64-bit floats; of the digits only those count
that fit 64 bits, and the power of ten is applied to what they round to.
-/

namespace AccessControl

structure Numeral where
  negative : Bool
  whole : Nat
  fraction : Option (List Char)
  exponent : Option Int
  deriving DecidableEq

namespace Numeral

def ofInt (i : Int) : Numeral := ⟨i < 0, i.natAbs, none, none⟩

/-- The 64-bit integer written without fraction and exponent. A zero with a sign is none. -/
def int64? (n : Numeral) : Option Int64 :=
  match n.fraction, n.exponent with
  | none, none =>
    if n.negative then
      if 0 < n.whole ∧ n.whole ≤ 0x8000000000000000 then some (Int64.ofInt (-n.whole)) else none
    else if n.whole < 0x8000000000000000 then some (Int64.ofInt n.whole) else none
  | _, _ => none

/-! ### The range of floats -/

/-- Appends digits to a number as long as it fits 64 bits. Also tells how many digits are left over. -/
def appendDigits (n : Nat) : List Char → Nat × Nat
  | [] => (n, 0)
  | c :: rest =>
    let next := Nat.ofDigitChars 10 [c] n
    if next < UInt64.size then appendDigits next rest else (n, rest.length + 1)

/-- The digits that count, as a number, and the power of ten that goes with it. -/
def significand (n : Numeral) : Nat × Int :=
  let fraction := n.fraction.getD []
  let (front, left) := appendDigits 0 (Nat.toDigits 10 n.whole)
  let (digits, dropped) := appendDigits front fraction
  (digits, n.exponent.getD 0 + left + dropped - fraction.length)

/-- The nearest number of 53 significant bits. A tie goes to the even one. -/
def roundFloat (n : Nat) : Nat :=
  let unit := Nat.pow 2 (n.log2 - 52)
  let below := n / unit
  let excess := n % unit
  if unit < 2 * excess ∨ (2 * excess = unit ∧ below % 2 = 1) then (below + 1) * unit else below * unit

/-- The numbers from here on round to infinity. -/
def infinity : Nat := Nat.pow 2 1024 - Nat.pow 2 970

/-- Whether a number becomes infinite as a float. -/
def overflows (n : Numeral) : Bool :=
  let (digits, power) := n.significand
  digits ≠ 0 && 0 ≤ power
    && (308 < power || infinity ≤ roundFloat digits * roundFloat (Nat.pow 10 power.natAbs))

/-- Whether an exponent exceeds 32 bits before its last digit, so that reading it is given up there. -/
def isCutShort (n : Numeral) : Bool := 0x80000000 ≤ (n.exponent.getD 0).natAbs / 10

end Numeral

end AccessControl
