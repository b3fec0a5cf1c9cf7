/-!
Bytes as hexadecimal digits, two to a byte, in lower case.
-/

namespace AccessControl.Hex

def digit (n : Nat) : Char := if n < 10 then Char.ofNat ('0'.toNat + n) else Char.ofNat ('a'.toNat + n - 10)

def value? (c : Char) : Option Nat :=
  if c.isDigit then some (c.toNat - '0'.toNat)
  else if 'a' ≤ c ∧ c ≤ 'f' then some (c.toNat - 'a'.toNat + 10)
  else if 'A' ≤ c ∧ c ≤ 'F' then some (c.toNat - 'A'.toNat + 10)
  else none

def encode (bytes : List UInt8) : List Char := bytes.flatMap fun b => [digit (b.toNat / 16), digit (b.toNat % 16)]

def decode? : List Char → Option (List UInt8)
  | [] => some []
  | a :: b :: rest => do
    let high ← value? a
    let low ← value? b
    return UInt8.ofNat (high * 16 + low) :: (← decode? rest)
  | [_] => none

end AccessControl.Hex
