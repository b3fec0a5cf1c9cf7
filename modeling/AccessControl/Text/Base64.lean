/-!
Base64 without padding, in the standard alphabet and in the one for URLs. The bits that the last character
carries beyond the last byte must be zero, so each byte list has one written form.
-/

namespace AccessControl.Base64

/-- The two characters after the letters and digits. -/
structure Alphabet where
  char62 : Char
  char63 : Char

def standard : Alphabet := ⟨'+', '/'⟩

def url : Alphabet := ⟨'-', '_'⟩

namespace Alphabet

def encodeSextet (a : Alphabet) (n : Nat) : Char :=
  if n < 26 then Char.ofNat ('A'.toNat + n)
  else if n < 52 then Char.ofNat ('a'.toNat + (n - 26))
  else if n < 62 then Char.ofNat ('0'.toNat + (n - 52))
  else if n = 62 then a.char62
  else a.char63

def decodeSextet? (a : Alphabet) (c : Char) : Option Nat :=
  if 'A' ≤ c ∧ c ≤ 'Z' then some (c.toNat - 'A'.toNat)
  else if 'a' ≤ c ∧ c ≤ 'z' then some (c.toNat - 'a'.toNat + 26)
  else if '0' ≤ c ∧ c ≤ '9' then some (c.toNat - '0'.toNat + 52)
  else if c = a.char62 then some 62
  else if c = a.char63 then some 63
  else none

def encode (a : Alphabet) : List UInt8 → List Char
  | [] => []
  | [x] => [a.encodeSextet (x.toNat / 4), a.encodeSextet (x.toNat % 4 * 16)]
  | [x, y] =>
    [a.encodeSextet (x.toNat / 4), a.encodeSextet (x.toNat % 4 * 16 + y.toNat / 16),
     a.encodeSextet (y.toNat % 16 * 4)]
  | x :: y :: z :: rest =>
    a.encodeSextet (x.toNat / 4) :: a.encodeSextet (x.toNat % 4 * 16 + y.toNat / 16)
      :: a.encodeSextet (y.toNat % 16 * 4 + z.toNat / 64) :: a.encodeSextet (z.toNat % 64) :: encode a rest

def decode? (a : Alphabet) : List Char → Option (List UInt8)
  | [] => some []
  | [_] => none
  | [p, q] => do
    let p ← a.decodeSextet? p
    let q ← a.decodeSextet? q
    if q % 16 = 0 then return [UInt8.ofNat (p * 4 + q / 16)] else none
  | [p, q, r] => do
    let p ← a.decodeSextet? p
    let q ← a.decodeSextet? q
    let r ← a.decodeSextet? r
    if r % 4 = 0 then return [UInt8.ofNat (p * 4 + q / 16), UInt8.ofNat (q % 16 * 16 + r / 4)] else none
  | p :: q :: r :: s :: rest => do
    let p ← a.decodeSextet? p
    let q ← a.decodeSextet? q
    let r ← a.decodeSextet? r
    let s ← a.decodeSextet? s
    let bytes ← decode? a rest
    return UInt8.ofNat (p * 4 + q / 16) :: UInt8.ofNat (q % 16 * 16 + r / 4) :: UInt8.ofNat (r % 4 * 64 + s)
      :: bytes

end Alphabet

end AccessControl.Base64
