import AccessControl.Crypto.Sha2

/-!
Ed25519 signatures. Numbers modulo the field prime are natural numbers below it; points are kept in
extended coordinates. Verification recomputes the first half of the signature and compares its bytes.
-/

namespace AccessControl.Ed25519

/-! ### The field -/

def prime : Nat := Nat.pow 2 255 - 19

def order : Nat := Nat.pow 2 252 + 27742317777372353535851937790883648493

def power (b e : Nat) : Nat :=
  if _h : e = 0 then 1
  else
    let half := power (b * b % prime) (e / 2)
    if e % 2 = 1 then b * half % prime else half
termination_by e
decreasing_by omega

def inverse (a : Nat) : Nat := power a (prime - 2)

def sub (a b : Nat) : Nat := (a + (prime - b)) % prime

def curveD : Nat := (prime - 121665) * inverse 121666 % prime

def sqrtMinusOne : Nat := power 2 ((prime - 1) / 4)

/-! ### Points -/

/-- A point with `x = X / Z`, `y = Y / Z` and `x * y = T / Z`. -/
structure Point where
  x : Nat
  y : Nat
  z : Nat
  t : Nat

namespace Point

def zero : Point := ⟨0, 1, 1, 0⟩

def neg (p : Point) : Point := ⟨sub 0 p.x, p.y, p.z, sub 0 p.t⟩

def add (p q : Point) : Point :=
  let a := sub p.y p.x * sub q.y q.x % prime
  let b := (p.y + p.x) * (q.y + q.x) % prime
  let c := 2 * p.t * curveD % prime * q.t % prime
  let d := 2 * p.z * q.z % prime
  let e := sub b a
  let f := sub d c
  let g := (d + c) % prime
  let h := (b + a) % prime
  ⟨e * f % prime, g * h % prime, f * g % prime, e * h % prime⟩

def double (p : Point) : Point :=
  let a := p.x * p.x % prime
  let b := p.y * p.y % prime
  let c := 2 * p.z * p.z % prime
  let h := (a + b) % prime
  let e := sub h ((p.x + p.y) * (p.x + p.y) % prime)
  let g := sub a b
  let f := (c + g) % prime
  ⟨e * f % prime, g * h % prime, f * g % prime, e * h % prime⟩

/-- The sum of `n` copies of a point. -/
def times (n : Nat) (p : Point) : Point :=
  if h : n = 0 then zero
  else
    let half := (times (n / 2) p).double
    if n % 2 = 1 then half.add p else half
termination_by n
decreasing_by omega

end Point

/-! ### Bytes -/

def littleEndian (bytes : List UInt8) : Nat := bytes.foldr (fun b n => b.toNat + 256 * n) 0

def toLittleEndian (count n : Nat) : List UInt8 := (List.range count).map fun i => UInt8.ofNat (n >>> (8 * i))

namespace Point

/-- The 32 bytes of a point: `y`, with the lowest bit of `x` on top. -/
def encode (p : Point) : List UInt8 :=
  let inv := inverse p.z
  let x := p.x * inv % prime
  let y := p.y * inv % prime
  toLittleEndian 32 (y + x % 2 * Nat.pow 2 255)

/-- The `x` with `v * x ^ 2 = u`, if `u / v` is a square. -/
def rootOfRatio? (u v : Nat) : Option Nat :=
  let v3 := v * v % prime * v % prime
  let v7 := v3 * v3 % prime * v % prime
  let x := u * v3 % prime * power (u * v7 % prime) ((prime - 5) / 8) % prime
  let check := v * x % prime * x % prime
  if check = u then some x
  else if check = sub 0 u then some (x * sqrtMinusOne % prime)
  else none

/-- The point of 32 bytes. The number they hold need not be below the prime. -/
def decode? (bytes : List UInt8) : Option Point := do
  if bytes.length ≠ 32 then none
  let n := littleEndian bytes
  let y := n % Nat.pow 2 255 % prime
  let yy := y * y % prime
  let x ← rootOfRatio? (sub yy 1) ((curveD * yy + 1) % prime)
  let x := if x % 2 = n / Nat.pow 2 255 then x else sub 0 x
  return ⟨x, y, 1, x * y % prime⟩

end Point

def base : Point := (Point.decode? (toLittleEndian 32 (4 * inverse 5 % prime))).getD .zero

/-! ### Signatures -/

def sha512 (message : List UInt8) : List UInt8 := Sha2.sha512.digest message

def scalarOf (message : List UInt8) : Nat := littleEndian (sha512 message) % order

/-- The secret scalar: the lower half of the hashed seed with its outer bits fixed. -/
def secretScalar (seed : List UInt8) : Nat :=
  littleEndian ((sha512 seed).take 32) % Nat.pow 2 254 / 8 * 8 + Nat.pow 2 254

def publicKey (seed : List UInt8) : List UInt8 := (base.times (secretScalar seed)).encode

def sign (seed message : List UInt8) : List UInt8 :=
  let a := secretScalar seed
  let key := publicKey seed
  let r := scalarOf ((sha512 seed).drop 32 ++ message)
  let commitment := (base.times r).encode
  let k := scalarOf (commitment ++ key ++ message)
  commitment ++ toLittleEndian 32 ((r + k * a) % order)

/-- Whether `signature` is one of `message` under `key`. -/
def verify (key message signature : List UInt8) : Bool :=
  let commitment := signature.take 32
  let s := littleEndian (signature.drop 32)
  if signature.length = 64 ∧ s < order then
    match Point.decode? key with
    | some a =>
      let k := scalarOf (commitment ++ key ++ message)
      ((base.times s).add (a.neg.times k)).encode = commitment
    | none => false
  else false

end AccessControl.Ed25519
