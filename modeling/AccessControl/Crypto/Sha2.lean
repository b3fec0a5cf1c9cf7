/-!
The SHA-2 hash functions of 32-bit and 64-bit words, SHA-256 and SHA-512, as one definition over the word
width. The constants are the leading fraction bits of roots of the first primes.
-/

namespace AccessControl.Sha2

/-! ### Constants -/

/-- The greatest `r` below `2 ^ bits` with `r ^ k ≤ n`. -/
def root (k n : Nat) : Nat → Nat → Nat
  | 0, r => r
  | bits + 1, r =>
    let next := r + Nat.pow 2 bits
    root k n bits (if next.pow k ≤ n then next else r)

def isPrime (n : Nat) : Bool := 2 ≤ n && (List.range n).all fun d => d < 2 || n % d != 0

def primes : List Nat := (List.range 410).filter isPrime

/-- The first 64 bits of the fraction of the `k`-th root of `n`. -/
def rootFraction (k n : Nat) : Nat := root k (n * UInt64.size.pow k) 75 0 % UInt64.size

def cubeRootFractions : Array Nat := (primes.map (rootFraction 3)).toArray

def squareRootFractions : List Nat := (primes.take 8).map (rootFraction 2)

/-! ### Words -/

/-- Words of a fixed width, on which addition drops the carry. -/
class HashWord (ω : Type) extends Add ω, XorOp ω, AndOp ω, Complement ω where
  bits : Nat
  ofNat : Nat → ω
  toNat : ω → Nat
  rotateRight : ω → ω → ω
  shiftRight : ω → ω → ω

open HashWord (rotateRight shiftRight)

instance : HashWord UInt32 where
  bits := 32
  ofNat := UInt32.ofNat
  toNat := UInt32.toNat
  rotateRight x n := (x >>> n) ||| (x <<< (32 - n))
  shiftRight x n := x >>> n

instance : HashWord UInt64 where
  bits := 64
  ofNat := UInt64.ofNat
  toNat := UInt64.toNat
  rotateRight x n := (x >>> n) ||| (x <<< (64 - n))
  shiftRight x n := x >>> n

/-! ### The two functions -/

/-- Two rotations and a third rotation or shift. -/
structure Mixer (ω : Type) where
  first : ω
  second : ω
  third : ω

structure Variant (ω : Type) where
  rounds : Nat
  upper0 : Mixer ω
  upper1 : Mixer ω
  lower0 : Mixer ω
  lower1 : Mixer ω

def sha256 : Variant UInt32 := ⟨64, ⟨2, 13, 22⟩, ⟨6, 11, 25⟩, ⟨7, 18, 3⟩, ⟨17, 19, 10⟩⟩

def sha512 : Variant UInt64 := ⟨80, ⟨28, 34, 39⟩, ⟨14, 18, 41⟩, ⟨1, 8, 7⟩, ⟨19, 61, 6⟩⟩

section Words

variable {ω : Type} [HashWord ω]

/-- The word of the first bits of a fraction of which 64 are given. -/
@[specialize] def wordOfFraction (fraction : Nat) : ω := HashWord.ofNat (fraction >>> (64 - HashWord.bits ω))

@[specialize] def Mixer.upper (m : Mixer ω) (x : ω) : ω :=
  rotateRight x m.first ^^^ rotateRight x m.second ^^^ rotateRight x m.third

@[specialize] def Mixer.lower (m : Mixer ω) (x : ω) : ω :=
  rotateRight x m.first ^^^ rotateRight x m.second ^^^ shiftRight x m.third

end Words

/-! ### Blocks -/

/-- Bytes as one number, the first byte the most significant. -/
def bigEndian (bytes : List UInt8) : Nat := bytes.foldl (fun n b => n * 256 + b.toNat) 0

/-- A number as `count` bytes, the most significant first. -/
def toBigEndian (count n : Nat) : List UInt8 :=
  (List.range count).map fun i => UInt8.ofNat (n >>> (8 * (count - 1 - i)))

/-- The message followed by a one bit, zeros to the end of a block, and its length in bits. -/
def padded (wordSize : Nat) (message : List UInt8) : List UInt8 :=
  let block := 16 * wordSize
  let tail := 2 * wordSize
  let zeros := (2 * block - (message.length + 1 + tail) % block) % block
  message ++ 0x80 :: (List.replicate zeros 0 ++ toBigEndian tail (8 * message.length))

def groups {α : Type} (size : Nat) : Nat → List α → List (List α)
  | 0, _ => []
  | count + 1, l => l.take size :: groups size count (l.drop size)

/-! ### Compression -/

structure Chain (ω : Type) where
  a : ω
  b : ω
  c : ω
  d : ω
  e : ω
  f : ω
  g : ω
  h : ω

namespace Chain

variable {ω : Type} [HashWord ω]

def words (s : Chain ω) : List ω := [s.a, s.b, s.c, s.d, s.e, s.f, s.g, s.h]

@[specialize] def add (s t : Chain ω) : Chain ω :=
  ⟨s.a + t.a, s.b + t.b, s.c + t.c, s.d + t.d, s.e + t.e, s.f + t.f, s.g + t.g, s.h + t.h⟩

@[specialize] def round (v : Variant ω) (s : Chain ω) (k w : ω) : Chain ω :=
  let t1 := s.h + v.upper1.upper s.e + ((s.e &&& s.f) ^^^ (~~~s.e &&& s.g)) + k + w
  let t2 := v.upper0.upper s.a + ((s.a &&& s.b) ^^^ (s.a &&& s.c) ^^^ (s.b &&& s.c))
  ⟨t1 + t2, s.a, s.b, s.c, s.d + t1, s.e, s.f, s.g⟩

end Chain

namespace Variant

variable {ω : Type} [HashWord ω]

/-- The words of every round, grown from the sixteen of a block. -/
@[specialize] def schedule (v : Variant ω) (block : List UInt8) : Array ω :=
  let start := ((groups (HashWord.bits ω / 8) 16 block).map fun b => HashWord.ofNat (bigEndian b)).toArray
  let zero : ω := HashWord.ofNat 0
  (List.range (v.rounds - 16)).foldl
    (fun w i => w.push
      (v.lower1.lower (w.getD (i + 14) zero) + w.getD (i + 9) zero + v.lower0.lower (w.getD (i + 1) zero)
        + w.getD i zero))
    start

@[specialize] def compress (v : Variant ω) (s : Chain ω) (block : List UInt8) : Chain ω :=
  let w := v.schedule block
  s.add ((List.range v.rounds).foldl
    (fun t i => t.round v (wordOfFraction (cubeRootFractions.getD i 0)) (w.getD i (HashWord.ofNat 0))) s)

@[specialize] def initial : Chain ω :=
  match squareRootFractions.map wordOfFraction with
  | [a, b, c, d, e, f, g, h] => ⟨a, b, c, d, e, f, g, h⟩
  | _ =>
    let zero := HashWord.ofNat 0
    ⟨zero, zero, zero, zero, zero, zero, zero, zero⟩

@[specialize] def digest (v : Variant ω) (message : List UInt8) : List UInt8 :=
  let wordSize := HashWord.bits ω / 8
  let bytes := padded wordSize message
  let blocks := groups (16 * wordSize) (bytes.length / (16 * wordSize)) bytes
  (blocks.foldl v.compress initial).words.flatMap fun w => toBigEndian wordSize (HashWord.toNat w)

end Variant

end AccessControl.Sha2
