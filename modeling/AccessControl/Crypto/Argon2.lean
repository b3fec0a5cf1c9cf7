import AccessControl.Crypto.Blake2b

/-!
The Argon2 key derivation in its three modes and two versions. Memory is a matrix of blocks, one row a
lane; each pass fills the lanes in four slices, and a block is made from the one before it and from one that
the mode chooses.
-/

namespace AccessControl.Argon2

open Blake2b

/-- How earlier blocks are chosen: by the data, by position alone, or by position in the first half of the
first pass. -/
inductive Mode
  | dataDependent
  | independent
  | hybrid
  deriving DecidableEq

def Mode.code : Mode → Nat
  | dataDependent => 0
  | independent => 1
  | hybrid => 2

inductive Version
  | v16
  | v19
  deriving DecidableEq

def Version.number : Version → Nat
  | v16 => 16
  | v19 => 19

/-- What a derivation costs: memory in kibibytes, passes and lanes. -/
structure Cost where
  memory : Nat
  passes : Nat
  lanes : Nat
  deriving DecidableEq

/-- All that a derivation depends on beside the secret. -/
structure Profile where
  mode : Mode
  version : Version
  cost : Cost
  data : List UInt8
  size : Nat
  deriving DecidableEq

/-! ### Blocks -/

/-- A block of 1024 bytes, as eight rows of sixteen words. -/
structure Block where
  r0 : Square
  r1 : Square
  r2 : Square
  r3 : Square
  r4 : Square
  r5 : Square
  r6 : Square
  r7 : Square

namespace Block

@[inline] def map (f : Square → Square) (b : Block) : Block :=
  ⟨f b.r0, f b.r1, f b.r2, f b.r3, f b.r4, f b.r5, f b.r6, f b.r7⟩

def ofRows (f : Nat → Square) : Block := ⟨f 0, f 1, f 2, f 3, f 4, f 5, f 6, f 7⟩

def zero : Block := ofRows fun _ => .zero

def words (b : Block) : List UInt64 :=
  [b.r0, b.r1, b.r2, b.r3, b.r4, b.r5, b.r6, b.r7].flatMap Square.toList

def ofWords (words : Array UInt64) : Block := ofRows fun i => .ofFn fun j => words.getD (16 * i + j) 0

def ofBytes (bytes : List UInt8) : Block := ofWords (wordsOf bytes).toArray

def bytes (b : Block) : List UInt8 := b.words.flatMap wordBytes

def xorRow (s t : Square) : Square :=
  ⟨s.w0 ^^^ t.w0, s.w1 ^^^ t.w1, s.w2 ^^^ t.w2, s.w3 ^^^ t.w3, s.w4 ^^^ t.w4, s.w5 ^^^ t.w5, s.w6 ^^^ t.w6,
   s.w7 ^^^ t.w7, s.w8 ^^^ t.w8, s.w9 ^^^ t.w9, s.w10 ^^^ t.w10, s.w11 ^^^ t.w11, s.w12 ^^^ t.w12,
   s.w13 ^^^ t.w13, s.w14 ^^^ t.w14, s.w15 ^^^ t.w15⟩

def xor (b c : Block) : Block :=
  ⟨xorRow b.r0 c.r0, xorRow b.r1 c.r1, xorRow b.r2 c.r2, xorRow b.r3 c.r3, xorRow b.r4 c.r4, xorRow b.r5 c.r5,
   xorRow b.r6 c.r6, xorRow b.r7 c.r7⟩

/-- One word pair out of every row. -/
@[inline] def pairs (b : Block) (f g : Square → UInt64) : Square :=
  ⟨f b.r0, g b.r0, f b.r1, g b.r1, f b.r2, g b.r2, f b.r3, g b.r3, f b.r4, g b.r4, f b.r5, g b.r5, f b.r6, g b.r6,
   f b.r7, g b.r7⟩

/-- Exchanges rows and columns, a column being two words wide. -/
def transpose (b : Block) : Block :=
  ⟨b.pairs (·.w0) (·.w1), b.pairs (·.w2) (·.w3), b.pairs (·.w4) (·.w5), b.pairs (·.w6) (·.w7),
   b.pairs (·.w8) (·.w9), b.pairs (·.w10) (·.w11), b.pairs (·.w12) (·.w13), b.pairs (·.w14) (·.w15)⟩

/-- Addition with twice the product of the lower halves. -/
@[inline] def plusProduct (x y : UInt64) : UInt64 := x + y + 2 * (x &&& 0xffffffff) * (y &&& 0xffffffff)

def mixRow (s : Square) : Square := Square.mix plusProduct s ⟨0, 0, 0, 0, 0, 0, 0, 0, 0, 0, 0, 0, 0, 0, 0, 0⟩

/-- Mixes two blocks into one: all rows, then all columns. -/
def mix (x y : Block) : Block :=
  let r := x.xor y
  let z := ((r.map mixRow).transpose.map mixRow).transpose
  z.xor r

end Block

/-! ### The first blocks and the result -/

def le32 (n : Nat) : List UInt8 := (wordBytes (.ofNat n)).take 4

def sized (bytes : List UInt8) : List UInt8 := le32 bytes.length ++ bytes

/-- Half-overlapping digests of 64 bytes until `left` bytes are to be written in one. -/
def stretch (fuel : Nat) (v : List UInt8) (left : Nat) : List UInt8 :=
  match fuel with
  | 0 => []
  | fuel + 1 =>
    if left ≤ 64 then digest left v
    else
      let v := digest 64 v
      v.take 32 ++ stretch fuel v (left - 32)

def longDigest (size : Nat) (message : List UInt8) : List UInt8 :=
  stretch (size / 32 + 1) (le32 size ++ message) size

/-- The hash of all that goes into a derivation. There is no secret key. -/
def seed (s : Profile) (password salt : List UInt8) : List UInt8 :=
  digest 64
    (le32 s.cost.lanes ++ le32 s.size ++ le32 s.cost.memory ++ le32 s.cost.passes ++ le32 s.version.number
      ++ le32 s.mode.code ++ sized password ++ sized salt ++ sized [] ++ sized s.data)

/-! ### Filling -/

structure Shape where
  lanes : Nat
  segment : Nat

namespace Shape

def of (cost : Cost) : Shape := ⟨cost.lanes, cost.memory / (4 * cost.lanes)⟩

def lane (s : Shape) : Nat := 4 * s.segment

def blocks (s : Shape) : Nat := s.lanes * s.lane

end Shape

/-- A place in the course of filling: pass, slice, lane and index within the segment. -/
structure Place where
  pass : Nat
  slice : Nat
  lane : Nat
  index : Nat

/-- Where the block lies that a place refers to, given the two halves of the choosing word. -/
def reference (shape : Shape) (p : Place) (j1 j2 : Nat) : Nat :=
  let lane := if p.pass = 0 ∧ p.slice = 0 then p.lane else j2 % shape.lanes
  let finished := if p.pass = 0 then p.slice * shape.segment else shape.lane - shape.segment
  let area :=
    if lane = p.lane then finished + p.index - 1
    else if p.index = 0 then finished - 1 else finished
  let x := j1 * j1 / UInt32.size
  let back := area * x / UInt32.size
  let first := if p.pass = 0 ∨ p.slice = 3 then 0 else (p.slice + 1) * shape.segment
  lane * shape.lane + (first + area - 1 - back) % shape.lane

/-- Whether the choice at a place depends on position alone. -/
def byPosition (mode : Mode) (p : Place) : Bool :=
  match mode with
  | .dataDependent => false
  | .independent => true
  | .hybrid => p.pass = 0 ∧ p.slice < 2

/-- The choosing words of 128 places, the `count`-th such group of a segment. -/
def addresses (s : Profile) (shape : Shape) (p : Place) (count : Nat) : Array UInt64 :=
  let input := Block.zero
  let input := { input with
    r0 := ⟨.ofNat p.pass, .ofNat p.lane, .ofNat p.slice, .ofNat shape.blocks, .ofNat s.cost.passes,
      .ofNat s.mode.code, .ofNat count, 0, 0, 0, 0, 0, 0, 0, 0, 0⟩ }
  (Block.mix .zero (Block.mix .zero input)).words.toArray

/-- Fills the place `p` and returns the memory with the addresses in use. -/
def fillPlace (s : Profile) (shape : Shape) (p : Place) (state : Array Block × Array UInt64) :
    Array Block × Array UInt64 :=
  let (memory, known) := state
  let known :=
    if byPosition s.mode p && (p.index % 128 == 0 || known.isEmpty) then
      addresses s shape p (p.index / 128 + 1)
    else known
  if p.pass = 0 ∧ p.slice = 0 ∧ p.index < 2 then (memory, known)
  else
    let column := p.slice * shape.segment + p.index
    let here := p.lane * shape.lane + column
    let before := if column = 0 then here + shape.lane - 1 else here - 1
    let previous := memory.getD before .zero
    let choice := if byPosition s.mode p then known.getD (p.index % 128) 0 else previous.r0.w0
    let other := reference shape p (choice.toNat % UInt32.size) (choice.toNat / UInt32.size)
    let made := Block.mix previous (memory.getD other .zero)
    let made :=
      if p.pass = 0 ∨ s.version = .v16 then made else made.xor (memory.getD here .zero)
    (memory.setIfInBounds here made, known)

def fillSegment (s : Profile) (shape : Shape) (pass slice lane : Nat) (memory : Array Block) : Array Block :=
  (Nat.fold shape.segment (fun index _ state => fillPlace s shape ⟨pass, slice, lane, index⟩ state)
    (memory, #[])).1

def segments (passes lanes : Nat) : List (Nat × Nat × Nat) :=
  (List.range passes).flatMap fun pass =>
    (List.range 4).flatMap fun slice => (List.range lanes).map fun lane => (pass, slice, lane)

def initialMemory (shape : Shape) (h : List UInt8) : Array Block :=
  let first (lane i : Nat) : Block := .ofBytes (longDigest 1024 (h ++ le32 i ++ le32 lane))
  (List.range shape.lanes).foldl
    (fun memory lane =>
      (memory.setIfInBounds (lane * shape.lane) (first lane 0)).setIfInBounds (lane * shape.lane + 1) (first lane 1))
    (Array.replicate shape.blocks .zero)

def derive (s : Profile) (password salt : List UInt8) : List UInt8 :=
  let shape := Shape.of s.cost
  let memory := (segments s.cost.passes s.cost.lanes).foldl
    (fun memory (pass, slice, lane) => fillSegment s shape pass slice lane memory)
    (initialMemory shape (seed s password salt))
  let last := (List.range shape.lanes).foldl
    (fun b lane => b.xor (memory.getD ((lane + 1) * shape.lane - 1) .zero)) Block.zero
  longDigest s.size last.bytes

end AccessControl.Argon2
