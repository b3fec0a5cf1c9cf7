/-!
Bytes as text. A byte that belongs to no well-formed UTF-8 character stays visible as `none`, so a reader
can pass over it where the text does not matter.
-/

namespace AccessControl

/-- A character, or `none` for a byte outside every well-formed character. -/
abbrev Glyph := Option Char

namespace Glyph

def tail? (b : UInt8) : Option Nat := if 0x80 ≤ b && b ≤ 0xbf then some (b.toNat % 64) else none

/-- The character of code `n`, if it is one and needs no fewer bytes than a code of at least `least`. -/
def charFrom? (least n : Nat) : Option Char := if least ≤ n ∧ n.isValidChar then some (Char.ofNat n) else none

/-- The character that a lead byte and the bytes after it form, with the number of bytes after it. -/
def lead? (a : UInt8) (rest : List UInt8) : Option (Char × Nat) :=
  if a < 0x80 then some (Char.ofNat a.toNat, 0)
  else
    match rest with
    | b :: more =>
      if 0xc0 ≤ a ∧ a < 0xe0 then do
        let c ← charFrom? 0x80 ((a.toNat % 32) * 64 + (← tail? b))
        return (c, 1)
      else
        match more with
        | c :: more =>
          if 0xe0 ≤ a ∧ a < 0xf0 then do
            let ch ← charFrom? 0x800 (((a.toNat % 16) * 64 + (← tail? b)) * 64 + (← tail? c))
            return (ch, 2)
          else
            match more with
            | d :: _ =>
              if 0xf0 ≤ a ∧ a < 0xf8 then do
                let ch ← charFrom? 0x10000
                  ((((a.toNat % 8) * 64 + (← tail? b)) * 64 + (← tail? c)) * 64 + (← tail? d))
                return (ch, 3)
              else none
            | [] => none
        | [] => none
    | [] => none

/-- Characters where bytes form one, `none` for each byte where they do not. -/
def ofByteList : List UInt8 → List Glyph
  | [] => []
  | a :: rest =>
    match lead? a rest with
    | some (c, n) => some c :: ofByteList (rest.drop n)
    | none => none :: ofByteList rest
termination_by l => l.length
decreasing_by all_goals simp_wf; try omega

def ofString (s : String) : List Glyph := s.toList.map some

def ofBytes (b : ByteArray) : List Glyph :=
  match String.fromUTF8? b with
  | some s => ofString s
  | none => ofByteList b.data.toList

end Glyph

end AccessControl
