import AccessControl.Text.Decimal
import AccessControl.Text.Hex
import AccessControl.Text.Split

/-!
IP addresses as text. Four decimal parts make an IPv4 address; eight groups of hexadecimal digits make an IPv6
address, of which one run of zeros may be left out and the last two may be written as an IPv4 address.
-/

namespace AccessControl

/-- An address, as its four bytes or its eight groups. -/
inductive IpAddress
  | v4 (a b c d : Nat)
  | v6 (groups : List Nat)
  deriving DecidableEq

namespace IpAddress

/-! ### Reading -/

def octet? (cs : List Char) : Option Nat := (Decimal.canonical? cs).filter (· < 256)

def octets? (cs : List Char) : Option (Nat × Nat × Nat × Nat) :=
  match Text.split '.' cs with
  | [a, b, c, d] => do return (← octet? a, ← octet? b, ← octet? c, ← octet? d)
  | _ => none

def group? (cs : List Char) : Option Nat :=
  if 0 < cs.length ∧ cs.length ≤ 4 then do return (← cs.mapM Hex.value?).foldl (fun n d => n * 16 + d) 0
  else none

/-- The groups of a list of parts, the last of which may be an IPv4 address if `tail` says so. -/
def partGroups? (tail : Bool) : List (List Char) → Option (List Nat)
  | [] => some []
  | [part] =>
    match group? part with
    | some g => some [g]
    | none =>
      if tail then (octets? part).map fun (a, b, c, d) => [a * 256 + b, c * 256 + d] else none
  | part :: parts => do return (← group? part) :: (← partGroups? tail parts)

/-- The groups of a text between colons; the empty text has none. -/
def groups? (tail : Bool) (cs : List Char) : Option (List Nat) :=
  if cs = [] then some [] else partGroups? tail (Text.split ':' cs)

/-- The texts before and after the first two colons in a row. -/
def splitGap? : List Char → Option (List Char × List Char)
  | ':' :: ':' :: rest => some ([], rest)
  | c :: rest => (splitGap? rest).map fun (front, back) => (c :: front, back)
  | [] => none

def v6Groups? (cs : List Char) : Option (List Nat) :=
  match splitGap? cs with
  | none => (groups? true cs).filter (·.length = 8)
  | some (front, back) => do
    let front ← groups? false front
    let back ← groups? true back
    let known := front.length + back.length
    if known ≤ 7 then return front ++ List.replicate (8 - known) 0 ++ back else none

def parse? (text : List Char) : Option IpAddress :=
  match octets? text with
  | some (a, b, c, d) => some (.v4 a b c d)
  | none => (v6Groups? text).map .v6

/-! ### Writing -/

def renderOctets (a b c d : Nat) : List Char :=
  List.intercalate ['.'] ([a, b, c, d].map Decimal.render)

def renderGroups (gs : List Nat) : List Char := List.intercalate [':'] (gs.map (Nat.toDigits 16))

def zeros (gs : List Nat) : Nat := (gs.takeWhile (· = 0)).length

/-- The first place from which the longest run of zeros starts, with its length. -/
def longestGap (gs : List Nat) : Nat × Nat :=
  (List.range gs.length).foldl
    (fun best i => if best.2 < zeros (gs.drop i) then (i, zeros (gs.drop i)) else best) (0, 0)

def renderV6 (gs : List Nat) : List Char :=
  match gs with
  | [0, 0, 0, 0, 0, 0xffff, g, h] =>
    "::ffff:".toList ++ renderOctets (g / 256) (g % 256) (h / 256) (h % 256)
  | gs =>
    let (start, length) := longestGap gs
    if 1 < length then renderGroups (gs.take start) ++ ':' :: ':' :: renderGroups (gs.drop (start + length))
    else renderGroups gs

def renderSocket (address : IpAddress) (port : Nat) : String :=
  String.ofList <|
    match address with
    | v4 a b c d => renderOctets a b c d ++ ':' :: Decimal.render port
    | v6 gs => '[' :: (renderV6 gs ++ ']' :: ':' :: Decimal.render port)

end IpAddress

end AccessControl
