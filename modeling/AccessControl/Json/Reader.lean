import AccessControl.Json.Basic
import AccessControl.Text.Glyph
import AccessControl.Text.Hex

/-!
Reading JSON text. Reading never fails: it returns the value as far as the text shows it, with what
follows the value, or with `none` in its place when the text stopped making sense.
-/

namespace AccessControl

namespace Json

def isSpace : Glyph → Bool
  | some c => c == ' ' || c == '\n' || c == '\t' || c == '\r'
  | none => false

def skipSpace (s : List Glyph) : List Glyph := s.dropWhile isSpace

/-! ### Numbers -/

def readDigits : List Glyph → List Char × List Glyph
  | some c :: rest =>
    if c.isDigit then
      let (digits, rest) := readDigits rest
      (c :: digits, rest)
    else ([], some c :: rest)
  | s => ([], s)

/-- Digits without a superfluous zero in front. -/
def readWhole (s : List Glyph) : Option (Nat × List Glyph) :=
  match readDigits s with
  | ([], _) => none
  | ('0' :: _ :: _, _) => none
  | (digits, rest) => some (Nat.ofDigitChars 10 digits 0, rest)

def readFraction : List Glyph → Option (Option (List Char) × List Glyph)
  | some '.' :: s =>
    match readDigits s with
    | ([], _) => none
    | (digits, rest) => some (some digits, rest)
  | s => some (none, s)

def readPower (negative : Bool) (s : List Glyph) : Option (Option Int × List Glyph) :=
  match readDigits s with
  | ([], _) => none
  | (digits, rest) =>
    let n : Int := Nat.ofDigitChars 10 digits 0
    some (some (if negative then -n else n), rest)

def readExponentSign : List Glyph → Option (Option Int × List Glyph)
  | some '-' :: s => readPower true s
  | some '+' :: s => readPower false s
  | s => readPower false s

def readExponent : List Glyph → Option (Option Int × List Glyph)
  | some 'e' :: s => readExponentSign s
  | some 'E' :: s => readExponentSign s
  | s => some (none, s)

def readUnsigned (negative : Bool) (s : List Glyph) : Option (Numeral × List Glyph) := do
  let (whole, s) ← readWhole s
  let (fraction, s) ← readFraction s
  let (exponent, s) ← readExponent s
  return (⟨negative, whole, fraction, exponent⟩, s)

def readNumeral : List Glyph → Option (Numeral × List Glyph)
  | some '-' :: s => readUnsigned true s
  | s => readUnsigned false s

/-! ### Strings -/

/-- A part of a string: a character, a 16-bit unit written as an escape, or a byte outside every
character. -/
inductive Piece
  | char (c : Char)
  | unit (n : Nat)
  | stray

def hexUnit? (a b c d : Glyph) : Option Nat := do
  let a ← Hex.value? (← a)
  let b ← Hex.value? (← b)
  let c ← Hex.value? (← c)
  let d ← Hex.value? (← d)
  return ((a * 16 + b) * 16 + c) * 16 + d

def escaped? : Char → Option Char
  | '"' => some '"'
  | '\\' => some '\\'
  | '/' => some '/'
  | 'b' => some '\x08'
  | 'f' => some '\x0c'
  | 'n' => some '\n'
  | 'r' => some '\r'
  | 't' => some '\t'
  | _ => none

/-- The parts of a string up to its closing quote, and the rest. -/
def readPieces : List Glyph → Option (List Piece × List Glyph)
  | [] => none
  | some '"' :: rest => some ([], rest)
  | some '\\' :: some 'u' :: a :: b :: c :: d :: rest => do
    let n ← hexUnit? a b c d
    let (pieces, rest) ← readPieces rest
    return (.unit n :: pieces, rest)
  | some '\\' :: some e :: rest => do
    let c ← escaped? e
    let (pieces, rest) ← readPieces rest
    return (.char c :: pieces, rest)
  | some c :: rest =>
    if c == '\\' || c.toNat < 0x20 then none
    else do
      let (pieces, rest) ← readPieces rest
      return (.char c :: pieces, rest)
  | none :: rest => do
    let (pieces, rest) ← readPieces rest
    return (.stray :: pieces, rest)

def isHighSurrogate (n : Nat) : Bool := 0xd800 ≤ n && n < 0xdc00

def isLowSurrogate (n : Nat) : Bool := 0xdc00 ≤ n && n < 0xe000

/-- The text that the parts stand for. A high surrogate must be followed by a low one, which shows at the
next part or at the end; a byte outside every character shows at the end. -/
def textOfPieces : List Piece → Except Flaw (List Char)
  | [] => .ok []
  | .char c :: rest => (textOfPieces rest).map (c :: ·)
  | .stray :: rest => do
    let _ ← textOfPieces rest
    .error .atEnd
  | .unit n :: rest =>
    if isLowSurrogate n then .error .within
    else if isHighSurrogate n then
      match rest with
      | .unit m :: rest =>
        if isLowSurrogate m then
          (textOfPieces rest).map (Char.ofNat ((n - 0xd800) * 0x400 + (m - 0xdc00) + 0x10000) :: ·)
        else .error .within
      | [] => .error .atEnd
      | _ => .error .within
    else (textOfPieces rest).map (Char.ofNat n :: ·)

/-- A string after its opening quote. -/
def readString (s : List Glyph) : Option (Except Flaw String × List Glyph) :=
  (readPieces s).map fun (pieces, rest) => ((textOfPieces pieces).map String.ofList, rest)

/-! ### Values -/

def readWord (word : List Char) (v : Json) (s : List Glyph) : Json × Option (List Glyph) :=
  if (word.map some).isPrefixOf s then (v, some (s.drop word.length)) else (broken, none)

mutual

def readValue : Nat → List Glyph → Json × Option (List Glyph)
  | 0, _ => (broken, none)
  | fuel + 1, s =>
    match skipSpace s with
    | some 'n' :: rest => readWord ['u', 'l', 'l'] null rest
    | some 't' :: rest => readWord ['r', 'u', 'e'] (bool true) rest
    | some 'f' :: rest => readWord ['a', 'l', 's', 'e'] (bool false) rest
    | some '"' :: rest =>
      match readString rest with
      | some (t, rest) => (string t, some rest)
      | none => (broken, none)
    | some '[' :: rest =>
      match skipSpace rest with
      | some ']' :: rest => (array [], some rest)
      | rest =>
        let (items, rest) := readItems fuel rest
        (array items, rest)
    | some '{' :: rest =>
      match skipSpace rest with
      | some '}' :: rest => (object [], some rest)
      | rest =>
        let (members, rest) := readMembers fuel rest
        (object members, rest)
    | s =>
      match readNumeral s with
      | some (n, rest) => (number n, some rest)
      | none => (broken, none)

/-- The items of an array from one on, to the closing bracket. -/
def readItems : Nat → List Glyph → List Json × Option (List Glyph)
  | 0, _ => ([broken], none)
  | fuel + 1, s =>
    match readValue fuel s with
    | (v, none) => ([v], none)
    | (v, some rest) =>
      match skipSpace rest with
      | some ',' :: rest =>
        let (items, rest) := readItems fuel rest
        (v :: items, rest)
      | some ']' :: rest => ([v], some rest)
      | _ => ([v, broken], none)

/-- The members of an object from one on, to the closing brace. -/
def readMembers : Nat → List Glyph → List (Option String × Json) × Option (List Glyph)
  | 0, _ => ([(none, broken)], none)
  | fuel + 1, s =>
    match skipSpace s with
    | some '"' :: rest =>
      match readString rest with
      | none => ([(none, broken)], none)
      | some (name, rest) =>
        match skipSpace rest with
        | some ':' :: rest =>
          match readValue fuel rest with
          | (v, none) => ([(name.toOption, v)], none)
          | (v, some rest) =>
            match skipSpace rest with
            | some ',' :: rest =>
              let (members, rest) := readMembers fuel rest
              ((name.toOption, v) :: members, rest)
            | some '}' :: rest => ([(name.toOption, v)], some rest)
            | _ => ([(name.toOption, v), (none, broken)], none)
        | _ => ([(name.toOption, broken)], none)
    | _ => ([(none, broken)], none)

end

/-- The value at the front of a text and what follows it. Every step of the reader takes a glyph or
descends from a list to an item, which bounds their number. -/
def ofGlyphs (s : List Glyph) : Json × Option (List Glyph) := readValue (2 * s.length + 2) s

end Json

end AccessControl
