import AccessControl.Text.Hex

/-!
Percent signs with two hexadecimal digits stand for bytes. A percent sign without them stands for itself.
-/

namespace AccessControl.Percent

def charBytes (c : Char) : List UInt8 := (String.singleton c).toUTF8.data.toList

def decode : List Char → List UInt8
  | '%' :: a :: b :: rest =>
    match Hex.value? a, Hex.value? b with
    | some high, some low => UInt8.ofNat (high * 16 + low) :: decode rest
    | _, _ => charBytes '%' ++ decode (a :: b :: rest)
  | c :: rest => charBytes c ++ decode rest
  | [] => []

/-- The text of the decoded bytes, if they are one. -/
def decodeText? (cs : List Char) : Option String := String.fromUTF8? ⟨(decode cs).toArray⟩

end AccessControl.Percent
