import AccessControl.Json.Basic
import AccessControl.Text.Hex

/-!
Writing JSON text without spaces. Quotes, backslashes and control characters are escaped, all else is
written as it is.
-/

namespace AccessControl

namespace Json

def escape (c : Char) : List Char :=
  if c = '"' then ['\\', '"']
  else if c = '\\' then ['\\', '\\']
  else if c = '\x08' then ['\\', 'b']
  else if c = '\x0c' then ['\\', 'f']
  else if c = '\n' then ['\\', 'n']
  else if c = '\r' then ['\\', 'r']
  else if c = '\t' then ['\\', 't']
  else if c.toNat < 0x20 then ['\\', 'u', '0', '0', Hex.digit (c.toNat / 16), Hex.digit (c.toNat % 16)]
  else [c]

def printText (s : String) : List Char := '"' :: (s.toList.flatMap escape ++ ['"'])

def printSign (negative : Bool) : List Char := if negative then ['-'] else []

def printNumeral (n : Numeral) : List Char :=
  printSign n.negative ++ Nat.toDigits 10 n.whole
    ++ (match n.fraction with
        | some digits => '.' :: digits
        | none => [])
    ++ (match n.exponent with
        | some e => 'e' :: (printSign (e < 0) ++ Nat.toDigits 10 e.natAbs)
        | none => [])

mutual

def print : Json → List Char
  | null => ['n', 'u', 'l', 'l']
  | bool true => ['t', 'r', 'u', 'e']
  | bool false => ['f', 'a', 'l', 's', 'e']
  | number n => printNumeral n
  | string t => printText (t.toOption.getD "")
  | array items => '[' :: printItems items
  | object members => '{' :: printMembers members
  | broken => []

/-- Items with commas between, and the closing bracket. -/
def printItems : List Json → List Char
  | [] => [']']
  | [v] => print v ++ [']']
  | v :: rest => print v ++ ',' :: printItems rest

/-- Members with commas between, and the closing brace. -/
def printMembers : List (Option String × Json) → List Char
  | [] => ['}']
  | [(name, v)] => printText (name.getD "") ++ ':' :: (print v ++ ['}'])
  | (name, v) :: rest => printText (name.getD "") ++ ':' :: (print v ++ ',' :: printMembers rest)

end

def render (v : Json) : String := String.ofList (print v)

end Json

end AccessControl
