import AccessControl.Text.Split

/-!
Media types: a type, a slash, a subtype that may end in a suffix after a plus sign, and parameters after
semicolons. All that is asked of one here is whether it announces JSON.
-/

namespace AccessControl.MediaType

/-- The characters of names and of values without quotes. -/
def isTokenChar (c : Char) : Bool :=
  c.isAlphanum
    || ['!', '#', '$', '%', '&', '\'', '*', '+', '-', '.', '^', '_', '\x60', '|', '~'].contains c

/-! ### Parameters -/

inductive ParamPlace
  | beforeName
  | inName
  | beforeValue
  | inValue
  | openingQuotes
  | inQuotes
  | afterQuotes
  deriving DecidableEq

namespace ParamPlace

def onToken (next : ParamPlace) (c : Char) : Option ParamPlace := if isTokenChar c then some next else none

def onQuoted (c : Char) : Option ParamPlace := if ' ' ≤ c ∧ c ≤ '~' then some inQuotes else none

/-- The place after one more character; `none` if it cannot stand there. A quoted value is not empty, so the
first character after the opening quote belongs to it, even if it is another quote. -/
def step : ParamPlace → Char → Option ParamPlace
  | beforeName, c => if c = ' ' then some beforeName else onToken inName c
  | inName, c => if c = '=' then some beforeValue else onToken inName c
  | beforeValue, c => if c = '"' then some openingQuotes else onToken inValue c
  | inValue, c => if c = ';' then some beforeName else onToken inValue c
  | openingQuotes, c => onQuoted c
  | inQuotes, c => if c = '"' then some afterQuotes else onQuoted c
  | afterQuotes, c => if c = ';' then some beforeName else if c = ' ' then some afterQuotes else none

def mayEnd : ParamPlace → Bool
  | inName | openingQuotes | inQuotes => false
  | _ => true

end ParamPlace

/-- Whether a text is a list of parameters, as it may stand after a semicolon. -/
def areParams (cs : List Char) : Bool := (cs.foldlM ParamPlace.step .beforeName).any ParamPlace.mayEnd

/-! ### Types -/

def isApplication (name : List Char) : Bool := name.map Char.toLower = "application".toList

/-- Whether a subtype is JSON, by what stands before its last plus sign or by its suffix. -/
def isJsonSubtype (name : List Char) : Bool :=
  let isJson (cs : List Char) : Bool := cs.map Char.toLower = "json".toList
  match Text.splitLast? '+' name with
  | some (base@(_ :: _), suffix) => isJson base || isJson suffix
  | _ => isJson name

def isJson (text : List Char) : Bool :=
  let (essence, params) := (Text.splitFirst? ';' text).getD (text, [])
  match Text.splitFirst? '/' essence with
  | some (type, subtype) =>
    isApplication type && isJsonSubtype subtype && subtype.all isTokenChar && areParams params
  | none => false

end AccessControl.MediaType
