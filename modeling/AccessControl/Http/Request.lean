import AccessControl.Http.MediaType
import AccessControl.Json.Record
import AccessControl.Net.Percent

/-!
Requests as the service sees them, and the reading of what they carry. A request that cannot be read is
rejected before anything is asked of the directory.
-/

namespace AccessControl

/-- A request. Its target may name the service, by a scheme and an authority, before the path. -/
structure Request where
  method : String
  target : String
  authorization : Option String
  contentType : Option String
  body : ByteArray

inductive Rejection
  | pathNotText
  | notJsonType
  | bodyTooLarge
  | malformedBody
  | misfitBody
  deriving DecidableEq

def Rejection.status : Rejection → Nat
  | pathNotText | malformedBody => 400
  | bodyTooLarge => 413
  | notJsonType => 415
  | misfitBody => 422

namespace Request

def isSchemeChar (c : Char) : Bool := c.isAlphanum || ['+', '-', '.', '~'].contains c

/-- The part of a target that is for the service itself. -/
def localPart (target : List Char) : List Char :=
  match target.dropWhile isSchemeChar with
  | ':' :: '/' :: '/' :: rest => rest.dropWhile fun c => c ≠ '/' && c ≠ '?' && c ≠ '#'
  | _ => target

/-- The path, which ends where a query or a fragment starts. -/
def path (r : Request) : List Char := (localPart r.target.toList).takeWhile fun c => c ≠ '?' && c ≠ '#'

/-- The method that is served. Where only the head is asked for, it is that of the whole. -/
def verb (r : Request) : String := if r.method = "HEAD" then "GET" else r.method

/-- Headers count only if they are printable ASCII. -/
def headerText (value : Option String) : Option String :=
  value.filter fun v => v.toList.all fun c => c = '\t' || (' ' ≤ c && c ≤ '~')

def credentials (r : Request) : Option String := headerText r.authorization

/-- The most bytes that a body may have. -/
def bodyLimit : Nat := 0x200000

/-- Reads the body, which must be announced as JSON. -/
def payload {α : Type} (f : Json → Json.Read α) (r : Request) : Except Rejection α :=
  if (headerText r.contentType).any fun t => MediaType.isJson t.toList then
    if bodyLimit < r.body.size then .error .bodyTooLarge
    else
      match Json.readWholeText f (Glyph.ofBytes r.body) with
      | .ok a => .ok a
      | .error .malformed => .error .malformedBody
      | .error .mismatch => .error .misfitBody
  else .error .notJsonType

end Request

/-- The text that a segment of a path stands for. -/
def readSegment (segment : String) : Except Rejection String :=
  match Percent.decodeText? segment.toList with
  | some text => .ok text
  | none => .error .pathNotText

end AccessControl
