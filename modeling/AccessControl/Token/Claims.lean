import AccessControl.Json.Printer
import AccessControl.Json.Record

/-!
The claims of an access token: whom it was issued to, by whom, when, and until when it holds.
-/

namespace AccessControl

/-- The claims a token carries. Times are seconds since 1970. -/
structure Claims where
  subject : String
  issuer : String
  issuedAt : Int64
  notBefore : Int64
  expiresAt : Int64
  id : String
  deriving DecidableEq

namespace Claims

open Json

def toJson (c : Claims) : Json :=
  .record [("sub", .text c.subject), ("iss", .text c.issuer), ("iat", .int c.issuedAt), ("nbf", .int c.notBefore),
    ("exp", .int c.expiresAt), ("jti", .text c.id)]

def fields : List Field :=
  [field "sub" readText false, field "iss" readText false, field "iat" readInt false, field "nbf" readInt false,
   field "exp" readInt false, field "jti" readText false]

def readJson : Json → Read Claims :=
  readRecord fields fun given => do
    let subject ← required readText (given "sub")
    let issuer ← required readText (given "iss")
    let issuedAt ← required readInt (given "iat")
    let notBefore ← required readInt (given "nbf")
    let expiresAt ← required readInt (given "exp")
    let id ← required readText (given "jti")
    return { subject, issuer, issuedAt, notBefore, expiresAt, id }

end Claims

/-- The time `span` seconds after `now`, held within 64 bits. -/
def timeAfter (now span : Int64) : Int64 :=
  let t := now.toInt + span.toInt
  if t < Int64.minValue.toInt then Int64.minValue
  else if Int64.maxValue.toInt < t then Int64.maxValue
  else Int64.ofInt t

end AccessControl
