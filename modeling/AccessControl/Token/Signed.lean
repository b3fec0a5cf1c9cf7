import AccessControl.Gate
import AccessControl.Text.Base64
import AccessControl.Text.Split
import AccessControl.Token.Claims
import AccessControl.Token.Header

/-!
Signed tokens: header, claims and signature in base64 with dots between. A signer writes them, a verifier
accepts those of its key and issuer within their time.
-/

namespace AccessControl

/-- A signature scheme over bytes. Keys are derived from seeds. -/
structure SignatureScheme where
  publicKey : List UInt8 → List UInt8
  sign : List UInt8 → List UInt8 → List UInt8
  verify : List UInt8 → List UInt8 → List UInt8 → Bool

def utf8 (s : List Char) : List UInt8 := (String.ofList s).toUTF8.data.toList

/-! ### Signing -/

/-- A signing key with the issuer that its tokens name. -/
structure Signer where
  scheme : SignatureScheme
  seed : List UInt8
  issuer : String

namespace Signer

def publicKey (s : Signer) : String := String.ofList (Base64.url.encode (s.scheme.publicKey s.seed))

def part (v : Json) : List Char := Base64.url.encode (utf8 v.print)

def signClaims (s : Signer) (claims : Claims) : String :=
  let message := part TokenHeader.issued ++ '.' :: part claims.toJson
  String.ofList (message ++ '.' :: Base64.url.encode (s.scheme.sign s.seed (utf8 message)))

def claimsFor (s : Signer) (now lifespan : Int64) (id subject : String) : Claims :=
  { subject, issuer := s.issuer, issuedAt := now, notBefore := now, expiresAt := timeAfter now lifespan, id }

end Signer

/-! ### Verifying -/

namespace Verifier

/-- The three parts of a token, cut at its last two dots. -/
def parts? (token : List Char) : Option (List Char × List Char × List Char) := do
  let (message, signature) ← Text.splitLast? '.' token
  let (header, claims) ← Text.splitLast? '.' message
  return (header, claims, signature)

def decoded (part : List Char) : Except TokenFault (List UInt8) :=
  match Base64.url.decode? part with
  | some bytes => .ok bytes
  | none => .error .badEncoding

def contents {α : Type} (f : Json → Json.Read α) (bytes : List UInt8) : Except TokenFault α :=
  match Json.readWholeText f (Glyph.ofBytes ⟨bytes.toArray⟩) with
  | .ok a => .ok a
  | .error _ => .error .badContents

/-- An audience may be given, once. It is taken in, but not used. -/
def audience : Json.Field := ⟨"aud", fun v => if v.isBearable 126 then .ok () else .error .malformed, true⟩

/-- Claims must be given by name, which an array of them does not do. -/
def readClaims (v : Json) : Json.Read Claims := do
  let claims ← Claims.readJson v
  Json.readRecord [audience] (fun _ => .ok ()) v
  return claims

def check (condition : Bool) (fault : TokenFault) : Except TokenFault Unit :=
  if condition then .ok () else .error fault

/-- Validates claims against an issuer and a time. A negative time is no time at all. -/
def validate (issuer : String) (now : Int64) (claims : Claims) : Except TokenFault Unit := do
  check (0 ≤ claims.expiresAt) (.missingClaim "exp")
  check (0 ≤ claims.notBefore) (.missingClaim "nbf")
  check (now ≤ claims.expiresAt) .expired
  check (claims.notBefore ≤ now) .notYetValid
  check (claims.issuer = issuer) .wrongIssuer

/-- The claims of a token that is signed with the key and valid for the issuer at the time. -/
def accept (scheme : SignatureScheme) (key : List UInt8) (issuer : String) (now : Int64) (token : List Char) :
    Except TokenFault Claims := do
  match parts? token with
  | none => .error .notThreeParts
  | some (header, claims, signature) =>
    let algorithm ← contents TokenHeader.readAlgorithm (← decoded header)
    check (algorithm = .edDSA) .wrongAlgorithm
    let signature ← decoded signature
    check (scheme.verify key (utf8 (header ++ '.' :: claims)) signature) .wrongSignature
    let claims ← contents readClaims (← decoded claims)
    validate issuer now claims
    return claims

def verify (scheme : SignatureScheme) (keyText issuer : String) (now : Int64) (token : String) :
    Except AccessError VerifiedClaims :=
  match Base64.url.decode? keyText.toList with
  | none => .error .badSigningKey
  | some key =>
    match accept scheme key issuer now token.toList with
    | .ok claims => .ok ⟨claims.subject, claims.expiresAt⟩
    | .error fault => .error (.tokenRejected fault)

end Verifier

end AccessControl
