import AccessControl.Text.Hex
import AccessControl.Token.Signed

/-!
The registry of active tokens. It keeps digests of tokens, not the tokens; entries go when their token is
revoked, when it is found to have expired, and when a new token is issued after their expiry.
-/

namespace AccessControl

structure ActiveToken where
  subject : String
  expiresAt : Int64
  deriving DecidableEq

/-- The active tokens, by digest. -/
structure Registry where
  active : Table String ActiveToken
  deriving DecidableEq

namespace Registry

def empty : Registry := ⟨.empty⟩

def pruned (r : Registry) (now : Int64) : Registry := ⟨r.active.filter fun t => decide (now < t.expiresAt)⟩

def add (r : Registry) (now : Int64) (digest : String) (t : ActiveToken) : Registry :=
  ⟨(r.pruned now).active.insert digest t⟩

def remove (r : Registry) (digest : String) : Registry := ⟨r.active.erase digest⟩

/-- The subject of an active token. An expired one is removed. -/
def introspect (r : Registry) (now : Int64) (digest : String) : Except AccessError String × Registry :=
  match r.active.get? digest with
  | none => (.error .tokenInactive, r)
  | some t => if now < t.expiresAt then (.ok t.subject, r) else (.error .tokenExpired, r.remove digest)

end Registry

/-- All that issuing tokens rests on: a signer, a digest of tokens and a positive lifespan in seconds. -/
structure TokenAuthority where
  signer : Signer
  digest : String → String
  lifespan : Int64
  lifespan_pos : 0 < lifespan

namespace TokenAuthority

def make (signer : Signer) (digest : String → String) (lifespan : Int64) : Except AccessError TokenAuthority :=
  if h : 0 < lifespan then .ok ⟨signer, digest, lifespan, h⟩ else .error .lifespanNotPositive

/-- Issues a token. The clock is read twice: when the token is signed and when it is entered. -/
def issueAt (a : TokenAuthority) (signedAt enteredAt : Int64) (id : String) (subject : String) (r : Registry) :
    IssuedToken × Registry :=
  let claims := a.signer.claimsFor signedAt a.lifespan id subject
  let token := a.signer.signClaims claims
  (⟨token, claims.expiresAt⟩, r.add enteredAt (a.digest token) ⟨claims.subject, claims.expiresAt⟩)

def issue (a : TokenAuthority) (now : Int64) (id : String) (subject : String) (r : Registry) :
    IssuedToken × Registry :=
  a.issueAt now now id subject r

/-- A token that is not active is revoked just as well. -/
def revoke (a : TokenAuthority) (token : String) (r : Registry) : Except AccessError Unit × Registry :=
  (.ok (), r.remove (a.digest token))

def introspect (a : TokenAuthority) (now : Int64) (token : String) (r : Registry) :
    Except AccessError String × Registry :=
  r.introspect now (a.digest token)

/-- The token service at a time. `id` becomes the id of a token that is issued. -/
def service (a : TokenAuthority) (now : Int64) (id : String) : TokenService Registry where
  issue subject r :=
    let (issued, r) := a.issue now id subject r
    (.ok issued, r)
  revoke := a.revoke
  introspect := a.introspect now
  verify token := Verifier.verify a.signer.scheme a.signer.publicKey a.signer.issuer now token

end TokenAuthority

/-! ### Ids -/

/-- Sixteen random bytes as a random id: version 4, in five groups of digits. -/
def randomId (bytes : List UInt8) : String :=
  let fixed := (bytes.take 6) ++ ((bytes.drop 6).take 1).map (fun b => b &&& 0x0f ||| 0x40)
    ++ ((bytes.drop 7).take 1) ++ ((bytes.drop 8).take 1).map (fun b => b &&& 0x3f ||| 0x80)
    ++ (bytes.drop 9).take 7
  let digits := Hex.encode fixed
  String.ofList (digits.take 8 ++ '-' :: ((digits.drop 8).take 4 ++ '-' :: ((digits.drop 12).take 4
    ++ '-' :: ((digits.drop 16).take 4 ++ '-' :: digits.drop 20))))

end AccessControl
