import AccessControl.Context
import AccessControl.Directory.Accounts

/-!
The gate turns an Authorization header into a context, and the session operations log in, log out and check
tokens. All failures of the gate look the same from outside.
-/

namespace AccessControl

structure IssuedToken where
  token : String
  expiresAt : Int64
  deriving DecidableEq

/-- What a signature vouches for. -/
structure VerifiedClaims where
  subject : String
  expiresAt : Int64
  deriving DecidableEq

/-- A token service over states `σ`: it issues and revokes tokens, tells the subject of an active token and
verifies signatures. -/
structure TokenService (σ : Type) where
  issue : String → σ → Except AccessError IssuedToken × σ
  revoke : String → σ → Except AccessError Unit × σ
  introspect : String → σ → Except AccessError String × σ
  verify : String → Except AccessError VerifiedClaims

/-! ### The header -/

/-- Lower case for the letters A to Z; other characters are left alone. -/
def asciiLower (cs : List Char) : List Char := cs.map Char.toLower

/-- The token of a Bearer header: the scheme in any case, a space, and the rest between blanks. -/
def bearerToken? (header : List Char) : Option (List Char) :=
  let header := Text.trim header
  match header.dropWhile (· ≠ ' ') with
  | [] => none
  | _ :: rest =>
    let token := Text.trim rest
    if asciiLower (header.takeWhile (· ≠ ' ')) = "bearer".toList ∧ token ≠ [] then some token else none

def extractBearer (authorization : Option String) : Except AccessError String :=
  present ((authorization.bind fun header => bearerToken? header.toList).map String.ofList) .noValidToken

/-! ### The gate -/

structure Gate where
  bypass : List String

namespace Gate

def standard : Gate := ⟨["login", "check"]⟩

def isBypassed (g : Gate) (operation : String) : Bool := g.bypass.contains operation

/-- The context of the account under `subject`, if a token verified for it and it is enabled. -/
def contextOf (d : Directory) (subject : String) (verified : Except AccessError VerifiedClaims) :
    Except AccessError Context :=
  match verified, d.users.get? subject with
  | .ok claims, some account =>
    if claims.subject = subject ∧ account.enabled then
      .ok (.authenticated ⟨account.username, account.name, account.email⟩
        (d.effectivePermissions account.username))
    else .error .noValidToken
  | _, _ => .error .noValidToken

def resolve {σ : Type} (service : TokenService σ) (d : Directory) (token : String) (s : σ) :
    Except AccessError Context × σ :=
  match service.introspect token s with
  | (.ok subject, s) => (contextOf d subject (service.verify token), s)
  | (.error _, s) => (.error .noValidToken, s)

def authenticate {σ : Type} (g : Gate) (service : TokenService σ) (d : Directory) (operation : String)
    (authorization : Option String) (s : σ) : Except AccessError Context × σ :=
  if g.isBypassed operation then (.ok .anonymous, s)
  else
    match extractBearer authorization with
    | .ok token => resolve service d token s
    | .error e => (.error e, s)

end Gate

/-! ### Sessions -/

structure Login where
  token : String
  expiresAt : Int64
  username : String
  pwdUpdateRequired : Bool
  pwdExpirationDate : Option Int64
  permissions : Grants
  deriving DecidableEq

structure TokenCheck where
  valid : Bool
  username : Option String
  permissions : Grants
  deriving DecidableEq

namespace Session

def login {σ : Type} (service : TokenService σ) (h : Hasher) (d : Directory) (username password : String)
    (s : σ) : Except AccessError Login × σ :=
  match d.verifyCredentials h username password with
  | .error e => (.error e, s)
  | .ok account =>
    match service.issue account.username s with
    | (.error e, s) => (.error e, s)
    | (.ok issued, s) =>
      (.ok { token := issued.token, expiresAt := issued.expiresAt, username := account.username,
             pwdUpdateRequired := account.pwdUpdateRequired, pwdExpirationDate := account.pwdExpirationDate,
             permissions := d.effectivePermissions account.username }, s)

def logout {σ : Type} (service : TokenService σ) (token : String) (s : σ) : Except AccessError Unit × σ :=
  service.revoke token s

/-- Whether a token stands for a caller now, and for whom. -/
def check {σ : Type} (service : TokenService σ) (d : Directory) (token : String) (s : σ) : TokenCheck × σ :=
  match Gate.resolve service d token s with
  | (.ok context, s) => (⟨true, context.username, context.permissions⟩, s)
  | (.error _, s) => (⟨false, none, Table.empty⟩, s)

end Session

end AccessControl
