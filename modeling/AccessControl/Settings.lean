import AccessControl.Error
import AccessControl.Net.StoreUrl
import AccessControl.Text.Blank

/-!
The settings of the service, read from environment variables. The first variable at fault, in the order of
reading, is reported.
-/

namespace AccessControl

inductive StoreKind
  | memory
  | redis (url : String)
  deriving DecidableEq

structure AdminSettings where
  username : String
  password : String
  deriving DecidableEq

structure Settings where
  host : String
  port : Nat
  store : StoreKind
  documentKey : String
  issuer : String
  lifespan : Int64
  admin : Option AdminSettings
  deriving DecidableEq

namespace Settings

def filled (lookup : String → Option String) (name : String) : Except AccessError String :=
  match (lookup name).filter (!blankText ·) with
  | some value => .ok value
  | none => .error (.settingMissing name)

def readPort (value : Option String) : Nat :=
  (value.bind fun v => Decimal.ofUnsigned? UInt16.size v.toList).getD 9969

def readStore (lookup : String → Option String) : Except AccessError StoreKind :=
  match (lookup "DOCUMENT_STORE").getD "memory" with
  | "memory" => .ok .memory
  | "redis" => (filled lookup "REDIS_URL").map .redis
  | other => .error (.unknownStore other)

def readLifespan : Option String → Except AccessError Int64
  | none => .ok 21600
  | some value =>
    match (Decimal.ofSigned? value.toList).filter (0 < ·) with
    | some seconds => .ok seconds
    | none => .error (.badLifespan value)

def readAdmin (lookup : String → Option String) : Except AccessError (Option AdminSettings) :=
  if ((lookup "CREATE_ADMIN").getD "false").toList.map Char.toLower = "true".toList then do
    let username ← filled lookup "ADMIN_USERNAME"
    let password ← filled lookup "ADMIN_PASSWORD"
    return some ⟨username, password⟩
  else .ok none

def ofVariables (lookup : String → Option String) : Except AccessError Settings := do
  let host := (lookup "API_HOST").getD "127.0.0.1"
  let port := readPort (lookup "API_PORT")
  let store ← readStore lookup
  let documentKey := ((lookup "ACCESS_DOCUMENT_KEY").filter (!blankText ·)).getD "mgr/dashboard/accessdb_v2"
  let issuer := (lookup "TOKEN_ISSUER").getD ("http://localhost:" ++ String.ofList (Decimal.render port))
  let lifespan ← readLifespan (lookup "ACCESS_TOKEN_LIFESPAN_SECONDS")
  let admin ← readAdmin lookup
  return { host, port, store, documentKey, issuer, lifespan, admin }

def socketAddress (s : Settings) : Except AccessError String :=
  match IpAddress.parse? s.host.toList with
  | some address => .ok (address.renderSocket s.port)
  | none => .error (.badHost s.host)

/-- Refuses a store that cannot be opened. -/
def checkStore (s : Settings) : Except AccessError Unit :=
  match s.store with
  | .memory => .ok ()
  | .redis url => if StoreUrl.isStoreUrl url then .ok () else .error .badStoreUrl

end Settings

end AccessControl
