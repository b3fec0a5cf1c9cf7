import AccessControl.Net.Ip
import AccessControl.Net.Percent

/-!
The URLs that name a store: over the network by host, port and database number, or on the machine by the path
of a socket. Only whether a URL is acceptable matters here.
-/

namespace AccessControl.StoreUrl

/-! ### The parts of a URL -/

structure Url where
  scheme : List Char
  username : List Char
  password : List Char
  host : List Char
  path : List (List Char)
  query : List Char
  deriving DecidableEq

/-- The characters that are cut from the ends of a URL. -/
def isMargin (c : Char) : Bool := c.toNat ≤ 0x20

/-- The characters that are passed over anywhere in a URL. -/
def isIgnored (c : Char) : Bool := c == '\t' || c == '\n' || c == '\r'

def cleaned (cs : List Char) : List Char :=
  (((cs.dropWhile isMargin).reverse.dropWhile isMargin).reverse).filter (!isIgnored ·)

def isSchemeChar (c : Char) : Bool := c.isAlphanum || c == '+' || c == '-' || c == '.'

/-- The scheme in lower case and what follows its colon. -/
def takeScheme? (cs : List Char) : Option (List Char × List Char) :=
  match cs.takeWhile isSchemeChar, cs.dropWhile isSchemeChar with
  | c :: scheme, ':' :: rest => if c.isAlpha then some ((c :: scheme).map Char.toLower, rest) else none
  | _, _ => none

def endsAuthority (c : Char) : Bool := c == '/' || c == '?' || c == '#'

/-- The part of an authority before its last at sign, and the rest. -/
def takeUser (authority : List Char) : Option (List Char) × List Char :=
  match Text.splitLast? '@' authority with
  | some (user, rest) => (some user, rest)
  | none => (none, authority)

/-- The host, up to a colon outside brackets, and the rest. -/
def takeHost (inside : Bool) : List Char → List Char × List Char
  | [] => ([], [])
  | c :: rest =>
    if c = ':' ∧ !inside then ([], c :: rest)
    else
      let (host, rest) := takeHost (if c = '[' then true else if c = ']' then false else inside) rest
      (c :: host, rest)

def hostBreakers : List Char :=
  ['\x00', '\t', '\n', '\r', ' ', '#', '/', ':', '<', '>', '?', '@', '[', '\\', ']', '^', '|']

def isHost (host : List Char) : Bool :=
  match host with
  | '[' :: rest => rest.getLast? = some ']' && (IpAddress.v6Groups? rest.dropLast).isSome
  | host => host.all (!hostBreakers.contains ·)

/-- What may follow a host: a port, which may be left empty and may end in a backslash that starts the path. -/
def takePort? : List Char → Option (List Char)
  | [] => some []
  | ':' :: rest =>
    let digits := rest.takeWhile Char.isDigit
    let path := rest.dropWhile Char.isDigit
    if Nat.ofDigitChars 10 digits 0 < UInt16.size ∧ (path = [] ∨ path.head? = some '\\') then some path else none
  | _ => none

def isDot (segment : List Char) : Bool := [".", "%2e"].contains (String.ofList (segment.map Char.toLower))

def isDoubleDot (segment : List Char) : Bool :=
  ["..", ".%2e", "%2e.", "%2e%2e"].contains (String.ofList (segment.map Char.toLower))

/-- A drive letter, which no double dot leads out of. -/
def isDrive (segment : List Char) : Bool :=
  match segment with
  | c :: mark :: rest => c.isAlpha && (mark = ':' || mark = '|') && (rest = [] || rest.head? = some '\\')
  | _ => false

/-- The segments above the last one. They are given last first. -/
def parent : List (List Char) → List (List Char)
  | [] => []
  | segment :: above => if isDrive segment then segment :: above else above

/-- The segments of a path after its dot segments have been followed. `done` holds segments, last first. -/
def followDots (done : List (List Char)) : List (List Char) → List (List Char)
  | [] => done.reverse
  | [segment] =>
    if isDoubleDot segment then (([] : List Char) :: parent done).reverse
    else if isDot segment then (([] : List Char) :: done).reverse
    else (segment :: done).reverse
  | segment :: rest =>
    if isDoubleDot segment then followDots (parent done) rest
    else if isDot segment then followDots done rest
    else followDots (segment :: done) rest

/-- The segments of a path; an empty path has none. -/
def segments (path : List Char) : List (List Char) :=
  match path with
  | [] => []
  | '/' :: rest => followDots [] (Text.split '/' rest)
  | path => followDots [] (Text.split '/' path)

def splitQuery (cs : List Char) : List Char × List Char :=
  let cs := cs.takeWhile (· ≠ '#')
  match Text.splitFirst? '?' cs with
  | some (path, query) => (path, query)
  | none => (cs, [])

/-- Whether an authority may do without a host: it names no port and no user, and has no bare at sign in front
of a path or a query. -/
def mayLackHost (user : Option (List Char)) (port rest : List Char) : Bool :=
  port = [] && ((user = some [] && rest = []) || user = some [':'] || user = none)

def withAuthority? (scheme text : List Char) : Option Url := do
  let rest := text.dropWhile (!endsAuthority ·)
  let (path, query) := splitQuery rest
  let (user, place) := takeUser (text.takeWhile (!endsAuthority ·))
  let (host, port) := takeHost false place
  let extra ← takePort? port
  if isHost host && (host ≠ [] || mayLackHost user port rest) then
    let user := user.getD []
    let (username, password) := (Text.splitFirst? ':' user).getD (user, [])
    return { scheme, username, password, host, path := segments (extra ++ path), query }
  else none

def parse? (text : List Char) : Option Url := do
  let (scheme, rest) ← takeScheme? (cleaned text)
  match rest with
  | '/' :: '/' :: rest => withAuthority? scheme rest
  | '/' :: _ =>
    let (path, query) := splitQuery rest
    return { scheme, username := [], password := [], host := [], path := segments path, query }
  | _ => none

/-! ### Which of them name a store -/

def pair (part : List Char) : String × String :=
  let (name, value) := (Text.splitFirst? '=' part).getD (part, [])
  let spaced (cs : List Char) : String :=
    let cs := cs.map fun c => if c = '+' then ' ' else c
    (Percent.decodeText? cs).getD (String.ofList cs)
  (spaced name, spaced value)

/-- The last value of a name in a query. -/
def queryValue? (query : List Char) (name : String) : Option String :=
  ((Text.split '&' query).map pair).reverse.lookup name

def protocols : List String := ["2", "resp2", "3", "resp3"]

def isProtocol (query : List Char) : Bool :=
  match queryValue? query "protocol" with
  | some p => protocols.contains p
  | none => true

/-- A database number, which may be left out. -/
def isDatabase (cs : List Char) : Bool := cs = [] || (Decimal.ofSigned? cs).isSome

def pathBetweenSlashes (path : List (List Char)) : List Char :=
  List.intercalate ['/'] ((path.dropWhile (· = [])).reverse.dropWhile (· = [])).reverse

/-- The hosts that stand for any address, none in particular. -/
def isWildcard (host : List Char) : Bool :=
  match host with
  | '[' :: rest => IpAddress.v6Groups? rest.dropLast = some (List.replicate 8 0)
  | host => IpAddress.octets? host = some (0, 0, 0, 0)

def isNetworkStore (u : Url) : Bool :=
  u.host ≠ [] && !isWildcard u.host && isDatabase (pathBetweenSlashes u.path) && (Percent.decodeText? u.username).isSome
    && (Percent.decodeText? u.password).isSome && isProtocol u.query

def isSocketStore (u : Url) : Bool :=
  (u.host = [] || u.host = "localhost".toList) && u.path ≠ []
    && ((queryValue? u.query "db").all fun db => (Decimal.ofSigned? db.toList).isSome) && isProtocol u.query

/-- Whether a text is a URL that names a store. Encrypted connections are not supported. -/
def isStoreUrl (text : String) : Bool :=
  match parse? text.toList with
  | some u =>
    if ["redis", "valkey"].contains (String.ofList u.scheme) then isNetworkStore u
    else if ["unix", "redis+unix", "valkey+unix"].contains (String.ofList u.scheme) then isSocketStore u
    else false
  | none => false

end AccessControl.StoreUrl
