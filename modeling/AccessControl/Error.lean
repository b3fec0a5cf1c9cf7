import AccessControl.Scope

/-!
Why a request is refused. Each cause is a constructor; its kind and its wording are functions of the
cause, so a caller can tell causes apart without reading text.
-/

namespace AccessControl

inductive ErrorKind
  | invalidArgument
  | notFound
  | alreadyExists
  | unauthenticated
  | accessDenied
  | internal
  deriving DecidableEq

namespace ErrorKind

/-- The reason code by which a kind is known outside. -/
def code : ErrorKind → String
  | invalidArgument => "InvalidArg"
  | notFound => "NotFound"
  | alreadyExists => "AlreadyExists"
  | unauthenticated => "Unauthenticated"
  | accessDenied => "AccessDenied"
  | internal => "InternalError"

def title : ErrorKind → String
  | invalidArgument => "invalid argument"
  | notFound => "not found"
  | alreadyExists => "already exists"
  | unauthenticated => "unauthenticated"
  | accessDenied => "access denied"
  | internal => "internal error"

end ErrorKind

inductive SystemRoleAct
  | created
  | modified
  | deleted
  deriving DecidableEq

def SystemRoleAct.word : SystemRoleAct → String
  | created => "created"
  | modified => "modified"
  | deleted => "deleted"

inductive CostFault
  | memoryTooSmall
  | timeTooSmall
  | noLanes
  | tooManyLanes
  deriving DecidableEq

def CostFault.message : CostFault → String
  | memoryTooSmall => "memory cost is too small"
  | timeTooSmall => "time cost is too small"
  | noLanes => "not enough threads"
  | tooManyLanes => "too many threads"

inductive TokenFault
  | notThreeParts
  | badEncoding
  | badContents
  | wrongAlgorithm
  | wrongSignature
  | missingClaim (name : String)
  | expired
  | notYetValid
  | wrongIssuer
  deriving DecidableEq

def TokenFault.message : TokenFault → String
  | notThreeParts => "InvalidToken"
  | badEncoding => "Base64 error"
  | badContents => "JSON error"
  | wrongAlgorithm => "InvalidAlgorithm"
  | wrongSignature => "InvalidSignature"
  | missingClaim name => "Missing required claim: " ++ name
  | expired => "ExpiredSignature"
  | notYetValid => "ImmatureSignature"
  | wrongIssuer => "InvalidIssuer"

/-- Every cause of refusal. `other` carries what a store, a hasher or an issuer reports of itself. -/
inductive AccessError
  | blankValue
  | unknownScope (text : String)
  | unknownPermission (text : String)
  | blankRoleName
  | blankUsername
  | emptyPassword
  | emptyNewPassword
  | unresolvedRole (name : String)
  | systemRole (act : SystemRoleAct)
  | roleInUse (name : String) (holder : String)
  | badCost (fault : CostFault)
  | lifespanNotPositive
  | settingMissing (name : String)
  | unknownStore (text : String)
  | badLifespan (text : String)
  | badHost (text : String)
  | accountNotFound (username : String)
  | roleNotFound (name : String)
  | accountExists (username : String)
  | roleExists (name : String)
  | wrongCurrentPassword
  | badCredentials
  | noValidToken
  | tokenInactive
  | tokenExpired
  | tokenRejected (fault : TokenFault)
  | insufficientPermissions
  | notOwnAccount
  | unreadableDocument
  | badSigningKey
  | uncheckablePassword
  | badStoreUrl
  | other (kind : ErrorKind) (detail : String)
  deriving DecidableEq

namespace AccessError

def kind : AccessError → ErrorKind
  | blankValue | unknownScope _ | unknownPermission _ | blankRoleName | blankUsername | emptyPassword
  | emptyNewPassword | unresolvedRole _ | systemRole _ | roleInUse _ _ | badCost _ | lifespanNotPositive
  | settingMissing _ | unknownStore _ | badLifespan _ | badHost _ => .invalidArgument
  | accountNotFound _ | roleNotFound _ => .notFound
  | accountExists _ | roleExists _ => .alreadyExists
  | wrongCurrentPassword | badCredentials | noValidToken | tokenInactive | tokenExpired | tokenRejected _ =>
    .unauthenticated
  | insufficientPermissions | notOwnAccount => .accessDenied
  | unreadableDocument | badSigningKey | uncheckablePassword | badStoreUrl => .internal
  | other kind _ => kind

def quoted (text : String) : String := "'" ++ text ++ "'"

def listed (names : List String) : String := String.intercalate ", " names

/-- The wording of a cause, without its kind. -/
def detail : AccessError → String
  | blankValue => "value must not be empty or whitespace"
  | unknownScope text =>
    "unknown scope " ++ quoted text ++ ", valid values: " ++ listed (Scope.all.map Scope.name)
  | unknownPermission text =>
    "unknown permission " ++ quoted text ++ ", valid values: " ++ listed (Permission.all.map Permission.name)
  | blankRoleName => "role name is empty"
  | blankUsername => "username is empty"
  | emptyPassword => "password is empty"
  | emptyNewPassword => "new password is empty"
  | unresolvedRole name => "role " ++ quoted name ++ " not found"
  | systemRole act => "system roles cannot be " ++ act.word
  | roleInUse name holder => "role " ++ quoted name ++ " is in use by account " ++ quoted holder
  | badCost fault => "invalid argon2 parameters: " ++ fault.message
  | lifespanNotPositive => "token lifespan must be greater than zero"
  | settingMissing name => name ++ " is required"
  | unknownStore text => "DOCUMENT_STORE must be either 'memory' or 'redis', got " ++ quoted text
  | badLifespan text => "ACCESS_TOKEN_LIFESPAN_SECONDS must be a positive integer, got " ++ quoted text
  | badHost text => "invalid API_HOST " ++ quoted text ++ ": invalid IP address syntax"
  | accountNotFound username => "account " ++ quoted username ++ " not found"
  | roleNotFound name => "role " ++ quoted name ++ " not found"
  | accountExists username => "account " ++ quoted username ++ " already exists"
  | roleExists name => "role " ++ quoted name ++ " already exists"
  | wrongCurrentPassword => "current password is incorrect"
  | badCredentials => "invalid username or password"
  | noValidToken => "invalid or missing credentials"
  | tokenInactive => "token is not active"
  | tokenExpired => "token has expired"
  | tokenRejected fault => "token verification failed: " ++ fault.message
  | insufficientPermissions => "insufficient permissions"
  | notOwnAccount => "operation is limited to the caller's own account"
  | unreadableDocument => "failed to parse access document"
  | badSigningKey => "invalid token signing public key"
  | uncheckablePassword => "password verification failed"
  | badStoreUrl => "invalid redis url"
  | other _ detail => detail

def message (e : AccessError) : String := e.kind.title ++ ": " ++ e.detail

end AccessError

end AccessControl
