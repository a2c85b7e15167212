import Falx.Totp

/-! Roles and their permissions, users, sessions and access tokens. Times are nanoseconds
since 1970. A signed token is the claims it carries: nobody else can make one. -/

namespace Falx.Auth

inductive Role where
  | superAdmin
  | admin
  | seniorAnalyst
  | analyst
  | viewer
  | other (name : String)
  deriving DecidableEq

namespace Role

def name : Role → String
  | superAdmin => "super_admin"
  | admin => "admin"
  | seniorAnalyst => "senior_analyst"
  | analyst => "analyst"
  | viewer => "viewer"
  | other name => name

def level : Role → Nat
  | superAdmin => 5
  | admin => 4
  | seniorAnalyst => 3
  | analyst => 2
  | viewer => 1
  | other _ => 0

def requires2FA (r : Role) : Bool := r == superAdmin || r == admin

end Role

inductive Permission where
  | userCreate | userRead | userUpdate | userDelete | userList | roleAssign
  | ipBlock | ipUnblock | ipBlockTemp
  | policyCreate | policyUpdate | policyDelete | policyRead
  | honeypotManage | honeypotView
  | failsafeControl | failsafeView
  | dashboardView | telemetryRead | auditRead | alertRead | alertAcknowledge
  | systemConfig | systemHealth | systemRestart | metricsRead
  deriving DecidableEq

def Permission.name : Permission → String
  | userCreate => "user:create"
  | userRead => "user:read"
  | userUpdate => "user:update"
  | userDelete => "user:delete"
  | userList => "user:list"
  | roleAssign => "role:assign"
  | ipBlock => "ip:block"
  | ipUnblock => "ip:unblock"
  | ipBlockTemp => "ip:block_temp"
  | policyCreate => "policy:create"
  | policyUpdate => "policy:update"
  | policyDelete => "policy:delete"
  | policyRead => "policy:read"
  | honeypotManage => "honeypot:manage"
  | honeypotView => "honeypot:view"
  | failsafeControl => "failsafe:control"
  | failsafeView => "failsafe:view"
  | dashboardView => "dashboard:view"
  | telemetryRead => "telemetry:read"
  | auditRead => "audit:read"
  | alertRead => "alert:read"
  | alertAcknowledge => "alert:acknowledge"
  | systemConfig => "system:config"
  | systemHealth => "system:health"
  | systemRestart => "system:restart"
  | metricsRead => "metrics:read"

open Permission in
def rolePermissions : Role → List Permission
  | .superAdmin =>
    [userCreate, userRead, userUpdate, userDelete, userList, roleAssign, ipBlock, ipUnblock,
      ipBlockTemp, policyCreate, policyUpdate, policyDelete, policyRead, honeypotManage,
      honeypotView, failsafeControl, failsafeView, dashboardView, telemetryRead, auditRead,
      alertRead, alertAcknowledge, systemConfig, systemHealth, systemRestart, metricsRead]
  | .admin =>
    [userCreate, userRead, userUpdate, userList, roleAssign, ipBlock, ipUnblock, ipBlockTemp,
      policyCreate, policyUpdate, policyDelete, policyRead, honeypotManage, honeypotView,
      failsafeControl, failsafeView, dashboardView, telemetryRead, auditRead, alertRead,
      alertAcknowledge, systemConfig, systemHealth, metricsRead]
  | .seniorAnalyst =>
    [ipBlock, ipUnblock, ipBlockTemp, policyCreate, policyUpdate, policyRead, honeypotView,
      failsafeControl, failsafeView, dashboardView, telemetryRead, alertRead, alertAcknowledge,
      systemHealth, metricsRead, auditRead]
  | .analyst =>
    [ipBlockTemp, policyRead, honeypotView, failsafeView, dashboardView, telemetryRead,
      alertRead, alertAcknowledge, systemHealth]
  | .viewer => [dashboardView, telemetryRead, alertRead, systemHealth, policyRead]
  | .other _ => []

structure User where
  id : String
  username : String
  email : String
  passwordHash : String
  role : Role
  active : Bool
  locked : Bool
  failedAttempts : Nat
  lastLogin : Int
  createdAt : Int
  updatedAt : Int
  createdBy : String
  totpSecret : String
  totpEnabled : Bool
  displayName : String
  deriving DecidableEq

def Role.hasPermission (r : Role) (p : Permission) : Bool := (rolePermissions r).contains p

def Role.canManageRole (r target : Role) : Bool := target.level < r.level

structure Session where
  id : String
  userID : String
  refreshToken : String
  userAgent : String
  ipAddress : String
  createdAt : Int
  lastActivityAt : Int
  expiresAt : Int
  revoked : Bool
  deriving DecidableEq

namespace Session

def isExpired (now : Int) (sess : Session) : Bool := sess.expiresAt < now

def isInactive (now timeout : Int) (sess : Session) : Bool := timeout < now - sess.lastActivityAt

end Session

inductive Scope where
  | preAuth
  | session
  deriving DecidableEq

def Scope.name : Scope → String
  | preAuth => "pre_auth"
  | session => "session"

structure AccessToken where
  subject : String
  issuer : String
  issuedAt : Int
  expiresAt : Int
  notBefore : Int
  username : String
  role : Role
  sessionID : String
  tokenType : String
  tfaVerified : Bool
  scope : Scope
  permissions : List Permission
  deriving DecidableEq

structure TokenClaims where
  userID : String
  username : String
  role : Role
  sessionID : String
  issuedAt : Int
  expiresAt : Int
  tokenType : String
  tfaVerified : Bool
  scope : Scope
  permissions : List Permission
  deriving DecidableEq

structure TokenPair where
  accessToken : AccessToken
  refreshToken : String
  tokenType : String
  expiresIn : Int
  expiresAt : Int
  deriving DecidableEq

structure LoginRequest where
  username : String
  password : String
  totpCode : String
  deriving DecidableEq

structure RegisterRequest where
  username : String
  email : String
  password : String
  displayName : String
  role : Role
  deriving DecidableEq

structure ChangePasswordRequest where
  oldPassword : String
  newPassword : String
  deriving DecidableEq

structure UserView where
  id : String
  username : String
  email : String
  displayName : String
  role : Role
  totpEnabled : Bool
  lastLogin : Int
  createdAt : Int
  deriving DecidableEq

def userToView (u : User) : UserView where
  id := u.id
  username := u.username
  email := u.email
  displayName := u.displayName
  role := u.role
  totpEnabled := u.totpEnabled
  lastLogin := u.lastLogin
  createdAt := u.createdAt

structure LoginResponse where
  tokens : TokenPair
  user : UserView
  deriving DecidableEq

inductive AuthError where
  | userNotFound
  | userExists
  | sessionNotFound
  | sessionExpired
  | sessionRevoked
  | invalidCredentials
  | accountLocked
  | inactivityTimeout
  | totpRequired
  | rateLimited (seconds : Int)
  | insufficientPrivileges (role : Role)
  | new (message : String)
  | wrapped (context : String) (cause : AuthError)
  deriving DecidableEq

def formatSeconds (n : Int) : String := if n = 60 then "1m0s" else toString n ++ "s"

def AuthError.message : AuthError → String
  | userNotFound => "user not found"
  | userExists => "username or email already exists"
  | sessionNotFound => "session not found"
  | sessionExpired => "session expired"
  | sessionRevoked => "session revoked"
  | invalidCredentials => "invalid credentials"
  | accountLocked => "account locked — contact administrator"
  | inactivityTimeout => "session expired due to inactivity"
  | totpRequired => "2FA code required"
  | rateLimited n => "too many login attempts — try again in " ++ formatSeconds n
  | insufficientPrivileges role => "insufficient privileges to assign role " ++ role.name
  | new message => message
  | wrapped context cause => context ++ ": " ++ cause.message

structure JWTConfig where
  accessTokenTTL : Int
  refreshTokenTTL : Int
  inactivityTimeout : Int
  issuer : String
  deriving DecidableEq

def second : Int := 1000000000

def minute : Int := 60 * second

def defaultJWTConfig : JWTConfig where
  accessTokenTTL := 15 * minute
  refreshTokenTTL := 7 * 24 * 60 * minute
  inactivityTimeout := 25 * minute
  issuer := "falx-v2"

/-- Argon2id and the parsing of addresses. A hash is verified by the password it was made
from and by no other. -/
structure AuthLibrary extends TotpLibrary where
  hashPassword : String → String → String
  verifyPassword : String → String → Bool
  verify_hash : ∀ salt password other,
    verifyPassword other (hashPassword salt password) = true ↔ other = password
  /-- The host of `net.SplitHostPort`, empty if there is none. -/
  splitHost : String → String

def generateAccessToken (cfg : JWTConfig) (now : Int) (user : User) (sessionID : String)
    (tfaVerified : Bool) (scope : Scope) : AccessToken where
  subject := user.id
  issuer := cfg.issuer
  issuedAt := now / second
  expiresAt := (now + cfg.accessTokenTTL) / second
  notBefore := now / second
  username := user.username
  role := user.role
  sessionID
  tokenType := "access"
  tfaVerified
  scope
  permissions := rolePermissions user.role

def verifyAccessToken (cfg : JWTConfig) (now : Int) (token : AccessToken) :
    Except AuthError TokenClaims :=
  if token.expiresAt * second ≤ now then
    .error (.wrapped "invalid token" (.new "token is expired"))
  else if now < token.notBefore * second then
    .error (.wrapped "invalid token" (.new "token is not valid yet"))
  else if now < token.issuedAt * second then
    .error (.wrapped "invalid token" (.new "token used before issued"))
  else if token.issuer ≠ cfg.issuer then
    .error (.wrapped "invalid token" (.new "token has invalid issuer"))
  else if token.tokenType ≠ "access" then .error (.new "wrong token type: expected access")
  else
    .ok
      { userID := token.subject
        username := token.username
        role := token.role
        sessionID := token.sessionID
        issuedAt := token.issuedAt
        expiresAt := token.expiresAt
        tokenType := token.tokenType
        tfaVerified := token.tfaVerified
        scope := token.scope
        permissions := token.permissions }

/-- The password policy; lengths are in bytes, the classes in characters. -/
def validatePasswordStrength (password : String) : Option AuthError :=
  let isUpper (c : Char) : Bool := 'A' ≤ c && c ≤ 'Z'
  let isLower (c : Char) : Bool := 'a' ≤ c && c ≤ 'z'
  let isDigit (c : Char) : Bool := '0' ≤ c && c ≤ '9'
  if password.utf8ByteSize < 12 then some (.new "must be at least 12 characters")
  else if 128 < password.utf8ByteSize then some (.new "must not exceed 128 characters")
  else if !password.toList.any isUpper then
    some (.new "must contain at least one uppercase letter")
  else if !password.toList.any isLower then
    some (.new "must contain at least one lowercase letter")
  else if !password.toList.any isDigit then some (.new "must contain at least one digit")
  else if !password.toList.any fun c => !isUpper c && !isLower c && !isDigit c then
    some (.new "must contain at least one special character")
  else none

end Falx.Auth
