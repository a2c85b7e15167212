import Falx.AuthStore
import Falx.Interleave

/-! The calls of the authentication service and its handlers, as trees of the operations
of the store. Audit records and logs are left out: nothing reads them. -/

namespace Falx.Auth

open Interleave

inductive Op where
  | now
  | getUserByID (id : String)
  | getUserByUsername (username : String)
  | createUser (u : User)
  | updateUser (u : User)
  | updateTOTPSecret (id secret : String) (enabled : Bool)
  | updateBackupCodes (id : String) (hashed : List String)
  | disableTOTP (id : String)
  | updatePasswordHash (id hash : String)
  | recordFailedLogin (id : String)
  | resetFailedLogin (id : String)
  | createSession (sess : Session)
  | getSession (id : String)
  | touchSession (id : String)
  | revokeSession (id : String)
  | revokeAllUserSessions (userID : String)
  | checkLoginRate (ipAddr : String)
  | setPendingTOTP (userID secret : String) (plainCodes : List String)
  | takePendingTOTP (userID : String)
  | deletePendingTOTP (userID : String)
  | verifyTOTP (secret code : String)
  | hashPassword (password : String)
  | hashBackupCodes (plain : List String)
  | generateRefreshToken
  | generateAccessToken (user : User) (sessionID : String) (tfaVerified : Bool) (scope : Scope)
  | verifyAccessToken (token : AccessToken)
  | beginTOTPEnrollment
  deriving DecidableEq

@[reducible] def Op.Res : Op → Type
  | now => Int
  | getUserByID _ | getUserByUsername _ | createUser _ => Except AuthError User
  | createSession _ | getSession _ => Except AuthError Session
  | takePendingTOTP _ => Except AuthError PendingTOTPEntry
  | setPendingTOTP _ _ _ | deletePendingTOTP _ => Unit
  | verifyTOTP _ _ => Bool
  | hashPassword _ => Except AuthError String
  | hashBackupCodes _ => Except AuthError (List String)
  | generateRefreshToken => Except AuthError (String × String)
  | generateAccessToken _ _ _ _ => Except AuthError (AccessToken × Int)
  | verifyAccessToken _ => Except AuthError TokenClaims
  | beginTOTPEnrollment => Except AuthError (String × List String)
  | _ => Except AuthError Unit

abbrev Call := Prog Op Op.Res

def sem (lib : AuthLibrary) (cfg : JWTConfig) (e : Env) : (op : Op) → State → op.Res × State
  | .now, s => (e.now, s)
  | .getUserByID id, s => (s.getUserByID id, s)
  | .getUserByUsername username, s => (s.getUserByUsername username, s)
  | .createUser u, s => s.createUser e u
  | .updateUser u, s => s.updateUser e u
  | .updateTOTPSecret id secret enabled, s => s.updateTOTPSecret e id secret enabled
  | .updateBackupCodes id hashed, s => s.updateBackupCodes e id hashed
  | .disableTOTP id, s => s.disableTOTP e id
  | .updatePasswordHash id hash, s => s.updatePasswordHash e id hash
  | .recordFailedLogin id, s => s.recordFailedLogin e id
  | .resetFailedLogin id, s => s.resetFailedLogin e id
  | .createSession sess, s => s.createSession e sess
  | .getSession id, s => (s.getSession cfg.inactivityTimeout e id, s)
  | .touchSession id, s => s.touchSession e id
  | .revokeSession id, s => s.revokeSession e id
  | .revokeAllUserSessions userID, s => s.revokeAllUserSessions e userID
  | .checkLoginRate ipAddr, s => s.checkLoginRate lib.splitHost e ipAddr
  | .setPendingTOTP userID secret plainCodes, s => ((), s.setPendingTOTP e userID secret plainCodes)
  | .takePendingTOTP userID, s => s.takePendingTOTP e userID
  | .deletePendingTOTP userID, s => ((), s.deletePendingTOTP userID)
  | .verifyTOTP secret code, s => s.verifyTOTP lib.toTotpLibrary e secret code
  | .hashPassword password, s =>
    (if password.utf8ByteSize < 12 then .error (.new "password must be at least 12 characters")
      else if 128 < password.utf8ByteSize then .error (.new "password exceeds maximum length")
      else match e.randErr with
        | some err => .error (.wrapped "salt generation" (.new err))
        | none => .ok (lib.hashPassword e.salt password), s)
  | .hashBackupCodes plain, s =>
    (match e.randErr with
      | some err => .error (.wrapped "salt generation" (.new err))
      | none => .ok (plain.map (lib.hashPassword e.salt)), s)
  | .generateRefreshToken, s =>
    (match e.randErr with
      | some err => .error (.wrapped "refresh token entropy" (.new err))
      | none => .ok (e.random, lib.hashPassword e.salt e.random), s)
  | .generateAccessToken user sessionID tfaVerified scope, s =>
    (match e.signErr with
      | some err => .error (.wrapped "sign access token" (.new err))
      | none =>
        .ok (generateAccessToken cfg e.now user sessionID tfaVerified scope,
          e.now + cfg.accessTokenTTL), s)
  | .verifyAccessToken token, s => (verifyAccessToken cfg e.now token, s)
  | .beginTOTPEnrollment, s =>
    (match e.randErr with
      | some err => .error (.wrapped "generate TOTP secret" (.new err))
      | none => .ok (e.random, e.backupCodes), s)

def op (o : Op) : Call o.Res := .call o .ret

def tokenPair (cfg : JWTConfig) (token : AccessToken × Int) (refreshToken : String) : TokenPair where
  accessToken := token.1
  refreshToken
  tokenType := "Bearer"
  expiresIn := cfg.accessTokenTTL / second
  expiresAt := token.2

section Service

variable (lib : AuthLibrary) (cfg : JWTConfig)

/-- The policy of login and refresh: the admin tier without TOTP has to enrol first. -/
def tfaSatisfied (user : User) : Bool := user.totpEnabled || !user.role.requires2FA

def tokenScope (user : User) : Scope :=
  if user.role.requires2FA && !user.totpEnabled then .preAuth else .session

/-- `Login` from the point where the credentials are accepted. -/
def openSession (user : User) (ipAddr userAgent : String) :
    Call (Except AuthError LoginResponse) := do
  let _ ← op (.resetFailedLogin user.id)
  match ← op .generateRefreshToken with
  | .error err => return .error (.wrapped "generate refresh token" err)
  | .ok (rawRefresh, hashedRefresh) =>
  let now : Int ← op .now
  let session : Session :=
    { id := "", userID := user.id, refreshToken := hashedRefresh, userAgent, ipAddress := ipAddr
      createdAt := 0, lastActivityAt := 0, expiresAt := now + cfg.refreshTokenTTL, revoked := false }
  match ← op (.createSession session) with
  | .error err => return .error (.wrapped "create session" err)
  | .ok session =>
  match ← op (.generateAccessToken user session.id (tfaSatisfied user) (tokenScope user)) with
  | .error err => return .error (.wrapped "generate access token" err)
  | .ok token =>
  let now : Int ← op .now
  let user := { user with lastLogin := now }
  let _ ← op (.updateUser user)
  return .ok ⟨tokenPair cfg token rawRefresh, userToView user⟩

def login (req : LoginRequest) (ipAddr userAgent : String) :
    Call (Except AuthError LoginResponse) := do
  match ← op (.checkLoginRate ipAddr) with
  | .error err => return .error err
  | .ok () =>
  match ← op (.getUserByUsername req.username) with
  | .error _ => return .error .invalidCredentials
  | .ok user =>
  if !user.active then return .error .invalidCredentials
  if user.locked then return .error .accountLocked
  if !lib.verifyPassword req.password user.passwordHash then
    let _ ← op (.recordFailedLogin user.id)
    return .error .invalidCredentials
  if !user.totpEnabled then openSession cfg user ipAddr userAgent
  else if req.totpCode = "" then return .error .totpRequired
  else if !(← op (.verifyTOTP user.totpSecret req.totpCode)) then return .error .invalidCredentials
  else openSession cfg user ipAddr userAgent

/-- `RefreshTokens` from the point where the old session is revoked. -/
def issueRotated (sessionID : String) (session : Session) (user : User) :
    Call (Except AuthError TokenPair) := do
  match ← op (.revokeSession sessionID) with
  | .error err => return .error (.wrapped "session rotation failed" err)
  | .ok () =>
  match ← op .generateRefreshToken with
  | .error err => return .error err
  | .ok (rawNew, hashedNew) =>
  let lastActivityAt : Int ← op .now
  let now : Int ← op .now
  let session :=
    { session with
      refreshToken := hashedNew, lastActivityAt, expiresAt := now + cfg.refreshTokenTTL }
  match ← op (.createSession session) with
  | .error err => return .error (.wrapped "create rotated session" err)
  | .ok session =>
  match ← op (.generateAccessToken user session.id (tfaSatisfied user) (tokenScope user)) with
  | .error err => return .error err
  | .ok token => return .ok (tokenPair cfg token rawNew)

def refreshTokens (sessionID rawRefresh : String) : Call (Except AuthError TokenPair) := do
  match ← op (.getSession sessionID) with
  | .error err => return .error err
  | .ok session =>
  if !lib.verifyPassword rawRefresh session.refreshToken then
    let _ ← op (.revokeAllUserSessions session.userID)
    return .error .invalidCredentials
  match ← op (.getUserByID session.userID) with
  | .error err => return .error err
  | .ok user =>
  if !user.active || user.locked then return .error .invalidCredentials
  issueRotated cfg sessionID session user

def logout (sessionID : String) : Call (Except AuthError Unit) := op (.revokeSession sessionID)

def logoutAll (userID : String) : Call (Except AuthError Unit) := op (.revokeAllUserSessions userID)

def register (req : RegisterRequest) (actorID : String) : Call (Except AuthError UserView) := do
  match validatePasswordStrength req.password with
  | some err => return .error err
  | none =>
  match ← op (.getUserByID actorID) with
  | .error err => return .error err
  | .ok actor =>
  if !actor.role.canManageRole req.role then return .error (.insufficientPrivileges req.role)
  match ← op (.hashPassword req.password) with
  | .error err => return .error err
  | .ok hash =>
  let user : User :=
    { id := "", username := req.username, email := req.email, passwordHash := hash
      role := req.role, active := true, locked := false, failedAttempts := 0, lastLogin := 0
      createdAt := 0, updatedAt := 0, createdBy := actorID, totpSecret := ""
      totpEnabled := false, displayName := req.displayName }
  match ← op (.createUser user) with
  | .error err => return .error err
  | .ok user => return .ok (userToView user)

def changePassword (userID : String) (req : ChangePasswordRequest) :
    Call (Except AuthError Unit) := do
  match ← op (.getUserByID userID) with
  | .error err => return .error err
  | .ok user =>
  if !lib.verifyPassword req.oldPassword user.passwordHash then return .error .invalidCredentials
  match validatePasswordStrength req.newPassword with
  | some err => return .error err
  | none =>
  match ← op (.hashPassword req.newPassword) with
  | .error err => return .error err
  | .ok hash =>
  match ← op (.updatePasswordHash userID hash) with
  | .error err => return .error err
  | .ok () =>
  let _ ← op (.revokeAllUserSessions userID)
  return .ok ()

def validateRequest (token : AccessToken) : Call (Except AuthError TokenClaims) := do
  match ← op (.verifyAccessToken token) with
  | .error err => return .error err
  | .ok claims =>
  match ← op (.getSession claims.sessionID) with
  | .error err => return .error err
  | .ok _ =>
  let _ ← op (.touchSession claims.sessionID)
  return .ok claims

def issueUpgradedToken (userID sessionID : String) : Call (Except AuthError TokenPair) := do
  match ← op (.getUserByID userID) with
  | .error err => return .error err
  | .ok user =>
  match ← op (.generateAccessToken user sessionID true .session) with
  | .error err => return .error (.wrapped "issue upgraded token" err)
  | .ok token => return .ok (tokenPair cfg token "")

def beginTOTPSetup (userID : String) : Call (Except AuthError (String × List String)) := do
  match ← op (.getUserByID userID) with
  | .error _ => return .error .userNotFound
  | .ok _ =>
  match ← op .beginTOTPEnrollment with
  | .error err => return .error (.wrapped "generate TOTP enrollment" err)
  | .ok enroll =>
  let _ ← op (.setPendingTOTP userID enroll.1 enroll.2)
  return .ok enroll

def confirmTOTPSetup (userID code : String) : Call (Except AuthError (List String)) := do
  match ← op (.takePendingTOTP userID) with
  | .error err => return .error err
  | .ok entry =>
  if !(← op (.verifyTOTP entry.secret code)) then
    return .error (.new "invalid TOTP code — check your authenticator app clock")
  match ← op (.hashBackupCodes entry.plainCodes) with
  | .error err => return .error (.wrapped "hash backup codes" err)
  | .ok backupHashes =>
  match ← op (.updateTOTPSecret userID entry.secret true) with
  | .error err => return .error (.wrapped "save TOTP secret" err)
  | .ok () =>
  let _ ← op (.updateBackupCodes userID backupHashes)
  let _ ← op (.deletePendingTOTP userID)
  return .ok entry.plainCodes

def disableTOTPSetup (targetUserID : String) : Call (Except AuthError Unit) := do
  match ← op (.getUserByID targetUserID) with
  | .error _ => return .error .userNotFound
  | .ok _ =>
  match ← op (.disableTOTP targetUserID) with
  | .error err => return .error (.wrapped "disable TOTP" err)
  | .ok () =>
  let _ ← op (.revokeAllUserSessions targetUserID)
  return .ok ()

end Service

structure APIError where
  status : Nat
  code : String
  message : String
  deriving DecidableEq

namespace Handler

def createUser (claims : TokenClaims) (req : RegisterRequest) :
    Call (Except APIError UserView) := do
  match ← register req claims.userID with
  | .error .userExists => return .error ⟨409, "user_exists", "Username or email already in use"⟩
  | .error err => return .error ⟨400, "create_failed", err.message⟩
  | .ok view => return .ok view

def lockUser (actorClaims : TokenClaims) (targetID : String) : Call (Except APIError String) := do
  match ← op (.getUserByID targetID) with
  | .error _ => return .error ⟨404, "user_not_found", ""⟩
  | .ok target =>
  if !actorClaims.role.canManageRole target.role then
    return .error ⟨403, "forbidden", "Cannot manage users with equal or higher role"⟩
  let _ ← op (.updateUser { target with locked := true })
  let _ ← op (.revokeAllUserSessions target.id)
  return .ok "user locked"

-- unlike `lockUser` it does not ask who the target is
def unlockUser (targetID : String) : Call (Except APIError String) := do
  match ← op (.getUserByID targetID) with
  | .error _ => return .error ⟨404, "user_not_found", ""⟩
  | .ok target =>
  let _ ← op (.updateUser { target with locked := false, failedAttempts := 0 })
  return .ok "user unlocked"

def totpBegin (claims : TokenClaims) : Call (Except APIError (String × List String)) := do
  match ← beginTOTPSetup claims.userID with
  | .error err => return .error ⟨500, "totp_begin_failed", err.message⟩
  | .ok enroll => return .ok enroll

def totpConfirm (cfg : JWTConfig) (claims : TokenClaims) (code : String) :
    Call (Except APIError (List String × Option TokenPair)) := do
  if code.utf8ByteSize ≠ 6 then return .error ⟨400, "invalid_code", "Code must be 6 digits"⟩
  match ← confirmTOTPSetup claims.userID code with
  | .error err => return .error ⟨400, "totp_confirm_failed", err.message⟩
  | .ok backupCodes =>
  match ← issueUpgradedToken cfg claims.userID claims.sessionID with
  | .error _ => return .ok (backupCodes, none)
  | .ok pair => return .ok (backupCodes, some pair)

def totpDisable (targetID : String) : Call (Except APIError String) := do
  match ← disableTOTPSetup targetID with
  | .error .userNotFound => return .error ⟨404, "user_not_found", ""⟩
  | .error err => return .error ⟨500, "totp_disable_failed", err.message⟩
  | .ok () => return .ok "2FA disabled — user sessions revoked, re-login required"

end Handler

section Middleware

def requireAuth {α : Type} (token : Option AccessToken)
    (next : TokenClaims → Call (Except APIError α)) : Call (Except APIError α) := do
  match token with
  | none =>
    return .error ⟨401, "missing_token", "Authorization header with Bearer token required"⟩
  | some token =>
  match ← validateRequest token with
  | .error .inactivityTimeout =>
    return .error ⟨401, "session_expired",
      "Session expired due to inactivity — please log in again"⟩
  | .error .sessionRevoked => return .error ⟨401, "session_revoked", "Session has been revoked"⟩
  | .error _ => return .error ⟨401, "invalid_token", "Invalid or expired token"⟩
  | .ok claims => next claims

def requireTFAVerified (claims : TokenClaims) : Option APIError :=
  if claims.tfaVerified then none
  else
    some ⟨403, "tfa_setup_required",
      "2FA setup required — complete enrollment via /auth/totp/begin and /auth/totp/confirm"⟩

def requireScope (scope : Scope) (claims : TokenClaims) : Option APIError :=
  if claims.scope = scope then none
  else
    some ⟨403, "insufficient_scope", "Token scope '" ++ claims.scope.name ++
      "' does not satisfy required scope '" ++ scope.name ++ "'"⟩

def requirePermission (perm : Permission) (claims : TokenClaims) : Option APIError :=
  if claims.role.hasPermission perm then none
  else
    some ⟨403, "insufficient_permission", "Your role does not have permission: " ++ perm.name⟩

def requireRole (minRole : Role) (claims : TokenClaims) : Option APIError :=
  if claims.role.level < minRole.level then
    some ⟨403, "insufficient_role", "Minimum required role: " ++ minRole.name⟩
  else none

def authedRoute {α : Type} (token : Option AccessToken) (guard : TokenClaims → Option APIError)
    (next : TokenClaims → Call (Except APIError α)) : Call (Except APIError α) :=
  requireAuth token fun claims =>
    match requireTFAVerified claims, requireScope .session claims, guard claims with
    | some err, _, _ => .ret (.error err)
    | none, some err, _ => .ret (.error err)
    | none, none, some err => .ret (.error err)
    | none, none, none => next claims

end Middleware

/-- The calls that a run is made of. Enrolment goes through its routes, since the token
says for which session it is. -/
inductive Request where
  | login (req : LoginRequest) (ipAddr userAgent : String)
  | refreshTokens (sessionID rawRefresh : String)
  | validateRequest (token : AccessToken)
  | logout (sessionID : String)
  | logoutAll (userID : String)
  | changePassword (userID : String) (req : ChangePasswordRequest)
  | confirmTOTPSetup (userID code : String)
  | disableTOTPSetup (targetUserID : String)
  | lockUser (actorClaims : TokenClaims) (targetID : String)
  | unlockUser (targetID : String)
  | totpBegin (token : Option AccessToken)
  | totpConfirm (token : Option AccessToken) (code : String)
  deriving DecidableEq

inductive Reply where
  | login (r : Except AuthError LoginResponse)
  | tokens (r : Except AuthError TokenPair)
  | claims (r : Except AuthError TokenClaims)
  | done (r : Except AuthError Unit)
  | codes (r : Except AuthError (List String))
  | message (r : Except APIError String)
  | enrolment (r : Except APIError (String × List String))
  | confirmed (r : Except APIError (List String × Option TokenPair))

def serve (lib : AuthLibrary) (cfg : JWTConfig) : Request → Call Reply
  | .login req ipAddr userAgent => .login <$> login lib cfg req ipAddr userAgent
  | .refreshTokens sessionID rawRefresh => .tokens <$> refreshTokens lib cfg sessionID rawRefresh
  | .validateRequest token => .claims <$> validateRequest token
  | .logout sessionID => .done <$> logout sessionID
  | .logoutAll userID => .done <$> logoutAll userID
  | .changePassword userID req => .done <$> changePassword lib userID req
  | .confirmTOTPSetup userID code => .codes <$> confirmTOTPSetup userID code
  | .disableTOTPSetup targetUserID => .done <$> disableTOTPSetup targetUserID
  | .lockUser actorClaims targetID => .message <$> Handler.lockUser actorClaims targetID
  | .unlockUser targetID => .message <$> Handler.unlockUser targetID
  | .totpBegin token => .enrolment <$> requireAuth token Handler.totpBegin
  | .totpConfirm token code =>
    .confirmed <$> requireAuth token fun claims => Handler.totpConfirm cfg claims code

end Falx.Auth
