import Falx.AuthModels

/-! The store of users and sessions, a cache in memory over a database, with the tables
that the service keeps beside it. Each operation is one step, also where the code takes its
lock for the cache alone and writes the row outside it; the clock, fresh identifiers and
failures of the database are those of its environment. -/

namespace Falx.Auth

open Function

structure Env where
  now : Int
  newID : String := ""
  dbErr : Option String := none
  random : String := ""
  salt : String := ""
  backupCodes : List String := []
  randErr : Option String := none
  signErr : Option String := none
  deriving DecidableEq

/-- A user in the cache and in the database. Every row is loaded at the start and none is
removed, so that the two exist together. -/
structure UserRecord where
  cached : User
  row : User
  deriving DecidableEq

/-- The users by identifier: a record is stored under the identifier it carries. -/
structure UserTable where
  get : String → Option UserRecord
  keyed : ∀ {id r}, get id = some r → r.cached.id = id

namespace UserTable

def insert (t : UserTable) (r : UserRecord) : UserTable where
  get := update t.get r.cached.id (some r)
  keyed := by
    intro id r' h
    by_cases hid : id = r.cached.id
    · subst hid
      rw [update_self] at h
      cases h
      rfl
    · rw [update_of_ne hid] at h
      exact t.keyed h

def modify (t : UserTable) (id : String) (f : UserRecord → UserRecord)
    (hf : ∀ r, r.cached.id = id → (f r).cached.id = id) : UserTable where
  get := update t.get id ((t.get id).map f)
  keyed := by
    intro id' r' h
    by_cases hid : id' = id
    · subst hid
      rw [update_self, Option.map_eq_some_iff] at h
      obtain ⟨r, hr, rfl⟩ := h
      exact hf r (t.keyed hr)
    · rw [update_of_ne hid] at h
      exact t.keyed h

variable {t : UserTable} {id : String} {f : UserRecord → UserRecord}
  {hf : ∀ r, r.cached.id = id → (f r).cached.id = id}

@[simp] theorem modify_get_self : (t.modify id f hf).get id = (t.get id).map f :=
  update_self _ _ _

@[simp] theorem modify_get_of_ne {id' : String} (h : id' ≠ id) :
    (t.modify id f hf).get id' = t.get id' :=
  update_of_ne h _ _

end UserTable

structure LoginRateLimiter where
  attempts : Nat
  resetAt : Int
  deriving DecidableEq

structure PendingTOTPEntry where
  secret : String
  plainCodes : List String
  expiresAt : Int
  deriving DecidableEq

/-- Sessions are not loaded from the database, and their rows are never read. -/
structure State where
  users : UserTable
  byName : String → Option String
  byEmail : String → Option String
  sessions : String → Option Session
  backupCodes : String → List String
  loginRL : String → Option LoginRateLimiter
  pendingTOTP : String → Option PendingTOTPEntry
  totpCache : TotpCache

def Env.db (e : Env) : Option AuthError := e.dbErr.map .new

def result (err : Option AuthError) : Except AuthError Unit :=
  match err with
  | none => .ok ()
  | some err => .error err

namespace State

def modifyUser (s : State) (id : String) (f : UserRecord → UserRecord)
    (hf : ∀ r, r.cached.id = id → (f r).cached.id = id) : State :=
  { s with users := s.users.modify id f hf }

def modifySession (s : State) (id : String) (f : Session → Session) : State :=
  { s with sessions := update s.sessions id ((s.sessions id).map f) }

section Users

def getUserByID (id : String) (s : State) : Except AuthError User :=
  match s.users.get id with
  | none => .error .userNotFound
  | some u => .ok u.cached

def getUserByUsername (username : String) (s : State) : Except AuthError User :=
  match s.byName username with
  | none => .error .userNotFound
  | some id => s.getUserByID id

def createUser (e : Env) (u : User) (s : State) : Except AuthError User × State :=
  if (s.byName u.username).isSome then (.error .userExists, s)
  else if (s.byEmail u.email).isSome then (.error .userExists, s)
  else
    let u := { u with id := e.newID, createdAt := e.now, updatedAt := e.now }
    match e.db, s.users.get u.id with
    | some err, _ => (.error (.wrapped "DB insert user" err), s)
    | none, some _ =>
      (.error (.wrapped "DB insert user" (.new "UNIQUE constraint failed: users.id")), s)
    | none, none =>
      (.ok u,
        { s with
          users := s.users.insert ⟨u, u⟩
          byName := update s.byName u.username (some u.id)
          byEmail := update s.byEmail u.email (some u.id) })

/-- The columns that `UpdateUser` writes; the password hash and the TOTP secret are not
among them. -/
def updateColumns (u row : User) : User :=
  { row with
    role := u.role
    active := u.active
    locked := u.locked
    failedAttempts := u.failedAttempts
    displayName := u.displayName
    totpEnabled := u.totpEnabled
    lastLogin := u.lastLogin
    updatedAt := u.updatedAt }

-- the cache takes over the whole copy, whatever has changed since it was made
def updateUser (e : Env) (u : User) (s : State) : Except AuthError Unit × State :=
  let u := { u with updatedAt := e.now }
  match e.db with
  | some err => (.error err, s)
  | none => (.ok (), s.modifyUser u.id (fun r => ⟨u, updateColumns u r.row⟩) fun _ _ => rfl)

def setTOTP (secret : String) (enabled : Bool) (now : Int) (u : User) : User :=
  { u with totpSecret := secret, totpEnabled := enabled, updatedAt := now }

def updateTOTPSecret (e : Env) (id secret : String) (enabled : Bool) (s : State) :
    Except AuthError Unit × State :=
  match e.db with
  | some err => (.error err, s)
  | none =>
    (.ok (), s.modifyUser id
      (fun r => ⟨setTOTP secret enabled e.now r.cached, setTOTP secret enabled e.now r.row⟩)
      fun _ h => h)

def updateBackupCodes (e : Env) (id : String) (hashed : List String) (s : State) :
    Except AuthError Unit × State :=
  match e.db with
  | some err => (.error err, s)
  | none => (.ok (), { s with backupCodes := update s.backupCodes id hashed })

def disableTOTP (e : Env) (id : String) (s : State) : Except AuthError Unit × State :=
  match e.db with
  | some err => (.error (.wrapped "clear TOTP secret" err), s)
  | none =>
    (.ok (),
      { s with backupCodes := update s.backupCodes id [] }.modifyUser id
        (fun r => ⟨setTOTP "" false e.now r.cached, setTOTP "" false e.now r.row⟩) fun _ h => h)

-- the time of the update reaches the row only
def updatePasswordHash (e : Env) (id hash : String) (s : State) : Except AuthError Unit × State :=
  match e.db with
  | some err => (.error err, s)
  | none =>
    (.ok (), s.modifyUser id
      (fun r => ⟨{ r.cached with passwordHash := hash },
        { r.row with passwordHash := hash, updatedAt := e.now }⟩) fun _ h => h)

def maxFailedAttempts : Nat := 5

def recordFailure (now : Int) (u : User) : User :=
  { u with
    failedAttempts := u.failedAttempts + 1
    locked := u.locked || decide (maxFailedAttempts ≤ u.failedAttempts + 1)
    updatedAt := now }

def attemptColumns (u row : User) : User :=
  { row with failedAttempts := u.failedAttempts, locked := u.locked, updatedAt := u.updatedAt }

def recordFailedLogin (e : Env) (id : String) (s : State) : Except AuthError Unit × State :=
  match s.users.get id with
  | none => (.error .userNotFound, s)
  | some _ =>
    (result e.db, s.modifyUser id
      (fun r =>
        let u := recordFailure e.now r.cached
        ⟨u, if e.db = none then attemptColumns u r.row else r.row⟩) fun _ h => h)

def resetFailedLogin (e : Env) (id : String) (s : State) : Except AuthError Unit × State :=
  match s.users.get id with
  | none => (.error .userNotFound, s)
  | some _ =>
    (result e.db, s.modifyUser id
      (fun r => ⟨{ r.cached with failedAttempts := 0, updatedAt := e.now },
        if e.db = none then { r.row with failedAttempts := 0, updatedAt := e.now } else r.row⟩)
      fun _ h => h)

end Users

section Sessions

def createSession (e : Env) (sess : Session) (s : State) : Except AuthError Session × State :=
  let sess := { sess with id := e.newID, createdAt := e.now, lastActivityAt := e.now }
  match e.db, s.sessions sess.id with
  | some err, _ => (.error (.wrapped "DB insert session" err), s)
  | none, some _ =>
    (.error (.wrapped "DB insert session" (.new "UNIQUE constraint failed: sessions.id")), s)
  | none, none => (.ok sess, { s with sessions := update s.sessions sess.id (some sess) })

def getSession (timeout : Int) (e : Env) (id : String) (s : State) : Except AuthError Session :=
  match s.sessions id with
  | none => .error .sessionNotFound
  | some sess =>
    if sess.revoked then .error .sessionRevoked
    else if sess.isExpired e.now then .error .sessionExpired
    else if sess.isInactive e.now timeout then .error .inactivityTimeout
    else .ok sess

def touchSession (e : Env) (id : String) (s : State) : Except AuthError Unit × State :=
  match s.sessions id with
  | none => (.error .sessionNotFound, s)
  | some _ => (result e.db, s.modifySession id fun sess => { sess with lastActivityAt := e.now })

def revoke (sess : Session) : Session := { sess with revoked := true }

-- the cache is changed before the database is asked
def revokeSession (e : Env) (id : String) (s : State) : Except AuthError Unit × State :=
  (result e.db, s.modifySession id revoke)

def revokeAllUserSessions (e : Env) (userID : String) (s : State) : Except AuthError Unit × State :=
  (result e.db,
    { s with
      sessions := fun id =>
        (s.sessions id).map fun sess => if sess.userID = userID then revoke sess else sess })

end Sessions

section Service

def loginRateLimit : Nat := 10

def loginRateWindow : Int := minute

def checkLoginRate (splitHost : String → String) (e : Env) (ipAddr : String) (s : State) :
    Except AuthError Unit × State :=
  let host := splitHost ipAddr
  let ip := if host = "" then ipAddr else host
  let live : String → Option LoginRateLimiter := fun k =>
    (s.loginRL k).filter fun rl => e.now ≤ rl.resetAt
  match live ip with
  | none =>
    (.ok (), { s with loginRL := update live ip (some ⟨1, e.now + loginRateWindow⟩) })
  | some rl =>
    let s := { s with loginRL := update live ip (some ⟨rl.attempts + 1, rl.resetAt⟩) }
    if loginRateLimit < rl.attempts + 1 then
      (.error (.rateLimited ((rl.resetAt - e.now + second / 2) / second)), s)
    else (.ok (), s)

def setPendingTOTP (e : Env) (userID secret : String) (plainCodes : List String) (s : State) :
    State :=
  { s with
    pendingTOTP := update s.pendingTOTP userID
      (some ⟨secret, plainCodes, e.now + 10 * minute⟩) }

def deletePendingTOTP (userID : String) (s : State) : State :=
  { s with pendingTOTP := update s.pendingTOTP userID none }

def takePendingTOTP (e : Env) (userID : String) (s : State) :
    Except AuthError PendingTOTPEntry × State :=
  let missing := AuthError.new "no pending TOTP enrollment — call /auth/totp/begin first"
  match s.pendingTOTP userID with
  | none => (.error missing, s.deletePendingTOTP userID)
  | some entry =>
    if entry.expiresAt < e.now then (.error missing, s.deletePendingTOTP userID)
    else (.ok entry, s)

def verifyTOTP (lib : TotpLibrary) (e : Env) (secret code : String) (s : State) : Bool × State :=
  let r := verifyTOTPCode lib (e.now / second) secret code s.totpCache
  (r.1, { s with totpCache := r.2 })

end Service

end State

end Falx.Auth
