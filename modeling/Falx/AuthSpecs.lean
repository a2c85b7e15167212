import Falx.AuthFrame

/-! What each call of the service has done before it performs an operation, and before it
succeeds. Nothing is assumed about the results of the operations: the specifications hold
however other calls interleave. -/

namespace Falx.Auth

open Interleave

abbrev History := List (Sigma Op.Res)

def Answered (h : History) (o : Op) (r : o.Res) : Prop := ⟨o, r⟩ ∈ h

section Answered

variable {h : History} {o o' : Op} {r : o.Res} {r' : o'.Res}

theorem answered_last : Answered (h ++ [⟨o, r⟩]) o r := by simp [Answered]

theorem Answered.append (ha : Answered h o r) (t : History) : Answered (h ++ t) o r :=
  List.mem_append_left t ha

theorem Answered.snoc (ha : Answered h o r) : Answered (h ++ [⟨o', r'⟩]) o r := ha.append _

end Answered

def OnlyResets (h : History) : Prop :=
  ∀ ev ∈ h, ev.1.target = none ∨ ∃ id, ev.1 = .resetFailedLogin id

theorem OnlyResets.snoc {h : History} {o : Op} {r : o.Res} (hh : OnlyResets h)
    (ho : o.target = none ∨ ∃ id, o = .resetFailedLogin id) : OnlyResets (h ++ [⟨o, r⟩]) := by
  intro ev hev
  rcases List.mem_append.mp hev with hev | hev
  · exact hh ev hev
  · rw [List.mem_singleton.mp hev]
    exact ho

section Login

variable (lib : AuthLibrary) (cfg : JWTConfig) (req : LoginRequest)

structure Authenticated (h : History) (user : User) : Prop where
  found : Answered h (.getUserByUsername req.username) (.ok user)
  active : user.active = true
  unlocked : user.locked = false
  password : lib.verifyPassword req.password user.passwordHash = true

def loginGuar (h : History) : Op → Prop
  | .checkLoginRate _ | .getUserByUsername _ | .verifyTOTP _ _ | .generateRefreshToken | .now
  | .generateAccessToken _ _ _ _ => True
  | .recordFailedLogin id =>
    ∃ user, Answered h (.getUserByUsername req.username) (.ok user) ∧ id = user.id
  | .resetFailedLogin id => ∃ user, Authenticated lib req h user ∧ id = user.id
  | .createSession new => ∃ user, Authenticated lib req h user ∧ new.userID = user.id ∧
      (user.totpEnabled = true → Answered h (.verifyTOTP user.totpSecret req.totpCode) true)
  | .updateUser u => OnlyResets h ∧
      ∃ user now, Authenticated lib req h user ∧ u = { user with lastLogin := now }
  | _ => False

/-- A login with a response has created the session that its token names; where TOTP is
enabled it has had a code verified. -/
def loginPost (h : History) (r : Except AuthError LoginResponse) : Prop :=
  ∀ resp, r = .ok resp → ∃ user new sess token, Authenticated lib req h user ∧
    (user.totpEnabled = true → Answered h (.verifyTOTP user.totpSecret req.totpCode) true) ∧
    Answered h (.createSession new) (.ok sess) ∧ new.userID = user.id ∧
    Answered h (.generateAccessToken user sess.id (tfaSatisfied user) (tokenScope user))
      (.ok token) ∧ resp.tokens.accessToken = token.1

variable {lib req} {h : History} {user : User}

theorem Authenticated.snoc {o : Op} {r : o.Res} (ha : Authenticated lib req h user) :
    Authenticated lib req (h ++ [⟨o, r⟩]) user :=
  { ha with found := ha.found.snoc }

theorem openSession_spec (ipAddr userAgent : String) (hauth : Authenticated lib req h user)
    (honly : OnlyResets h)
    (htotp : user.totpEnabled = true → Answered h (.verifyTOTP user.totpSecret req.totpCode) true) :
    (openSession cfg user ipAddr userAgent).Spec (loginGuar lib req) (loginPost lib req) h := by
  refine .call ⟨user, hauth, rfl⟩ fun _ => ?_
  refine .call trivial ?_
  rintro (err | ⟨raw, hashed⟩)
  · rintro _ ⟨⟩
  refine .call trivial fun now => ?_
  refine .call ⟨user, hauth.snoc.snoc.snoc, rfl, fun h => (htotp h).snoc.snoc.snoc⟩ ?_
  rintro (err | sess)
  · rintro _ ⟨⟩
  refine .call trivial ?_
  rintro (err | token)
  · rintro _ ⟨⟩
  refine .call trivial fun lastLogin => ?_
  refine .call ⟨(((((honly.snoc (.inr ⟨user.id, rfl⟩)).snoc (.inl rfl)).snoc (.inl rfl)).snoc
    (.inl rfl)).snoc (.inl rfl)).snoc (.inl rfl), user, lastLogin,
    hauth.snoc.snoc.snoc.snoc.snoc.snoc, rfl⟩ fun _ => ?_
  rintro _ ⟨⟩
  exact ⟨user, _, sess, token, hauth.snoc.snoc.snoc.snoc.snoc.snoc.snoc,
    fun h => (htotp h).snoc.snoc.snoc.snoc.snoc.snoc.snoc, answered_last.snoc.snoc.snoc, rfl,
    answered_last.snoc.snoc, rfl⟩

theorem login_spec (ipAddr userAgent : String) (honly : OnlyResets h) :
    (login lib cfg req ipAddr userAgent).Spec (loginGuar lib req) (loginPost lib req) h := by
  refine .call trivial ?_
  rintro (err | ⟨⟩)
  · rintro _ ⟨⟩
  refine .call trivial ?_
  rintro (err | user)
  · rintro _ ⟨⟩
  dsimp only [Prog.bind]
  split
  · rintro _ ⟨⟩
  rename_i hact
  split
  · rintro _ ⟨⟩
  rename_i hlock
  split
  · exact .call ⟨user, answered_last, rfl⟩ fun _ => by rintro _ ⟨⟩
  rename_i hpw
  have hauth : Authenticated lib req (h ++ [⟨.checkLoginRate ipAddr, .ok ()⟩] ++
      [⟨.getUserByUsername req.username, .ok user⟩]) user :=
    ⟨answered_last, by simpa using hact, by simpa using hlock, by simpa using hpw⟩
  have honly : OnlyResets (h ++ [⟨.checkLoginRate ipAddr, .ok ()⟩] ++
      [⟨.getUserByUsername req.username, .ok user⟩]) :=
    (honly.snoc (.inl rfl)).snoc (.inl rfl)
  split
  · rename_i hdis
    exact openSession_spec cfg ipAddr userAgent hauth honly fun h => by simp [h] at hdis
  split
  · rintro _ ⟨⟩
  refine .call trivial fun verified => ?_
  cases verified with
  | false => rintro _ ⟨⟩
  | true =>
    exact openSession_spec cfg ipAddr userAgent hauth.snoc (honly.snoc (.inl rfl)) fun _ =>
      answered_last

end Login

section Refresh

variable (lib : AuthLibrary) (cfg : JWTConfig) (sessionID rawRefresh : String)

structure Rotating (h : History) (sess : Session) (user : User) : Prop where
  found : Answered h (.getSession sessionID) (.ok sess)
  token : lib.verifyPassword rawRefresh sess.refreshToken = true
  owner : Answered h (.getUserByID sess.userID) (.ok user)
  active : user.active = true
  unlocked : user.locked = false

def refreshGuar (h : History) : Op → Prop
  | .getSession _ | .getUserByID _ | .revokeAllUserSessions _ | .generateRefreshToken | .now
  | .generateAccessToken _ _ _ _ => True
  | .revokeSession id => id = sessionID ∧ ∃ sess user, Rotating lib sessionID rawRefresh h sess user
  | .createSession new => ∃ sess user, Rotating lib sessionID rawRefresh h sess user ∧
      Answered h (.revokeSession sessionID) (.ok ()) ∧ new.userID = sess.userID
  | _ => False

def refreshPost (h : History) (r : Except AuthError TokenPair) : Prop :=
  ∀ pair, r = .ok pair → ∃ sess user new sess' token, Rotating lib sessionID rawRefresh h sess user ∧
    Answered h (.revokeSession sessionID) (.ok ()) ∧
    Answered h (.createSession new) (.ok sess') ∧ new.userID = sess.userID ∧
    Answered h (.generateAccessToken user sess'.id (tfaSatisfied user) (tokenScope user))
      (.ok token) ∧ pair.accessToken = token.1

variable {lib sessionID rawRefresh} {h : History} {sess : Session} {user : User}

section

variable (hr : Rotating lib sessionID rawRefresh h sess user)

include hr

theorem Rotating.snoc {o : Op} {r : o.Res} :
    Rotating lib sessionID rawRefresh (h ++ [⟨o, r⟩]) sess user :=
  { hr with found := hr.found.snoc, owner := hr.owner.snoc }

theorem issueRotated_spec :
    (issueRotated cfg sessionID sess user).Spec (refreshGuar lib sessionID rawRefresh)
      (refreshPost lib sessionID rawRefresh) h := by
  refine .call ⟨rfl, sess, user, hr⟩ ?_
  rintro (err | ⟨⟩)
  · rintro _ ⟨⟩
  refine .call trivial ?_
  rintro (err | ⟨raw, hashed⟩)
  · rintro _ ⟨⟩
  refine .call trivial fun lastActivityAt => ?_
  refine .call trivial fun now => ?_
  refine .call ⟨sess, user, hr.snoc.snoc.snoc.snoc, answered_last.snoc.snoc.snoc, rfl⟩ ?_
  rintro (err | sess')
  · rintro _ ⟨⟩
  refine .call trivial ?_
  rintro (err | token)
  · rintro _ ⟨⟩
  rintro _ ⟨⟩
  exact ⟨sess, user, _, sess', token, hr.snoc.snoc.snoc.snoc.snoc.snoc,
    answered_last.snoc.snoc.snoc.snoc.snoc, answered_last.snoc, rfl, answered_last, rfl⟩

end

theorem refreshTokens_spec : (refreshTokens lib cfg sessionID rawRefresh).Spec
    (refreshGuar lib sessionID rawRefresh) (refreshPost lib sessionID rawRefresh) h := by
  refine .call trivial ?_
  rintro (err | sess)
  · rintro _ ⟨⟩
  dsimp only [Prog.bind]
  split
  · exact .call trivial fun _ => by rintro _ ⟨⟩
  rename_i htk
  refine .call trivial ?_
  rintro (err | user)
  · rintro _ ⟨⟩
  dsimp only [Prog.bind]
  split
  · rintro _ ⟨⟩
  rename_i huser
  have hboth : user.active = true ∧ user.locked = false := by simpa using huser
  exact issueRotated_spec cfg
    ⟨answered_last.snoc, by simpa using htk, answered_last, hboth.1, hboth.2⟩

end Refresh

section Accounts

variable (lib : AuthLibrary) {h : History}

def changePasswordGuar (userID : String) (req : ChangePasswordRequest) (h : History) : Op → Prop
  | .getUserByID _ | .hashPassword _ => True
  | .updatePasswordHash id hash => id = userID ∧
      Answered h (.hashPassword req.newPassword) (.ok hash) ∧
      ∃ user, Answered h (.getUserByID userID) (.ok user)
  | .revokeAllUserSessions id =>
    id = userID ∧ ∃ hash, Answered h (.updatePasswordHash userID hash) (.ok ())
  | _ => False

theorem changePassword_spec {userID : String} {req : ChangePasswordRequest} :
    (changePassword lib userID req).Spec (changePasswordGuar userID req)
      (fun h r => r = .ok () → ∃ r, Answered h (.revokeAllUserSessions userID) r) h := by
  refine .call trivial ?_
  rintro (err | user)
  · rintro ⟨⟩
  dsimp only [Prog.bind]
  split
  · rintro ⟨⟩
  split
  · rintro ⟨⟩
  refine .call trivial ?_
  rintro (err | hash)
  · rintro ⟨⟩
  refine .call ⟨rfl, answered_last, user, answered_last.snoc⟩ ?_
  rintro (err | ⟨⟩)
  · rintro ⟨⟩
  refine .call ⟨rfl, hash, answered_last⟩ fun r => ?_
  exact fun _ => ⟨r, answered_last⟩

def lockUserGuar (claims : TokenClaims) (targetID : String) (h : History) : Op → Prop
  | .getUserByID _ => True
  | .updateUser u => OnlyResets h ∧ ∃ target, Answered h (.getUserByID targetID) (.ok target) ∧
      claims.role.canManageRole target.role = true ∧ u = { target with locked := true }
  | .revokeAllUserSessions id => ∃ target r, Answered h (.getUserByID targetID) (.ok target) ∧
      id = target.id ∧ Answered h (.updateUser { target with locked := true }) r
  | _ => False

theorem lockUser_spec {claims : TokenClaims} {targetID : String} (honly : OnlyResets h) :
    (Handler.lockUser claims targetID).Spec (lockUserGuar claims targetID)
      (fun h r => ∀ msg, r = .ok msg → ∃ target r,
        Answered h (.getUserByID targetID) (.ok target) ∧
        Answered h (.revokeAllUserSessions target.id) r) h := by
  refine .call trivial ?_
  rintro (err | target)
  · rintro _ ⟨⟩
  dsimp only [Prog.bind]
  split
  · rintro _ ⟨⟩
  rename_i hman
  refine .call ⟨honly.snoc (.inl rfl), target, answered_last, by simpa using hman, rfl⟩
    fun r => ?_
  refine .call ⟨target, r, answered_last.snoc, rfl, answered_last⟩ fun r' => ?_
  exact fun _ _ => ⟨target, r', answered_last.snoc.snoc, answered_last⟩

def unlockUserGuar (targetID : String) (h : History) : Op → Prop
  | .getUserByID _ => True
  | .updateUser u => OnlyResets h ∧ ∃ target, Answered h (.getUserByID targetID) (.ok target) ∧
      u = { target with locked := false, failedAttempts := 0 }
  | _ => False

theorem unlockUser_spec {targetID : String} (honly : OnlyResets h) :
    (Handler.unlockUser targetID).Spec (unlockUserGuar targetID) (fun _ _ => True) h := by
  refine .call trivial ?_
  rintro (err | target)
  · trivial
  exact .call ⟨honly.snoc (.inl rfl), target, answered_last, rfl⟩ fun _ => trivial

end Accounts

section Totp

variable (cfg : JWTConfig) {h : History}

def confirmGuar (userID code : String) (h : History) : Op → Prop
  | .takePendingTOTP id => id = userID
  | .verifyTOTP _ _ | .hashBackupCodes _ => True
  | .updateTOTPSecret id secret enabled => id = userID ∧ enabled = true ∧ ∃ entry,
      Answered h (.takePendingTOTP userID) (.ok entry) ∧ entry.secret = secret ∧
      Answered h (.verifyTOTP secret code) true
  | .updateBackupCodes id _ => id = userID
  | .deletePendingTOTP id => id = userID
  | _ => False

variable {userID code : String} {token : Option AccessToken} {o : Op}

theorem confirmTOTPSetup_spec :
    (confirmTOTPSetup userID code).Spec (confirmGuar userID code)
      (fun h r => ∀ codes, r = .ok codes → ∃ secret,
        Answered h (.updateTOTPSecret userID secret true) (.ok ())) h := by
  refine .call rfl ?_
  rintro (err | entry)
  · rintro _ ⟨⟩
  refine .call trivial fun verified => ?_
  cases verified with
  | false => rintro _ ⟨⟩
  | true =>
  refine .call trivial ?_
  rintro (err | hashes)
  · rintro _ ⟨⟩
  refine .call ⟨rfl, rfl, entry, answered_last.snoc.snoc, rfl, answered_last.snoc⟩ ?_
  rintro (err | ⟨⟩)
  · rintro _ ⟨⟩
  refine .call rfl fun _ => ?_
  refine .call rfl fun _ => ?_
  exact fun _ _ => ⟨entry.secret, answered_last.snoc.snoc⟩

def disableGuar (targetID : String) (h : History) : Op → Prop
  | .getUserByID _ => True
  | .disableTOTP id => id = targetID
  | .revokeAllUserSessions id => id = targetID ∧ Answered h (.disableTOTP targetID) (.ok ())
  | _ => False

theorem disableTOTPSetup_spec {targetID : String} :
    (disableTOTPSetup targetID).Spec (disableGuar targetID)
      (fun h r => r = .ok () → ∃ r, Answered h (.revokeAllUserSessions targetID) r) h := by
  refine .call trivial ?_
  rintro (err | target)
  · rintro ⟨⟩
  refine .call rfl ?_
  rintro (err | ⟨⟩)
  · rintro ⟨⟩
  refine .call ⟨rfl, answered_last⟩ fun r => ?_
  exact fun _ => ⟨r, answered_last⟩

def validateGuar (h : History) : Op → Prop
  | .verifyAccessToken _ | .getSession _ => True
  | .touchSession id => ∃ sess, Answered h (.getSession id) (.ok sess)
  | _ => False

theorem validateRequest_spec {token : AccessToken} :
    (validateRequest token).Spec validateGuar
      (fun h r => ∀ claims, r = .ok claims → ∃ sess,
        Answered h (.verifyAccessToken token) (.ok claims) ∧
        Answered h (.getSession claims.sessionID) (.ok sess)) h := by
  refine .call trivial ?_
  rintro (err | claims)
  · rintro _ ⟨⟩
  refine .call trivial ?_
  rintro (err | sess)
  · rintro _ ⟨⟩
  refine .call ⟨sess, answered_last⟩ fun _ => ?_
  rintro _ ⟨⟩
  exact ⟨sess, answered_last.snoc.snoc, answered_last.snoc⟩

def beginGuar (userID : String) : Op → Prop
  | .getUserByID _ | .beginTOTPEnrollment => True
  | .setPendingTOTP id _ _ => id = userID
  | _ => False

theorem beginTOTPSetup_spec :
    (beginTOTPSetup userID).Spec (fun _ => beginGuar userID) (fun _ _ => True) h := by
  refine .call trivial ?_
  rintro (err | user)
  · trivial
  refine .call trivial ?_
  rintro (err | enroll)
  · trivial
  exact .call rfl fun _ => trivial

def Admitted (token : Option AccessToken) (h : History) (claims : TokenClaims) : Prop :=
  ∃ token' sess, token = some token' ∧ Answered h (.verifyAccessToken token') (.ok claims) ∧
    Answered h (.getSession claims.sessionID) (.ok sess)

theorem Admitted.append {claims : TokenClaims} (ha : Admitted token h claims) (t : History) :
    Admitted token (h ++ t) claims := by
  obtain ⟨token', sess, htk, hclm, hsess⟩ := ha
  exact ⟨token', sess, htk, hclm.append t, hsess.append t⟩

theorem requireAuth_spec {α : Type} {next : TokenClaims → Call (Except APIError α)}
    {guar : History → Op → Prop} {post : History → Except APIError α → Prop}
    (hguar : ∀ h o, validateGuar h o → guar h o) (herr : ∀ h err, post h (.error err))
    (hnext : ∀ h claims, Admitted token h claims → (next claims).Spec guar post h) :
    (requireAuth token next).Spec guar post h := by
  cases token with
  | none => exact herr h _
  | some token =>
    refine Prog.Spec.bind (validateRequest_spec.mono (fun t => hguar _) fun t r hr => ?_)
    rcases r with err | claims
    · cases err <;> exact herr _ _
    · obtain ⟨sess, hclm, hsess⟩ := hr claims rfl
      exact hnext _ claims ⟨token, sess, rfl, hclm, hsess⟩

def totpBeginGuar (token : Option AccessToken) (h : History) (o : Op) : Prop :=
  validateGuar h o ∨ ∃ claims, Admitted token h claims ∧ beginGuar claims.userID o

def totpConfirmGuar (token : Option AccessToken) (code : String) (h : History) (o : Op) : Prop :=
  validateGuar h o ∨ ∃ claims, Admitted token h claims ∧
    (confirmGuar claims.userID code h o ∨ o = .getUserByID claims.userID ∨
      ∃ user, o = .generateAccessToken user claims.sessionID true .session)

def totpConfirmPost (token : Option AccessToken) (h : History)
    (r : Except APIError (List String × Option TokenPair)) : Prop :=
  ∀ codes pair, r = .ok (codes, pair) → ∃ claims secret, Admitted token h claims ∧
    Answered h (.updateTOTPSecret claims.userID secret true) (.ok ()) ∧
    ∀ p, pair = some p → ∃ user new, Answered h (.getUserByID claims.userID) (.ok user) ∧
      Answered h (.generateAccessToken user claims.sessionID true .session) (.ok new) ∧
      p.accessToken = new.1

def Op.enrols : Op → Bool
  | verifyAccessToken _ | getSession _ | touchSession _ | getUserByID _ | beginTOTPEnrollment
  | setPendingTOTP _ _ _ | takePendingTOTP _ | verifyTOTP _ _ | hashBackupCodes _
  | updateTOTPSecret _ _ _ | updateBackupCodes _ _ | deletePendingTOTP _
  | generateAccessToken _ _ _ _ => true
  | _ => false

theorem totpBeginGuar_enrols (hguar : totpBeginGuar token h o) : o.enrols = true := by
  rcases hguar with hguar | ⟨claims, -, hguar⟩
  · cases o <;> first | rfl | exact hguar.elim
  · cases o <;> first | rfl | exact hguar.elim

theorem totpConfirmGuar_enrols (hguar : totpConfirmGuar token code h o) : o.enrols = true := by
  rcases hguar with hguar | ⟨claims, -, hguar | rfl | ⟨user, rfl⟩⟩
  · cases o <;> first | rfl | exact hguar.elim
  · cases o <;> first | rfl | exact hguar.elim
  · rfl
  · rfl

theorem totpBegin_spec :
    (requireAuth token Handler.totpBegin).Spec (totpBeginGuar token) (fun _ _ => True) h := by
  refine requireAuth_spec (fun h o => .inl) (fun _ _ => trivial) fun h claims hadm => ?_
  refine Prog.Spec.bind (beginTOTPSetup_spec.mono (fun t o ho => ?_) fun t r _ => ?_)
  · exact .inr ⟨claims, hadm.append t, ho⟩
  · rcases r with err | enroll <;> trivial

theorem totpConfirm_spec :
    (requireAuth token fun claims => Handler.totpConfirm cfg claims code).Spec
      (totpConfirmGuar token code) (totpConfirmPost token) h := by
  refine requireAuth_spec (fun h o => .inl) (fun _ _ _ _ => by rintro ⟨⟩) fun h claims hadm => ?_
  rw [Handler.totpConfirm]
  split
  · rintro _ _ ⟨⟩
  refine Prog.Spec.bind (confirmTOTPSetup_spec.mono (fun t o ho => ?_) fun t r hr => ?_)
  · exact .inr ⟨claims, hadm.append t, .inl ho⟩
  rcases r with err | codes
  · rintro _ _ ⟨⟩
  obtain ⟨secret, hkey⟩ := hr codes rfl
  have hadm := hadm.append t
  refine .call (.inr ⟨claims, hadm, .inr (.inl rfl)⟩) ?_
  rintro (err | user)
  · rintro _ _ ⟨⟩
    exact ⟨claims, secret, hadm.append _, hkey.snoc, by rintro _ ⟨⟩⟩
  refine .call (.inr ⟨claims, hadm.append _, .inr (.inr ⟨user, rfl⟩)⟩) ?_
  rintro (err | new)
  · rintro _ _ ⟨⟩
    exact ⟨claims, secret, (hadm.append _).append _, hkey.snoc.snoc, by rintro _ ⟨⟩⟩
  rintro _ _ ⟨⟩
  refine ⟨claims, secret, (hadm.append _).append _, hkey.snoc.snoc, ?_⟩
  rintro _ ⟨⟩
  exact ⟨user, new, answered_last.snoc, answered_last, rfl⟩

end Totp

section Requests

variable (lib : AuthLibrary) (cfg : JWTConfig)

def requestGuar : Request → History → Op → Prop
  | .login req _ _ => loginGuar lib req
  | .refreshTokens sessionID rawRefresh => refreshGuar lib sessionID rawRefresh
  | .validateRequest _ => validateGuar
  | .logout sessionID => fun _ o => o = .revokeSession sessionID
  | .logoutAll userID => fun _ o => o = .revokeAllUserSessions userID
  | .changePassword userID req => changePasswordGuar userID req
  | .confirmTOTPSetup userID code => confirmGuar userID code
  | .disableTOTPSetup targetUserID => disableGuar targetUserID
  | .lockUser claims targetID => lockUserGuar claims targetID
  | .unlockUser targetID => unlockUserGuar targetID
  | .totpBegin token => totpBeginGuar token
  | .totpConfirm token code => totpConfirmGuar token code

def requestPost : Request → History → Reply → Prop
  | .login req _ _, h, .login r => loginPost lib req h r
  | .refreshTokens sessionID rawRefresh, h, .tokens r => refreshPost lib sessionID rawRefresh h r
  | .validateRequest token, h, .claims r => ∀ claims, r = .ok claims →
      ∃ sess, Answered h (.verifyAccessToken token) (.ok claims) ∧
        Answered h (.getSession claims.sessionID) (.ok sess)
  | .logoutAll userID, h, .done r => r = .ok () →
      ∃ r, Answered h (.revokeAllUserSessions userID) r
  | .changePassword userID _, h, .done r => r = .ok () →
      ∃ r, Answered h (.revokeAllUserSessions userID) r
  | .disableTOTPSetup targetUserID, h, .done r => r = .ok () →
      ∃ r, Answered h (.revokeAllUserSessions targetUserID) r
  | .lockUser _ targetID, h, .message r => ∀ msg, r = .ok msg → ∃ target r,
      Answered h (.getUserByID targetID) (.ok target) ∧
      Answered h (.revokeAllUserSessions target.id) r
  | .totpConfirm token _, h, .confirmed r => totpConfirmPost token h r
  | _, _, _ => True

theorem serve_spec (req : Request) :
    (serve lib cfg req).Spec (requestGuar lib req) (requestPost lib req) [] := by
  have honly : OnlyResets [] := fun _ hev => nomatch hev
  cases req with
  | login req ipAddr userAgent => exact .map (login_spec cfg ipAddr userAgent honly)
  | refreshTokens sessionID rawRefresh => exact .map (refreshTokens_spec cfg)
  | validateRequest token => exact .map validateRequest_spec
  | logout sessionID => exact .call rfl fun _ => trivial
  | logoutAll userID => exact .call rfl fun r _ => ⟨r, answered_last⟩
  | changePassword userID req => exact .map (changePassword_spec lib)
  | confirmTOTPSetup userID code =>
    exact .map (confirmTOTPSetup_spec.mono (fun _ _ h => h) fun _ _ _ => trivial)
  | disableTOTPSetup targetUserID => exact .map disableTOTPSetup_spec
  | lockUser claims targetID => exact .map (lockUser_spec honly)
  | unlockUser targetID => exact .map (unlockUser_spec honly)
  | totpBegin token => exact .map totpBegin_spec
  | totpConfirm token code => exact .map (totpConfirm_spec cfg)

end Requests

end Falx.Auth
