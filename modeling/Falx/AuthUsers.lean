import Falx.AuthSpecs

/-! What the operations do to one user record. -/

namespace Falx.Auth

open Interleave

def Op.onUser (e : Env) (o : Op) (r : UserRecord) : UserRecord :=
  match o, e.db with
  | updateUser u, none =>
    ⟨{ u with updatedAt := e.now }, State.updateColumns { u with updatedAt := e.now } r.row⟩
  | updateTOTPSecret _ secret enabled, none =>
    ⟨State.setTOTP secret enabled e.now r.cached, State.setTOTP secret enabled e.now r.row⟩
  | disableTOTP _, none =>
    ⟨State.setTOTP "" false e.now r.cached, State.setTOTP "" false e.now r.row⟩
  | updatePasswordHash _ hash, none =>
    ⟨{ r.cached with passwordHash := hash },
      { r.row with passwordHash := hash, updatedAt := e.now }⟩
  | recordFailedLogin _, err =>
    let u := State.recordFailure e.now r.cached
    ⟨u, if err = none then State.attemptColumns u r.row else r.row⟩
  | resetFailedLogin _, err =>
    ⟨{ r.cached with failedAttempts := 0, updatedAt := e.now },
      if err = none then { r.row with failedAttempts := 0, updatedAt := e.now } else r.row⟩
  | _, _ => r

variable {lib : AuthLibrary} {cfg : JWTConfig} {e : Env} {s : State} {id : String} {r : UserRecord}

variable {id' : String} {u : User}

theorem modifyUser_get {f : UserRecord → UserRecord}
    {hf : ∀ r, r.cached.id = id' → (f r).cached.id = id'} :
    (s.modifyUser id' f hf).users.get id =
      (s.users.get id).map fun r => if id' = id then f r else r := by
  by_cases hid : id' = id
  · subst hid
    simp [State.modifyUser]
  · simp [State.modifyUser, hid, Ne.symm hid]

theorem map_missing (h : s.users.get id' = none) (f : UserRecord → UserRecord) :
    ((s.users.get id).map fun r => if id' = id then f r else r) = s.users.get id := by
  by_cases hid : id' = id
  · subst hid
    rw [h, Option.map_none]
  · simp only [hid, if_false, Option.map_id']

theorem sem_users (o : Op) (ho : ∀ u, o ≠ .createUser u) :
    (sem lib cfg e o s).2.users.get id =
      (s.users.get id).map fun r => if o.target = some id then o.onUser e r else r := by
  cases o with
  | createUser u => exact (ho u rfl).elim
  | updateUser _ | updateTOTPSecret _ _ _ | disableTOTP _ | updatePasswordHash _ _ =>
    simp only [sem, State.updateUser, State.updateTOTPSecret, State.disableTOTP,
      State.updatePasswordHash, Op.target, Op.onUser, Option.some.injEq]
    cases e.db with
    | none => exact modifyUser_get
    | some err => simp
  | recordFailedLogin id' | resetFailedLogin id' =>
    simp only [sem, State.recordFailedLogin, State.resetFailedLogin, Op.target, Op.onUser,
      Option.some.injEq]
    cases hget : s.users.get id' with
    | none => exact (map_missing hget _).symm
    | some r' => exact modifyUser_get
  | _ =>
    rw [(sem_frame _).users ho rfl]
    simp [Op.target]

theorem sem_createUser : (sem lib cfg e (.createUser u) s).2.users.get id =
    s.users.get id ∨ s.users.get id = none ∧ ∃ r,
      (sem lib cfg e (.createUser u) s).2.users.get id = some r ∧ r.cached.role = u.role := by
  simp only [sem, State.createUser]
  split
  · exact .inl rfl
  · split
    · exact .inl rfl
    · split
      · exact .inl rfl
      · exact .inl rfl
      · rename_i hnone
        by_cases hid : id = e.newID
        · rw [hid]
          exact .inr ⟨hnone, _, Function.update_self _ _ _, rfl⟩
        · exact .inl (Function.update_of_ne hid _ _)

theorem sem_user (o : Op) (h : s.users.get id = some r) :
    (sem lib cfg e o s).2.users.get id = some (if o.target = some id then o.onUser e r else r) := by
  by_cases ho : ∃ u, o = .createUser u
  · obtain ⟨u, rfl⟩ := ho
    rcases sem_createUser with hsame | ⟨hnone, -⟩
    · exact hsame.trans h
    · rw [h] at hnone
      cases hnone
  · rw [sem_users o fun u hu => ho ⟨u, hu⟩, h]
    rfl

theorem getUserByID_ok (h : s.getUserByID id = .ok u) :
    ∃ r, s.users.get id = some r ∧ r.cached = u ∧ u.id = id := by
  rw [State.getUserByID] at h
  split at h
  · cases h
  · rename_i r hr
    cases h
    exact ⟨r, hr, rfl, s.users.keyed hr⟩

theorem getUserByUsername_ok {name : String} (h : s.getUserByUsername name = .ok u) :
    s.byName name = some u.id ∧ ∃ r, s.users.get u.id = some r ∧ r.cached = u := by
  rw [State.getUserByUsername] at h
  split at h
  · cases h
  · rename_i id hname
    obtain ⟨r, hr, hcopy, hid⟩ := getUserByID_ok h
    exact ⟨hid ▸ hname, r, hid ▸ hr, hcopy⟩

section Writes

variable {h : History} {o : Op} {u : String}

theorem loginGuar_target {req : LoginRequest} (hguar : loginGuar lib req h o)
    (ht : o.target = some u) :
    o = .recordFailedLogin u ∨ o = .resetFailedLogin u ∨
      OnlyResets h ∧ ∃ user now, Authenticated lib req h user ∧ user.id = u ∧
        o = .updateUser { user with lastLogin := now } := by
  cases o with
  | recordFailedLogin id =>
    cases ht
    exact .inl rfl
  | resetFailedLogin id =>
    cases ht
    exact .inr (.inl rfl)
  | updateUser v =>
    cases ht
    obtain ⟨honly, user, now, hauth, rfl⟩ := hguar
    exact .inr (.inr ⟨honly, user, now, hauth, rfl, rfl⟩)
  | _ => first | exact hguar.elim | cases ht

theorem refreshGuar_target {sessionID rawRefresh : String}
    (hguar : refreshGuar lib sessionID rawRefresh h o) : o.target = none := by
  cases o with
  | updateUser _ | updateTOTPSecret _ _ _ | disableTOTP _ | updatePasswordHash _ _
  | recordFailedLogin _ | resetFailedLogin _ => exact hguar.elim
  | _ => rfl

theorem changePasswordGuar_target {userID : String} {req : ChangePasswordRequest}
    (hguar : changePasswordGuar userID req h o) (ht : o.target = some u) :
    ∃ hash user, userID = u ∧ o = .updatePasswordHash u hash ∧
      Answered h (.hashPassword req.newPassword) (.ok hash) ∧
      Answered h (.getUserByID userID) (.ok user) := by
  cases o with
  | updatePasswordHash id hash =>
    cases ht
    obtain ⟨hid, hhash, user, hfd⟩ := hguar
    exact ⟨hash, user, hid.symm, rfl, hhash, hfd⟩
  | _ => first | exact hguar.elim | cases ht

theorem lockUserGuar_target {claims : TokenClaims} {targetID : String}
    (hguar : lockUserGuar claims targetID h o) (ht : o.target = some u) :
    OnlyResets h ∧ ∃ target, target.id = u ∧ o = .updateUser { target with locked := true } ∧
      claims.role.canManageRole target.role = true ∧
      Answered h (.getUserByID targetID) (.ok target) := by
  cases o with
  | updateUser v =>
    cases ht
    obtain ⟨honly, target, hfd, hman, rfl⟩ := hguar
    exact ⟨honly, target, rfl, rfl, hman, hfd⟩
  | _ => first | exact hguar.elim | cases ht

end Writes

theorem replay_user {ι : Type} {log : List (Entry ι Env Op.Res)} (h : s.users.get id = some r) :
    ∃ r', (replay (sem lib cfg) s log).users.get id = some r' := by
  induction log generalizing s r with
  | nil => exact ⟨r, h⟩
  | cons en log ih => exact ih (sem_user en.event.1 h)

end Falx.Auth
