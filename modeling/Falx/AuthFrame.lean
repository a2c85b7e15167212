import Falx.AuthService

/-! What the operations leave as it is: the users, their names, the sessions and the backup
codes, each for the operations that are not about it. -/

namespace Falx.Auth

open State

def Op.target : Op → Option String
  | updateUser u => some u.id
  | updateTOTPSecret id _ _ => some id
  | disableTOTP id => some id
  | updatePasswordHash id _ => some id
  | recordFailedLogin id => some id
  | resetFailedLogin id => some id
  | _ => none

def Op.writesSessions : Op → Bool
  | createSession _ | touchSession _ | revokeSession _ | revokeAllUserSessions _ => true
  | _ => false

def Op.codes : Op → Option String
  | updateBackupCodes id _ => some id
  | disableTOTP id => some id
  | _ => none

structure Op.Frame (o : Op) (s t : State) : Prop where
  users : (∀ u, o ≠ .createUser u) → o.target = none → t.users = s.users
  byName : (∀ u, o ≠ .createUser u) → t.byName = s.byName
  sessions : o.writesSessions = false → t.sessions = s.sessions
  backupCodes : ∀ id, o.codes ≠ some id → t.backupCodes id = s.backupCodes id

namespace Op.Frame

variable {o : Op} {s : State}

theorem of_eq {t : State} (hus : t.users = s.users) (hnames : t.byName = s.byName)
    (hss : t.sessions = s.sessions) (hcd : t.backupCodes = s.backupCodes) : Frame o s t :=
  ⟨fun _ _ => hus, fun _ => hnames, fun _ => hss, fun id _ => congrFun hcd id⟩

theorem refl : Frame o s s := of_eq rfl rfl rfl rfl

theorem modifyUser {id : String} {f : UserRecord → UserRecord}
    {hf : ∀ r, r.cached.id = id → (f r).cached.id = id} (h : o.target = some id) :
    Frame o s (s.modifyUser id f hf) := by
  refine ⟨fun _ hnone => ?_, fun _ => rfl, fun _ => rfl, fun _ _ => rfl⟩
  rw [h] at hnone
  cases hnone

theorem setSessions {sessions : String → Option Session} (h : o.writesSessions = true) :
    Frame o s { s with sessions := sessions } := by
  refine ⟨fun _ _ => rfl, fun _ => rfl, fun hfalse => ?_, fun _ _ => rfl⟩
  rw [h] at hfalse
  cases hfalse

theorem setCodes {id : String} {hashed : List String} (h : o.codes = some id) :
    Frame o s { s with backupCodes := Function.update s.backupCodes id hashed } := by
  refine ⟨fun _ _ => rfl, fun _ => rfl, fun _ => rfl, fun id' hne => ?_⟩
  rw [h] at hne
  exact Function.update_of_ne (fun hid => hne (congrArg some hid.symm)) _ _

theorem trans {t u : State} (h : Frame o s t) (h' : Frame o t u) : Frame o s u where
  users hcreate htarget := (h'.users hcreate htarget).trans (h.users hcreate htarget)
  byName hcreate := (h'.byName hcreate).trans (h.byName hcreate)
  sessions hwrites := (h'.sessions hwrites).trans (h.sessions hwrites)
  backupCodes id hid := (h'.backupCodes id hid).trans (h.backupCodes id hid)

end Op.Frame

variable {lib : AuthLibrary} {cfg : JWTConfig} {e : Env} {s : State}

theorem createUser_frame (u : User) : (Op.createUser u).Frame s (s.createUser e u).2 := by
  rw [createUser]
  split
  · exact .refl
  · split
    · exact .refl
    · dsimp only
      split
      · exact .refl
      · exact .refl
      · exact ⟨fun h => (h u rfl).elim, fun h => (h u rfl).elim, fun _ => rfl, fun _ _ => rfl⟩

theorem checkLoginRate_frame (ipAddr : String) :
    (Op.checkLoginRate ipAddr).Frame s (s.checkLoginRate lib.splitHost e ipAddr).2 := by
  rw [checkLoginRate]
  repeat' split
  all_goals exact .of_eq rfl rfl rfl rfl

theorem takePendingTOTP_frame (userID : String) :
    (Op.takePendingTOTP userID).Frame s (s.takePendingTOTP e userID).2 := by
  rw [takePendingTOTP]
  repeat' split
  all_goals exact .of_eq rfl rfl rfl rfl

theorem sem_frame (o : Op) : o.Frame s (sem lib cfg e o s).2 := by
  cases o with
  | createUser u => exact createUser_frame u
  | checkLoginRate ipAddr => exact checkLoginRate_frame ipAddr
  | takePendingTOTP userID => exact takePendingTOTP_frame userID
  | updateUser _ | updateTOTPSecret _ _ _ | updatePasswordHash _ _
  | recordFailedLogin _ | resetFailedLogin _ =>
    simp only [sem, updateUser, updateTOTPSecret, updatePasswordHash,
      recordFailedLogin, resetFailedLogin]
    split
    · exact .refl
    · exact .modifyUser rfl
  | updateBackupCodes id hashed =>
    rw [sem, updateBackupCodes]
    split
    · exact .refl
    · exact .setCodes rfl
  | disableTOTP id =>
    rw [sem, disableTOTP]
    split
    · exact .refl
    · exact (Op.Frame.setCodes rfl).trans (.modifyUser rfl)
  | createSession sess =>
    rw [sem, createSession]
    split
    · exact .refl
    · exact .refl
    · exact .setSessions rfl
  | touchSession id =>
    rw [sem, touchSession]
    split
    · exact .refl
    · exact .setSessions rfl
  | revokeSession _ | revokeAllUserSessions _ => exact .setSessions rfl
  | _ => exact .of_eq rfl rfl rfl rfl

end Falx.Auth
