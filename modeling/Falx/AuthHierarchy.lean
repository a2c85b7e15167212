import Falx.AuthLifetime

/-! The management of users through its routes, and the order of roles. A lock asks whether
the target is below the actor, and so does the creation of a user. -/

namespace Falx.Auth

open Interleave

inductive ManageRequest where
  | createUser (req : RegisterRequest)
  | lockUser (targetID : String)
  | unlockUser (targetID : String)
  | totpDisable (targetID : String)

namespace ManageRequest

def guard : ManageRequest → TokenClaims → Option APIError
  | createUser _ | lockUser _ | unlockUser _ => requirePermission .userCreate
  | totpDisable _ => requireRole .superAdmin

def handle (claims : TokenClaims) : ManageRequest → Call (Except APIError (UserView ⊕ String))
  | createUser req => Except.map .inl <$> Handler.createUser claims req
  | lockUser targetID => Except.map .inr <$> Handler.lockUser claims targetID
  | unlockUser targetID => Except.map .inr <$> Handler.unlockUser targetID
  | totpDisable targetID => Except.map .inr <$> Handler.totpDisable targetID

end ManageRequest

def manage (token : Option AccessToken) (request : ManageRequest) :
    Call (Except APIError (UserView ⊕ String)) :=
  authedRoute token request.guard fun claims => request.handle claims

def Respects (actor : Role) (s t : State) : Prop :=
  ∀ id, (t.users.get id ≠ s.users.get id ∨ t.backupCodes id ≠ s.backupCodes id) →
    ∀ rec, (s.users.get id = some rec ∨ t.users.get id = some rec) →
      rec.cached.role.level < actor.level

section Steps

variable {lib : AuthLibrary} {cfg : JWTConfig} {e : Env} {actor : Role} {s t u : State} {o : Op}

theorem Respects.refl (actor : Role) (s : State) : Respects actor s s := by
  intro id hchg
  simp at hchg

theorem Respects.trans (h : Respects actor s t) (h' : Respects actor t u) : Respects actor s u := by
  intro id hchg rec hrec
  by_cases hst : t.users.get id = s.users.get id ∧ t.backupCodes id = s.backupCodes id
  · rw [← hst.1, ← hst.2] at hchg
    rw [← hst.1] at hrec
    exact h' id hchg rec hrec
  · have hfst := h id (by rw [ne_eq, ne_eq, ← not_and_or]; exact hst)
    rcases hrec with hrec | hrec
    · exact hfst rec (.inl hrec)
    · by_cases htu : u.users.get id = t.users.get id
      · exact hfst rec (.inr (htu ▸ hrec))
      · exact h' id (.inl htu) rec (.inr hrec)

theorem sem_respects (ho : ∀ v, o ≠ .createUser v)
    (hbe : ∀ id rec, (o.target = some id ∨ o.codes = some id) → s.users.get id = some rec →
      rec.cached.role.level < actor.level ∧
        (o.target = some id → (o.onUser e rec).cached.role = rec.cached.role)) :
    Respects actor s (sem lib cfg e o s).2 := by
  intro id hchg rec hrec
  have hwr : o.target = some id ∨ o.codes = some id := by
    by_contra hnot
    obtain ⟨htgt, hcd⟩ := not_or.mp hnot
    rw [sem_users o ho, (sem_frame o).backupCodes id hcd] at hchg
    simp [htgt] at hchg
  rcases hrec with hrec | hrec
  · exact (hbe id rec hwr hrec).1
  · rw [sem_users o ho] at hrec
    obtain ⟨old, hold, rfl⟩ := Option.map_eq_some_iff.mp hrec
    obtain ⟨hlv, hrole⟩ := hbe id old hwr hold
    split
    · rename_i htgt
      rw [hrole htgt]
      exact hlv
    · exact hlv

theorem sem_respects_of_none (ho : ∀ v, o ≠ .createUser v) (htgt : o.target = none)
    (hcd : o.codes = none) : Respects actor s (sem lib cfg e o s).2 := by
  refine sem_respects ho fun id rec hwr => ?_
  simp [htgt, hcd] at hwr

theorem sem_respects_createUser {v : User} (h : v.role.level < actor.level) :
    Respects actor s (sem lib cfg e (.createUser v) s).2 := by
  intro id hchg rec hrec
  rw [(sem_frame _).backupCodes id (by simp [Op.codes])] at hchg
  have hne := hchg.resolve_right (by simp)
  rcases sem_createUser with hsame | ⟨hnone, r, hr, hrole⟩
  · exact (hne hsame).elim
  · rw [hnone, hr] at hrec
    obtain rfl : r = rec := by simpa using hrec
    rw [hrole]
    exact h

theorem updateUser_respects {v : User} {rec : UserRecord} (hget : s.users.get v.id = some rec)
    (hrole : v.role = rec.cached.role) (hlv : rec.cached.role.level < actor.level) :
    Respects actor s (sem lib cfg e (.updateUser v) s).2 := by
  refine sem_respects (by simp) fun id rec' hwr hrec' => ?_
  obtain rfl : v.id = id := by simpa [Op.target, Op.codes] using hwr
  rw [hget] at hrec'
  cases hrec'
  refine ⟨hlv, fun _ => ?_⟩
  cases hdb : e.db with
  | none => simp [Op.onUser, hdb, hrole]
  | some err => simp [Op.onUser, hdb]

theorem disableTOTP_respects {targetID : String}
    (hlv : ∀ rec, s.users.get targetID = some rec → rec.cached.role.level < actor.level) :
    Respects actor s (sem lib cfg e (.disableTOTP targetID) s).2 := by
  refine sem_respects (by simp) fun id rec hwr hrec => ?_
  obtain rfl : targetID = id := by simpa [Op.target, Op.codes] using hwr
  refine ⟨hlv rec hrec, fun _ => ?_⟩
  cases hdb : e.db with
  | none => simp [Op.onUser, hdb, State.setTOTP]
  | some err => simp [Op.onUser, hdb]

end Steps

section Handlers

variable {lib : AuthLibrary} {cfg : JWTConfig} {actor : Role} {s : State}

abbrev Within {α : Type} (lib : AuthLibrary) (cfg : JWTConfig) (actor : Role) (p : Call α)
    (s : State) : Prop :=
  wp (sem lib cfg) (fun _ => True) (fun _ t => Respects actor s t) p s

theorem lockUser_respects (claims : TokenClaims) (targetID : String) :
    Within lib cfg claims.role (Handler.lockUser claims targetID) s := by
  intro e _
  rcases hget : (sem lib cfg e (.getUserByID targetID) s).1 with err | target
  · exact .refl _ _
  obtain ⟨rec, hrec, rfl, hid⟩ := getUserByID_ok hget
  dsimp only [Prog.bind]
  split
  · exact .refl _ _
  rename_i hman
  have hlv : rec.cached.role.level < claims.role.level := by
    simpa [Role.canManageRole] using hman
  intro e _ e' _
  have hlock : Respects claims.role s
      (sem lib cfg e (.updateUser { rec.cached with locked := true }) s).2 :=
    updateUser_respects (hid ▸ hrec) rfl hlv
  exact hlock.trans (sem_respects_of_none (by simp) rfl rfl)

theorem unlockUser_respects {targetID : String}
    (hlv : ∀ rec, s.users.get targetID = some rec → rec.cached.role.level < actor.level) :
    Within lib cfg actor (Handler.unlockUser targetID) s := by
  intro e _
  rcases hget : (sem lib cfg e (.getUserByID targetID) s).1 with err | target
  · exact .refl _ _
  obtain ⟨rec, hrec, rfl, hid⟩ := getUserByID_ok hget
  intro e _
  exact updateUser_respects (hid ▸ hrec) rfl (hlv rec hrec)

theorem totpDisable_respects {targetID : String}
    (hlv : ∀ rec, s.users.get targetID = some rec → rec.cached.role.level < actor.level) :
    Within lib cfg actor (Handler.totpDisable targetID) s := by
  have hdis : Within lib cfg actor (disableTOTPSetup targetID) s := by
    intro e _
    rcases (sem lib cfg e (.getUserByID targetID) s).1 with err | target
    · exact .refl _ _
    intro e _
    rcases (sem lib cfg e (.disableTOTP targetID) _).1 with err | ⟨⟩
    · exact disableTOTP_respects hlv
    intro e' _
    have hdis : Respects actor s (sem lib cfg e (.disableTOTP targetID) s).2 :=
      disableTOTP_respects hlv
    exact hdis.trans (sem_respects_of_none (by simp) rfl rfl)
  refine wp_bind (wp_mono hdis fun r t ht => ?_)
  rcases r with err | ⟨⟩
  · cases err <;> exact ht
  · exact ht

theorem createUser_respects {claims : TokenClaims} (req : RegisterRequest)
    (hac : ∀ rec, s.users.get claims.userID = some rec → rec.cached.role = claims.role) :
    Within lib cfg claims.role (Handler.createUser claims req) s := by
  have hregister : Within lib cfg claims.role (register req claims.userID) s := by
    rw [register]
    split
    · exact .refl _ _
    intro e _
    rcases hget : (sem lib cfg e (.getUserByID claims.userID) s).1 with err | user
    · exact .refl _ _
    obtain ⟨rec, hrec, rfl, -⟩ := getUserByID_ok hget
    dsimp only [Prog.bind]
    split
    · exact .refl _ _
    rename_i hman
    have hlv : req.role.level < claims.role.level := by
      simpa [Role.canManageRole, hac rec hrec] using hman
    intro e _
    rcases (sem lib cfg e (.hashPassword req.password) _).1 with err | hash
    · exact .refl _ _
    intro e _
    rcases (sem lib cfg e (.createUser _) _).1 with err | user
    · exact sem_respects_createUser hlv
    · exact sem_respects_createUser hlv
  refine wp_bind (wp_mono hregister fun r t ht => ?_)
  rcases r with err | view
  · cases err <;> exact ht
  · exact ht

theorem validateRequest_accounts (token : AccessToken) :
    wp (sem lib cfg) (fun _ => True) (fun r t => t.users = s.users ∧ t.backupCodes = s.backupCodes ∧
      ∀ claims, r = .ok claims → claims.role = token.role ∧ claims.userID = token.subject)
      (validateRequest token) s := by
  intro e _
  rcases hver : (sem lib cfg e (.verifyAccessToken token) s).1 with err | claims
  · exact ⟨rfl, rfl, by rintro _ ⟨⟩⟩
  obtain ⟨-, huser, hrole⟩ := verifyAccessToken_ok hver
  intro e _
  rcases (sem lib cfg e (.getSession claims.sessionID) _).1 with err | sess
  · exact ⟨rfl, rfl, by rintro _ ⟨⟩⟩
  intro e _
  have hfm : Op.Frame (.touchSession claims.sessionID) s
      (sem lib cfg e (.touchSession claims.sessionID) s).2 := sem_frame _
  refine ⟨hfm.users (by simp) rfl, ?_, ?_⟩
  · exact funext fun id => hfm.backupCodes id (by simp [Op.codes])
  · rintro _ ⟨⟩
    exact ⟨hrole, huser⟩

theorem authedRoute_respects {α : Type} {token : AccessToken} {guard : TokenClaims → Option APIError}
    {next : TokenClaims → Call (Except APIError α)}
    (hnext : ∀ claims s', s'.users = s.users → claims.role = token.role →
      claims.userID = token.subject → guard claims = none →
      Within lib cfg token.role (next claims) s') :
    Within lib cfg token.role (authedRoute (some token) guard next) s := by
  refine wp_bind (wp_mono (validateRequest_accounts token) fun r s' hs' => ?_)
  obtain ⟨hus, hcd, hclm⟩ := hs'
  have hsame : Respects token.role s s' := by
    intro id hchg
    simp [hus, hcd] at hchg
  rcases r with err | claims
  · cases err <;> exact hsame
  obtain ⟨hrole, huser⟩ := hclm claims rfl
  dsimp only
  split
  · exact hsame
  · exact hsame
  · exact hsame
  · rename_i hgd
    exact wp_mono (hnext claims s' hus hrole huser hgd) fun _ _ => hsame.trans

end Handlers

theorem level_of_requireRole {claims : TokenClaims} (h : requireRole .superAdmin claims = none) :
    5 ≤ claims.role.level := by
  rw [requireRole] at h
  split at h
  · cases h
  · rename_i hlv
    simpa [Role.level] using hlv

theorem level_lt_of_ne_superAdmin {role : Role} (h : role ≠ .superAdmin) : role.level < 5 := by
  cases role with
  | superAdmin => exact (h rfl).elim
  | _ => simp [Role.level]

/-- What the code does not ask for: the target of an unlock is below the actor, and that of
a `TOTPDisable` is no super-administrator. -/
def ManageRequest.Below (actor : Role) (s : State) : ManageRequest → Prop
  | createUser _ | lockUser _ => True
  | unlockUser targetID =>
    ∀ rec, s.users.get targetID = some rec → rec.cached.role.level < actor.level
  | totpDisable targetID => ∀ rec, s.users.get targetID = some rec → rec.cached.role ≠ .superAdmin

def managedState (role : Role) : State :=
  emptyState |> withUser (sampleUser "ops" .admin)
    |> withUser { sampleUser "other" role with locked := true }
    |> withSession (sampleSession "s0" "ops")

def adminToken : AccessToken :=
  generateAccessToken defaultJWTConfig 0 (sampleUser "ops" .admin) "s0" true .session

def runManage (role : Role) (request : ManageRequest) (n : Nat) :
    Option (Except APIError (UserView ⊕ String) × State) :=
  exec (sem plainLibrary defaultJWTConfig) (manage (some adminToken) request) (envs n 1 "")
    (managedState role)

end Falx.Auth
