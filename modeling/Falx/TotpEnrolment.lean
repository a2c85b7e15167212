import Falx.AuthRefresh

/-! Confirming the enrolment in two-factor authentication, with the database operations of the
transaction that stores the backup codes one by one. A transaction that is not committed
changes nothing, but its failure is only logged. -/

namespace Falx.Auth

open Interleave

/-- What the database answers within a transaction: an error, or `none`. -/
structure TxEnv where
  begins : Option String := none
  clear : Option String := none
  insert : Nat → Option String := fun _ => none
  commit : Option String := none

namespace TxEnv

def insertAll (tx : TxEnv) (id : String) : Nat → List String → (String → List String) →
    Except AuthError (String → List String)
  | _, [], codes => .ok codes
  | n, hash :: hashed, codes =>
    match tx.insert n with
    | some err => .error (.new err)
    | none => tx.insertAll id (n + 1) hashed (Function.update codes id (codes id ++ [hash]))

/-- `UpdateBackupCodes`: what is not committed is rolled back. -/
def updateBackupCodes (tx : TxEnv) (id : String) (hashed : List String) (s : State) :
    Except AuthError Unit × State :=
  match tx.begins with
  | some err => (.error (.new err), s)
  | none =>
    match tx.clear with
    | some err => (.error (.new err), s)
    | none =>
      match tx.insertAll id 0 hashed (Function.update s.backupCodes id []) with
      | .error err => (.error err, s)
      | .ok codes =>
        match tx.commit with
        | some err => (.error (.new err), s)
        | none => (.ok (), { s with backupCodes := codes })

def insertFailure (tx : TxEnv) : Nat → Nat → Option String
  | _, 0 => none
  | n, k + 1 => (tx.insert n).or (tx.insertFailure (n + 1) k)

def failure (tx : TxEnv) (inserts : Nat) : Option String :=
  ((tx.begins.or tx.clear).or (tx.insertFailure 0 inserts)).or tx.commit

variable {tx : TxEnv} {id : String}

theorem insertAll_eq (n : Nat) (hashed : List String) (codes : String → List String) :
    tx.insertAll id n hashed codes =
      match tx.insertFailure n hashed.length with
      | some err => .error (.new err)
      | none => .ok (Function.update codes id (codes id ++ hashed)) := by
  induction hashed generalizing n codes with
  | nil => simp [insertAll, insertFailure]
  | cons hash hashed ih =>
    rw [insertAll, List.length_cons, insertFailure]
    cases tx.insert n with
    | some err => rfl
    | none =>
      rw [Option.none_or, ih]
      simp

theorem updateBackupCodes_eq (tx : TxEnv) (id : String) (hashed : List String) (s : State)
    (e : Env) :
    tx.updateBackupCodes id hashed s =
      s.updateBackupCodes { e with dbErr := tx.failure hashed.length } id hashed := by
  simp only [updateBackupCodes, State.updateBackupCodes, Env.db, failure, insertAll_eq]
  cases tx.begins with
  | some err => rfl
  | none =>
    cases tx.clear with
    | some err => rfl
    | none =>
      cases tx.insertFailure 0 hashed.length with
      | some err => rfl
      | none =>
        cases tx.commit with
        | some err => rfl
        | none => simp

theorem updateBackupCodes_users (tx : TxEnv) (id : String) (hashed : List String) (s : State) :
    (tx.updateBackupCodes id hashed s).2.users = s.users := by
  rw [tx.updateBackupCodes_eq id hashed s { now := 0 }, State.updateBackupCodes]
  split <;> rfl

theorem updateBackupCodes_codes (tx : TxEnv) (id : String) (hashed : List String) (s : State) :
    (tx.updateBackupCodes id hashed s).2.backupCodes id =
      if tx.failure hashed.length = none then hashed else s.backupCodes id := by
  rw [tx.updateBackupCodes_eq id hashed s { now := 0 }, State.updateBackupCodes, Env.db]
  cases tx.failure hashed.length with
  | none => exact Function.update_self _ _ _
  | some err => rfl

end TxEnv

/-- The operations of the store, with the transaction opened up. -/
def semTx (lib : AuthLibrary) (cfg : JWTConfig) (e : Env × TxEnv) : (op : Op) → State → op.Res × State
  | .updateBackupCodes id hashed, s => e.2.updateBackupCodes id hashed s
  | op, s => sem lib cfg e.1 op s

theorem semTx_eq_sem (lib : AuthLibrary) (cfg : JWTConfig) (e : Env × TxEnv) (op : Op) (s : State) :
    ∃ e' : Env, semTx lib cfg e op s = sem lib cfg e' op s := by
  cases op with
  | updateBackupCodes id hashed =>
    exact ⟨{ e.1 with dbErr := e.2.failure hashed.length },
      e.2.updateBackupCodes_eq id hashed s e.1⟩
  | _ => exact ⟨e.1, rfl⟩

section Confirm

variable {lib : AuthLibrary} {cfg : JWTConfig} {userID code : String} {es : List (Env × TxEnv)}
  {s t : State} {res : Except AuthError (List String)}

structure Unchanged (userID : String) (s t : State) : Prop where
  user : t.users.get userID = s.users.get userID
  backupCodes : t.backupCodes userID = s.backupCodes userID

def HashesOf (lib : AuthLibrary) (codes stored : List String) : Prop :=
  List.Forall₂ (fun code hash => ∃ salt, hash = lib.hashPassword salt code) codes stored

/-- The account, in the cache and in the database, has the pending secret, and its backup codes
are hashes of the codes that are returned. -/
structure Enrolled (lib : AuthLibrary) (userID : String) (codes : List String) (s t : State) :
    Prop where
  pending : ∃ entry, s.pendingTOTP userID = some entry ∧ codes = entry.plainCodes ∧
    ∃ rec, t.users.get userID = some rec ∧
      rec.cached.totpEnabled = true ∧ rec.cached.totpSecret = entry.secret ∧
      rec.row.totpEnabled = true ∧ rec.row.totpSecret = entry.secret
  backupCodes : HashesOf lib codes (t.backupCodes userID)

theorem takePendingTOTP_cases {e : Env} {r : Except AuthError PendingTOTPEntry}
    (h : s.takePendingTOTP e userID = (r, t)) :
    (t.users = s.users ∧ t.backupCodes = s.backupCodes) ∧
      ∀ entry, r = .ok entry → s.pendingTOTP userID = some entry := by
  unfold State.takePendingTOTP at h
  cases hp : s.pendingTOTP userID with
  | none =>
    rw [hp] at h
    cases h
    exact ⟨⟨rfl, rfl⟩, nofun⟩
  | some entry =>
    rw [hp] at h
    dsimp only at h
    split at h
    · cases h
      exact ⟨⟨rfl, rfl⟩, nofun⟩
    · cases h
      exact ⟨⟨rfl, rfl⟩, fun _ h => congrArg some (Except.ok.inj h)⟩

theorem hashesOf_map (lib : AuthLibrary) (salt : String) (codes : List String) :
    HashesOf lib codes (codes.map (lib.hashPassword salt)) := by
  rw [HashesOf, List.forall₂_map_right_iff, List.forall₂_same]
  exact fun code _ => ⟨salt, rfl⟩

theorem confirmTOTPSetup_cases
    (h : exec (semTx lib cfg) (confirmTOTPSetup userID code) es s = some (res, t)) :
    (∃ err, res = .error err ∧ t.users = s.users ∧ t.backupCodes = s.backupCodes) ∨
      ∃ entry now tx salt, s.pendingTOTP userID = some entry ∧ res = .ok entry.plainCodes ∧
        es[4]?.map Prod.snd = some tx ∧
        t.users.get userID = (s.users.get userID).map (fun r =>
          ⟨State.setTOTP entry.secret true now r.cached, State.setTOTP entry.secret true now r.row⟩) ∧
        t.backupCodes userID =
          if tx.failure entry.plainCodes.length = none then
            entry.plainCodes.map (lib.hashPassword salt)
          else s.backupCodes userID := by
  obtain ⟨e₁, es₁, rfl, h₁⟩ := exec_call h
  rcases htake : semTx lib cfg e₁ (.takePendingTOTP userID) s with ⟨pending, s₁⟩
  rw [htake] at h₁
  obtain ⟨⟨hus₁, hcd₁⟩, hpend⟩ := takePendingTOTP_cases htake
  rcases pending with err | entry
  · obtain ⟨rfl, rfl⟩ := exec_ret h₁
    exact .inl ⟨err, rfl, hus₁, hcd₁⟩
  obtain ⟨e₂, es₂, rfl, h₂⟩ := exec_call h₁
  rcases hver : semTx lib cfg e₂ (.verifyTOTP entry.secret code) s₁ with ⟨valid, s₂⟩
  rw [hver] at h₂
  have hs₂ : _ = s₂ := congrArg Prod.snd hver
  have hus₂ : s₂.users = s.users := hs₂ ▸ hus₁
  have hcd₂ : s₂.backupCodes = s.backupCodes := hs₂ ▸ hcd₁
  cases valid with
  | false =>
    obtain ⟨rfl, rfl⟩ := exec_ret h₂
    exact .inl ⟨_, rfl, hus₂, hcd₂⟩
  | true =>
  obtain ⟨e₃, es₃, rfl, h₃⟩ := exec_call h₂
  cases hrand : e₃.1.randErr with
  | some err =>
    simp only [semTx, sem, hrand] at h₃
    obtain ⟨rfl, rfl⟩ := exec_ret h₃
    exact .inl ⟨_, rfl, hus₂, hcd₂⟩
  | none =>
  simp only [semTx, sem, hrand] at h₃
  obtain ⟨e₄, es₄, rfl, h₄⟩ := exec_call h₃
  rcases hkey : semTx lib cfg e₄ (.updateTOTPSecret userID entry.secret true) s₂ with ⟨saved, s₄⟩
  rw [hkey] at h₄
  simp only [semTx, sem, State.updateTOTPSecret] at hkey
  split at hkey
  · cases hkey
    obtain ⟨rfl, rfl⟩ := exec_ret h₄
    exact .inl ⟨_, rfl, hus₂, hcd₂⟩
  cases hkey
  obtain ⟨e₅, es₅, rfl, h₅⟩ := exec_call h₄
  obtain ⟨e₆, es₆, rfl, h₆⟩ := exec_call h₅
  obtain ⟨rfl, rfl⟩ := exec_ret h₆
  refine .inr ⟨entry, e₄.1.now, e₅.2, e₃.1.salt, hpend entry rfl, rfl, rfl, ?_, ?_⟩
  · rw [← hus₂]
    refine (congrArg (fun users => users.get userID)
      (e₅.2.updateBackupCodes_users userID _ _)).trans ?_
    exact Function.update_self userID _ s₂.users.get
  · refine (e₅.2.updateBackupCodes_codes userID _ _).trans ?_
    rw [List.length_map, ← hcd₂]
    rfl

/-- A confirmation that returns codes has enrolled the account with them if and only if no
operation of the fifth database access, the transaction for the backup codes, has failed, or
the codes stored before were already theirs. One that returns an error has changed nothing,
whatever has failed. -/
theorem enrolment_atomic {rec : UserRecord} (haccount : s.users.get userID = some rec)
    (h : exec (semTx lib cfg) (confirmTOTPSetup userID code) es s = some (res, t)) :
    (∀ codes, res = .ok codes → (Enrolled lib userID codes s t ↔
      (∃ tx, es[4]?.map Prod.snd = some tx ∧ tx.failure codes.length = none) ∨
        HashesOf lib codes (s.backupCodes userID))) ∧
      ∀ err, res = .error err → Unchanged userID s t := by
  rcases confirmTOTPSetup_cases h with
    ⟨err, rfl, hus, hcd⟩ | ⟨entry, now, tx, salt, hpend, rfl, htx, huser, hcd⟩
  · refine ⟨nofun, fun _ _ => ⟨?_, ?_⟩⟩
    · rw [hus]
    · rw [hcd]
  refine ⟨fun codes hres => ?_, nofun⟩
  cases hres
  rw [haccount, Option.map_some] at huser
  have hiff : Enrolled lib userID entry.plainCodes s t ↔
      HashesOf lib entry.plainCodes (t.backupCodes userID) :=
    ⟨Enrolled.backupCodes, fun h => ⟨⟨entry, hpend, rfl, _, huser, rfl, rfl, rfl, rfl⟩, h⟩⟩
  rw [hiff, hcd, htx]
  by_cases hfail : tx.failure entry.plainCodes.length = none
  · rw [if_pos hfail]
    exact ⟨fun _ => .inl ⟨tx, rfl, hfail⟩, fun _ => hashesOf_map lib salt entry.plainCodes⟩
  · rw [if_neg hfail]
    refine ⟨.inr, fun h => h.resolve_left ?_⟩
    rintro ⟨tx', htx', hnone⟩
    exact hfail (Option.some.inj htx' ▸ hnone)

end Confirm

def applicantState : State :=
  { (emptyState |> withUser (sampleUser "root" .superAdmin)) with
    pendingTOTP := Function.update (fun _ => none) "root"
      (some ⟨"A", ["AAAA-BBBB", "CCCC-DDDD"], 4000 * second⟩) }

def applicantRun (tx : TxEnv) : Option (Except AuthError (List String) × State) :=
  exec (semTx plainLibrary defaultJWTConfig) (confirmTOTPSetup "root" "000100")
    (.replicate 6 ({ now := 3000 * second }, tx)) applicantState

theorem applicantRun_any {tx : TxEnv} {p : State → Bool}
    (h : (applicantRun tx).any (fun r =>
      r.1.toOption == some ["AAAA-BBBB", "CCCC-DDDD"] && p r.2) = true) :
    ∃ t, applicantRun tx = some (.ok ["AAAA-BBBB", "CCCC-DDDD"], t) ∧ p t = true := by
  obtain ⟨⟨res, t⟩, hrun, hall⟩ := (Option.any_eq_true _ _).mp h
  obtain ⟨hres, hp⟩ := (Bool.and_eq_true _ _).mp hall
  cases res with
  | error err => cases hres
  | ok codes =>
    cases Option.some.inj (eq_of_beq hres)
    exact ⟨t, hrun, hp⟩

theorem enrolment_atomic_applicant :
    ∃ t, applicantRun {} = some (.ok ["AAAA-BBBB", "CCCC-DDDD"], t) ∧
      Enrolled plainLibrary "root" ["AAAA-BBBB", "CCCC-DDDD"] applicantState t := by
  obtain ⟨t, hrun, -⟩ := @applicantRun_any {} (fun _ => true) (by decide +kernel)
  have hacct : applicantState.users.get "root" = some ⟨sampleUser "root" .superAdmin,
      sampleUser "root" .superAdmin⟩ := by decide +kernel
  exact ⟨t, hrun, ((enrolment_atomic hacct hrun).1 _ rfl).mpr (.inl ⟨{}, rfl, rfl⟩)⟩

/-- The commit of the backup codes fails: they are returned, two-factor authentication is on,
and none of them is stored. -/
theorem enrolment_without_codes : ∃ t, applicantRun { commit := some "disk I/O error" } =
        some (.ok ["AAAA-BBBB", "CCCC-DDDD"], t) ∧
      (t.users.get "root").map (fun r => r.cached.totpEnabled) = some true ∧
      t.backupCodes "root" = [] ∧
      ¬ Enrolled plainLibrary "root" ["AAAA-BBBB", "CCCC-DDDD"] applicantState t := by
  obtain ⟨t, hrun, ht⟩ := @applicantRun_any { commit := some "disk I/O error" }
    (fun t => decide ((t.users.get "root").map (fun r => r.cached.totpEnabled) = some true ∧
      t.backupCodes "root" = [])) (by decide +kernel)
  obtain ⟨hon, hcd⟩ := of_decide_eq_true ht
  refine ⟨t, hrun, hon, hcd, fun h => ?_⟩
  have hlen := h.backupCodes.length_eq
  rw [hcd] at hlen
  cases hlen

end Falx.Auth
