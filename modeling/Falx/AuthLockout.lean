import Falx.AuthLifetime

/-! Failed logins are counted and lock the account at the fifth. The count is that of the
wrong passwords; a login that succeeds resets it and then writes its own copy back. -/

namespace Falx.Auth

open Interleave

variable {lib : AuthLibrary} {cfg : JWTConfig} {e : Env} {s t : State} {u name : String}
  {rec : UserRecord} {o : Op}

structure Account (u name : String) (rec : UserRecord) (s : State) : Prop where
  record : s.users.get u = some rec
  named : s.byName name = some u

section

variable (h : Account u name rec s)

include h

theorem Account.lookup : s.getUserByUsername name = .ok rec.cached := by
  simp [State.getUserByUsername, State.getUserByID, h.named, h.record]

theorem Account.sem (ho : ∀ v, o ≠ .createUser v) :
    Account u name (if o.target = some u then o.onUser e rec else rec) (sem lib cfg e o s).2 where
  record := sem_user o h.record
  named := by rw [(sem_frame o).byName ho, h.named]

theorem Account.skip (ho : ∀ v, o ≠ .createUser v)
    (htgt : o.target = none) : Account u name rec (Auth.sem lib cfg e o s).2 := by
  have hstep : Account u name (if o.target = some u then o.onUser e rec else rec)
      (Auth.sem lib cfg e o s).2 := h.sem ho
  rwa [htgt, if_neg (by simp)] at hstep

end

section Wp

variable {α : Type} {k : o.Res → Call α} {post : α → State → Prop}

section

variable (h : Account u name rec s) (ho : ∀ v, o ≠ .createUser v)

include h ho

theorem Account.wp_skip (htgt : o.target = none)
    (hk : ∀ r s', Account u name rec s' → wp (Auth.sem lib cfg) (fun _ => True) post (k r) s') :
    wp (Auth.sem lib cfg) (fun _ => True) post (.call o k) s :=
  fun _ _ => hk _ _ (h.skip ho htgt)

theorem Account.wp_write (htgt : o.target = some u)
    (hk : ∀ e r s', Account u name (o.onUser e rec) s' →
      wp (Auth.sem lib cfg) (fun _ => True) post (k r) s') :
    wp (Auth.sem lib cfg) (fun _ => True) post (.call o k) s := by
  intro e _
  have hstep : Account u name (if o.target = some u then o.onUser e rec else rec)
      (Auth.sem lib cfg e o s).2 := h.sem ho
  rw [if_pos htgt] at hstep
  exact hk e _ _ hstep

end

end Wp

structure CountReset (rec rec' : UserRecord) : Prop where
  active : rec'.cached.active = rec.cached.active
  count : rec'.cached.failedAttempts = 0
  locked : rec'.cached.locked = rec.cached.locked
  row : rec.row.failedAttempts = 0 → rec'.row.failedAttempts = 0

theorem CountReset.reset (rec : UserRecord) :
    CountReset rec ((Op.resetFailedLogin u).onUser e rec) where
  active := rfl
  count := rfl
  locked := rfl
  row h := by
    by_cases hdb : e.db = none <;> simp [Op.onUser, hdb, h]

theorem CountReset.update {rec' : UserRecord} (h : CountReset rec rec')
    (hcnt : rec.cached.failedAttempts = 0) (now : Int) :
    CountReset rec ((Op.updateUser { rec.cached with lastLogin := now }).onUser e rec') := by
  cases hdb : e.db with
  | none => exact ⟨by simp [Op.onUser, hdb], by simp [Op.onUser, hdb, hcnt],
      by simp [Op.onUser, hdb], by simp [Op.onUser, hdb, State.updateColumns, hcnt]⟩
  | some err => simpa [Op.onUser, hdb] using h

def Opened (u name : String) (rec : UserRecord) (reply : Except AuthError LoginResponse)
    (t : State) : Prop :=
  reply ≠ .error .invalidCredentials ∧ ∃ rec', Account u name rec' t ∧ CountReset rec rec'

theorem openSession_opened (hacc : Account u name rec s) (hcnt : rec.cached.failedAttempts = 0)
    (ipAddr userAgent : String) :
    wp (sem lib cfg) (fun _ => True) (Opened u name rec)
      (openSession cfg rec.cached ipAddr userAgent) s := by
  have hid : rec.cached.id = u := s.users.keyed hacc.record
  refine hacc.wp_write (by simp) (by rw [← hid]; rfl) fun e _ s hacc => ?_
  have hrs : CountReset rec ((Op.resetFailedLogin rec.cached.id).onUser e rec) := .reset rec
  refine hacc.wp_skip (by simp) rfl ?_
  rintro (err | ⟨raw, hashed⟩) s hacc
  · exact ⟨by simp, _, hacc, hrs⟩
  refine hacc.wp_skip (by simp) rfl fun now s hacc => ?_
  refine hacc.wp_skip (by simp) rfl ?_
  rintro (err | sess) s hacc
  · exact ⟨by simp, _, hacc, hrs⟩
  refine hacc.wp_skip (by simp) rfl ?_
  rintro (err | token) s hacc
  · exact ⟨by simp, _, hacc, hrs⟩
  refine hacc.wp_skip (by simp) rfl fun lastLogin s hacc => ?_
  refine hacc.wp_write (by simp) (by rw [← hid]; rfl) fun e _ s hacc => ?_
  exact ⟨by simp, _, hacc, hrs.update hcnt lastLogin⟩

def Reply.failedAuth : Reply → Bool
  | .login (.error .invalidCredentials) => true
  | _ => false

def Reply.loggedIn : Reply → Bool
  | .login (.ok _) => true
  | _ => false

variable {reply : Except AuthError LoginResponse} {ipAddr userAgent : String} {es : List Env}
  {req : LoginRequest} {r : Record Request Env Reply State}

theorem failedAuth_of_ne (h : reply ≠ .error .invalidCredentials) :
    (Reply.login reply).failedAuth = false := by
  rcases reply with err | resp
  · cases err with
    | invalidCredentials => exact (h rfl).elim
    | _ => rfl
  · rfl

/-- The failures in a row after some calls, with those before them. -/
def streak (n : Nat) (rs : List (Record Request Env Reply State)) : Nat :=
  rs.foldl (fun n r => if r.reply.failedAuth then n + 1 else if r.reply.loggedIn then 0 else n) n

/-- If a login passes the password and does not leave a code out that is asked for, the code
is right when it is checked, by the third operation, and no failure is on record. -/
def RegularLogin (lib : AuthLibrary) (req : LoginRequest) (envs : List Env) (s : State)
    (rec : UserRecord) : Prop :=
  rec.cached.locked = false → lib.verifyPassword req.password rec.cached.passwordHash = true →
    (rec.cached.totpEnabled = true → req.totpCode ≠ "") →
    rec.cached.failedAttempts = 0 ∧ (rec.cached.totpEnabled = true → ∀ e ∈ envs[2]?,
      (s.verifyTOTP lib.toTotpLibrary e rec.cached.totpSecret req.totpCode).1 = true)

instance (lib : AuthLibrary) (req : LoginRequest) (envs : List Env) (s : State)
    (rec : UserRecord) : Decidable (RegularLogin lib req envs s rec) :=
  inferInstanceAs (Decidable (_ → _))

def Regular (lib : AuthLibrary) (u : String) (r : Record Request Env Reply State) : Prop :=
  ∀ req ipAddr userAgent, r.req = .login req ipAddr userAgent →
    ∀ rec ∈ r.pre.users.get u, RegularLogin lib req r.envs r.pre rec

inductive Counts (rec rec' : UserRecord) : Except AuthError LoginResponse → Prop where
  | failed (hunlocked : rec.cached.locked = false)
      (hcount : rec'.cached.failedAttempts = rec.cached.failedAttempts + 1)
      (hlocked : rec'.cached.locked = decide (5 ≤ rec.cached.failedAttempts + 1)) :
      Counts rec rec' (.error .invalidCredentials)
  | opened {reply : Except AuthError LoginResponse} (hreply : reply ≠ .error .invalidCredentials)
      (hcount : rec.cached.failedAttempts = 0) (hreset : CountReset rec rec') : Counts rec rec' reply
  | refused {err : AuthError} (herr : err ≠ .invalidCredentials) (hsame : rec' = rec) :
      Counts rec rec' (.error err)

theorem checkLoginRate_error {err : AuthError}
    (h : (sem lib cfg e (.checkLoginRate ipAddr) s).1 = .error err) :
    err ≠ .invalidCredentials := by
  simp only [sem, State.checkLoginRate] at h
  repeat' split at h
  all_goals
    cases h
    try simp

theorem checkLoginRate_totpCache :
    (sem lib cfg e (.checkLoginRate ipAddr) s).2.totpCache = s.totpCache := by
  simp only [sem, State.checkLoginRate]
  repeat' split
  all_goals rfl

theorem openSession_counts
    (h : exec (sem lib cfg) (openSession cfg rec.cached ipAddr userAgent) es s = some (reply, t))
    (hacc : Account u name rec s) (hact : rec.cached.active = true)
    (hcnt : rec.cached.failedAttempts = 0) :
    ∃ rec', Account u name rec' t ∧ rec'.cached.active = true ∧ Counts rec rec' reply := by
  obtain ⟨hre, rec', hacc', hrs⟩ :=
    exec_of_wp (openSession_opened hacc hcnt ipAddr userAgent) (fun _ _ => trivial) h
  exact ⟨rec', hacc', hrs.active.trans hact, .opened hre hcnt hrs⟩

theorem recordFailedLogin_counts (hacc : Account u name rec s) (hact : rec.cached.active = true)
    (hfree : rec.cached.locked = false) : ∃ rec',
      Account u name rec' (sem lib cfg e (.recordFailedLogin rec.cached.id) s).2 ∧
      rec'.cached.active = true ∧ Counts rec rec' (.error .invalidCredentials) := by
  have hacc' : Account u name _ (sem lib cfg e (.recordFailedLogin rec.cached.id) s).2 :=
    hacc.sem (by simp)
  rw [Op.target, if_pos (by rw [s.users.keyed hacc.record])] at hacc'
  refine ⟨_, hacc', hact, .failed hfree rfl ?_⟩
  simp [Op.onUser, State.recordFailure, hfree, State.maxFailedAttempts]

theorem login_counts
    (h : exec (sem lib cfg) (login lib cfg req ipAddr userAgent) es s = some (reply, t))
    (hacc : Account u req.username rec s) (hact : rec.cached.active = true)
    (hreg : RegularLogin lib req es s rec) :
    ∃ rec', Account u req.username rec' t ∧ rec'.cached.active = true ∧ Counts rec rec' reply := by
  obtain ⟨e₁, es₁, rfl, h₁⟩ := exec_call h
  rcases hrate : sem lib cfg e₁ (.checkLoginRate ipAddr) s with ⟨rate, s₁⟩
  rw [hrate] at h₁
  have hs₁ : _ = s₁ := congrArg Prod.snd hrate
  have hca : s₁.totpCache = s.totpCache := hs₁ ▸ checkLoginRate_totpCache
  have hacc₁ : Account u req.username rec s₁ := by
    rw [← hs₁]
    exact hacc.skip (by simp) rfl
  rcases rate with err | ⟨⟩
  · obtain ⟨rfl, rfl⟩ := exec_ret h₁
    exact ⟨rec, hacc₁, hact, .refused (checkLoginRate_error (congrArg Prod.fst hrate)) rfl⟩
  obtain ⟨e₂, es₂, rfl, h₂⟩ := exec_call h₁
  have hget : sem lib cfg e₂ (.getUserByUsername req.username) s₁ = (.ok rec.cached, s₁) :=
    Prod.ext hacc₁.lookup rfl
  rw [hget] at h₂
  dsimp only [Prog.bind] at h₂
  rw [if_neg (by simp [hact])] at h₂
  by_cases hlock : rec.cached.locked = true
  · rw [if_pos hlock] at h₂
    obtain ⟨rfl, rfl⟩ := exec_ret h₂
    exact ⟨rec, hacc₁, hact, .refused (by simp) rfl⟩
  rw [if_neg hlock] at h₂
  by_cases hpw : lib.verifyPassword req.password rec.cached.passwordHash = true
  · rw [if_neg (by simp [hpw])] at h₂
    have hreg := hreg (by simpa using hlock) hpw
    by_cases htotp : rec.cached.totpEnabled = true
    · rw [if_neg (by simp [htotp])] at h₂
      by_cases hcode : req.totpCode = ""
      · rw [if_pos hcode] at h₂
        obtain ⟨rfl, rfl⟩ := exec_ret h₂
        exact ⟨rec, hacc₁, hact, .refused (by simp) rfl⟩
      · rw [if_neg hcode] at h₂
        obtain ⟨hcnt, hva⟩ := hreg fun _ => hcode
        obtain ⟨e₃, es₃, rfl, h₃⟩ := exec_call h₂
        have hver : (sem lib cfg e₃ (.verifyTOTP rec.cached.totpSecret req.totpCode) s₁).1 =
            true := by simpa [sem, State.verifyTOTP, hca] using hva htotp e₃ rfl
        rw [hver] at h₃
        exact openSession_counts h₃ (hacc₁.skip (by simp) rfl) hact hcnt
    · rw [if_pos (by simpa using htotp)] at h₂
      exact openSession_counts h₂ hacc₁ hact (hreg fun h => (htotp h).elim).1
  · rw [if_pos (by simpa using hpw)] at h₂
    obtain ⟨e₃, es₃, rfl, h₃⟩ := exec_call h₂
    obtain ⟨rfl, rfl⟩ := exec_ret h₃
    exact recordFailedLogin_counts hacc₁ hact (by simpa using hlock)

def Counting (u name : String) (n : Nat) (s : State) : Prop :=
  ∃ rec, Account u name rec s ∧ rec.cached.active = true ∧ rec.cached.failedAttempts = n ∧
    (rec.cached.locked = true ↔ 5 ≤ n) ∧ (n = 0 → rec.row.failedAttempts = 0)

theorem serve_counting {n : Nat} (hreq : r.req = .login req ipAddr userAgent)
    (h : exec (sem lib cfg) (serve lib cfg r.req) r.envs r.pre = some (r.reply, r.post))
    (hcnt : Counting u req.username n r.pre) (hreg : Regular lib u r) :
    Counting u req.username (streak n [r]) r.post := by
  obtain ⟨rec, hacc, hact, rfl, hlock, hrow⟩ := hcnt
  have hreg := hreg req ipAddr userAgent hreq rec hacc.record
  rw [hreq] at h
  obtain ⟨reply, hexec, hre⟩ := exec_map h
  obtain ⟨rec', hacc', hact', hcnts⟩ := login_counts hexec hacc hact hreg
  refine ⟨rec', hacc', hact', ?_⟩
  cases hcnts with
  | failed hfree hcount hlock' =>
    have hn : streak rec.cached.failedAttempts [r] = rec.cached.failedAttempts + 1 := by
      simp [streak, ← hre, Reply.failedAuth]
    rw [hn]
    exact ⟨hcount, by simp [hlock'], by simp⟩
  | opened hne hcount hrs =>
    have hn : streak rec.cached.failedAttempts [r] = 0 := by
      simp [streak, ← hre, failedAuth_of_ne hne, hcount]
    rw [hn]
    exact ⟨hrs.count, by rw [hrs.locked, hlock, hcount], fun _ => hrs.row (hrow hcount)⟩
  | @refused err herr hsame =>
    have hn : streak rec.cached.failedAttempts [r] = rec.cached.failedAttempts := by
      have hne : (Except.error err : Except AuthError LoginResponse) ≠ .error .invalidCredentials :=
        fun h => herr (Except.error.inj h)
      simp [streak, ← hre, failedAuth_of_ne hne, Reply.loggedIn]
    rw [hn, hsame]
    exact ⟨rfl, hlock, hrow⟩

theorem streak_concat_loggedIn (n : Nat) (rs : List (Record Request Env Reply State))
    (h : r.reply.loggedIn = true) : streak n (rs ++ [r]) = 0 := by
  have hne : r.reply.failedAuth = false := by
    generalize r.reply = reply at h
    rcases reply with (err | resp) | _ | _ | _ | _ | _ | _ | _ <;> first | rfl | cases h
  simp [streak, hne, h]

/-- An account is locked exactly when five logins in a row have failed, and after a login
that succeeds no failure is on record. -/
theorem lockout_accounting {n : Nat} {rs : List (Record Request Env Reply State)}
    (hrun : Sequence (sem lib cfg) (serve lib cfg) s rs t)
    (hlogins : ∀ r ∈ rs, ∃ req ipAddr userAgent, r.req = .login req ipAddr userAgent ∧
      req.username = name)
    (hstart : Counting u name n s) (hregular : ∀ r ∈ rs, Regular lib u r) :
    ∃ rec, t.users.get u = some rec ∧ (rec.cached.locked = true ↔ 5 ≤ streak n rs) ∧
      ∀ r, rs.getLast? = some r → r.reply.loggedIn = true →
        rec.cached.failedAttempts = 0 ∧ rec.row.failedAttempts = 0 := by
  have hcnt : Counting u name (streak n rs) t := by
    induction hrun generalizing n with
    | nil s => exact hstart
    | @cons r rs t hexec hrest ih =>
      obtain ⟨req, ipAddr, userAgent, hreq, rfl⟩ := hlogins r List.mem_cons_self
      have hstep := serve_counting hreq hexec hstart (hregular r List.mem_cons_self)
      exact ih (fun r' hr' => hlogins r' (List.mem_cons_of_mem _ hr')) hstep
        fun r' hr' => hregular r' (List.mem_cons_of_mem _ hr')
  obtain ⟨rec, hacc, -, hn, hlock, hrow⟩ := hcnt
  refine ⟨rec, hacc.record, hlock, fun r hr hlogged => ?_⟩
  obtain ⟨init, rfl⟩ := List.getLast?_eq_some_iff.mp hr
  rw [streak_concat_loggedIn n init hlogged] at hn hrow
  exact ⟨hn, hrow rfl⟩

def attempt (password : String) : Request := .login ⟨"alice", password, ""⟩ "192.0.2.1:4711" ""

def rightThenWrong : List (Request × List Env) :=
  (attempt "Old-password-1", envs 9 1 "s1") :: .replicate 5 (attempt "guess", envs 3 2 "")

def regularCheck (lib : AuthLibrary) (u : String) (r : Record Request Env Reply State) : Bool :=
  match r.req with
  | .login req _ _ => decide (∀ rec ∈ r.pre.users.get u, RegularLogin lib req r.envs r.pre rec)
  | _ => true

theorem regular_of_check (h : regularCheck lib u r = true) : Regular lib u r := by
  intro req ipAddr userAgent hreq
  rw [regularCheck, hreq] at h
  exact of_decide_eq_true h

theorem lockout_accounting_right_then_wrong : ∃ rs t rec,
    Sequence (sem plainLibrary defaultJWTConfig) (serve plainLibrary defaultJWTConfig) signedInState
      rs t ∧ streak 0 rs = 5 ∧ t.users.get "alice" = some rec ∧ rec.cached.locked = true := by
  have hrun : (runSample signedInState rightThenWrong).any (fun run =>
      decide (run.1.map (·.req) = rightThenWrong.map (·.1) ∧ streak 0 run.1 = 5 ∧
        ∀ r ∈ run.1, regularCheck plainLibrary "alice" r = true)) = true := by decide +kernel
  obtain ⟨rs, t, hseq, hall⟩ := runSample_any hrun
  obtain ⟨hreqs, hstreak, hreg⟩ := of_decide_eq_true hall
  have hlog : ∀ r ∈ rs, ∃ req ipAddr userAgent, r.req = .login req ipAddr userAgent ∧
      req.username = "alice" := by
    intro r hr
    have hmem : r.req ∈ rightThenWrong.map (·.1) := hreqs ▸ List.mem_map_of_mem hr
    rcases List.mem_cons.mp hmem with hreq | hreq
    · exact ⟨_, _, _, hreq, rfl⟩
    · rw [List.map_replicate] at hreq
      exact ⟨_, _, _, List.eq_of_mem_replicate hreq, rfl⟩
  have hst : Counting "alice" "alice" 0 signedInState :=
    ⟨_, ⟨rfl, rfl⟩, rfl, rfl, by decide, fun _ => rfl⟩
  obtain ⟨rec, hget, hlock, -⟩ :=
    lockout_accounting hseq hlog hst fun r hr => regular_of_check (hreg r hr)
  exact ⟨rs, t, rec, hseq, hstreak, hget, hlock.mpr (by rw [hstreak])⟩

def wrongRightWrong : List (Request × List Env) :=
  (attempt "guess", envs 3 1 "") :: (attempt "Old-password-1", envs 9 2 "s1") ::
    .replicate 4 (attempt "guess", envs 3 3 "")

theorem wrongRightWrong_locked :
    ((runSample signedInState (wrongRightWrong.take 2)).map fun run =>
        (run.1.map (·.reply.loggedIn), (run.2.users.get "alice").map fun rec =>
          (rec.cached.failedAttempts, rec.row.failedAttempts))) =
      some ([false, true], some (1, 1)) ∧
    ((runSample signedInState wrongRightWrong).map fun run =>
        (streak 0 run.1, (run.2.users.get "alice").map (·.cached.locked))) =
      some (4, some true) := by
  decide +kernel

end Falx.Auth
