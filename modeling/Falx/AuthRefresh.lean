import Falx.AuthSessions

/-! Rotation of refresh tokens. The look-up of a session and its revocation are two
critical sections, so that two calls with one token can both get through. -/

namespace Falx.Auth

open Interleave

variable {lib : AuthLibrary} {cfg : JWTConfig} {s : State} {ι : Type} [DecidableEq ι]
  {sid raw : String}

/-- No call looks the session up between the look-up of a call and its revocation. -/
def LookupsApart (sid : String) (log : List (Entry ι Env Op.Res)) : Prop :=
  log.Triplewise fun g x r => g.caller = r.caller → g.event.1 = .getSession sid →
    r.event.1 = .revokeSession sid → x.event.1 ≠ .getSession sid

instance (sid : String) (log : List (Entry ι Env Op.Res)) : Decidable (LookupsApart sid log) :=
  inferInstanceAs (Decidable (log.Triplewise _))

section SingleUse

variable {calls : ι → Call (Except AuthError TokenPair)} {c : Config State ι Env Op.Res _}
  {i j : ι} {p q : TokenPair} {pre mid post : List (Entry ι Env Op.Res)} {g r : Entry ι Env Op.Res}
  {sess : Session}

theorem revoked_after_lookup (hc : Interleaving (sem lib cfg) s calls c)
    (hlog : c.log = pre ++ g :: mid ++ r :: post) (hg : g.event = ⟨.getSession sid, .ok sess⟩)
    (hr : r.event.1 = .revokeSession sid) (post' : List (Entry ι Env Op.Res)) :
    (replay (sem lib cfg) s (pre ++ g :: mid ++ r :: post')).Revoked sid := by
  have hfd : (replay (sem lib cfg) s pre).sessions sid = some sess :=
    (getSession_ok (hc.answer (by simpa using hlog) hg)).1
  obtain ⟨sess', hsess'⟩ :
      ∃ sess', (replay (sem lib cfg) s (pre ++ g :: mid)).sessions sid = some sess' := by
    rw [replay_append]
    obtain ⟨sess', hsess', -⟩ := replay_session hfd
    exact ⟨sess', hsess'⟩
  rw [replay_append, replay_cons]
  have hrev : (sem lib cfg r.env r.event.1 (replay (sem lib cfg) s (pre ++ g :: mid))).2.Revoked
      sid := by
    rw [hr]
    exact ⟨State.revoke sess', by simp [sem, State.revokeSession, State.modifySession, hsess'], rfl⟩
  exact replay_revoked hrev

section

variable (hc : Interleaving (sem lib cfg) s (fun _ => refreshTokens lib cfg sid raw) c)

include hc

theorem refreshed (hi : c.calls i = .ret (.ok p)) :
    ∃ pre g mid r post sess, c.log = pre ++ g :: mid ++ r :: post ∧ g.caller = i ∧ r.caller = i ∧
      g.event = ⟨.getSession sid, .ok sess⟩ ∧ r.event.1 = .revokeSession sid := by
  obtain ⟨-, -, -, -, -, -, hrevoke, -⟩ := hc.returns (refreshTokens_spec cfg) hi p rfl
  obtain ⟨front, r, post, hlog, rfl, hr⟩ := mem_events hrevoke
  have hop : r.event.1 = .revokeSession sid := by rw [hr]
  have hguar := hc.guarantee (refreshTokens_spec cfg) hlog
  rw [hop] at hguar
  obtain ⟨-, sess, user, hrot⟩ := hguar
  obtain ⟨pre, g, mid, rfl, hg, hfd⟩ := mem_events hrot.found
  exact ⟨pre, g, mid, r, post, sess, hlog, hg, rfl, hfd, hop⟩

theorem lookup_not_after (hap : LookupsApart sid c.log) {pre' post' : List (Entry ι Env Op.Res)}
    {g' : Entry ι Env Op.Res} {sess' : Session}
    (hlog : c.log = pre ++ g :: mid ++ r :: post) (hby : g.caller = r.caller)
    (hg : g.event = ⟨.getSession sid, .ok sess⟩) (hr : r.event.1 = .revokeSession sid)
    (hlog' : c.log = (pre ++ g :: pre') ++ g' :: post')
    (hg' : g'.event = ⟨.getSession sid, .ok sess'⟩) : False := by
  have hop : g.event.1 = .getSession sid := by rw [hg]
  have hop' : g'.event.1 = .getSession sid := by rw [hg']
  have hrest : mid ++ r :: post = pre' ++ g' :: post' := by
    rw [hlog] at hlog'
    simpa using hlog'
  rcases split_cases hrest with ⟨-, heq, -⟩ | ⟨t, rfl, -⟩ | ⟨t, rfl, -⟩
  · rw [heq, hop'] at hr
    cases hr
  · have hrevoked := revoked_after_lookup hc hlog hg hr t
    obtain ⟨found, hfd, hrev⟩ := hrevoked
    have hlive := getSession_ok (hc.answer hlog' hg')
    rw [← List.cons_append, ← List.append_assoc, hfd] at hlive
    cases hlive.1
    simp [hrev] at hlive
  · rw [LookupsApart, hlog, List.append_assoc, List.triplewise_append] at hap
    have hhead := (List.triplewise_cons.mp hap.2.1).1
    exact (List.pairwise_append.mp hhead).2.2 g' (by simp) r (by simp) hby hop hr hop'

end

/-- Of the calls that present one refresh token at most one returns tokens. -/
theorem refreshTokens_single_use {sched : List (ι × Env)}
    (hrun : run (sem lib cfg) (start s fun _ => refreshTokens lib cfg sid raw) sched = some c)
    (hapart : LookupsApart sid c.log) (hi : c.calls i = .ret (.ok p))
    (hj : c.calls j = .ret (.ok q)) : i = j := by
  have hc := run_interleaving hrun
  obtain ⟨pre, g, mid, r, post, sess, hlog, rfl, hr, hg, hop⟩ := refreshed hc hi
  obtain ⟨pre', g', mid', r', post', sess', hlog', rfl, hr', hg', hop'⟩ := refreshed hc hj
  have hsp : pre ++ g :: (mid ++ r :: post) = pre' ++ g' :: (mid' ++ r' :: post') := by
    rw [← List.cons_append, ← List.append_assoc, ← hlog, hlog']
    simp
  rcases split_cases hsp with ⟨-, rfl, -⟩ | ⟨t, rfl, -⟩ | ⟨t, rfl, -⟩
  · rfl
  · exact (lookup_not_after hc hapart hlog hr.symm hg hop (by simpa using hlog') hg').elim
  · exact (lookup_not_after hc hapart hlog' hr'.symm hg' hop' (by simpa using hlog) hg).elim

end SingleUse

def plainLibrary : AuthLibrary where
  toTotpLibrary := byteTotpLibrary
  hashPassword _ password := password
  verifyPassword password hash := password == hash
  verify_hash _ _ _ := by simp
  splitHost ipAddr := ipAddr

def sampleUser (id : String) (role : Role) : User where
  id
  username := id
  email := id
  passwordHash := "Old-password-1"
  role
  active := true
  locked := false
  failedAttempts := 0
  lastLogin := 0
  createdAt := 0
  updatedAt := 0
  createdBy := "system"
  totpSecret := ""
  totpEnabled := false
  displayName := ""

def emptyState : State where
  users := ⟨fun _ => none, fun h => nomatch h⟩
  byName _ := none
  byEmail _ := none
  sessions _ := none
  backupCodes _ := []
  loginRL _ := none
  pendingTOTP _ := none
  totpCache _ := none

def withUser (u : User) (s : State) : State :=
  { s with
    users := s.users.insert ⟨u, u⟩
    byName := Function.update s.byName u.username (some u.id)
    byEmail := Function.update s.byEmail u.email (some u.id) }

def sampleSession (id userID : String) : Session where
  id
  userID
  refreshToken := "token of " ++ id
  userAgent := ""
  ipAddress := ""
  createdAt := 0
  lastActivityAt := 0
  expiresAt := defaultJWTConfig.refreshTokenTTL
  revoked := false

def withSession (sess : Session) (s : State) : State :=
  { s with sessions := Function.update s.sessions sess.id (some sess) }

def signedInState : State :=
  emptyState |> withUser (sampleUser "alice" .analyst) |> withSession (sampleSession "s0" "alice")

def succeeded {ε α : Type} (p : Call (Except ε α)) : Bool :=
  match p with
  | .ret (.ok _) => true
  | _ => false

theorem succeeded_iff {ε α : Type} {p : Call (Except ε α)} :
    succeeded p = true ↔ ∃ a, p = .ret (.ok a) := by
  rcases p with (⟨err⟩ | ⟨a⟩) | ⟨o, k⟩ <;> simp [succeeded]

def racingRefreshes : List (Bool × Env) :=
  [false, false, true, true, false, false, false, false, false, false, true, true, true, true, true,
    true].map fun i => (i, { now := 1, newID := if i then "s1" else "s2" })

def refreshInTurn : Option (Config State Bool Env Op.Res (Except AuthError TokenPair)) :=
  run (sem plainLibrary defaultJWTConfig) (start signedInState fun _ =>
      refreshTokens plainLibrary defaultJWTConfig "s0" "token of s0")
    ([false, false, false, false, false, false, false, false, true].map fun i =>
      (i, { now := 1, newID := "s1" }))

theorem refreshTokens_single_use_in_turn : ∃ c p, refreshInTurn = some c ∧
    c.calls false = .ret (.ok p) ∧ ∀ j q, c.calls j = .ret (.ok q) → false = j := by
  have hrun : refreshInTurn.any (fun c =>
      succeeded (c.calls false) && decide (LookupsApart "s0" c.log)) = true := by decide +kernel
  obtain ⟨c, hc, hboth⟩ := (Option.any_eq_true _ _).mp hrun
  obtain ⟨hok, hap⟩ := Bool.and_eq_true_iff.mp hboth
  obtain ⟨p, hp⟩ := succeeded_iff.mp hok
  exact ⟨c, p, hc, hp, fun _ _ hq =>
    refreshTokens_single_use hc (of_decide_eq_true hap) hp hq⟩

theorem refreshTokens_used_twice :
    (run (sem plainLibrary defaultJWTConfig) (start signedInState fun _ =>
      refreshTokens plainLibrary defaultJWTConfig "s0" "token of s0") racingRefreshes).map
      (fun c => (succeeded (c.calls false), succeeded (c.calls true))) = some (true, true) := by
  decide +kernel

end Falx.Auth
