import Falx.AuthRefresh
import Falx.AuthUsers

/-! The life of a session over runs of the service. A session that has been refused as
revoked, expired or inactive stays refused, and so does every session of a user whose
sessions have been revoked together. -/

namespace Falx.Auth

open Interleave

variable {lib : AuthLibrary} {cfg : JWTConfig} {s t : State} {sid : String} {now : Int}
  {req : Request} {reply : Reply} {es : List Env}

theorem requestGuar_touchSession {h : History} (hguar : requestGuar lib req h (.touchSession sid)) :
    ∃ sess, Answered h (.getSession sid) (.ok sess) := by
  cases req with
  | validateRequest token => exact hguar
  | totpBegin token => exact hguar.resolve_right fun ⟨_, _, hguar⟩ => hguar
  | totpConfirm token code =>
    rcases hguar with hguar | ⟨claims, -, hguar | hguar | ⟨user, hguar⟩⟩
    · exact hguar
    · exact hguar.elim
    · cases hguar
    · cases hguar
  | logout sessionID | logoutAll userID => cases hguar
  | _ => exact hguar.elim

section Interleavings

variable {ι : Type} [DecidableEq ι] {reqs : ι → Request} {c : Config State ι Env Op.Res Reply}

section

variable (hc : Interleaving (sem lib cfg) s (fun i => serve lib cfg (reqs i)) c)
  (hdead : s.Dead cfg now sid)
  (hclock : ∀ en ∈ c.log, now ≤ en.env.now)

include hc hdead hclock

theorem dead_of_interleaving {pre post : List (Entry ι Env Op.Res)} (hlog : c.log = pre ++ post) :
    (replay (sem lib cfg) s pre).Dead cfg now sid := by
  refine fold_induction (P := fun pre => (replay (sem lib cfg) s pre).Dead cfg now sid) hdead
    (fun pre en post hlog ih => ?_) hlog
  rw [replay_concat]
  refine sem_dead _ (fun htouch => ?_) (ih pre [] (by simp))
  have hguar := hc.guarantee (serve_spec lib cfg (reqs en.caller)) hlog
  rw [htouch] at hguar
  obtain ⟨sess, hsess⟩ := requestGuar_touchSession hguar
  obtain ⟨p, g, q, rfl, -, -, hok⟩ := hc.answered hlog hsess
  have hnow : now ≤ g.env.now := hclock g (by rw [hlog]; simp)
  exact (ih p (g :: q) rfl).getSession_ne_ok hnow sess hok

theorem not_answered_of_dead {i : ι} {sess : Session} :
    ¬Answered (events i c.log) (.getSession sid) (.ok sess) := by
  intro hsess
  obtain ⟨p, g, q, hlog, -, -, hok⟩ := hc.answered_log hsess
  have hnow : now ≤ g.env.now := hclock g (by rw [hlog]; simp)
  exact (dead_of_interleaving hc hdead hclock hlog).getSession_ne_ok hnow sess hok

end

end Interleavings

def accepted : Request → Reply → Option String
  | .validateRequest _, .claims (.ok claims) => some claims.sessionID
  | .refreshTokens sessionID _, .tokens (.ok _) => some sessionID
  | _, _ => none

def AuthError.isDeath : AuthError → Bool
  | sessionRevoked | sessionExpired | inactivityTimeout => true
  | _ => false

def refused : Request → Reply → Option String
  | .validateRequest token, .claims (.error err) =>
    if err.isDeath then some token.sessionID else none
  | .refreshTokens sessionID _, .tokens (.error err) =>
    if err.isDeath then some sessionID else none
  | _, _ => none

def revokedAll : Request → Reply → Option String
  | .logoutAll userID, .done (.ok ()) => some userID
  | .changePassword userID _, .done (.ok ()) => some userID
  | .lockUser _ targetID, .message (.ok _) => some targetID
  | .disableTOTPSetup targetUserID, .done (.ok ()) => some targetUserID
  | _, _ => none

theorem accepted_cases {h : History} (hpost : requestPost lib req h reply)
    (hacc : accepted req reply = some sid) : ∃ sess, Answered h (.getSession sid) (.ok sess) := by
  cases req with
  | validateRequest token =>
    rcases reply with r | r | (err | claims) | r | r | r | r | r <;> try cases hacc
    obtain ⟨sess, -, hsess⟩ := hpost claims rfl
    exact ⟨sess, hsess⟩
  | refreshTokens sessionID rawRefresh =>
    rcases reply with r | (err | pair) | r | r | r | r | r | r <;> try cases hacc
    obtain ⟨sess, user, new, sess', token, hrot, -⟩ := hpost pair rfl
    exact ⟨sess, hrot.found⟩
  | _ => cases hacc

theorem serve_dead (h : exec (sem lib cfg) (serve lib cfg req) es s = some (reply, t))
    (hdead : s.Dead cfg now sid) (hclock : ∀ e ∈ es, now ≤ e.now) :
    t.Dead cfg now sid ∧ accepted req reply ≠ some sid := by
  obtain ⟨c, hc, hret, hst, henvs⟩ := exec_interleaving h
  have hclk' : ∀ en ∈ c.log, now ≤ en.env.now := by
    intro en hen
    exact hclock en.env (by rw [← henvs]; exact List.mem_map_of_mem hen)
  refine ⟨?_, fun hacc => ?_⟩
  · rw [← hst, hc.state]
    exact dead_of_interleaving hc hdead hclk' (List.append_nil c.log).symm
  · obtain ⟨sess, hsess⟩ := accepted_cases (hc.returns (serve_spec lib cfg req) hret) hacc
    exact not_answered_of_dead hc hdead hclk' hsess

section Refusals

variable {e : Env} {err : AuthError}

theorem getUserByID_error {id : String} (h : (sem lib cfg e (.getUserByID id) s).1 = .error err) :
    err.isDeath = false := by
  simp only [sem, State.getUserByID] at h
  split at h
  · cases h
    rfl
  · cases h

theorem generateRefreshToken_error (h : (sem lib cfg e .generateRefreshToken s).1 = .error err) :
    err.isDeath = false := by
  simp only [sem] at h
  split at h
  · cases h
    rfl
  · cases h

theorem generateAccessToken_error {user : User} {tfa : Bool} {scope : Scope}
    (h : (sem lib cfg e (.generateAccessToken user sid tfa scope) s).1 = .error err) :
    err.isDeath = false := by
  simp only [sem] at h
  split at h
  · cases h
    rfl
  · cases h

variable {adm : Env → Prop} {token : AccessToken}

theorem issueRotated_error (sess : Session) (user : User) :
    wp (sem lib cfg) adm (fun r _ => ∀ err, r = .error err → err.isDeath = false)
      (issueRotated cfg sid sess user) s := by
  intro e _
  rcases (sem lib cfg e (.revokeSession sid) s).1 with err | ⟨⟩
  · rintro _ ⟨⟩
    rfl
  intro e _
  rcases hgen : (sem lib cfg e .generateRefreshToken _).1 with err | ⟨raw, hashed⟩
  · rintro _ ⟨⟩
    exact generateRefreshToken_error hgen
  intro e _ e' _ e'' _
  rcases (sem lib cfg e'' (.createSession _) _).1 with err | sess'
  · rintro _ ⟨⟩
    rfl
  intro e _
  rcases hsign : (sem lib cfg e (.generateAccessToken user sess'.id _ _) _).1 with err | token
  · rintro _ ⟨⟩
    exact generateAccessToken_error hsign
  · rintro _ ⟨⟩

theorem refreshTokens_error (raw : String) :
    wp (sem lib cfg) adm (fun r t => ∀ err, r = .error err → err.isDeath = true →
      t = s ∧ ∃ e, adm e ∧ s.getSession cfg.inactivityTimeout e sid = .error err)
      (refreshTokens lib cfg sid raw) s := by
  intro e he
  rcases hget : (sem lib cfg e (.getSession sid) s).1 with err | sess
  · rintro _ ⟨⟩ hd
    exact ⟨rfl, e, he, hget⟩
  dsimp only [Prog.bind]
  split
  · intro e _
    rintro _ ⟨⟩ ⟨⟩
  intro e _
  rcases huser : (sem lib cfg e (.getUserByID sess.userID) _).1 with err | user
  · rintro _ ⟨⟩ hd
    rw [getUserByID_error huser] at hd
    cases hd
  dsimp only [Prog.bind]
  split
  · rintro _ ⟨⟩ ⟨⟩
  refine wp_mono (issueRotated_error sess user) fun r t hr err heq hd => ?_
  rw [hr err heq] at hd
  cases hd

theorem verifyAccessToken_error (h : (sem lib cfg e (.verifyAccessToken token) s).1 = .error err) :
    err.isDeath = false := by
  simp only [sem, verifyAccessToken] at h
  repeat' split at h
  all_goals
    cases h
    try rfl

theorem verifyAccessToken_ok {claims : TokenClaims}
    (h : (sem lib cfg e (.verifyAccessToken token) s).1 = .ok claims) :
    claims.sessionID = token.sessionID ∧ claims.userID = token.subject ∧
      claims.role = token.role := by
  simp only [sem, verifyAccessToken] at h
  repeat' split at h
  all_goals
    cases h
    try exact ⟨rfl, rfl, rfl⟩

theorem validateRequest_error (token : AccessToken) :
    wp (sem lib cfg) adm (fun r t => ∀ err, r = .error err → err.isDeath = true →
      t = s ∧ ∃ e, adm e ∧ s.getSession cfg.inactivityTimeout e token.sessionID = .error err)
      (validateRequest token) s := by
  intro e _
  rcases hver : (sem lib cfg e (.verifyAccessToken token) s).1 with err | claims
  · rintro _ ⟨⟩ hd
    rw [verifyAccessToken_error hver] at hd
    cases hd
  have hsid := (verifyAccessToken_ok hver).1
  intro e he
  rcases hget : (sem lib cfg e (.getSession claims.sessionID) _).1 with err | sess
  · rintro _ ⟨⟩ hd
    rw [hsid] at hget
    exact ⟨rfl, e, he, hget⟩
  · intro e _
    rintro _ ⟨⟩

theorem dead_of_getSession_error (h : s.getSession cfg.inactivityTimeout e sid = .error err)
    (hd : err.isDeath = true) : s.Dead cfg e.now sid := by
  rw [State.getSession] at h
  split at h
  · cases h
    cases hd
  · rename_i sess hsess
    refine ⟨sess, hsess, ?_⟩
    split at h
    · exact .inl ‹_›
    · split at h
      · rename_i hexp
        exact .inr (.inl (by simpa [Session.isExpired] using hexp))
      · split at h
        · rename_i hoff
          exact .inr (.inr (by simpa [Session.isInactive] using hoff))
        · cases h

theorem serve_refused (h : exec (sem lib cfg) (serve lib cfg req) es s = some (reply, t))
    (href : refused req reply = some sid) : ∃ e ∈ es, t.Dead cfg e.now sid := by
  have hdead {sid : String} {err : AuthError} (hd : err.isDeath = true)
      (herr : t = s ∧ ∃ e, e ∈ es ∧ s.getSession cfg.inactivityTimeout e sid = .error err) :
      ∃ e ∈ es, t.Dead cfg e.now sid := by
    obtain ⟨rfl, e, he, hget⟩ := herr
    exact ⟨e, he, dead_of_getSession_error hget hd⟩
  cases req with
  | validateRequest token =>
    obtain ⟨err | claims, hexec, rfl⟩ := exec_map h
    · obtain ⟨hd, rfl⟩ := by simpa [refused] using href
      exact hdead hd (exec_of_wp (validateRequest_error token) (fun _ he => he) hexec err rfl hd)
    · cases href
  | refreshTokens sessionID rawRefresh =>
    obtain ⟨err | pair, hexec, rfl⟩ := exec_map h
    · obtain ⟨hd, rfl⟩ := by simpa [refused] using href
      exact hdead hd (exec_of_wp (refreshTokens_error rawRefresh) (fun _ he => he) hexec err rfl hd)
    · cases href
  | _ => cases href

end Refusals

section Sweeps

variable {user : String} {sess : Session}

theorem revokedAll_answered {ι : Type} [DecidableEq ι] {reqs : ι → Request} {i : ι}
    {c : Config State ι Env Op.Res Reply}
    (hc : Interleaving (sem lib cfg) s (fun i => serve lib cfg (reqs i)) c)
    (hret : c.calls i = .ret reply) (hall : revokedAll (reqs i) reply = some user) :
    ∃ r, Answered (events i c.log) (.revokeAllUserSessions user) r := by
  have hpost := hc.returns (serve_spec lib cfg (reqs i)) hret
  generalize reqs i = req at hall hpost
  cases req with
  | logoutAll userID | changePassword userID req | disableTOTPSetup targetUserID =>
    rcases reply with r | r | r | (err | ⟨⟩) | r | r | r | r <;> cases hall
    exact hpost rfl
  | lockUser claims targetID =>
    rcases reply with r | r | r | r | r | (err | msg) | r | r <;> cases hall
    obtain ⟨target, r, hfd, hsw⟩ := hpost msg rfl
    obtain ⟨pre, g, mid, -, -, -, hok⟩ := hc.answered_log hfd
    obtain ⟨-, -, -, hid⟩ := getUserByID_ok hok
    rw [hid] at hsw
    exact ⟨r, hsw⟩
  | _ => cases hall

theorem serve_revokedAll (h : exec (sem lib cfg) (serve lib cfg req) es s = some (reply, t))
    (hall : revokedAll req reply = some user) (hsess : s.sessions sid = some sess)
    (huser : sess.userID = user) : ∃ e ∈ es, t.Dead cfg e.now sid := by
  subst huser
  obtain ⟨c, hc, hret, hst, henvs⟩ := exec_interleaving h
  obtain ⟨r, hsw⟩ := revokedAll_answered hc hret hall
  obtain ⟨pre, en, post, hlog, -, hen⟩ := mem_events hsw
  have hop : en.event.1 = .revokeAllUserSessions sess.userID := by rw [hen]
  refine ⟨en.env, ?_, ?_⟩
  · rw [← henvs, hlog]
    simp
  · rw [← hst, hc.state, hlog]
    exact (replay_swept hsess hop).dead _

end Sweeps

def Ends (sid : String) (r : Record Request Env Reply State) : Prop :=
  refused r.req r.reply = some sid ∨ ∃ user sess, revokedAll r.req r.reply = some user ∧
    r.pre.sessions sid = some sess ∧ sess.userID = user

theorem sequence_dead {rs : List (Record Request Env Reply State)}
    (hrun : Sequence (sem lib cfg) (serve lib cfg) s rs t) (hdead : s.Dead cfg now sid)
    (hclock : ∀ r ∈ rs, ∀ e ∈ r.envs, now ≤ e.now) :
    ∀ r ∈ rs, accepted r.req r.reply ≠ some sid := by
  intro r hr
  have hinv := hrun.invariant hdead fun r hr hexec hpre =>
    (serve_dead hexec hpre (hclock r hr)).1
  obtain ⟨hexec, hpre⟩ := hinv.2 r hr
  exact (serve_dead hexec hpre (hclock r hr)).2

/-- A session that has been refused, or revoked together with the others of its user, is
never accepted again. -/
theorem session_death_permanent {rs : List (Record Request Env Reply State)}
    (hrun : Sequence (sem lib cfg) (serve lib cfg) s rs t)
    (hclock : (rs.flatMap (·.envs)).Pairwise fun e e' => e.now ≤ e'.now) :
    rs.Pairwise fun r r' => ∀ sid, Ends sid r → accepted r'.req r'.reply ≠ some sid := by
  induction hrun with
  | nil s => exact .nil
  | @cons r rs u hexec hrest ih =>
    rw [List.flatMap_cons, List.pairwise_append] at hclock
    obtain ⟨-, hrestClock, hlt⟩ := hclock
    refine List.pairwise_cons.mpr ⟨fun r' hr' sid hends => ?_, ih hrestClock⟩
    obtain ⟨e, he, hdead⟩ : ∃ e ∈ r.envs, r.post.Dead cfg e.now sid := by
      rcases hends with href | ⟨user, sess, hall, hsess, huser⟩
      · exact serve_refused hexec href
      · exact serve_revokedAll hexec hall hsess huser
    refine sequence_dead hrest hdead (fun r hr e' he' => ?_) r' hr'
    exact hlt e he e' (List.mem_flatMap.mpr ⟨r, hr, he'⟩)

def runSample (s : State) (calls : List (Request × List Env)) :
    Option (List (Record Request Env Reply State) × State) :=
  runCalls (sem plainLibrary defaultJWTConfig) (serve plainLibrary defaultJWTConfig) s calls

def envs (n : Nat) (now : Int) (newID : String) : List Env := .replicate n { now, newID }

theorem runSample_any {s : State} {calls : List (Request × List Env)}
    {p : List (Record Request Env Reply State) × State → Bool}
    (h : (runSample s calls).any p = true) :
    ∃ rs u, Sequence (sem plainLibrary defaultJWTConfig) (serve plainLibrary defaultJWTConfig) s rs u ∧
      p (rs, u) = true := by
  obtain ⟨⟨rs, u⟩, hrun, hp⟩ := (Option.any_eq_true _ _).mp h
  exact ⟨rs, u, runCalls_sequence hrun, hp⟩

def logoutRun : List (Request × List Env) :=
  [(.logoutAll "alice", envs 1 1 ""), (.refreshTokens "s0" "token of s0", envs 1 2 "s1"),
    (.refreshTokens "s0" "token of s0", envs 1 3 "s1")]

theorem session_death_permanent_logout : ∃ rs : List (Record Request Env Reply State),
    rs.map (fun r => refused r.req r.reply) = [none, some "s0", some "s0"] ∧
    rs.Pairwise fun r r' => ∀ sid, Ends sid r → accepted r'.req r'.reply ≠ some sid := by
  have hrun : (runSample signedInState logoutRun).any (fun run =>
      decide (run.1.map (fun r => refused r.req r.reply) = [none, some "s0", some "s0"] ∧
        (run.1.flatMap (·.envs)).Pairwise fun e e' => e.now ≤ e'.now)) = true := by decide +kernel
  obtain ⟨rs, u, hseq, hboth⟩ := runSample_any hrun
  obtain ⟨hno, hclock⟩ := of_decide_eq_true hboth
  exact ⟨rs, hno, session_death_permanent hseq hclock⟩

section Replays

theorem refreshTokens_revoked (raw : String) (h : s.Revoked sid) :
    wp (sem lib cfg) (fun _ => True) (fun r t => r = .error .sessionRevoked ∧ t = s)
      (refreshTokens lib cfg sid raw) s := by
  obtain ⟨sess, hsess, hrevoked⟩ := h
  intro e _
  have hget : (sem lib cfg e (.getSession sid) s).1 = .error .sessionRevoked := by
    simp [sem, State.getSession, hsess, hrevoked]
  rw [hget]
  exact ⟨rfl, rfl⟩

theorem exec_refreshTokens {raw : String} {pair : TokenPair}
    (h : exec (sem lib cfg) (refreshTokens lib cfg sid raw) es s = some (.ok pair, t)) :
    t.Revoked sid := by
  obtain ⟨c, hc, hret, hst, -⟩ := exec_interleaving h
  obtain ⟨pre, g, mid, r, post, sess, hlog, -, -, hg, hr⟩ := refreshed hc hret
  rw [← hst, hc.state, hlog]
  exact revoked_after_lookup hc hlog hg hr post

section

variable (h : exec (sem lib cfg) (serve lib cfg req) es s = some (reply, t))
  (hrevoked : s.Revoked sid)

include h hrevoked

theorem serve_revoked : t.Revoked sid := by
  have hstep : ∀ e ∈ es, ∀ op s, State.Revoked sid s → (sem lib cfg e op s).2.Revoked sid :=
    fun _ _ op _ => sem_revoked op
  exact exec_invariant hstep hrevoked h

theorem revoked_not_accepted : accepted req reply ≠ some sid := by
  intro hacc
  obtain ⟨c, hc, hret, -, -⟩ := exec_interleaving h
  obtain ⟨sess, hsess⟩ := accepted_cases (hc.returns (serve_spec lib cfg req) hret) hacc
  obtain ⟨p, g, q, -, -, -, hok⟩ := hc.answered_log hsess
  obtain ⟨hfd, hlive⟩ := getSession_ok hok
  obtain ⟨sess', hfd', hrev'⟩ := replay_revoked hrevoked
  rw [hfd] at hfd'
  cases hfd'
  rw [hlive] at hrev'
  cases hrev'

end

theorem exec_logoutAll {user : String}
    (h : exec (sem lib cfg) (serve lib cfg (.logoutAll user)) es s = some (reply, t)) :
    t.AllRevoked user := by
  have hwp : wp (sem lib cfg) (fun _ => True) (fun _ t => t.AllRevoked user)
      (serve lib cfg (.logoutAll user)) s := fun _ _ => sem_revokeAllUserSessions_all
  have hpost := exec_of_wp hwp (fun _ _ => trivial) h
  exact hpost

def Reply.isTokens : Reply → Bool
  | .tokens (.ok _) => true
  | _ => false

theorem Reply.isTokens_iff {r : Reply} : r.isTokens = true ↔ ∃ pair, r = .tokens (.ok pair) := by
  rcases r with r | (err | pair) | r | r | r | r | r | r <;> simp [isTokens]

def replayAfterLogout : List (Request × List Env) :=
  [(.refreshTokens "s0" "token of s0", envs 8 1 "s1"), (.logoutAll "alice", envs 1 2 ""),
    (.refreshTokens "s0" "token of s0", envs 1 3 "s2")]

def rotatedReplay : List (Request × List Env) :=
  [(.refreshTokens "s0" "token of s0", envs 8 1 "s1"),
    (.refreshTokens "s0" "token of s0", envs 1 2 "s2")]

end Replays

end Falx.Auth
