import Falx.AuthLifetime

/-! A change of the password or a lock of the account, among logins and refreshes that run
at the same time. The credentials are closed by one operation and the sessions swept by a
later one; a call that has looked its user or session up before can still go on after. -/

namespace Falx.Auth

open List Interleave

variable {ι : Type} [DecidableEq ι]

/-- The other calls: refreshes, and logins that do not know the new password. -/
def OldCredentials : Request → Request → Prop
  | .changePassword _ change, .login req _ _ => req.password ≠ change.newPassword
  | _, .login _ _ _ => True
  | _, .refreshTokens _ _ => True
  | _, _ => False

def Request.closes (u : String) : Request → Prop
  | .changePassword userID _ => userID = u
  | .lockUser _ targetID => targetID = u
  | _ => False

def Closed (lib : AuthLibrary) : Request → User → Prop
  | .changePassword _ change, user =>
    ∃ salt, user.passwordHash = lib.hashPassword salt change.newPassword
  | .lockUser _ _, user => user.locked = true
  | _, _ => False

def Op.isLookup : Op → Bool
  | getUserByUsername _ | getSession _ => true
  | _ => false

def Op.isCreateSession : Op → Bool
  | createSession _ => true
  | _ => false

def Op.isUpdateUser : Op → Bool
  | updateUser _ => true
  | _ => false

/-- No call looks its user or session up before the sweep and creates a session after it,
or looks its user up before the credentials are closed and writes them back after. -/
def NoStraddle (revoker : ι) (u : String) (log : List (Entry ι Env Op.Res)) : Prop :=
  log.Triplewise fun x y z => x.caller = z.caller → y.caller = revoker →
    x.event.1.isLookup = true →
    (y.event.1 = .revokeAllUserSessions u → z.event.1.isCreateSession = false) ∧
    (y.event.1.target = some u → z.event.1.isUpdateUser = false)

instance (revoker : ι) (u : String) (log : List (Entry ι Env Op.Res)) :
    Decidable (NoStraddle revoker u log) :=
  inferInstanceAs (Decidable (log.Triplewise _))

def Written (revoker : ι) (u : String) (log : List (Entry ι Env Op.Res)) : Prop :=
  ∃ en ∈ log, en.caller = revoker ∧ en.event.1.target = some u ∧ en.env.dbErr = none

def Swept (revoker : ι) (u : String) (log : List (Entry ι Env Op.Res)) : Prop :=
  ∃ en ∈ log, en.caller = revoker ∧ en.event.1 = .revokeAllUserSessions u

omit [DecidableEq ι] in
theorem NoStraddle.apart {revoker : ι} {u : String} {log p q post : List (Entry ι Env Op.Res)}
    {x y z : Entry ι Env Op.Res} (h : NoStraddle revoker u log)
    (hlog : log = p ++ x :: q ++ z :: post) (hy : y ∈ q) (hcaller : x.caller = z.caller)
    (hrevoker : y.caller = revoker) (hlookup : x.event.1.isLookup = true) :
    (y.event.1 = .revokeAllUserSessions u → z.event.1.isCreateSession = false) ∧
      (y.event.1.target = some u → z.event.1.isUpdateUser = false) := by
  rw [NoStraddle, hlog, append_assoc, triplewise_append] at h
  have hhead := (triplewise_cons.mp h.2.1).1
  exact (pairwise_append.mp hhead).2.2 y hy z (.head _) hcaller hrevoker hlookup

theorem closes_cases {req : Request} {u : String} (h : req.closes u) :
    (∃ userID change, req = .changePassword userID change) ∨
      ∃ claims targetID, req = .lockUser claims targetID := by
  cases req with
  | changePassword userID change => exact .inl ⟨userID, change, rfl⟩
  | lockUser claims targetID => exact .inr ⟨claims, targetID, rfl⟩
  | _ => exact h.elim

theorem oldCredentials_cases {revoking req : Request} (h : OldCredentials revoking req) :
    (∃ lreq ipAddr userAgent, req = .login lreq ipAddr userAgent) ∨
      ∃ sessionID rawRefresh, req = .refreshTokens sessionID rawRefresh := by
  cases req with
  | login lreq ipAddr userAgent => exact .inl ⟨lreq, ipAddr, userAgent, rfl⟩
  | refreshTokens sessionID rawRefresh => exact .inr ⟨sessionID, rawRefresh, rfl⟩
  | _ => cases revoking <;> exact h.elim

section Run

variable {lib : AuthLibrary} {cfg : JWTConfig} {s : State} {reqs : ι → Request}
  {c : Config State ι Env Op.Res Reply} {revoker : ι} {u : String}
  {pre post : List (Entry ι Env Op.Res)} {en : Entry ι Env Op.Res}

structure Revocation (lib : AuthLibrary) (cfg : JWTConfig) (s : State) (reqs : ι → Request)
    (c : Config State ι Env Op.Res Reply) (revoker : ι) (u : String) : Prop where
  run : Interleaving (sem lib cfg) s (fun i => serve lib cfg (reqs i)) c
  closes : (reqs revoker).closes u
  others : ∀ i, i ≠ revoker → OldCredentials (reqs revoker) (reqs i)
  apart : NoStraddle revoker u c.log
  /-- `LockUser` does not look at the result of its write. -/
  written : ∀ en ∈ c.log, en.caller = revoker → en.event.1.isUpdateUser = true →
    en.env.dbErr = none

variable {e : Env} {hash ipAddr userAgent : String} {revoking : Request} {user : User}
  {r : UserRecord} {new : Session}

theorem db_of_dbErr : e.db = none ↔ e.dbErr = none := by
  simp [Env.db]

theorem updatePasswordHash_ok (h : (sem lib cfg e (.updatePasswordHash u hash) s).1 = .ok ()) :
    e.dbErr = none := by
  simp only [sem, State.updatePasswordHash] at h
  split at h
  · cases h
  · rename_i hdb
    exact db_of_dbErr.mp hdb

theorem hashPassword_ok {password : String}
    (h : (sem lib cfg e (.hashPassword password) s).1 = .ok hash) :
    hash = lib.hashPassword e.salt password := by
  simp only [sem] at h
  repeat' split at h
  all_goals
    cases h
    try rfl

theorem Revocation.written_of_swept (hr : Revocation lib cfg s reqs c revoker u)
    (hlog : c.log = pre ++ post) (hsw : Swept revoker u pre) : Written revoker u pre := by
  obtain ⟨x, hx, rfl, hop⟩ := hsw
  obtain ⟨p, q, rfl⟩ := append_of_mem hx
  have hlog' : c.log = p ++ x :: (q ++ post) := by simpa using hlog
  have hguar := hr.run.guarantee (serve_spec lib cfg (reqs x.caller)) hlog'
  rw [hop] at hguar
  rcases closes_cases hr.closes with ⟨userID, change, hreq⟩ | ⟨claims, targetID, hreq⟩
  · rw [hreq] at hguar
    obtain ⟨hid, hash, hans⟩ := hguar
    obtain ⟨p', w, q', rfl, hby, hw, hok⟩ := hr.run.answered hlog' hans
    refine ⟨w, by simp, hby, ?_, updatePasswordHash_ok hok⟩
    rw [hw, hid]
    rfl
  · rw [hreq] at hguar
    obtain ⟨target, r, -, hid, hans⟩ := hguar
    obtain ⟨p', w, q', rfl, hby, hw, -⟩ := hr.run.answered hlog' hans
    refine ⟨w, by simp, hby, ?_, hr.written w ?_ hby ?_⟩
    · rw [hw, hid]
      rfl
    · rw [hlog]
      simp
    · rw [hw]
      rfl

theorem Closed.refuses {login : LoginRequest} {h : History} (hshut : Closed lib revoking user)
    (hold : OldCredentials revoking (.login login ipAddr userAgent)) :
    ¬Authenticated lib login h user := by
  intro hauth
  cases revoking with
  | changePassword userID change =>
    obtain ⟨salt, hhash⟩ := hshut
    have hpw := hauth.password
    rw [hhash, lib.verify_hash] at hpw
    exact hold hpw
  | lockUser claims targetID =>
    have hlock : user.locked = true := hshut
    rw [hauth.unlocked] at hlock
    cases hlock
  | _ => exact hshut

theorem Closed.recordFailure (hshut : Closed lib revoking r.cached) :
    Closed lib revoking ((Op.recordFailedLogin u).onUser e r).cached := by
  cases revoking with
  | changePassword userID change => exact hshut
  | lockUser claims targetID =>
    have hlock : r.cached.locked = true := hshut
    simp [Closed, Op.onUser, State.recordFailure, hlock]
  | _ => exact hshut

theorem Closed.resetFailed (hshut : Closed lib revoking r.cached) :
    Closed lib revoking ((Op.resetFailedLogin u).onUser e r).cached := by
  cases revoking <;> exact hshut

def StaysClosed (lib : AuthLibrary) (cfg : JWTConfig) (s : State) (revoking : Request) (revoker : ι)
    (u : String) (pre : List (Entry ι Env Op.Res)) : Prop :=
  Written revoker u pre → ∃ r, (replay (sem lib cfg) s pre).users.get u = some r ∧
    Closed lib revoking r.cached

section

variable (hr : Revocation lib cfg s reqs c revoker u)

include hr

theorem Revocation.login_lookup {i : ι}
    {req : LoginRequest} (hne : i ≠ revoker) (hreq : reqs i = .login req ipAddr userAgent)
    (hlog : c.log = pre ++ post) (hauth : Authenticated lib req (events i pre) user)
    (hid : user.id = u)
    (ih : ∀ p q, pre = p ++ q → StaysClosed lib cfg s (reqs revoker) revoker u p) :
    ∃ p g q, pre = p ++ g :: q ∧ g.caller = i ∧ g.event.1 = .getUserByUsername req.username ∧
      ¬Written revoker u p := by
  obtain ⟨p, g, q, rfl, hby, hg, hok⟩ := hr.run.answered hlog hauth.found
  refine ⟨p, g, q, rfl, hby, by rw [hg], fun hwr => ?_⟩
  obtain ⟨r, hget, hshut⟩ := ih p (g :: q) rfl hwr
  obtain ⟨-, r', hget', hcopy⟩ := getUserByUsername_ok hok
  rw [hid, hget] at hget'
  cases hget'
  rw [hcopy] at hshut
  have hold := hr.others i hne
  rw [hreq] at hold
  exact hshut.refuses hold hauth

section

variable (hlog : c.log = pre ++ en :: post)

include hlog

theorem Revocation.stored {id : String} {user : User}
    (h : Answered (events en.caller pre) (.getUserByID id) (.ok user)) :
    user.id = id ∧ ∃ r, (replay (sem lib cfg) s pre).users.get id = some r := by
  obtain ⟨p, g, q, rfl, -, -, hok⟩ := hr.run.answered hlog h
  obtain ⟨r, hget, -, hid⟩ := getUserByID_ok hok
  rw [replay_append]
  exact ⟨hid, replay_user hget⟩

theorem Revocation.revoker_write (hby : en.caller = revoker)
    (htgt : en.event.1.target = some u) :
    ∃ r, (replay (sem lib cfg) s pre).users.get u = some r ∧
      (en.env.dbErr = none ∨ Closed lib (reqs revoker) r.cached →
        Closed lib (reqs revoker) (en.event.1.onUser en.env r).cached) := by
  have hguar := hr.run.guarantee (serve_spec lib cfg (reqs en.caller)) hlog
  subst hby
  rcases closes_cases hr.closes with ⟨userID, change, hreq⟩ | ⟨claims, targetID, hreq⟩
  · rw [hreq] at hguar ⊢
    obtain ⟨hash, user, rfl, hop, hhash, hfd⟩ := changePasswordGuar_target hguar htgt
    obtain ⟨-, r, hget⟩ := hr.stored hlog hfd
    obtain ⟨_, w, _, -, -, -, hhashed⟩ := hr.run.answered hlog hhash
    refine ⟨r, hget, fun h => ?_⟩
    rw [hop]
    cases hdb : en.env.db with
    | none => exact ⟨w.env.salt, by simp [Op.onUser, hdb, hashPassword_ok hhashed]⟩
    | some err =>
      have hshut := h.resolve_left (by rw [← db_of_dbErr, hdb]; simp)
      simpa [Op.onUser, hdb] using hshut
  · rw [hreq] at hguar ⊢
    obtain ⟨-, target, rfl, hop, -, hfd⟩ := lockUserGuar_target hguar htgt
    obtain ⟨hid, r, hget⟩ := hr.stored hlog hfd
    refine ⟨r, hid.symm ▸ hget, fun h => ?_⟩
    rw [hop]
    cases hdb : en.env.db with
    | none => simp [Op.onUser, hdb, Closed]
    | some err =>
      have hshut := h.resolve_left (by rw [← db_of_dbErr, hdb]; simp)
      simpa [Op.onUser, hdb] using hshut

theorem Revocation.other_write (hby : en.caller ≠ revoker)
    (htgt : en.event.1.target = some u) (hwr : Written revoker u pre)
    (ih : ∀ p q, pre = p ++ q → StaysClosed lib cfg s (reqs revoker) revoker u p)
    (hshut : Closed lib (reqs revoker) r.cached) :
    Closed lib (reqs revoker) (en.event.1.onUser en.env r).cached := by
  have hguar := hr.run.guarantee (serve_spec lib cfg (reqs en.caller)) hlog
  rcases oldCredentials_cases (hr.others en.caller hby) with
    ⟨req, ipAddr, userAgent, hreq⟩ | ⟨sessionID, rawRefresh, hreq⟩
  · rw [hreq] at hguar
    rcases loginGuar_target hguar htgt with hop | hop | ⟨-, user, now, hauth, hid, hop⟩
    · rw [hop]
      exact hshut.recordFailure
    · rw [hop]
      exact hshut.resetFailed
    · obtain ⟨p, g, q, rfl, hg, hget, hnot⟩ := hr.login_lookup hby hreq hlog hauth hid ih
      obtain ⟨w, hw, hwcaller, hwtarget, hwdb⟩ := hwr
      rcases mem_append.mp hw with hw | hw
      · exact (hnot ⟨w, hw, hwcaller, hwtarget, hwdb⟩).elim
      · rcases mem_cons.mp hw with rfl | hw
        · rw [hget] at hwtarget
          cases hwtarget
        · have hap := (hr.apart.apart hlog hw hg hwcaller (by rw [hget]; rfl)).2 hwtarget
          rw [hop] at hap
          cases hap
  · rw [hreq] at hguar
    rw [refreshGuar_target hguar] at htgt
    cases htgt

end

end

omit [DecidableEq ι] in
theorem written_concat (h : Written revoker u (pre ++ [en])) : Written revoker u pre ∨
    en.caller = revoker ∧ en.event.1.target = some u ∧ en.env.dbErr = none := by
  obtain ⟨w, hw, hrest⟩ := h
  rcases mem_append.mp hw with hw | hw
  · exact .inl ⟨w, hw, hrest⟩
  · rw [mem_singleton.mp hw] at hrest
    exact .inr hrest

section

variable (hr : Revocation lib cfg s reqs c revoker u)

include hr

theorem Revocation.staysClosed (hlog : c.log = pre ++ post) :
    StaysClosed lib cfg s (reqs revoker) revoker u pre := by
  refine fold_induction (P := StaysClosed lib cfg s (reqs revoker) revoker u) ?_
    (fun pre en post hlog ih hwr => ?_) hlog
  · rintro ⟨en, hen, -⟩
    cases hen
  rw [replay_concat]
  by_cases htgt : en.event.1.target = some u
  · by_cases hby : en.caller = revoker
    · obtain ⟨r, hget, hshut⟩ := hr.revoker_write hlog hby htgt
      refine ⟨_, sem_user en.event.1 hget, ?_⟩
      rw [if_pos htgt]
      refine hshut ?_
      rcases written_concat hwr with hwr | ⟨-, -, hdb⟩
      · obtain ⟨r', hget', hshut'⟩ := ih pre [] (by simp) hwr
        rw [hget] at hget'
        cases hget'
        exact .inr hshut'
      · exact .inl hdb
    · have hpre := (written_concat hwr).resolve_right fun h => hby h.1
      obtain ⟨r, hget, hshut⟩ := ih pre [] (by simp) hpre
      refine ⟨_, sem_user en.event.1 hget, ?_⟩
      rw [if_pos htgt]
      exact hr.other_write hlog hby htgt hpre ih hshut
  · have hpre := (written_concat hwr).resolve_right fun h => htgt h.2.1
    obtain ⟨r, hget, hshut⟩ := ih pre [] (by simp) hpre
    refine ⟨_, sem_user en.event.1 hget, ?_⟩
    rw [if_neg htgt]
    exact hshut

theorem Revocation.creator_ne (hlog : c.log = pre ++ en :: post)
    (hop : en.event.1 = .createSession new) : en.caller ≠ revoker := by
  intro hby
  have hguar := hr.run.guarantee (serve_spec lib cfg (reqs en.caller)) hlog
  rw [hop, hby] at hguar
  rcases closes_cases hr.closes with ⟨userID, change, hreq⟩ | ⟨claims, targetID, hreq⟩
  · rw [hreq] at hguar
    exact hguar
  · rw [hreq] at hguar
    exact hguar

theorem Revocation.swept_before {p q : List (Entry ι Env Op.Res)} {g : Entry ι Env Op.Res}
    (hlog : c.log = p ++ g :: q ++ en :: post) (hsw : Swept revoker u (p ++ g :: q))
    (hop : en.event.1 = .createSession new) (hg : g.caller = en.caller)
    (hget : g.event.1.isLookup = true) : Swept revoker u p := by
  obtain ⟨x, hx, hxcaller, hxop⟩ := hsw
  rcases mem_append.mp hx with hx | hx
  · exact ⟨x, hx, hxcaller, hxop⟩
  · rcases mem_cons.mp hx with rfl | hx
    · rw [hxop] at hget
      cases hget
    · have hap := (hr.apart.apart hlog hx hg hxcaller hget).1 hxop
      rw [hop] at hap
      cases hap

theorem Revocation.not_created (hlog : c.log = pre ++ en :: post) (hsw : Swept revoker u pre)
    (hop : en.event.1 = .createSession new)
    (ih : ∀ p q, pre = p ++ q → Swept revoker u p → (replay (sem lib cfg) s p).AllRevoked u) :
    new.userID ≠ u := by
  intro hnew
  have hby := hr.creator_ne hlog hop
  have hguar := hr.run.guarantee (serve_spec lib cfg (reqs en.caller)) hlog
  rw [hop] at hguar
  rcases oldCredentials_cases (hr.others en.caller hby) with
    ⟨req, ipAddr, userAgent, hreq⟩ | ⟨sessionID, rawRefresh, hreq⟩
  · rw [hreq] at hguar
    obtain ⟨user, hauth, hid, -⟩ := hguar
    obtain ⟨p, g, q, rfl, hg, hget, hnot⟩ := hr.login_lookup hby hreq hlog hauth
      (hid.symm.trans hnew) fun p q hpre => hr.staysClosed (by rw [hlog, hpre, append_assoc])
    have hsw := hr.swept_before hlog hsw hop hg (by rw [hget]; rfl)
    exact hnot (hr.written_of_swept (by simpa using hlog) hsw)
  · rw [hreq] at hguar
    obtain ⟨sess, user, hrot, -, huser⟩ := hguar
    obtain ⟨p, g, q, rfl, hg, hev, hok⟩ := hr.run.answered hlog hrot.found
    have hsw := hr.swept_before hlog hsw hop hg (by rw [hev]; rfl)
    obtain ⟨hsess, hlive⟩ := getSession_ok hok
    rw [ih p (g :: q) rfl hsw _ sess hsess (huser.symm.trans hnew)] at hlive
    cases hlive

theorem Revocation.allRevoked (hlog : c.log = pre ++ post) (hsw : Swept revoker u pre) :
    (replay (sem lib cfg) s pre).AllRevoked u := by
  refine fold_induction
    (P := fun pre => Swept revoker u pre → (replay (sem lib cfg) s pre).AllRevoked u) ?_
    (fun pre en post hlog ih hsw => ?_) hlog hsw
  · rintro ⟨en, hen, -⟩
    cases hen
  rw [replay_concat]
  by_cases hen : en.caller = revoker ∧ en.event.1 = .revokeAllUserSessions u
  · rw [hen.2]
    exact sem_revokeAllUserSessions_all
  · obtain ⟨x, hx, hrest⟩ := hsw
    have hmem : x ∈ pre := by
      rcases mem_append.mp hx with hx | hx
      · exact hx
      · rw [mem_singleton.mp hx] at hrest
        exact (hen hrest).elim
    have hpre : Swept revoker u pre := ⟨x, hmem, hrest⟩
    exact sem_allRevoked (ih pre [] (by simp) hpre) fun new hop =>
      hr.not_created hlog hpre hop ih

end

/-- Sessions that logins and refreshes with the old credentials have created are not
accepted once the password has been changed or the account locked. -/
theorem revocation_complete {sched : List (ι × Env)} {reply reply' : Reply} {i : ι}
    {new sess : Session} {req : Request} {es : List Env} {t : State}
    (hrun : run (sem lib cfg) (start s fun i => serve lib cfg (reqs i)) sched = some c)
    (hcloses : (reqs revoker).closes u)
    (hothers : ∀ i, i ≠ revoker → OldCredentials (reqs revoker) (reqs i))
    (hapart : NoStraddle revoker u c.log)
    (hdb : ∀ en ∈ c.log, en.caller = revoker → en.event.1.isUpdateUser = true →
      en.env.dbErr = none)
    (hret : c.calls revoker = .ret reply) (hok : revokedAll (reqs revoker) reply = some u)
    (hnew : Answered (events i c.log) (.createSession new) (.ok sess)) (hu : new.userID = u)
    (hexec : exec (sem lib cfg) (serve lib cfg req) es c.state = some (reply', t)) :
    accepted req reply' ≠ some sess.id := by
  have hc := run_interleaving hrun
  have hr : Revocation lib cfg s reqs c revoker u := ⟨hc, hcloses, hothers, hapart, hdb⟩
  obtain ⟨r, hsw⟩ := revokedAll_answered hc hret hok
  obtain ⟨pre, x, post, hlog, hx, hev⟩ := mem_events hsw
  have hall : (replay (sem lib cfg) s c.log).AllRevoked u :=
    hr.allRevoked (List.append_nil c.log).symm ⟨x, by rw [hlog]; simp, hx, by rw [hev]⟩
  obtain ⟨pre, en, mid, hlog, -, hen, hcreated⟩ := hc.answered_log hnew
  obtain ⟨-, hsess, huser⟩ := createSession_ok hcreated
  obtain ⟨sess', hsess', huser'⟩ :
      ∃ sess', c.state.sessions sess.id = some sess' ∧ sess'.userID = sess.userID := by
    rw [hc.state, hlog, replay_append, replay_cons, hen]
    exact replay_session hsess
  rw [← hc.state] at hall
  have hrev := hall sess.id sess' hsess' (by rw [huser', huser, hu])
  exact revoked_not_accepted hexec ⟨sess', hsess', hrev⟩

end Run

def Reply.token : Reply → Option AccessToken
  | .login (.ok resp) => some resp.tokens.accessToken
  | .tokens (.ok pair) => some pair.accessToken
  | .confirmed (.ok (_, some pair)) => some pair.accessToken
  | _ => none

def createdBy (i : ι) (log : List (Entry ι Env Op.Res)) : List (Session × Session) :=
  (events i log).filterMap fun
    | ⟨.createSession new, .ok sess⟩ => some (new, sess)
    | _ => none

theorem answered_of_createdBy {i : ι} {log : List (Entry ι Env Op.Res)} {new sess : Session}
    (h : (new, sess) ∈ createdBy i log) :
    Answered (events i log) (.createSession new) (.ok sess) := by
  obtain ⟨ev, hmem, heq⟩ := mem_filterMap.mp h
  split at heq
  · cases heq
    exact hmem
  · cases heq

def newPassword : ChangePasswordRequest := ⟨"Old-password-1", "New-password-2"⟩

def besideChange (other : Request) (i : Bool) : Request :=
  if i then other else .changePassword "alice" newPassword

def runBeside (other : Request) (order : List Bool) : Option (Config State Bool Env Op.Res Reply) :=
  run (sem plainLibrary defaultJWTConfig)
    (start signedInState fun i => serve plainLibrary defaultJWTConfig (besideChange other i))
    (order.map fun i => (i, { now := 1, newID := "s1" }))

def oldLogin : Request := .login ⟨"alice", "Old-password-1", ""⟩ "192.0.2.1:4711" ""

def loginFirst : Option (Config State Bool Env Op.Res Reply) :=
  runBeside oldLogin
    [true, true, true, true, false, false, true, true, true, true, true, false, false]

theorem revocation_complete_login_first : ∃ c new sess, loginFirst = some c ∧
    Answered (events true c.log) (.createSession new) (.ok sess) ∧ new.userID = "alice" ∧
    ∀ req es reply t, exec (sem plainLibrary defaultJWTConfig)
      (serve plainLibrary defaultJWTConfig req) es c.state = some (reply, t) →
      accepted req reply ≠ some sess.id := by
  have hrun : loginFirst.any (fun c => decide (((createdBy true c.log).map (·.1.userID) = ["alice"] ∧
      NoStraddle false "alice" c.log) ∧ (∀ en ∈ c.log, en.caller = false →
        en.event.1.isUpdateUser = true → en.env.dbErr = none) ∧
      (c.calls false).result.bind (revokedAll (besideChange oldLogin false)) = some "alice")) =
      true := by decide +kernel
  obtain ⟨c, hc, hall⟩ := (Option.any_eq_true _ _).mp hrun
  obtain ⟨⟨hnew, hap⟩, hdb, hret⟩ := of_decide_eq_true hall
  obtain ⟨⟨new, sess⟩, rest, hcreated, huser, -⟩ := List.map_eq_cons_iff.mp hnew
  have hans := answered_of_createdBy (hcreated ▸ List.mem_cons_self)
  obtain ⟨reply, hre, hok⟩ := Option.bind_eq_some_iff.mp hret
  refine ⟨c, new, sess, hc, hans, huser, fun req es reply' t hexec => ?_⟩
  have hcloses : (besideChange oldLogin false).closes "alice" := rfl
  refine revocation_complete hc hcloses (fun i hi => ?_) hap hdb
    (Prog.result_eq_some hre) hok hans huser hexec
  cases i with
  | false => exact (hi rfl).elim
  | true =>
    show ("Old-password-1" : String) ≠ "New-password-2"
    decide

def refreshAcross : Option (Config State Bool Env Op.Res Reply) :=
  runBeside (.refreshTokens "s0" "token of s0")
    [true, true, false, false, false, false, true, true, true, true, true, true]

theorem refreshAcross_accepted : (refreshAcross.bind fun c => do
    let reply ← (c.calls false).result
    let token ← (← (c.calls true).result).token
    let (reply', _) ← exec (sem plainLibrary defaultJWTConfig)
      (serve plainLibrary defaultJWTConfig (.validateRequest token)) (envs 3 2 "") c.state
    return (revokedAll (.changePassword "alice" newPassword) reply,
      accepted (.validateRequest token) reply')) = some (some "alice", some "s1") := by
  decide +kernel

end Falx.Auth
