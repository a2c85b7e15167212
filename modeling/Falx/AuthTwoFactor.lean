import Falx.AuthUpdates

/-! The second factor of the administrators. A token of full scope is given to a session
that has shown a code, at login or by enrolling; whether a session has is told from the
calls of the run, while the code that issues tokens looks at the account. -/

namespace Falx.Auth

open List Interleave

def Opens (r : Record Request Env Reply State) (sid : String) (sess : Session) : Prop :=
  r.pre.sessions sid = none ∧ r.post.sessions sid = some sess

def OpenedWithCode (lib : AuthLibrary) (r : Record Request Env Reply State) (sid : String) : Prop :=
  ∃ req ipAddr userAgent sess rec, r.req = .login req ipAddr userAgent ∧ Opens r sid sess ∧
    r.pre.users.get sess.userID = some rec ∧ ∃ e ∈ r.envs,
      (matchingCounter lib.toTotpLibrary (e.now / second) rec.cached.totpSecret
        req.totpCode).isSome = true

def EnabledBy (r : Record Request Env Reply State) (sid : String) : Prop :=
  ∃ token code rec rec', r.req = .totpConfirm (some token) code ∧ token.sessionID = sid ∧
    r.pre.users.get token.subject = some rec ∧ rec.cached.totpEnabled = false ∧
    r.post.users.get token.subject = some rec' ∧ rec'.cached.totpEnabled = true

def RotatedFrom (r : Record Request Env Reply State) (sid sid' : String) : Prop :=
  ∃ raw sess, r.req = .refreshTokens sid raw ∧ Opens r sid' sess

/-- A session that was opened with a code or has enabled the second factor, or that has
come out of such a session by rotation. -/
inductive Proven (lib : AuthLibrary) : List (Record Request Env Reply State) → String → Prop where
  | opened {rs : List _} {r sid} (h : OpenedWithCode lib r sid) : Proven lib (rs ++ [r]) sid
  | enabled {rs : List _} {r sid} (h : EnabledBy r sid) : Proven lib (rs ++ [r]) sid
  | rotated {rs : List _} {r sid sid'} (h : Proven lib rs sid) (hr : RotatedFrom r sid sid') :
      Proven lib (rs ++ [r]) sid'
  | earlier {rs : List _} {r sid} (h : Proven lib rs sid) : Proven lib (rs ++ [r]) sid

def issuedTokens (rs : List (Record Request Env Reply State)) : List AccessToken :=
  rs.filterMap (·.reply.token)

def Request.presented : Request → Option AccessToken
  | .validateRequest token => some token
  | .totpBegin token => token
  | .totpConfirm token _ => token
  | _ => none

/-- Signatures are ideal: a token that is presented has been issued before. -/
def Genuine (rs : List (Record Request Env Reply State)) : Prop :=
  ∀ pre r post, rs = pre ++ r :: post → ∀ token, r.req.presented = some token →
    token ∈ issuedTokens pre

/-- When an administrator without a second factor confirms an enrolment, no other session of
the account is accepted any more. -/
def SoleSession (cfg : JWTConfig) (r : Record Request Env Reply State) : Prop :=
  ∀ token code rec, r.req = .totpConfirm (some token) code →
    r.pre.users.get token.subject = some rec → rec.cached.role.requires2FA = true →
    rec.cached.totpEnabled = false → ∀ sid sess, r.pre.sessions sid = some sess →
    sess.userID = token.subject → sid ≠ token.sessionID →
    ∀ e ∈ r.envs.head?, r.pre.Dead cfg e.now sid

section Call

variable {lib : AuthLibrary} {cfg : JWTConfig} {s : State} {req : Request} {u : String}
  {c : Config State Unit Env Op.Res Reply} {pre post : List (Entry Unit Env Op.Res)}
  {rec : UserRecord}

theorem noStaleWrite_unit (u : String) (log : List (Entry Unit Env Op.Res)) :
    NoStaleWrite u log := by
  induction log with
  | nil => exact .nil
  | cons en log ih =>
    refine triplewise_cons.mpr ⟨?_, ih⟩
    exact pairwise_of_forall fun _ _ _ hne => (hne rfl).elim

def Op.setsFactor (u : String) : Op → Prop
  | updateTOTPSecret id _ _ => id = u
  | disableTOTP id => id = u
  | _ => False

variable {e : Env} {o : Op} {secret : String} {h : History}

theorem onUser_factor (htgt : o.target = some u)
    (hcopy : ∀ v, o = .updateUser v → SameFactor rec.cached v) :
    (o.onUser e rec).cached.role = rec.cached.role ∧
      (SameFactor rec.cached (o.onUser e rec).cached ∨ o.setsFactor u ∧
        ((o.onUser e rec).cached.totpEnabled = false ∨
          ∃ secret, o = .updateTOTPSecret u secret true)) := by
  unfold Op.onUser
  split
  · rename_i v _
    have hsame := hcopy v rfl
    exact ⟨hsame.role, .inl ⟨hsame.role, hsame.enabled, hsame.secret⟩⟩
  · rename_i id secret enabled _
    cases htgt
    cases enabled with
    | false => exact ⟨rfl, .inr ⟨rfl, .inl rfl⟩⟩
    | true => exact ⟨rfl, .inr ⟨rfl, .inr ⟨secret, rfl⟩⟩⟩
  · cases htgt
    exact ⟨rfl, .inr ⟨rfl, .inl rfl⟩⟩
  all_goals exact ⟨rfl, .inl ⟨rfl, rfl, rfl⟩⟩

theorem onUser_enables (h : e.db = none ∨ rec.cached.totpEnabled = true) :
    ((Op.updateTOTPSecret u secret true).onUser e rec).cached.totpEnabled = true := by
  cases hdb : e.db with
  | none => simp [Op.onUser, hdb, State.setTOTP]
  | some err => simpa [Op.onUser, hdb] using h

def FactorAfter (u : String) (rec : UserRecord) (log : List (Entry Unit Env Op.Res))
    (rec' : UserRecord) : Prop :=
  rec'.cached.role = rec.cached.role ∧ (SameFactor rec.cached rec'.cached ∨
    (∃ en ∈ log, en.event.1.setsFactor u) ∧ (rec'.cached.totpEnabled = false ∨
      ∃ en ∈ log, ∃ secret, en.event.1 = .updateTOTPSecret u secret true))

section

variable (hc : Interleaving (sem lib cfg) s (fun _ => serve lib cfg req) c)

include hc

theorem call_step_factor {en : Entry Unit Env Op.Res} (hlog : c.log = pre ++ en :: post)
    (htgt : en.event.1.target = some u)
    (hget : (replay (sem lib cfg) s pre).users.get u = some rec) :
    (en.event.1.onUser en.env rec).cached.role = rec.cached.role ∧
      (SameFactor rec.cached (en.event.1.onUser en.env rec).cached ∨ en.event.1.setsFactor u ∧
        ((en.event.1.onUser en.env rec).cached.totpEnabled = false ∨
          ∃ secret, en.event.1 = .updateTOTPSecret u secret true)) := by
  refine onUser_factor htgt fun v hop => ?_
  rw [hop] at htgt
  exact (copied hc (noStaleWrite_unit u c.log) hlog hop (Option.some.inj htgt) hget).2.1

theorem call_factor (hlog : c.log = pre ++ post) (hget : s.users.get u = some rec) :
    ∃ rec', (replay (sem lib cfg) s pre).users.get u = some rec' ∧ FactorAfter u rec pre rec' := by
  refine fold_induction (P := fun pre => ∃ rec', (replay (sem lib cfg) s pre).users.get u =
    some rec' ∧ FactorAfter u rec pre rec') ⟨rec, hget, rfl, .inl ⟨rfl, rfl, rfl⟩⟩
    (fun pre en post hlog ih => ?_) hlog
  obtain ⟨rec', hget', hrole, hfac⟩ := ih pre [] (by simp)
  rw [replay_concat, sem_user en.event.1 hget']
  refine ⟨_, rfl, ?_⟩
  -- an enrolment that has been there stays there
  have hlt (rec'' : UserRecord) (h : rec''.cached.role = rec'.cached.role)
      (hsame : SameFactor rec'.cached rec''.cached) : FactorAfter u rec (pre ++ [en]) rec'' := by
    refine ⟨h.trans hrole, ?_⟩
    rcases hfac with hfac | ⟨⟨x, hx, hsets⟩, hfac⟩
    · exact .inl (hfac.trans hsame)
    · refine .inr ⟨⟨x, mem_append_left _ hx, hsets⟩, ?_⟩
      rcases hfac with hoff | ⟨w, hw, hkey⟩
      · exact .inl (hsame.enabled.trans hoff)
      · exact .inr ⟨w, mem_append_left _ hw, hkey⟩
  by_cases htgt : en.event.1.target = some u
  · rw [if_pos htgt]
    obtain ⟨hrole', hsame | ⟨hsets, hoff | ⟨secret, hop⟩⟩⟩ := call_step_factor hc hlog htgt hget'
    · exact hlt _ hrole' hsame
    · exact ⟨hrole'.trans hrole, .inr ⟨⟨en, by simp, hsets⟩, .inl hoff⟩⟩
    · exact ⟨hrole'.trans hrole, .inr ⟨⟨en, by simp, hsets⟩, .inr ⟨en, by simp, secret, hop⟩⟩⟩
  · rw [if_neg htgt]
    exact hlt rec' rfl ⟨rfl, rfl, rfl⟩

end

variable {token : Option AccessToken} {code : String} {enabled : Bool}

theorem totpConfirmGuar_updateTOTPSecret
    (hguar : totpConfirmGuar token code h (.updateTOTPSecret u secret enabled)) :
    enabled = true ∧ ∃ token' claims, token = some token' ∧ claims.userID = u ∧
      Answered h (.verifyAccessToken token') (.ok claims) := by
  rcases hguar with hguar | ⟨claims, ⟨token', sess, rfl, hver, -⟩, hguar | hguar | ⟨user, hguar⟩⟩
  · exact hguar.elim
  · exact ⟨hguar.2.1, token', claims, rfl, hguar.1.symm, hver⟩
  · cases hguar
  · cases hguar

theorem requestGuar_updateTOTPSecret (hroute : ∀ u code, req ≠ .confirmTOTPSetup u code)
    (hguar : requestGuar lib req h (.updateTOTPSecret u secret enabled)) :
    ∃ token code claims, req = .totpConfirm (some token) code ∧ claims.userID = u ∧
      Answered h (.verifyAccessToken token) (.ok claims) := by
  cases req with
  | confirmTOTPSetup id code => exact (hroute id code rfl).elim
  | logout sessionID | logoutAll userID => cases hguar
  | totpBegin token =>
    rcases hguar with hguar | ⟨claims, -, hguar⟩
    · exact hguar.elim
    · exact hguar.elim
  | totpConfirm token code =>
    obtain ⟨-, token', claims, rfl, huser, hver⟩ := totpConfirmGuar_updateTOTPSecret hguar
    exact ⟨token', code, claims, rfl, huser, hver⟩
  | _ => exact hguar.elim

def Request.OpensSession (req : Request) : Prop :=
  (∃ lreq ipAddr userAgent, req = .login lreq ipAddr userAgent) ∨
    ∃ sid raw, req = .refreshTokens sid raw

theorem requestGuar_createSession {new : Session}
    (hguar : requestGuar lib req h (.createSession new)) : req.OpensSession := by
  cases req with
  | login lreq ipAddr userAgent => exact .inl ⟨lreq, ipAddr, userAgent, rfl⟩
  | refreshTokens sid raw => exact .inr ⟨sid, raw, rfl⟩
  | logout sessionID | logoutAll userID => cases hguar
  | totpBegin token => cases totpBeginGuar_enrols hguar
  | totpConfirm token code => cases totpConfirmGuar_enrols hguar
  | _ => exact hguar.elim

theorem requestGuar_createUser {v : User} : ¬requestGuar lib req h (.createUser v) := by
  intro hguar
  cases req with
  | logout sessionID | logoutAll userID => cases hguar
  | totpBegin token => cases totpBeginGuar_enrols hguar
  | totpConfirm token code => cases totpConfirmGuar_enrols hguar
  | _ => exact hguar.elim

theorem call_users (hc : Interleaving (sem lib cfg) s (fun _ => serve lib cfg req) c)
    (hlog : c.log = pre ++ post) (h : (replay (sem lib cfg) s pre).users.get u = some rec) :
    ∃ rec₀, s.users.get u = some rec₀ := by
  cases hnone : s.users.get u with
  | some rec₀ => exact ⟨rec₀, rfl⟩
  | none =>
    have hstays : (replay (sem lib cfg) s pre).users.get u = none := by
      refine fold_induction (P := fun pre => (replay (sem lib cfg) s pre).users.get u = none) hnone
        (fun pre en post hlog ih => ?_) hlog
      have hguar := hc.guarantee (serve_spec lib cfg req) hlog
      rw [replay_concat, sem_users, ih pre [] (by simp)]
      · rfl
      · intro v hop
        rw [hop] at hguar
        exact requestGuar_createUser hguar
    rw [hstays] at h
    cases h

theorem requestGuar_factor (hreq : req.OpensSession) (hguar : requestGuar lib req h o) :
    ¬o.setsFactor u := by
  rcases hreq with ⟨lreq, ipAddr, userAgent, rfl⟩ | ⟨sid, raw, rfl⟩ <;>
    cases o with
    | updateTOTPSecret _ _ _ | disableTOTP _ => exact hguar.elim
    | _ => exact fun h => h

section

variable (hc : Interleaving (sem lib cfg) s (fun _ => serve lib cfg req) c)

include hc

theorem call_keeps (hreq : req.OpensSession) (hlog : c.log = pre ++ post)
    (h : (replay (sem lib cfg) s pre).users.get u = some rec) :
    ∃ rec₀, s.users.get u = some rec₀ ∧ SameFactor rec₀.cached rec.cached := by
  obtain ⟨rec₀, hget⟩ := call_users hc hlog h
  obtain ⟨rec', hget', -, hsame | ⟨⟨en, hen, hsets⟩, -⟩⟩ := call_factor hc hlog hget
  · rw [h] at hget'
    cases hget'
    exact ⟨rec₀, hget, hsame⟩
  · obtain ⟨p, q, rfl⟩ := append_of_mem hen
    have hsp : c.log = p ++ en :: (q ++ post) := by simpa using hlog
    exact (requestGuar_factor hreq (hc.guarantee (serve_spec lib cfg req) hsp) hsets).elim

theorem call_stays_enabled (hguar : ∀ h o, requestGuar lib req h o → o.setsFactor u →
      ∃ secret, o = .updateTOTPSecret u secret true)
    {mid : List (Entry Unit Env Op.Res)} (hlog : c.log = pre ++ mid ++ post)
    (hget : (replay (sem lib cfg) s pre).users.get u = some rec)
    (hon : rec.cached.totpEnabled = true) :
    ∃ rec', (replay (sem lib cfg) s (pre ++ mid)).users.get u = some rec' ∧
      rec'.cached.totpEnabled = true := by
  induction mid using List.reverseRecOn generalizing post with
  | nil => exact ⟨rec, by simpa using hget, hon⟩
  | append_singleton mid en ih =>
    have hsp : c.log = pre ++ mid ++ en :: post := by simpa using hlog
    obtain ⟨rec', hget', hon'⟩ := ih hsp
    rw [← append_assoc, replay_concat, sem_user en.event.1 hget']
    refine ⟨_, rfl, ?_⟩
    by_cases htgt : en.event.1.target = some u
    · rw [if_pos htgt]
      obtain ⟨-, hsame | ⟨hsets, -⟩⟩ := call_step_factor hc hsp htgt hget'
      · exact hsame.enabled.trans hon'
      · obtain ⟨secret, hop⟩ := hguar _ _ (hc.guarantee (serve_spec lib cfg req) hsp) hsets
        rw [hop]
        exact onUser_enables (.inr hon')
    · rw [if_neg htgt]
      exact hon'

end

theorem confirmGuar_factor (hguar : totpConfirmGuar token code h o) (hsets : o.setsFactor u) :
    ∃ secret, o = .updateTOTPSecret u secret true := by
  cases o with
  | updateTOTPSecret id secret enabled =>
    cases hsets
    obtain ⟨rfl, -⟩ := totpConfirmGuar_updateTOTPSecret hguar
    exact ⟨secret, rfl⟩
  | disableTOTP id => cases totpConfirmGuar_enrols hguar
  | _ => exact hsets.elim

end Call

def After (rs : List (Record Request Env Reply State)) (now : Int) : Prop :=
  ∀ r ∈ rs, ∀ e ∈ r.envs, e.now ≤ now

/-- The sessions of administrators with a second factor are dead or have proven it, and a
token names a session of its subject. -/
structure Guarded (lib : AuthLibrary) (cfg : JWTConfig) (rs : List (Record Request Env Reply State))
    (s : State) : Prop where
  owned : ∀ token ∈ issuedTokens rs, ∃ sess, s.sessions token.sessionID = some sess ∧
    sess.userID = token.subject
  proven : ∀ sid sess rec now, s.sessions sid = some sess → s.users.get sess.userID = some rec →
    rec.cached.role.requires2FA = true → rec.cached.totpEnabled = true → After rs now →
    s.Dead cfg now sid ∨ Proven lib rs sid

structure Step (lib : AuthLibrary) (cfg : JWTConfig) (rs : List (Record Request Env Reply State))
    (r : Record Request Env Reply State) : Prop where
  exec : exec (sem lib cfg) (serve lib cfg r.req) r.envs r.pre = some (r.reply, r.post)
  guarded : Guarded lib cfg rs r.pre
  later : ∀ e ∈ r.envs, After rs e.now
  clock : r.envs.Pairwise fun e e' => e.now ≤ e'.now
  genuine : ∀ token, r.req.presented = some token → token ∈ issuedTokens rs
  routed : ∀ u code, r.req ≠ .confirmTOTPSetup u code
  sole : SoleSession cfg r

section Step

variable {lib : AuthLibrary} {cfg : JWTConfig} {rs : List (Record Request Env Reply State)}
  {r : Record Request Env Reply State} {sid : String} {sess : Session} {rec : UserRecord}

theorem Step.log (hs : Step lib cfg rs r) : ∃ c : Config State Unit Env Op.Res Reply,
    Interleaving (sem lib cfg) r.pre (fun _ => serve lib cfg r.req) c ∧ c.calls () = .ret r.reply ∧
      r.post = replay (sem lib cfg) r.pre c.log ∧ ∀ en ∈ c.log, en.env ∈ r.envs := by
  obtain ⟨c, hc, hret, hst, henvs⟩ := exec_interleaving hs.exec
  refine ⟨c, hc, hret, hst.symm.trans hc.state, fun en hen => ?_⟩
  rw [← henvs]
  exact mem_map_of_mem hen

theorem Step.returned {α : Type} {f : α → Reply} {p : Call α} (hs : Step lib cfg rs r)
    (hsv : serve lib cfg r.req = f <$> p) :
    ∃ result, ∃ c : Config State Unit Env Op.Res Reply, f result = r.reply ∧
      Interleaving (sem lib cfg) r.pre (fun _ => serve lib cfg r.req) c ∧
      r.post = replay (sem lib cfg) r.pre c.log ∧ (∀ en ∈ c.log, en.env ∈ r.envs) ∧
      requestPost lib r.req (events () c.log) (f result) := by
  have hexec := hs.exec
  rw [hsv] at hexec
  obtain ⟨result, -, hre⟩ := exec_map hexec
  obtain ⟨c, hc, hret, hpost, henvs⟩ := hs.log
  have hreturns := hc.returns (serve_spec lib cfg r.req) hret
  exact ⟨result, c, hre, hc, hpost, henvs, hre.symm ▸ hreturns⟩

variable {e : Env} {c : Config State Unit Env Op.Res Reply} {s t : State}
  {secret code ipAddr userAgent raw sid₀ u : String} {lreq : LoginRequest} {user : User}
  {token : AccessToken} {given : Option AccessToken} {now : Int}

theorem Step.head (hs : Step lib cfg rs r) (he : e ∈ r.envs.head?) :
    After rs e.now ∧ ∀ e' ∈ r.envs, e.now ≤ e'.now := by
  obtain ⟨es, hes⟩ := List.head?_eq_some_iff.mp he
  have hclk := hs.clock
  refine ⟨hs.later e (by rw [hes]; simp), fun e' he' => ?_⟩
  rw [hes] at hclk he'
  rcases mem_cons.mp he' with rfl | he'
  · exact Int.le_refl _
  · exact (pairwise_cons.mp hclk).1 e' he'

theorem Step.accepted (hs : Step lib cfg rs r)
    (hc : Interleaving (sem lib cfg) r.pre (fun _ => serve lib cfg r.req) c)
    (henvs : ∀ en ∈ c.log, en.env ∈ r.envs) {found : Session}
    (hfd : Answered (events () c.log) (.getSession sid) (.ok found))
    (hsess : r.pre.sessions sid = some sess) (hrec : r.pre.users.get sess.userID = some rec)
    (hrole : rec.cached.role.requires2FA = true) (hon : rec.cached.totpEnabled = true) :
    Proven lib rs sid := by
  obtain ⟨pre, en, post, hlog, -, -⟩ := mem_events hfd
  have hen : en.env ∈ r.envs := henvs en (by rw [hlog]; simp)
  obtain ⟨e, he⟩ : ∃ e, e ∈ r.envs.head? := by
    cases hes : r.envs with
    | nil => simp [hes] at hen
    | cons e es => exact ⟨e, rfl⟩
  obtain ⟨haf, hfst⟩ := hs.head he
  refine (hs.guarded.proven sid sess rec e.now hsess hrec hrole hon haf).resolve_left ?_
  intro hdead
  exact not_answered_of_dead hc hdead (fun en hen => hfst _ (henvs en hen)) hfd

theorem Step.created (hs : Step lib cfg rs r) (hopens : Opens r sid sess) :
    ∃ c : Config State Unit Env Op.Res Reply, ∃ pre en post new,
      Interleaving (sem lib cfg) r.pre (fun _ => serve lib cfg r.req) c ∧
      (∀ en ∈ c.log, en.env ∈ r.envs) ∧ c.log = pre ++ en :: post ∧ sess.userID = new.userID ∧
      requestGuar lib r.req (events () pre) (.createSession new) := by
  obtain ⟨c, hc, -, hpost, henvs⟩ := hs.log
  obtain ⟨hnone, hsome⟩ := hopens
  rw [hpost] at hsome
  obtain ⟨pre, en, post, new, hlog, hop, hnew⟩ := replay_session_new hnone hsome
  have hguar := hc.guarantee (serve_spec lib cfg r.req) hlog
  rw [hop] at hguar
  exact ⟨c, pre, en, post, new, hc, henvs, hlog, hnew, hguar⟩

theorem verifyTOTP_true (h : (sem lib cfg e (.verifyTOTP secret code) s).1 = true) :
    (matchingCounter lib.toTotpLibrary (e.now / second) secret code).isSome = true := by
  simp only [sem, State.verifyTOTP, verifyTOTPCode] at h
  split at h
  · cases h
  · rename_i counter hctr
    rw [hctr]
    rfl

theorem Step.opened_login (hs : Step lib cfg rs r) (hreq : r.req = .login lreq ipAddr userAgent)
    (hop : Opens r sid sess) (hrec : r.pre.users.get sess.userID = some rec)
    (hon : rec.cached.totpEnabled = true) : OpenedWithCode lib r sid := by
  refine ⟨lreq, ipAddr, userAgent, sess, rec, hreq, hop, hrec, ?_⟩
  obtain ⟨c, pre, en, post, new, hc, henvs, hlog, hnew, hguar⟩ := hs.created hop
  rw [hreq] at hguar
  obtain ⟨user, hauth, huser, hcode⟩ := hguar
  obtain ⟨p, g, q, hpre, -, -, hok⟩ := hc.answered hlog hauth.found
  obtain ⟨-, r₀, hget, hcopy⟩ := getUserByUsername_ok hok
  have hlogp : c.log = p ++ (g :: q ++ en :: post) := by rw [hlog, hpre]; simp
  obtain ⟨rec', hrec', hsame⟩ := call_keeps hc (.inl ⟨_, _, _, hreq⟩) hlogp hget
  rw [← huser, ← hnew, hrec] at hrec'
  cases hrec'
  rw [hcopy] at hsame
  obtain ⟨p, w, q, hpre, -, -, hver⟩ := hc.answered hlog (hcode (hsame.enabled.trans hon))
  refine ⟨w.env, henvs w (by rw [hlog, hpre]; simp), ?_⟩
  rw [← hsame.secret]
  exact verifyTOTP_true hver

theorem refreshTokens_found {es : List Env} {reply : Except AuthError TokenPair}
    (h : Interleave.exec (sem lib cfg) (refreshTokens lib cfg sid raw) es s = some (reply, t)) :
    (∃ err, reply = .error err ∧ t = s) ∨
      ∃ e ∈ es.head?, ∃ found, s.getSession cfg.inactivityTimeout e sid = .ok found := by
  obtain ⟨e, es', rfl, h'⟩ := exec_call h
  generalize hget : (sem lib cfg e (.getSession sid) s).1 = result at h'
  rcases result with err | found
  · obtain ⟨rfl, rfl⟩ := exec_ret h'
    exact .inl ⟨err, rfl, rfl⟩
  · exact .inr ⟨e, rfl, found, hget⟩

theorem Step.opened_refresh (hs : Step lib cfg rs r) (hreq : r.req = .refreshTokens sid₀ raw)
    (hop : Opens r sid sess) (hrec : r.pre.users.get sess.userID = some rec)
    (hrole : rec.cached.role.requires2FA = true) (hon : rec.cached.totpEnabled = true) :
    Proven lib (rs ++ [r]) sid := by
  have hexec := hs.exec
  rw [hreq] at hexec
  obtain ⟨result, hexec, -⟩ := exec_map hexec
  rcases refreshTokens_found hexec with ⟨err, -, hsame⟩ | ⟨e, he, found, hfd⟩
  · obtain ⟨hnone, hsome⟩ := hop
    rw [hsame, hnone] at hsome
    cases hsome
  obtain ⟨hsess, -⟩ := getSession_ok hfd
  obtain ⟨c, pre, en, post, new, hc, -, hlog, hnew, hguar⟩ := hs.created hop
  rw [hreq] at hguar
  obtain ⟨sess', user, hrot, -, huser⟩ := hguar
  obtain ⟨p, g, q, -, -, -, hok⟩ := hc.answered hlog hrot.found
  obtain ⟨sess'', hsess'', huser''⟩ := replay_session hsess
  rw [(getSession_ok hok).1] at hsess''
  cases hsess''
  have how : sess.userID = found.userID := by rw [hnew, huser, huser'']
  rw [how] at hrec
  obtain ⟨haf, -⟩ := hs.head he
  have hprov : Proven lib rs sid₀ := by
    refine (hs.guarded.proven sid₀ found rec e.now hsess hrec hrole hon haf).resolve_left ?_
    exact fun hdead => hdead.getSession_ne_ok (Int.le_refl _) found hfd
  exact .rotated hprov ⟨raw, sess, hreq, hop⟩

theorem generateAccessToken_ok {tfa : Bool} {scope : Scope} {token : AccessToken × Int}
    (h : (sem lib cfg e (.generateAccessToken user sid tfa scope) s).1 = .ok token) :
    token.1 = generateAccessToken cfg e.now user sid tfa scope := by
  simp only [sem] at h
  split at h
  · cases h
  · cases h
    rfl

theorem totpEnabled_of_full (hrole : user.role.requires2FA = true)
    (hfull : tfaSatisfied user = true ∨ tokenScope user = .session) : user.totpEnabled = true := by
  rcases hfull with hfull | hfull
  · simpa [tfaSatisfied, hrole] using hfull
  · by_contra hoff
    simp [tokenScope, hrole, hoff] at hfull

structure Signed (r : Record Request Env Reply State) (token : AccessToken) (sess : Session)
    (rec : UserRecord) : Prop where
  opens : Opens r token.sessionID sess
  subject : sess.userID = token.subject
  record : r.pre.users.get sess.userID = some rec
  role : rec.cached.role = token.role
  full : token.role.requires2FA = true → token.tfaVerified = true ∨ token.scope = .session →
    rec.cached.totpEnabled = true

theorem Step.signed (hc : Interleaving (sem lib cfg) r.pre (fun _ => serve lib cfg r.req) c)
    (hpost : r.post = replay (sem lib cfg) r.pre c.log) {new sess : Session}
    {token : AccessToken × Int} (hrec : r.pre.users.get user.id = some rec)
    (hsame : SameFactor rec.cached user)
    (hcreate : Answered (events () c.log) (.createSession new) (.ok sess))
    (huser : new.userID = user.id)
    (hsign : Answered (events () c.log)
      (.generateAccessToken user sess.id (tfaSatisfied user) (tokenScope user)) (.ok token)) :
    ∃ sess', Signed r token.1 sess' rec := by
  obtain ⟨pre, en, post, hlog, -, hen, hcreated⟩ := hc.answered_log hcreate
  obtain ⟨hnone, hsess, hnew⟩ := createSession_ok hcreated
  obtain ⟨_, g, _, -, -, -, hsig⟩ := hc.answered_log hsign
  have htk := generateAccessToken_ok hsig
  have hpre : r.pre.sessions sess.id = none := by
    cases hold : r.pre.sessions sess.id with
    | none => rfl
    | some old =>
      obtain ⟨sess', hsess', -⟩ := replay_session hold
      rw [hnone] at hsess'
      cases hsess'
  obtain ⟨sess', hsess', huser'⟩ :
      ∃ sess', r.post.sessions sess.id = some sess' ∧ sess'.userID = sess.userID := by
    rw [hpost, hlog, replay_append, replay_cons, hen]
    exact replay_session hsess
  have how : sess'.userID = user.id := by rw [huser', hnew, huser]
  rw [htk]
  refine ⟨sess', ⟨hpre, hsess'⟩, how, how ▸ hrec, hsame.role.symm, fun hrole hfull => ?_⟩
  rw [← hsame.enabled]
  exact totpEnabled_of_full hrole hfull

theorem Step.signed_login (hs : Step lib cfg rs r) (hreq : r.req = .login lreq ipAddr userAgent)
    (htk : r.reply.token = some token) : ∃ sess rec, Signed r token sess rec := by
  have hsv : serve lib cfg r.req = .login <$> login lib cfg lreq ipAddr userAgent := by
    rw [hreq]
    rfl
  obtain ⟨result, c, hre, hc, hpost, -, hret⟩ := hs.returned hsv
  rw [hreq] at hret
  rw [← hre] at htk
  rcases result with err | resp
  · cases htk
  cases htk
  obtain ⟨user, new, sess, signed, hauth, -, hnew, huser, hsign, heq⟩ := hret resp rfl
  obtain ⟨p, g, q, hlog, -, -, hok⟩ := hc.answered_log hauth.found
  obtain ⟨-, r₀, hget, hcopy⟩ := getUserByUsername_ok hok
  obtain ⟨rec, hrec, hsame⟩ := call_keeps hc (.inl ⟨_, _, _, hreq⟩) hlog hget
  rw [hcopy] at hsame
  obtain ⟨sess', hsig⟩ := Step.signed hc hpost hrec hsame hnew huser hsign
  rw [← heq] at hsig
  exact ⟨sess', rec, hsig⟩

theorem Step.signed_refresh (hs : Step lib cfg rs r) (hreq : r.req = .refreshTokens sid₀ raw)
    (htk : r.reply.token = some token) : ∃ sess rec, Signed r token sess rec := by
  have hsv : serve lib cfg r.req = .tokens <$> refreshTokens lib cfg sid₀ raw := by
    rw [hreq]
    rfl
  obtain ⟨result, c, hre, hc, hpost, -, hret⟩ := hs.returned hsv
  rw [hreq] at hret
  rw [← hre] at htk
  rcases result with err | pair
  · cases htk
  cases htk
  obtain ⟨sess, user, new, sess', signed, hrot, -, hnew, huser, hsign, heq⟩ := hret pair rfl
  obtain ⟨p, g, q, hlog, -, -, hok⟩ := hc.answered_log hrot.owner
  obtain ⟨r₀, hget, hcopy, hid⟩ := getUserByID_ok hok
  obtain ⟨rec, hrec, hsame⟩ := call_keeps hc (.inr ⟨_, _, hreq⟩) hlog hget
  rw [hcopy] at hsame
  obtain ⟨sess'', hsig⟩ := Step.signed hc hpost (hid ▸ hrec) hsame hnew (huser.trans hid.symm) hsign
  rw [← heq] at hsig
  exact ⟨sess'', rec, hsig⟩

theorem updateTOTPSecret_ok {enabled : Bool}
    (h : (sem lib cfg e (.updateTOTPSecret u secret enabled) s).1 = .ok ()) : e.db = none := by
  simp only [sem, State.updateTOTPSecret] at h
  split at h
  · cases h
  · rename_i hdb
    exact hdb

theorem Step.stored (hc : Interleaving (sem lib cfg) r.pre (fun _ => serve lib cfg r.req) c)
    (hpost : r.post = replay (sem lib cfg) r.pre c.log) (hreq : r.req = .totpConfirm given code)
    (hset : Answered (events () c.log) (.updateTOTPSecret u secret true) (.ok ()))
    (hrec : r.pre.users.get u = some rec) :
    ∃ rec', r.post.users.get u = some rec' ∧ rec'.cached.totpEnabled = true := by
  obtain ⟨pre, w, post, hlog, -, hw, hupd⟩ := hc.answered_log hset
  obtain ⟨rec₁, hrec₁⟩ := replay_user hrec
  have haf : (replay (sem lib cfg) r.pre (pre ++ [w])).users.get u =
      some ((Op.updateTOTPSecret u secret true).onUser w.env rec₁) := by
    rw [replay_concat, hw, sem_user _ hrec₁]
    simp [Op.target]
  have hsp : c.log = (pre ++ [w]) ++ post ++ [] := by rw [hlog]; simp
  have hlast : pre ++ [w] ++ post = c.log := by rw [hlog]; simp
  rw [hpost, ← hlast]
  refine call_stays_enabled hc (fun h o hguar => ?_) hsp haf
    (onUser_enables (.inl (updateTOTPSecret_ok hupd)))
  rw [hreq] at hguar
  exact confirmGuar_factor hguar

structure Confirmed (lib : AuthLibrary) (rs : List (Record Request Env Reply State))
    (r : Record Request Env Reply State) (token presented : AccessToken) (code : String)
    (rec rec' : UserRecord) : Prop where
  request : r.req = .totpConfirm (some presented) code
  sessionID : token.sessionID = presented.sessionID
  subject : token.subject = presented.subject
  before : r.pre.users.get presented.subject = some rec
  role : rec.cached.role = token.role
  after : r.post.users.get presented.subject = some rec'
  enabled : rec'.cached.totpEnabled = true
  accepted : ∀ sess, r.pre.sessions presented.sessionID = some sess →
    sess.userID = presented.subject → rec.cached.role.requires2FA = true →
    rec.cached.totpEnabled = true → Proven lib rs presented.sessionID

section

variable (hs : Step lib cfg rs r)

include hs

theorem Step.confirmed (hreq : r.req = .totpConfirm given code) (htk : r.reply.token = some token) :
    ∃ presented code rec rec', Confirmed lib rs r token presented code rec rec' := by
  have hsv : serve lib cfg r.req = .confirmed <$>
      requireAuth given fun claims => Handler.totpConfirm cfg claims code := by
    rw [hreq]
    rfl
  obtain ⟨result, c, hre, hc, hpost, henvs, hret⟩ := hs.returned hsv
  rw [hreq] at hret
  rw [← hre] at htk
  rcases result with err | ⟨codes, _ | pair⟩
  · cases htk
  · cases htk
  cases htk
  obtain ⟨claims, secret, ⟨presented, found, rfl, hverify, hfd⟩, hset, hpair⟩ :=
    hret codes (some pair) rfl
  obtain ⟨user, signed, how, hsign, heq⟩ := hpair pair rfl
  obtain ⟨_, v, _, -, -, -, hver⟩ := hc.answered_log hverify
  obtain ⟨hsid, hsub, -⟩ := verifyAccessToken_ok hver
  rw [hsid] at hsign hfd
  rw [hsub] at hset how
  obtain ⟨_, g, _, -, -, -, hsig⟩ := hc.answered_log hsign
  obtain ⟨p, o, q, hlog, -, -, hok⟩ := hc.answered_log how
  obtain ⟨r₀, hget₀, hcopy, hid⟩ := getUserByID_ok hok
  obtain ⟨rec, hrec⟩ := call_users hc hlog hget₀
  obtain ⟨r₀', hget₀', hrole, -⟩ := call_factor hc hlog hrec
  rw [hget₀] at hget₀'
  cases hget₀'
  obtain ⟨rec', hrec', hon⟩ := Step.stored hc hpost hreq hset hrec
  have hflds := generateAccessToken_ok hsig
  refine ⟨presented, code, rec, rec', hreq, ?_, ?_, hrec, ?_, hrec', hon, ?_⟩
  · rw [heq, hflds]
    rfl
  · rw [heq, hflds]
    exact hid
  · rw [heq, hflds, ← hrole, hcopy]
    rfl
  · intro sess hsess huser
    exact hs.accepted hc henvs hfd hsess (huser ▸ hrec)

theorem Step.issued (htk : r.reply.token = some token) :
    (∃ sess rec, Signed r token sess rec) ∨
      ∃ presented code rec rec', Confirmed lib rs r token presented code rec rec' := by
  have hexec := hs.exec
  cases hreq : r.req with
  | login lreq ipAddr userAgent => exact .inl (hs.signed_login hreq htk)
  | refreshTokens sid₀ raw => exact .inl (hs.signed_refresh hreq htk)
  | totpConfirm given code => exact .inr (hs.confirmed hreq htk)
  | _ =>
    rw [hreq] at hexec
    obtain ⟨result, -, hre⟩ := exec_map hexec
    rw [← hre] at htk
    cases htk

theorem Step.new_session (hop : Opens r sid sess)
    (hrec : r.pre.users.get sess.userID = some rec) (hrole : rec.cached.role.requires2FA = true)
    (hon : rec.cached.totpEnabled = true) : Proven lib (rs ++ [r]) sid := by
  obtain ⟨_, _, _, _, _, -, -, -, -, hguar⟩ := hs.created hop
  rcases requestGuar_createSession hguar with ⟨lreq, ipAddr, userAgent, hreq⟩ | ⟨sid₀, raw, hreq⟩
  · exact .opened (hs.opened_login hreq hop hrec hon)
  · exact hs.opened_refresh hreq hop hrec hrole hon

theorem Step.proven_token (htk : r.reply.token = some token) (hrole : token.role.requires2FA = true)
    (hfull : token.tfaVerified = true ∨ token.scope = .session) :
    Proven lib (rs ++ [r]) token.sessionID := by
  rcases hs.issued htk with ⟨sess, rec, hsig⟩ | ⟨presented, code, rec, rec', hconf⟩
  · exact hs.new_session hsig.opens hsig.record (hsig.role ▸ hrole) (hsig.full hrole hfull)
  · rw [hconf.sessionID]
    by_cases hon : rec.cached.totpEnabled = true
    · have hissued := hs.genuine presented (by rw [hconf.request]; rfl)
      obtain ⟨sess, hsess, how⟩ := hs.guarded.owned presented hissued
      exact .earlier (hconf.accepted sess hsess how (hconf.role ▸ hrole) hon)
    · exact .enabled ⟨presented, code, rec, rec', hconf.request, rfl, hconf.before,
        by simpa using hon, hconf.after, hconf.enabled⟩

theorem Step.owned : ∀ token ∈ issuedTokens (rs ++ [r]),
    ∃ sess, r.post.sessions token.sessionID = some sess ∧ sess.userID = token.subject := by
  obtain ⟨c, -, -, hpost, -⟩ := hs.log
  have hkept {token : AccessToken} (h : ∃ sess, r.pre.sessions token.sessionID = some sess ∧
      sess.userID = token.subject) :
      ∃ sess, r.post.sessions token.sessionID = some sess ∧ sess.userID = token.subject := by
    obtain ⟨sess, hsess, howner⟩ := h
    obtain ⟨sess', hsess', how'⟩ := replay_session hsess
    rw [hpost]
    exact ⟨sess', hsess', how'.trans howner⟩
  intro token htk
  rw [issuedTokens, filterMap_append, mem_append] at htk
  rcases htk with htk | htk
  · exact hkept (hs.guarded.owned token htk)
  · have htk : r.reply.token = some token := by simpa using htk
    rcases hs.issued htk with ⟨sess, rec, hsig⟩ | ⟨presented, code, rec, rec', hconf⟩
    · exact ⟨sess, hsig.opens.2, hsig.subject⟩
    · have how := hs.guarded.owned presented (hs.genuine presented (by rw [hconf.request]; rfl))
      rw [← hconf.sessionID, ← hconf.subject] at how
      exact hkept how

end

theorem After.of_append (h : After (rs ++ [r]) now) : After rs now ∧ ∀ e ∈ r.envs, e.now ≤ now :=
  ⟨fun r' hr' => h r' (mem_append_left _ hr'), h r (by simp)⟩

section

variable (hs : Step lib cfg rs r)

include hs

theorem Step.stays_dead (he : e ∈ r.envs.head?)
    (hdead : r.pre.Dead cfg e.now sid) (haf : After (rs ++ [r]) now) : r.post.Dead cfg now sid := by
  have hmem : e ∈ r.envs := mem_of_head? he
  exact (serve_dead hs.exec hdead (hs.head he).2).1.mono (haf.of_append.2 e hmem)

theorem Step.old_session (hsess : r.pre.sessions sid = some sess)
    (hrec : r.pre.users.get sess.userID = some rec) (hrole : rec.cached.role.requires2FA = true)
    (hon : rec.cached.totpEnabled = true) (haf : After (rs ++ [r]) now) :
    r.post.Dead cfg now sid ∨ Proven lib (rs ++ [r]) sid := by
  have hprov := hs.guarded.proven sid sess rec
  cases hes : r.envs with
  | nil =>
    obtain ⟨c, -, -, hpost, henvs⟩ := hs.log
    have hlog : c.log = [] := by
      refine eq_nil_iff_forall_not_mem.mpr fun en hen => ?_
      have hmem := henvs en hen
      rw [hes] at hmem
      cases hmem
    rw [hlog] at hpost
    rw [show r.post = r.pre from hpost]
    exact (hprov now hsess hrec hrole hon haf.of_append.1).imp_right .earlier
  | cons e es =>
    have he : e ∈ r.envs.head? := by rw [hes]; rfl
    rcases hprov e.now hsess hrec hrole hon (hs.head he).1 with hdead | hprov
    · exact .inl (hs.stays_dead he hdead haf)
    · exact .inr hprov.earlier

theorem Step.enabling {rec' : UserRecord}
    (hrec' : r.post.users.get u = some rec') (hon : rec'.cached.totpEnabled = true) :
    ∃ rec, r.pre.users.get u = some rec ∧ rec'.cached.role = rec.cached.role ∧
      (rec.cached.totpEnabled = true ∨ rec.cached.totpEnabled = false ∧
        ∃ token code e, r.req = .totpConfirm (some token) code ∧ token.subject = u ∧
          e ∈ r.envs.head?) := by
  obtain ⟨c, hc, -, hpost, henvs⟩ := hs.log
  rw [hpost] at hrec'
  obtain ⟨rec, hrec⟩ := call_users hc (append_nil c.log).symm hrec'
  obtain ⟨rec'', hrec'', hrole, hfac⟩ := call_factor hc (append_nil c.log).symm hrec
  rw [hrec'] at hrec''
  cases hrec''
  refine ⟨rec, hrec, hrole, ?_⟩
  cases hpre : rec.cached.totpEnabled with
  | true => exact .inl rfl
  | false =>
    rcases hfac with hsame | ⟨-, hoff | ⟨en, hen, secret, hop⟩⟩
    · rw [hsame.enabled, hpre] at hon
      cases hon
    · rw [hoff] at hon
      cases hon
    · obtain ⟨p, q, hlog⟩ := append_of_mem hen
      have hguar := hc.guarantee (serve_spec lib cfg r.req) hlog
      rw [hop] at hguar
      obtain ⟨token, code, claims, hreq, huser, hverify⟩ :=
        requestGuar_updateTOTPSecret hs.routed hguar
      obtain ⟨_, v, _, -, -, -, hver⟩ := hc.answered hlog hverify
      obtain ⟨-, hsub, -⟩ := verifyAccessToken_ok hver
      have hmem := henvs en hen
      cases hes : r.envs with
      | nil =>
        rw [hes] at hmem
        cases hmem
      | cons e es => exact .inr ⟨rfl, token, code, e, hreq, hsub.symm.trans huser, rfl⟩

theorem Step.proven (hsess : r.post.sessions sid = some sess)
    (hrec' : r.post.users.get sess.userID = some rec) (hrole : rec.cached.role.requires2FA = true)
    (hon : rec.cached.totpEnabled = true) (haf : After (rs ++ [r]) now) :
    r.post.Dead cfg now sid ∨ Proven lib (rs ++ [r]) sid := by
  obtain ⟨rec₀, hrec, hsame, hpre⟩ := hs.enabling hrec' hon
  rw [hsame] at hrole
  obtain ⟨c, -, -, hpost, -⟩ := hs.log
  cases hold : r.pre.sessions sid with
  | none =>
    rcases hpre with hpre | ⟨-, token, code, e, hreq, -, -⟩
    · exact .inr (hs.new_session ⟨hold, hsess⟩ hrec hrole hpre)
    · obtain ⟨_, _, _, _, _, -, -, -, -, hguar⟩ := hs.created ⟨hold, hsess⟩
      rw [hreq] at hguar
      cases totpConfirmGuar_enrols hguar
  | some old =>
    have how : sess.userID = old.userID := by
      obtain ⟨sess', hsess', how⟩ := replay_session hold
      rw [← hpost, hsess] at hsess'
      cases hsess'
      exact how
    rw [how] at hrec hrec'
    rcases hpre with hpre | ⟨hpre, token, code, e, hreq, hsub, he⟩
    · exact hs.old_session hold hrec hrole hpre haf
    · rw [how] at hsub
      by_cases hsid : sid = token.sessionID
      · exact .inr (.enabled ⟨token, code, rec₀, rec, hreq, hsid.symm, hsub ▸ hrec, hpre,
          hsub ▸ hrec', hon⟩)
      · have hdead := hs.sole token code rec₀ hreq (hsub ▸ hrec) hrole hpre sid old hold
          hsub.symm hsid e he
        exact .inl (hs.stays_dead he hdead haf)

end

theorem step_of_sequence {done : List (Record Request Env Reply State)}
    (hrun : Sequence (sem lib cfg) (serve lib cfg) s rs t) (hgd : Guarded lib cfg done s)
    (hclk : ((done ++ rs).flatMap (·.envs)).Pairwise fun e e' => e.now ≤ e'.now)
    (hgen : Genuine (done ++ rs)) (hrt : ∀ r ∈ rs, ∀ u code, r.req ≠ .confirmTOTPSetup u code)
    (hsole : ∀ r ∈ rs, SoleSession cfg r) {pre post : List (Record Request Env Reply State)}
    (hsp : rs = pre ++ r :: post) : Step lib cfg (done ++ pre) r := by
  induction hrun generalizing done pre with
  | nil s => simp at hsp
  | @cons r' rs t hexec hrest ih =>
    have hstep : Step lib cfg done r' := by
      rw [flatMap_append, flatMap_cons, pairwise_append] at hclk
      obtain ⟨-, hnow, hlt⟩ := hclk
      refine ⟨hexec, hgd, fun e he r₀ hr₀ e₀ he₀ => ?_, (pairwise_append.mp hnow).1,
        hgen done r' rs rfl, hrt r' (.head _), hsole r' (.head _)⟩
      exact hlt e₀ (mem_flatMap.mpr ⟨r₀, hr₀, he₀⟩) e (mem_append_left _ he)
    cases pre with
    | nil =>
      cases hsp
      simpa using hstep
    | cons r₀ pre =>
      obtain ⟨rfl, htail⟩ := List.cons.inj hsp
      have hnext : Step lib cfg (done ++ [r'] ++ pre) r :=
        ih ⟨hstep.owned, fun _ _ _ _ => hstep.proven⟩ (by simpa using hclk)
          (by simpa using hgen)
          (fun r hr => hrt r (.tail _ hr))
          (fun r hr => hsole r (.tail _ hr)) htail
      simpa using hnext

/-- A token of full scope for an administrator goes to a session in which a code has been
shown at the login, or that has enabled the second factor of the account. -/
theorem two_factor_guarantee {s t : State} {pre post : List (Record Request Env Reply State)}
    {token : AccessToken} (hrun : Sequence (sem lib cfg) (serve lib cfg) s rs t)
    (hstart : ∀ sid, s.sessions sid = none)
    (hclock : (rs.flatMap (·.envs)).Pairwise fun e e' => e.now ≤ e'.now) (hgenuine : Genuine rs)
    (hrouted : ∀ r ∈ rs, ∀ u code, r.req ≠ .confirmTOTPSetup u code)
    (hsole : ∀ r ∈ rs, SoleSession cfg r) (hsplit : rs = pre ++ r :: post)
    (htoken : r.reply.token = some token) (hrole : token.role.requires2FA = true)
    (hfull : token.tfaVerified = true ∨ token.scope = .session) :
    Proven lib (pre ++ [r]) token.sessionID := by
  have hgd : Guarded lib cfg [] s := by
    refine ⟨fun token htoken => (nomatch htoken), fun sid sess rec now hsess => ?_⟩
    rw [hstart sid] at hsess
    cases hsess
  have hstep := step_of_sequence hrun hgd hclock hgenuine hrouted hsole hsplit
  exact hstep.proven_token htoken hrole hfull

end Step

def root : User := sampleUser "root" .superAdmin

def codeTime : Int := 3000 * second

def enrolledState : State :=
  emptyState |> withUser { root with totpSecret := "A", totpEnabled := true }

def signIn (code : String) : Request := .login ⟨"root", "Old-password-1", code⟩ "192.0.2.1:4711" ""

def codeThenRefresh : List (Request × List Env) :=
  [(signIn "000100", envs 10 codeTime "s1"), (.refreshTokens "s1" "", envs 8 codeTime "s2")]

theorem two_factor_guarantee_refresh : ∃ rs r token, r.reply.token = some token ∧
    token.role.requires2FA = true ∧ token.tfaVerified = true ∧
    Proven plainLibrary (rs ++ [r]) token.sessionID := by
  have hrun : (runSample enrolledState codeThenRefresh).any (fun run =>
      decide ((run.1.map (·.req) = codeThenRefresh.map (·.1) ∧
        (run.1.flatMap (·.envs)).Pairwise fun e e' => e.now ≤ e'.now) ∧
        (run.1.getLast?.bind (·.reply.token)).map (fun token => (token.role, token.tfaVerified)) =
          some (.superAdmin, true))) = true := by decide +kernel
  obtain ⟨rs, t, hseq, hall⟩ := runSample_any hrun
  obtain ⟨⟨hreqs, hclk⟩, hlast⟩ := of_decide_eq_true hall
  obtain ⟨token, hbind, hflds⟩ := Option.map_eq_some_iff.mp hlast
  obtain ⟨r, hr, htk⟩ := Option.bind_eq_some_iff.mp hbind
  obtain ⟨pre, rfl⟩ := List.getLast?_eq_some_iff.mp hr
  obtain ⟨hrole, hfull⟩ := Prod.mk.inj hflds
  have hkind : ∀ r' ∈ pre ++ [r], r'.req ∈ codeThenRefresh.map (·.1) := fun r' hr' =>
    hreqs ▸ List.mem_map_of_mem hr'
  have hnone : ∀ r' ∈ pre ++ [r], r'.req.presented = none ∧
      ∀ u code, r'.req ≠ .confirmTOTPSetup u code := by
    intro r' hr'
    have hmem := hkind r' hr'
    simp only [codeThenRefresh, List.map_cons, List.map_nil, List.mem_cons, List.not_mem_nil,
      or_false] at hmem
    rcases hmem with hmem | hmem <;> rw [hmem] <;> exact ⟨rfl, by simp [signIn]⟩
  refine ⟨pre, r, token, htk, by rw [hrole]; rfl, hfull, ?_⟩
  refine two_factor_guarantee hseq (fun _ => rfl) hclk (fun p r' q hsp tok htok => ?_)
    (fun r' hr' => (hnone r' hr').2) (fun r' hr' tok code rec hreq => ?_) rfl htk
    (by rw [hrole]; rfl) (.inl hfull)
  · have hpres := (hnone r' (by rw [hsp]; simp)).1
    rw [hpres] at htok
    cases htok
  · have hpres := (hnone r' hr').1
    rw [hreq] at hpres
    cases hpres

def unenrolledState : State := emptyState |> withUser root

def enrolmentToken : AccessToken :=
  generateAccessToken defaultJWTConfig codeTime root "s2" false .preAuth

def twoSessions : List (Request × List Env) :=
  [(signIn "", envs 9 codeTime "s1"), (signIn "", envs 9 codeTime "s2"),
    (.totpBegin (some enrolmentToken), envs 6 codeTime ""),
    (.totpConfirm (some enrolmentToken) "000100", envs 11 codeTime ""),
    (.refreshTokens "s1" "", envs 8 codeTime "s3")]

theorem twoSessions_refresh_full : (runSample unenrolledState twoSessions).map (fun run =>
    run.1.map fun r => r.reply.token.map fun token =>
      (token.sessionID, token.tfaVerified, token.scope)) =
    some [some ("s1", false, .preAuth), some ("s2", false, .preAuth), none,
      some ("s2", true, .session), some ("s3", true, .session)] := by
  decide +kernel

end Falx.Auth
