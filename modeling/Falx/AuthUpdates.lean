import Falx.AuthRevocation

/-! One user record under calls that overlap. Most operations change the cache and the row
alike; `UpdateUser` puts a copy into the cache that its caller has read some time before. -/

namespace Falx.Auth

open Interleave

variable {ι : Type}

def Op.isUserLookup : Op → Bool
  | getUserByID _ | getUserByUsername _ => true
  | _ => false

def Op.isUpdatePasswordHash : Op → Bool
  | updatePasswordHash _ _ => true
  | _ => false

/-- Between a look-up of the user and the write-back of what it returned, no other call
writes the record. -/
def NoStaleWrite [DecidableEq ι] (u : String) (log : List (Entry ι Env Op.Res)) : Prop :=
  log.Triplewise fun x y z => x.caller = z.caller → y.caller ≠ z.caller →
    x.event.1.isUserLookup = true → z.event.1.isUpdateUser = true → z.event.1.target = some u →
    y.event.1.target ≠ some u

instance [DecidableEq ι] (u : String) (log : List (Entry ι Env Op.Res)) :
    Decidable (NoStaleWrite u log) :=
  inferInstanceAs (Decidable (log.Triplewise _))

def writes (u : String) (log : List (Entry ι Env Op.Res)) : List (Entry ι Env Op.Res) :=
  log.filter fun en => en.event.1.target = some u

def Op.newHash (u : String) : Op → Option String
  | updatePasswordHash id hash => if id = u then some hash else none
  | _ => none

def lastHash (u old : String) (log : List (Entry ι Env Op.Res)) : String :=
  (log.filterMap fun en => en.event.1.newHash u).getLast?.getD old

def InSync (r : UserRecord) : Prop := ∃ user t, r = ⟨user, { user with updatedAt := t }⟩

def LastIsNotHash (u : String) (log : List (Entry ι Env Op.Res)) : Prop :=
  ∀ en, (writes u log).getLast? = some en → en.event.1.isUpdatePasswordHash = false

structure Kept (u old : String) (log : List (Entry ι Env Op.Res)) (r : UserRecord) : Prop where
  sync : InSync r
  hash : r.cached.passwordHash = lastHash u old log
  time : LastIsNotHash u log → r.cached.updatedAt = r.row.updatedAt

section Records

variable {u old : String} {log : List (Entry ι Env Op.Res)} {en : Entry ι Env Op.Res}
  {r : UserRecord}

theorem lastHash_concat (log : List (Entry ι Env Op.Res)) (en : Entry ι Env Op.Res) :
    lastHash u old (log ++ [en]) = (en.event.1.newHash u).getD (lastHash u old log) := by
  cases hnew : en.event.1.newHash u with
  | none | some hash => simp [lastHash, hnew]

theorem newHash_of_target_ne {o : Op} (h : o.target ≠ some u) : o.newHash u = none := by
  cases o with
  | updatePasswordHash id hash =>
    have hid : id ≠ u := fun hid => h (by rw [hid]; rfl)
    simp [Op.newHash, hid]
  | _ => rfl

theorem Kept.skip (hk : Kept u old log r) (h : en.event.1.target ≠ some u) :
    Kept u old (log ++ [en]) r := by
  refine ⟨hk.sync, ?_, fun hlast => hk.time fun w hw => hlast w ?_⟩
  · rw [lastHash_concat, newHash_of_target_ne h]
    exact hk.hash
  · simpa [writes, h] using hw

theorem Kept.write (hk : Kept u old log r) (htgt : en.event.1.target = some u)
    (hdb : en.env.db = none)
    (hcopy : ∀ v, en.event.1 = .updateUser v → State.updateColumns v r.cached = v) :
    Kept u old (log ++ [en]) (en.event.1.onUser en.env r) := by
  obtain ⟨user, t, rfl⟩ := hk.sync
  have hhash := hk.hash
  have hlast : LastIsNotHash u (log ++ [en]) → en.event.1.isUpdatePasswordHash = false :=
    fun h => h en (by simp [writes, htgt])
  unfold Op.onUser
  rw [hdb]
  cases hop : en.event.1 with
  | updateUser v =>
    have hv := hcopy v hop
    refine ⟨⟨{ v with updatedAt := en.env.now }, en.env.now, ?_⟩, ?_, fun _ => rfl⟩
    · exact congrArg (fun w : User => UserRecord.mk _ { w with updatedAt := en.env.now }) hv
    · rw [lastHash_concat, hop, ← hv]
      exact hhash
  | updateTOTPSecret id secret enabled =>
    refine ⟨⟨State.setTOTP secret enabled en.env.now user, en.env.now, rfl⟩, ?_, fun _ => rfl⟩
    rw [lastHash_concat, hop]
    exact hhash
  | disableTOTP id =>
    refine ⟨⟨State.setTOTP "" false en.env.now user, en.env.now, rfl⟩, ?_, fun _ => rfl⟩
    rw [lastHash_concat, hop]
    exact hhash
  | updatePasswordHash id hash =>
    refine ⟨⟨{ user with passwordHash := hash }, en.env.now, rfl⟩, ?_, fun h => ?_⟩
    · rw [hop] at htgt
      cases htgt
      simp [lastHash_concat, hop, Op.newHash]
    · have hcontra := hlast h
      rw [hop] at hcontra
      cases hcontra
  | recordFailedLogin id =>
    refine ⟨⟨State.recordFailure en.env.now user, en.env.now, rfl⟩, ?_, fun _ => rfl⟩
    rw [lastHash_concat, hop]
    exact hhash
  | resetFailedLogin id =>
    refine ⟨⟨{ user with failedAttempts := 0, updatedAt := en.env.now }, en.env.now, rfl⟩, ?_,
      fun _ => rfl⟩
    rw [lastHash_concat, hop]
    exact hhash
  | _ =>
    rw [hop] at htgt
    cases htgt

theorem onUser_unlocks {e : Env} {o : Op} (hlock : r.cached.locked = true)
    (h : (o.onUser e r).cached.locked = false) : ∃ v, o = .updateUser v ∧ v.locked = false := by
  unfold Op.onUser at h
  split at h
  · exact ⟨_, rfl, h⟩
  all_goals simp [State.setTOTP, State.recordFailure, hlock] at h

end Records

def SameButCount (user later : User) : Prop :=
  ∃ n t, later = { user with failedAttempts := n, updatedAt := t }

theorem SameButCount.updateColumns {user later : User} (h : SameButCount user later) (v : User) :
    State.updateColumns v later = State.updateColumns v user := by
  obtain ⟨n, t, rfl⟩ := h
  rfl

structure SameFactor (user later : User) : Prop where
  role : later.role = user.role
  enabled : later.totpEnabled = user.totpEnabled
  secret : later.totpSecret = user.totpSecret

theorem SameButCount.factor {user later v : User} (h : SameButCount user later)
    (hrole : v.role = user.role) (hon : v.totpEnabled = user.totpEnabled)
    (hkey : v.totpSecret = user.totpSecret) : SameFactor later v := by
  obtain ⟨n, t, rfl⟩ := h
  exact ⟨hrole, hon, hkey⟩

theorem SameFactor.trans {a b c : User} (h : SameFactor a b) (h' : SameFactor b c) :
    SameFactor a c :=
  ⟨h'.role.trans h.role, h'.enabled.trans h.enabled, h'.secret.trans h.secret⟩

section Runs

variable {lib : AuthLibrary} {cfg : JWTConfig} {s : State} {u : String} {r : UserRecord}
  {log pre post : List (Entry ι Env Op.Res)} {en : Entry ι Env Op.Res}

theorem replay_resets (h : s.users.get u = some r)
    (hlog : ∀ en ∈ log, en.event.1.target = some u → ∃ id, en.event.1 = .resetFailedLogin id) :
    ∃ r', (replay (sem lib cfg) s log).users.get u = some r' ∧
      SameButCount r.cached r'.cached := by
  induction log generalizing s r with
  | nil => exact ⟨r, h, _, _, rfl⟩
  | cons en log ih =>
    have hstep : (sem lib cfg en.env en.event.1 s).2.users.get u =
        some (if en.event.1.target = some u then en.event.1.onUser en.env r else r) :=
      sem_user en.event.1 h
    obtain ⟨r', hget, n, t, hsame⟩ := ih hstep fun en' hen' => hlog en' (.tail _ hen')
    refine ⟨r', hget, n, t, hsame.trans ?_⟩
    by_cases htgt : en.event.1.target = some u
    · obtain ⟨id, hop⟩ := hlog en (.head _) htgt
      rw [if_pos htgt, hop]
      rfl
    · rw [if_neg htgt]

theorem requestGuar_updateUser {req : Request} {h : History} {v : User}
    (hguar : requestGuar lib req h (.updateUser v)) : OnlyResets h ∧
    ((∃ lreq ipAddr userAgent, req = .login lreq ipAddr userAgent ∧
        loginGuar lib lreq h (.updateUser v)) ∨
      (∃ claims targetID, req = .lockUser claims targetID ∧
        lockUserGuar claims targetID h (.updateUser v)) ∨
      ∃ targetID, req = .unlockUser targetID ∧ unlockUserGuar targetID h (.updateUser v)) := by
  cases req with
  | login lreq ipAddr userAgent =>
    exact ⟨hguar.1, .inl ⟨lreq, ipAddr, userAgent, rfl, hguar⟩⟩
  | lockUser claims targetID => exact ⟨hguar.1, .inr (.inl ⟨claims, targetID, rfl, hguar⟩)⟩
  | unlockUser targetID => exact ⟨hguar.1, .inr (.inr ⟨targetID, rfl, hguar⟩)⟩
  | logout sessionID | logoutAll userID => cases hguar
  | totpBegin token => cases totpBeginGuar_enrols hguar
  | totpConfirm token code => cases totpConfirmGuar_enrols hguar
  | _ => exact hguar.elim

variable [DecidableEq ι] {reqs : ι → Request} {c : Config State ι Env Op.Res Reply}

variable {p q : List (Entry ι Env Op.Res)}

theorem NoStaleWrite.apart {x y z : Entry ι Env Op.Res} (h : NoStaleWrite u log)
    (hlog : log = p ++ x :: q ++ z :: post) (hy : y ∈ q) (hby : x.caller = z.caller)
    (ho : y.caller ≠ z.caller) (hget : x.event.1.isUserLookup = true)
    (hupd : z.event.1.isUpdateUser = true) (htgt : z.event.1.target = some u) :
    y.event.1.target ≠ some u := by
  rw [NoStaleWrite, hlog, List.append_assoc, List.triplewise_append] at h
  have hhead := (List.triplewise_cons.mp h.2.1).1
  exact (List.pairwise_append.mp hhead).2.2 y hy z (.head _) hby ho hget hupd htgt

theorem unchanged_since {g : Entry ι Env Op.Res} (hfresh : NoStaleWrite u c.log)
    (hlog : c.log = p ++ g :: q ++ en :: post) (hg : g.caller = en.caller)
    (hget : g.event.1.isUserLookup = true) (honly : OnlyResets (events en.caller (p ++ g :: q)))
    (hupd : en.event.1.isUpdateUser = true) (htgt : en.event.1.target = some u) {r₀ : UserRecord}
    (h₀ : (replay (sem lib cfg) s p).users.get u = some r₀)
    (h : (replay (sem lib cfg) s (p ++ g :: q)).users.get u = some r) :
    SameButCount r₀.cached r.cached := by
  have hresets : ∀ y ∈ g :: q, y.event.1.target = some u →
      ∃ id, y.event.1 = .resetFailedLogin id := by
    intro y hy hytarget
    by_cases hby : y.caller = en.caller
    · have hmem : y.event ∈ events en.caller (p ++ g :: q) := by
        rw [events_append]
        refine List.mem_append_right _ (List.mem_map_of_mem ?_)
        simpa [hby] using hy
      rcases honly y.event hmem with hnone | hrs
      · rw [hnone] at hytarget
        cases hytarget
      · exact hrs
    · rcases List.mem_cons.mp hy with rfl | hy
      · exact (hby hg).elim
      · exact (hfresh.apart hlog hy hg hby hget hupd htgt hytarget).elim
  obtain ⟨r', h', hsame⟩ := replay_resets h₀ hresets
  rw [← replay_append, h] at h'
  cases h'
  exact hsame

section

variable (hc : Interleaving (sem lib cfg) s (fun i => serve lib cfg (reqs i)) c)
  (hfresh : NoStaleWrite u c.log)

include hc hfresh

theorem copied {v : User} (hlog : c.log = pre ++ en :: post)
    (hop : en.event.1 = .updateUser v) (hid : v.id = u)
    (hget : (replay (sem lib cfg) s pre).users.get u = some r) :
    State.updateColumns v r.cached = v ∧ SameFactor r.cached v ∧
      (r.cached.locked = true → v.locked = false →
        ∃ targetID, reqs en.caller = .unlockUser targetID) := by
  have hguar := hc.guarantee (serve_spec lib cfg (reqs en.caller)) hlog
  have hupd : en.event.1.isUpdateUser = true := by rw [hop]; rfl
  have htgt : en.event.1.target = some u := by rw [hop, ← hid]; rfl
  rw [hop] at hguar
  obtain ⟨honly, ⟨lreq, ipAddr, userAgent, hreq, -, user, now, hauth, rfl⟩ |
    ⟨claims, targetID, hreq, -, user, hfd, -, rfl⟩ | ⟨targetID, hreq, -, user, hfd, rfl⟩⟩ :=
    requestGuar_updateUser hguar
  · obtain ⟨p, g, q, rfl, hg, hev, hok⟩ := hc.answered hlog hauth.found
    obtain ⟨-, r₀, hget₀, rfl⟩ := getUserByUsername_ok hok
    have hsame := unchanged_since hfresh hlog hg (by rw [hev]; rfl) honly hupd htgt
      (hid ▸ hget₀) hget
    refine ⟨hsame.updateColumns _, hsame.factor rfl rfl rfl, fun hlock _ => ?_⟩
    obtain ⟨n, t, hsame⟩ := hsame
    rw [hsame, hauth.unlocked] at hlock
    cases hlock
  · obtain ⟨p, g, q, rfl, hg, hev, hok⟩ := hc.answered hlog hfd
    obtain ⟨r₀, hget₀, rfl, hid'⟩ := getUserByID_ok hok
    have hsame := unchanged_since hfresh hlog hg (by rw [hev]; rfl) honly hupd htgt
      (by rw [← hid, ← hget₀, ← hid']) hget
    exact ⟨hsame.updateColumns _, hsame.factor rfl rfl rfl, fun _ hfree => by cases hfree⟩
  · obtain ⟨p, g, q, rfl, hg, hev, hok⟩ := hc.answered hlog hfd
    obtain ⟨r₀, hget₀, rfl, hid'⟩ := getUserByID_ok hok
    have hsame := unchanged_since hfresh hlog hg (by rw [hev]; rfl) honly hupd htgt
      (by rw [← hid, ← hget₀, ← hid']) hget
    exact ⟨hsame.updateColumns _, hsame.factor rfl rfl rfl, fun _ _ => ⟨targetID, hreq⟩⟩

theorem kept_of_interleaving {old : String} (hdb : ∀ en ∈ c.log, en.env.dbErr = none)
    (hget : s.users.get u = some r) (hsync : r.cached = r.row) (hold : r.cached.passwordHash = old)
    (hlog : c.log = pre ++ post) :
    ∃ r', (replay (sem lib cfg) s pre).users.get u = some r' ∧ Kept u old pre r' := by
  refine fold_induction
    (P := fun pre => ∃ r', (replay (sem lib cfg) s pre).users.get u = some r' ∧ Kept u old pre r')
    ⟨r, hget, ⟨r.cached, r.cached.updatedAt, ?_⟩, hold, fun _ => by rw [hsync]⟩
    (fun pre en post hlog ih => ?_) hlog
  · obtain ⟨cached, row⟩ := r
    cases hsync
    rfl
  · obtain ⟨r', hget', hkept⟩ := ih pre [] (by simp)
    rw [replay_concat, sem_user en.event.1 hget']
    refine ⟨_, rfl, ?_⟩
    by_cases htgt : en.event.1.target = some u
    · rw [if_pos htgt]
      refine hkept.write htgt (db_of_dbErr.mpr (hdb en (by rw [hlog]; simp))) fun v hop => ?_
      rw [hop] at htgt
      exact (copied hc hfresh hlog hop (Option.some.inj htgt) hget').1
    · rw [if_neg htgt]
      exact hkept.skip htgt

end

theorem InSync.locked (h : InSync r) : r.row.locked = r.cached.locked := by
  obtain ⟨user, t, rfl⟩ := h
  rfl

/-- No update of a user is lost: after calls that overlap, the cache holds what the database
holds, with the password set last, and no lock has been cleared but to unlock. -/
theorem user_updates_kept {sched : List (ι × Env)}
    (hrun : run (sem lib cfg) (start s fun i => serve lib cfg (reqs i)) sched = some c)
    (hdb : ∀ en ∈ c.log, en.env.dbErr = none) (hget : s.users.get u = some r)
    (hsync : r.cached = r.row) (hfresh : NoStaleWrite u c.log) (hlast : LastIsNotHash u c.log) :
    (∃ r', c.state.users.get u = some r' ∧ r'.cached = r'.row ∧
      r'.row.passwordHash = lastHash u r.row.passwordHash c.log) ∧
    ∀ pre en post r₁ r₂, c.log = pre ++ en :: post →
      (replay (sem lib cfg) s pre).users.get u = some r₁ →
      (replay (sem lib cfg) s (pre ++ [en])).users.get u = some r₂ →
      (r₁.cached.locked = true ∧ r₂.cached.locked = false ∨
        r₁.row.locked = true ∧ r₂.row.locked = false) →
      ∃ targetID, reqs en.caller = .unlockUser targetID := by
  have hc := run_interleaving hrun
  have hkept {pre post : List (Entry ι Env Op.Res)} (hlog : c.log = pre ++ post) :=
    kept_of_interleaving hc hfresh hdb hget hsync rfl hlog
  refine ⟨?_, fun pre en post r₁ r₂ hlog hget₁ hget₂ hclr => ?_⟩
  · obtain ⟨r', hget', hsync', hhash, htime⟩ := hkept (List.append_nil c.log).symm
    have heq : r'.cached = r'.row := by
      obtain ⟨user, t, rfl⟩ := hsync'
      have htime : user.updatedAt = t := htime hlast
      subst htime
      rfl
    refine ⟨r', by rw [hc.state]; exact hget', heq, ?_⟩
    rw [← heq, ← hsync]
    exact hhash
  · obtain ⟨r₁', hget₁', hkept₁⟩ := hkept hlog
    rw [hget₁] at hget₁'
    cases hget₁'
    obtain ⟨r₂', hget₂', hkept₂⟩ := hkept (hlog.trans (by simp : _ = (pre ++ [en]) ++ post))
    rw [hget₂] at hget₂'
    cases hget₂'
    rw [hkept₁.sync.locked, hkept₂.sync.locked, or_self] at hclr
    obtain ⟨hlock, hfree⟩ := hclr
    rw [replay_concat, sem_user en.event.1 hget₁] at hget₂
    cases hget₂
    by_cases htgt : en.event.1.target = some u
    · rw [if_pos htgt] at hfree
      obtain ⟨v, hop, hv⟩ := onUser_unlocks hlock hfree
      rw [hop] at htgt
      exact (copied hc hfresh hlog hop (Option.some.inj htgt) hget₁).2.2 hlock hv
    · rw [if_neg htgt, hlock] at hfree
      cases hfree

end Runs

def changeFirst : Option (Config State Bool Env Op.Res Reply) :=
  runBeside oldLogin [false, false, false, false, true, true, true]

theorem user_updates_kept_change_first : ∃ c r, changeFirst = some c ∧
    c.state.users.get "alice" = some r ∧ r.cached = r.row ∧
    r.row.passwordHash = "New-password-2" := by
  have hrun : changeFirst.any (fun c => decide ((∀ en ∈ c.log, en.env.dbErr = none) ∧
      NoStaleWrite "alice" c.log ∧
      (writes "alice" c.log).getLast?.all (fun en => !en.event.1.isUpdatePasswordHash) = true ∧
      lastHash "alice" "Old-password-1" c.log = "New-password-2")) = true := by decide +kernel
  obtain ⟨c, hc, hall⟩ := (Option.any_eq_true _ _).mp hrun
  obtain ⟨hdb, hfresh, hlast, hhash⟩ := of_decide_eq_true hall
  have hlast : LastIsNotHash "alice" c.log := by
    intro en hen
    simpa [hen] using hlast
  obtain ⟨⟨r, hget, heq, hrow⟩, -⟩ := user_updates_kept hc hdb rfl rfl hfresh hlast
  exact ⟨c, r, hc, hget, heq, hrow.trans hhash⟩

def loginAcross : Option (Config State Bool Env Op.Res Reply) :=
  runBeside oldLogin
    [true, true, true, true, true, true, true, true, false, false, false, false, true]

theorem loginAcross_loses_password : (loginAcross.bind fun c => do
    let reply ← (c.calls false).result let token ← (← (c.calls true).result).token
    let r ← c.state.users.get "alice"
    return (revokedAll (.changePassword "alice" newPassword) reply, token.subject,
      r.cached.passwordHash, r.row.passwordHash)) =
    some (some "alice", "alice", "Old-password-1", "New-password-2") := by
  decide +kernel

end Falx.Auth
