import Falx.AuthSpecs

/-! What the operations do to one session, and what follows for whole runs: a session that
is refused as revoked, expired or inactive is never accepted again. -/

namespace Falx.Auth

open Function Interleave

variable {lib : AuthLibrary} {cfg : JWTConfig} {e : Env} {s : State} {id : String} {sess : Session}

structure Session.Evolves (touched : Prop) (sess sess' : Session) : Prop where
  userID : sess'.userID = sess.userID
  refreshToken : sess'.refreshToken = sess.refreshToken
  expiresAt : sess'.expiresAt = sess.expiresAt
  revoked : sess.revoked = true → sess'.revoked = true
  lastActivityAt : sess'.lastActivityAt = sess.lastActivityAt ∨ touched

variable {touched : Prop} {o : Op} {user : String} {now : Int}

theorem Session.Evolves.refl (sess : Session) : Evolves touched sess sess :=
  ⟨rfl, rfl, rfl, fun h => h, .inl rfl⟩

theorem Session.evolves_revoke (sess : Session) : Evolves touched sess (State.revoke sess) :=
  ⟨rfl, rfl, rfl, fun _ => rfl, .inl rfl⟩

theorem sem_sessions (o : Op) :
    (∃ f : Session → Session, (∀ x : Session, x.Evolves (o = .touchSession id) (f x)) ∧
      (sem lib cfg e o s).2.sessions id = (s.sessions id).map f) ∨
    ∃ new sess, o = .createSession new ∧ sess.userID = new.userID ∧ s.sessions id = none ∧
      (sem lib cfg e o s).2.sessions id = some sess := by
  have hsame : ∀ {t : State}, t.sessions id = s.sessions id →
      ∃ f : Session → Session, (∀ x : Session, x.Evolves (o = .touchSession id) (f x)) ∧
        t.sessions id = (s.sessions id).map f :=
    fun ht => ⟨fun sess => sess, .refl, by simpa using ht⟩
  by_cases hw : o.writesSessions = true
  · cases o with
    | createSession new =>
      simp only [sem, State.createSession]
      split
      · exact .inl (hsame rfl)
      · exact .inl (hsame rfl)
      · rename_i hnone
        by_cases hid : id = e.newID
        · subst hid
          refine .inr ⟨new, _, rfl, ?_, hnone, update_self ..⟩
          rfl
        · exact .inl (hsame (update_of_ne hid ..))
    | touchSession id' =>
      simp only [sem, State.touchSession]
      split
      · exact .inl (hsame rfl)
      · by_cases hid : id = id'
        · subst hid
          refine .inl ⟨_, ?_, update_self ..⟩
          exact fun _ => ⟨rfl, rfl, rfl, fun h => h, .inr rfl⟩
        · exact .inl (hsame (update_of_ne hid ..))
    | revokeSession id' =>
      by_cases hid : id = id'
      · subst hid
        exact .inl ⟨_, Session.evolves_revoke, update_self ..⟩
      · exact .inl (hsame (update_of_ne hid ..))
    | revokeAllUserSessions userID =>
      refine .inl ⟨_, fun sess => ?_, rfl⟩
      split
      · exact sess.evolves_revoke
      · exact .refl sess
    | _ => cases hw
  · exact .inl (hsame (congrFun ((sem_frame o).sessions (by simpa using hw)) id))

/-- No operation removes a session, and none undoes a revocation. -/
theorem sem_session (o : Op) (h : s.sessions id = some sess) :
    ∃ sess', (sem lib cfg e o s).2.sessions id = some sess' ∧
      sess.Evolves (o = .touchSession id) sess' := by
  rcases sem_sessions o with ⟨f, hev, heq⟩ | ⟨-, -, -, -, hnone, -⟩
  · exact ⟨f sess, by rw [heq, h, Option.map_some], hev sess⟩
  · cases h.symm.trans hnone

theorem sem_session_inv (h : (sem lib cfg e o s).2.sessions id = some sess) :
    (∃ old, s.sessions id = some old ∧ old.Evolves (o = .touchSession id) sess) ∨
      ∃ new, o = .createSession new ∧ sess.userID = new.userID := by
  rcases sem_sessions o with ⟨f, hev, heq⟩ | ⟨new, sess', hop, huser, -, heq⟩
  · obtain ⟨old, hold, rfl⟩ := Option.map_eq_some_iff.mp (heq.symm.trans h)
    exact .inl ⟨old, hold, hev old⟩
  · cases heq.symm.trans h
    exact .inr ⟨new, hop, huser⟩

theorem createSession_ok {new : Session} (h : (sem lib cfg e (.createSession new) s).1 = .ok sess) :
    s.sessions sess.id = none ∧
      (sem lib cfg e (.createSession new) s).2.sessions sess.id = some sess ∧
      sess.userID = new.userID := by
  simp only [sem, State.createSession] at h ⊢
  split at h
  · cases h
  · cases h
  · rename_i hdb hnone
    cases h
    simp [hnone]

def State.Revoked (id : String) (s : State) : Prop :=
  ∃ sess, s.sessions id = some sess ∧ sess.revoked = true

theorem sem_revoked (o : Op) (h : s.Revoked id) : (sem lib cfg e o s).2.Revoked id := by
  obtain ⟨sess, hsess, hrev⟩ := h
  obtain ⟨sess', hsess', hev⟩ := sem_session o hsess
  exact ⟨sess', hsess', hev.revoked hrev⟩

theorem sem_revokeAllUserSessions (h : s.sessions id = some sess) :
    (sem lib cfg e (.revokeAllUserSessions sess.userID) s).2.Revoked id :=
  ⟨State.revoke sess, by simp [sem, State.revokeAllUserSessions, h], rfl⟩

def State.AllRevoked (user : String) (s : State) : Prop :=
  ∀ id sess, s.sessions id = some sess → sess.userID = user → sess.revoked = true

theorem sem_revokeAllUserSessions_all :
    (sem lib cfg e (.revokeAllUserSessions user) s).2.AllRevoked user := by
  intro id sess hsess huser
  obtain ⟨old, -, rfl⟩ := Option.map_eq_some_iff.mp hsess
  by_cases hold : old.userID = user
  · simp [hold, State.revoke]
  · simp [hold] at huser

theorem sem_allRevoked (h : s.AllRevoked user)
    (ho : ∀ new, o = .createSession new → new.userID ≠ user) :
    (sem lib cfg e o s).2.AllRevoked user := by
  intro id sess hsess huser
  rcases sem_session_inv hsess with ⟨old, hold, hev⟩ | ⟨new, rfl, hnew⟩
  · exact hev.revoked (h id old hold (hev.userID ▸ huser))
  · exact (ho new rfl (hnew ▸ huser)).elim

/-- The session is in the table and will not be accepted at this time. -/
def State.Dead (cfg : JWTConfig) (now : Int) (id : String) (s : State) : Prop :=
  ∃ sess, s.sessions id = some sess ∧ (sess.revoked = true ∨ sess.expiresAt < now ∨
    cfg.inactivityTimeout < now - sess.lastActivityAt)

theorem State.Revoked.dead (h : s.Revoked id) (now : Int) : s.Dead cfg now id := by
  obtain ⟨sess, hsess, hrev⟩ := h
  exact ⟨sess, hsess, .inl hrev⟩

theorem State.Dead.mono {now' : Int} (h : s.Dead cfg now id) (hle : now ≤ now') :
    s.Dead cfg now' id := by
  obtain ⟨sess, hsess, hdead⟩ := h
  refine ⟨sess, hsess, ?_⟩
  rcases hdead with hdead | hdead | hdead
  · exact .inl hdead
  · exact .inr (.inl (by omega))
  · exact .inr (.inr (by omega))

theorem State.Dead.getSession_ne_ok (h : s.Dead cfg now id) (hnow : now ≤ e.now) (sess : Session) :
    s.getSession cfg.inactivityTimeout e id ≠ .ok sess := by
  obtain ⟨found, hfd, hdead⟩ := h
  intro hok
  rw [State.getSession, hfd] at hok
  dsimp only at hok
  split at hok
  · cases hok
  · rename_i hrev
    split at hok
    · cases hok
    · rename_i hexp
      split at hok
      · cases hok
      · rename_i hoff
        simp only [Session.isExpired, Session.isInactive, decide_eq_true_eq] at hexp hoff
        rcases hdead with hdead | hdead | hdead
        · exact hrev hdead
        · omega
        · omega

theorem sem_dead (o : Op) (ho : o ≠ .touchSession id) (h : s.Dead cfg now id) :
    (sem lib cfg e o s).2.Dead cfg now id := by
  obtain ⟨sess, hsess, hdead⟩ := h
  obtain ⟨sess', hsess', hev⟩ := sem_session o hsess
  refine ⟨sess', hsess', ?_⟩
  have hactivity := hev.lastActivityAt.resolve_right ho
  rcases hdead with hdead | hdead | hdead
  · exact .inl (hev.revoked hdead)
  · exact .inr (.inl (by rw [hev.expiresAt]; exact hdead))
  · exact .inr (.inr (by rw [hactivity]; exact hdead))

theorem getSession_ok (h : s.getSession cfg.inactivityTimeout e id = .ok sess) :
    s.sessions id = some sess ∧ sess.revoked = false := by
  rw [State.getSession] at h
  split at h
  · cases h
  · rename_i found hfd
    split at h
    · cases h
    · rename_i hrev
      split at h
      · cases h
      · split at h
        · cases h
        · cases h
          exact ⟨hfd, by simpa using hrev⟩

section Logs

variable {ι : Type} {log : List (Entry ι Env Op.Res)}

theorem replay_session (h : s.sessions id = some sess) :
    ∃ sess', (replay (sem lib cfg) s log).sessions id = some sess' ∧
      sess'.userID = sess.userID := by
  induction log generalizing s sess with
  | nil => exact ⟨sess, h, rfl⟩
  | cons en log ih =>
    obtain ⟨sess', h', hev⟩ := sem_session en.event.1 h
    obtain ⟨sess'', h'', huser⟩ := ih h'
    exact ⟨sess'', h'', huser.trans hev.userID⟩

theorem replay_revoked (h : s.Revoked id) : (replay (sem lib cfg) s log).Revoked id :=
  replay_invariant h fun en _ _ => sem_revoked en.event.1

theorem replay_session_new (hnone : s.sessions id = none)
    (h : (replay (sem lib cfg) s log).sessions id = some sess) :
    ∃ pre en post new, log = pre ++ en :: post ∧ en.event.1 = .createSession new ∧
      sess.userID = new.userID := by
  induction log generalizing s with
  | nil =>
    rw [show replay (sem lib cfg) s [] = s from rfl, hnone] at h
    cases h
  | cons en log ih =>
    cases hnext : (sem lib cfg en.env en.event.1 s).2.sessions id with
    | none =>
      obtain ⟨pre, en', post, new, rfl, hop, huser⟩ := ih hnext h
      exact ⟨en :: pre, en', post, new, rfl, hop, huser⟩
    | some sess' =>
      obtain ⟨sess'', hsess'', huser⟩ := replay_session hnext
      rw [replay_cons] at h
      rw [h] at hsess''
      cases hsess''
      rcases sem_session_inv hnext with ⟨old, hold, -⟩ | ⟨new, hop, hnew⟩
      · rw [hnone] at hold
        cases hold
      · exact ⟨[], en, log, new, rfl, hop, huser.trans hnew⟩

theorem replay_swept {pre post : List (Entry ι Env Op.Res)} {en : Entry ι Env Op.Res}
    (h : s.sessions id = some sess) (hen : en.event.1 = .revokeAllUserSessions sess.userID) :
    (replay (sem lib cfg) s (pre ++ en :: post)).Revoked id := by
  obtain ⟨sess', hsess', huser⟩ := replay_session h
  have hrev : (sem lib cfg en.env en.event.1 (replay (sem lib cfg) s pre)).2.Revoked id := by
    rw [hen, ← huser]
    exact sem_revokeAllUserSessions hsess'
  rw [replay_append, replay_cons]
  exact replay_revoked hrev

end Logs

end Falx.Auth
