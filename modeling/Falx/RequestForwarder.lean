import Falx.IpcFrame
import Falx.StepRun
import Mathlib.Data.List.Perm.Basic

/-! The request forwarders of the IPC server. Each connection has one, and all take requests
from the same channel. A forwarder is stopped by the end of the server or by a write that
fails, not by the end of its connection. -/

namespace Falx

open List

namespace Ipc

namespace Forwarding

variable {R : Type}

def flagAckRequired : UInt16 := 4

inductive Phase (R : Type) where
  | waiting
  | holding (req : R)
  | sending (req : R) (frame : Frame)
  | stopped
  deriving DecidableEq

def Phase.request : Phase R → Option R
  | .holding req | .sending req _ => some req
  | .waiting | .stopped => none

def Phase.raw : Phase R → Option R
  | .holding req => some req
  | .waiting | .sending _ _ | .stopped => none

def Phase.running : Phase R → Bool
  | .stopped => false
  | .waiting | .holding _ | .sending _ _ => true

structure Link (R : Type) where
  peerOpen : Bool
  handling : Bool
  seqNum : UInt32
  phase : Phase R
  deriving DecidableEq

def Link.live (x : Link R) : Bool := x.peerOpen && x.handling

/-- The channel and the connections, with a record of the requests that were taken, those
that were written, those that were taken and given up, and those that were taken after the
handler of the connection had returned. -/
structure Requests (R : Type) where
  inferRequestCh : List R
  conns : List (Link R)
  cancelled : Bool
  taken : List R
  written : List (Nat × R × Frame)
  lost : List R
  late : List R
  deriving DecidableEq

inductive ForwardStep (R : Type) where
  | accept
  | hangUp (c : Nat)
  | handlerReturns (c : Nat)
  | heartbeat (c : Nat)
  | arrive (req : R)
  | take (c : Nat)
  | marshal (c : Nat)
  | write (c : Nat) (ok : Bool)
  | cancel
  | exit (c : Nat)
  deriving DecidableEq

theorem filterMap_set_perm {α β : Type} {f : α → Option β} {l : List α} {n : Nat} {a b : α}
    (h : l[n]? = some a) :
    ((l.set n b).filterMap f ++ (f a).toList).Perm (l.filterMap f ++ (f b).toList) := by
  obtain ⟨hlt, rfl⟩ := List.getElem?_eq_some_iff.mp h
  have hcons : ∀ (a : α) (r : List α), (a :: r).filterMap f = (f a).toList ++ r.filterMap f := by
    intro a r
    cases hf : f a <;> simp [hf]
  have hset := (set_perm_cons_eraseIdx hlt b).filterMap f
  have hold := (getElem_cons_eraseIdx_perm hlt).filterMap f
  rw [hcons] at hset hold
  classical
  refine perm_iff_count.mpr fun x => ?_
  have hset := hset.count_eq x
  have hold := hold.count_eq x
  simp only [count_append] at hset hold ⊢
  omega

namespace Requests

def newServer : Requests R := ⟨[], [], false, [], [], [], []⟩

def setConn (c : Nat) (x : Link R) (s : Requests R) : Requests R :=
  { s with conns := s.conns.set c x }

def held (s : Requests R) : List R := s.conns.filterMap fun x => x.phase.request

def unserialised (s : Requests R) : List R :=
  s.inferRequestCh ++ s.conns.filterMap fun x => x.phase.raw

def offer (req : R) (s : Requests R) : Option (Requests R) :=
  if s.inferRequestCh.length < 512 then
    some { s with inferRequestCh := s.inferRequestCh ++ [req] }
  else none

/-- A step that is not enabled has no result. A write to a connection that is not live fails;
one to a live connection may fail too, when it takes too long. -/
def exec (marshal : R → Option (List UInt8)) (s : Requests R) : ForwardStep R → Option (Requests R)
  | .accept => some { s with conns := s.conns ++ [⟨true, true, 0, .waiting⟩] }
  | .hangUp c => s.conns[c]?.map fun x => s.setConn c { x with peerOpen := false }
  | .handlerReturns c => s.conns[c]?.map fun x => s.setConn c { x with handling := false }
  | .heartbeat c =>
    match s.conns[c]? with
    | some ⟨peerOpen, true, seqNum, phase⟩ =>
      some (s.setConn c ⟨peerOpen, true, seqNum + 1, phase⟩)
    | _ => none
  | .arrive req => some ((s.offer req).getD s)
  | .take c =>
    match s.conns[c]?, s.inferRequestCh with
    | some ⟨peerOpen, handling, seqNum, .waiting⟩, req :: rest =>
      some { s.setConn c ⟨peerOpen, handling, seqNum, .holding req⟩ with
        inferRequestCh := rest
        taken := s.taken ++ [req]
        late := if handling then s.late else s.late ++ [req] }
    | _, _ => none
  | .marshal c =>
    match s.conns[c]? with
    | some ⟨peerOpen, handling, seqNum, .holding req⟩ =>
      match marshal req with
      | none => some { s.setConn c ⟨peerOpen, handling, seqNum, .waiting⟩ with
          lost := s.lost ++ [req] }
      | some payload =>
        let seq := seqNum + 1
        let frame := buildFrame MsgType.inferRequest.code seq flagAckRequired payload
        some (s.setConn c ⟨peerOpen, handling, seq, .sending req frame⟩)
    | _ => none
  | .write c true =>
    match s.conns[c]? with
    | some ⟨true, true, seqNum, .sending req frame⟩ =>
      some { s.setConn c ⟨true, true, seqNum, .waiting⟩ with
        written := s.written ++ [(c, req, frame)] }
    | _ => none
  | .write c false =>
    match s.conns[c]? with
    | some ⟨peerOpen, handling, seqNum, .sending req _⟩ =>
      some { s.setConn c ⟨peerOpen, handling, seqNum, .stopped⟩ with lost := s.lost ++ [req] }
    | _ => none
  | .cancel => some { s with cancelled := true }
  | .exit c =>
    match s.conns[c]? with
    | some ⟨peerOpen, handling, seqNum, .waiting⟩ =>
      if s.cancelled then some (s.setConn c ⟨peerOpen, handling, seqNum, .stopped⟩) else none
    | _ => none

variable {marshal : R → Option (List UInt8)} {s s' : Requests R} {e : ForwardStep R} {c : Nat}
  {x : Link R}

inductive Acts (marshal : R → Option (List UInt8)) (s : Requests R) :
    ForwardStep R → Requests R → Prop
  | accept : Acts marshal s .accept { s with conns := s.conns ++ [⟨true, true, 0, .waiting⟩] }
  | hangUp {c : Nat} {x} (hx : s.conns[c]? = some x) :
    Acts marshal s (.hangUp c) (s.setConn c { x with peerOpen := false })
  | handlerReturns {c : Nat} {x} (hx : s.conns[c]? = some x) :
    Acts marshal s (.handlerReturns c) (s.setConn c { x with handling := false })
  | heartbeat {c : Nat} {x} (hx : s.conns[c]? = some x) (hhandling : x.handling = true) :
    Acts marshal s (.heartbeat c) (s.setConn c { x with seqNum := x.seqNum + 1 })
  | arrive {req ch} (hch : ch = s.inferRequestCh ∨ ch = s.inferRequestCh ++ [req]) :
    Acts marshal s (.arrive req) { s with inferRequestCh := ch }
  | take {c : Nat} {x req rest} (hx : s.conns[c]? = some x)
    (hphase : x.phase = .waiting) (hch : s.inferRequestCh = req :: rest) :
    Acts marshal s (.take c) { s.setConn c { x with phase := .holding req } with
      inferRequestCh := rest
      taken := s.taken ++ [req]
      late := if x.handling then s.late else s.late ++ [req] }
  | marshalFails {c : Nat} {x req} (hx : s.conns[c]? = some x)
    (hphase : x.phase = .holding req) (hmarshal : marshal req = none) :
    Acts marshal s (.marshal c) { s.setConn c { x with phase := .waiting } with
      lost := s.lost ++ [req] }
  | marshal {c : Nat} {x req payload} (hx : s.conns[c]? = some x)
    (hphase : x.phase = .holding req) (hmarshal : marshal req = some payload) :
    Acts marshal s (.marshal c) (s.setConn c { x with
      seqNum := x.seqNum + 1
      phase := .sending req
        (buildFrame MsgType.inferRequest.code (x.seqNum + 1) flagAckRequired payload) })
  | write {c : Nat} {x req frame} (hx : s.conns[c]? = some x)
    (hphase : x.phase = .sending req frame) (hlive : x.live = true) :
    Acts marshal s (.write c true) { s.setConn c { x with phase := .waiting } with
      written := s.written ++ [(c, req, frame)] }
  | writeFails {c : Nat} {x req frame} (hx : s.conns[c]? = some x)
    (hphase : x.phase = .sending req frame) :
    Acts marshal s (.write c false) { s.setConn c { x with phase := .stopped } with
      lost := s.lost ++ [req] }
  | cancel : Acts marshal s .cancel { s with cancelled := true }
  | exit {c : Nat} {x} (hx : s.conns[c]? = some x) (hphase : x.phase = .waiting)
    (hcancelled : s.cancelled = true) :
    Acts marshal s (.exit c) (s.setConn c { x with phase := .stopped })

theorem Acts.of_write {ok : Bool} (h : exec marshal s (.write c ok) = some s') :
    Acts marshal s (.write c ok) s' := by
  cases ok with
  | true =>
    simp only [exec] at h
    split at h
    · rename_i hx
      cases h
      exact .write hx rfl rfl
    · cases h
  | false =>
    simp only [exec] at h
    split at h
    · rename_i hx
      cases h
      exact .writeFails hx rfl
    · cases h

theorem Acts.of_marshal (h : exec marshal s (.marshal c) = some s') :
    Acts marshal s (.marshal c) s' := by
  simp only [exec] at h
  split at h
  · rename_i hx
    split at h
    · cases h
      exact .marshalFails hx rfl ‹_›
    · cases h
      exact .marshal hx rfl ‹_›
  · cases h

theorem Acts.of_exec (h : exec marshal s e = some s') : Acts marshal s e s' := by
  cases e with
  | accept =>
    cases h
    exact .accept
  | hangUp c =>
    obtain ⟨x, hx, rfl⟩ := Option.map_eq_some_iff.mp h
    exact .hangUp hx
  | handlerReturns c =>
    obtain ⟨x, hx, rfl⟩ := Option.map_eq_some_iff.mp h
    exact .handlerReturns hx
  | heartbeat c =>
    simp only [exec] at h
    split at h
    · rename_i hx
      cases h
      exact .heartbeat hx rfl
    · cases h
  | arrive req =>
    cases h
    unfold offer
    split
    · exact .arrive (.inr rfl)
    · exact .arrive (.inl rfl)
  | take c =>
    simp only [exec] at h
    split at h
    · rename_i hx hch
      cases h
      exact .take hx rfl hch
    · cases h
  | marshal c => exact .of_marshal h
  | write c ok => exact .of_write h
  | cancel =>
    cases h
    exact .cancel
  | exit c =>
    simp only [exec] at h
    split at h
    · rename_i hx
      obtain ⟨hcan, h⟩ := Option.ite_none_right_eq_some.mp h
      cases h
      exact .exit hx rfl hcan
    · cases h

variable {x' : Link R} {r req : R}

theorem mem_raw_setConn (hr : r ∈ (s.setConn c x').conns.filterMap fun x => x.phase.raw) :
    r ∈ (s.conns.filterMap fun x => x.phase.raw) ∨ x'.phase.raw = some r := by
  obtain ⟨y, hy, hraw⟩ := mem_filterMap.mp hr
  rcases mem_or_eq_of_mem_set hy with hmem | rfl
  · exact .inl (mem_filterMap.mpr ⟨y, hmem, hraw⟩)
  · exact .inr hraw

theorem mem_unserialised (hx : s.conns[c]? = some x) (hraw : x.phase.raw = some r) :
    r ∈ s.unserialised :=
  mem_append_right _ (mem_filterMap.mpr ⟨x, mem_of_getElem? hx, hraw⟩)

theorem mem_unserialised_setConn (hx : s.conns[c]? = some x)
    (hmem : r ∈ (s.setConn c x').conns.filterMap fun x => x.phase.raw)
    (hnew : x'.phase.raw = some r → x.phase.raw = some r ∨ r ∈ s.inferRequestCh) :
    r ∈ s.unserialised := by
  rcases mem_raw_setConn hmem with hold | hraw
  · exact mem_append_right _ hold
  · rcases hnew hraw with hraw | hch
    · exact mem_unserialised hx hraw
    · exact mem_append_left _ hch

section

variable (h : Acts marshal s e s')

include h

theorem Acts.mem_channel (hr : r ∈ s'.inferRequestCh) :
    r ∈ s.inferRequestCh ∨ e = .arrive r := by
  cases h with
  | arrive hch =>
    rcases hch with rfl | rfl
    · exact .inl hr
    · rcases mem_append.mp hr with hold | hnew
      · exact .inl hold
      · exact .inr (congrArg ForwardStep.arrive (mem_singleton.mp hnew).symm)
  | take hx hph hch => exact .inl (hch ▸ .tail _ hr)
  | accept | cancel | hangUp | handlerReturns | heartbeat | marshalFails | marshal | write
  | writeFails | exit => exact .inl hr

theorem Acts.mem_raw (hr : r ∈ s'.conns.filterMap fun x => x.phase.raw) :
    r ∈ s.unserialised := by
  cases h with
  | accept =>
    rw [filterMap_append] at hr
    rcases mem_append.mp hr with hold | hnew
    · exact mem_append_right _ hold
    · cases hnew
  | arrive hch | cancel => exact mem_append_right _ hr
  | hangUp hx | handlerReturns hx
  | heartbeat hx hing => exact mem_unserialised_setConn hx hr Or.inl
  | take hx hph hch =>
    refine mem_unserialised_setConn hx hr fun hraw => .inr ?_
    cases hraw
    rw [hch]
    exact .head _
  | marshalFails hx hph hm | marshal hx hph hm | write hx hph hl | exit hx hph hl
  | writeFails hx hph => exact mem_unserialised_setConn hx hr nofun

theorem Acts.unserialised (hr : r ∈ s'.unserialised) :
    r ∈ s.unserialised ∨ e = .arrive r := by
  rcases mem_append.mp hr with hch | hraw
  · exact (h.mem_channel hch).imp_left (mem_append_left _)
  · exact .inl (h.mem_raw hraw)

end

theorem held_setConn (x' : Link R) (hx : s.conns[c]? = some x) :
    ((s.setConn c x').held ++ x.phase.request.toList).Perm
      (s.held ++ x'.phase.request.toList) :=
  filterMap_set_perm hx

def done (s : Requests R) : List R := s.written.map (fun w => w.2.1) ++ s.lost

/-- Every request that was taken is still held, has been written or has been given up. -/
def Conserved (s : Requests R) : Prop := s.taken.Perm (s.held ++ s.done)

theorem Conserved.take (hs : Conserved s) (hx : s.conns[c]? = some x) (hph : x.phase = .waiting) :
    (s.taken ++ [req]).Perm ((s.setConn c { x with phase := .holding req }).held ++ s.done) := by
  have hheld := held_setConn { x with phase := .holding req } hx
  rw [hph] at hheld
  classical
  refine perm_iff_count.mpr fun r => ?_
  have htk := hs.count_eq r
  have hheld := hheld.count_eq r
  simp only [count_append, Phase.request, Option.toList_some, Option.toList_none,
    count_nil] at htk hheld ⊢
  omega

theorem Conserved.release (hs : Conserved s) {done' : List R} (hx : s.conns[c]? = some x)
    (hreq : x.phase.request = some req) (hnone : x'.phase.request = none)
    (hdone : done'.Perm (s.done ++ [req])) : s.taken.Perm ((s.setConn c x').held ++ done') := by
  have hheld := held_setConn x' hx
  rw [hreq, hnone] at hheld
  classical
  refine perm_iff_count.mpr fun r => ?_
  have htk := hs.count_eq r
  have hheld := hheld.count_eq r
  have hdone := hdone.count_eq r
  simp only [count_append, Option.toList_some, Option.toList_none, count_nil]
    at htk hheld hdone ⊢
  omega

theorem Conserved.acts (hs : Conserved s) (h : Acts marshal s e s') : Conserved s' := by
  have hq : ∀ {c : Nat} {x x' : Link R}, s.conns[c]? = some x →
      x'.phase.request = x.phase.request → Conserved (s.setConn c x') := by
    intro c x x' hx hsame
    have hheld := held_setConn x' hx
    rw [hsame, perm_append_right_iff] at hheld
    exact hs.trans (hheld.symm.append_right _)
  cases h with
  | accept =>
    have hheld : held { s with conns := s.conns ++ [⟨true, true, 0, .waiting⟩] } = s.held := by
      simp [held, Phase.request]
    rw [Conserved, hheld]
    exact hs
  | hangUp hx | handlerReturns hx | heartbeat hx hing => exact hq hx rfl
  | arrive hch | cancel => exact hs
  | marshal hx hph henc | exit hx hph hcan => exact hq hx (by rw [hph]; rfl)
  | take hx hph hch => exact hs.take hx hph
  | write hx hph hlive =>
    refine hs.release hx (congrArg Phase.request hph) rfl ?_
    simp only [done, map_append, append_assoc]
    exact perm_append_comm.append_left _
  | marshalFails hx hph | writeFails hx hph =>
    refine hs.release hx (congrArg Phase.request hph) rfl ?_
    rw [done, done, append_assoc]
    exact List.Perm.refl _

/-- When a request is taken, every forwarder that still runs has a live connection. No
connection ends while its forwarder has a request, and no write to a live connection fails. -/
def Steady (s : Requests R) : ForwardStep R → Prop
  | .take _ => ∀ x ∈ s.conns, x.phase.running = true → x.live = true
  | .hangUp c | .handlerReturns c => ∀ x ∈ s.conns[c]?, x.phase.request.isNone = true
  | .write c false => ∀ x ∈ s.conns[c]?, x.live = false
  | _ => True

instance decidableSteady (s : Requests R) : (e : ForwardStep R) → Decidable (Steady s e)
  | .take _ =>
    inferInstanceAs (Decidable (∀ x ∈ s.conns, x.phase.running = true → x.live = true))
  | .hangUp c | .handlerReturns c =>
    inferInstanceAs (Decidable (∀ x ∈ s.conns[c]?, x.phase.request.isNone = true))
  | .write c false => inferInstanceAs (Decidable (∀ x ∈ s.conns[c]?, x.live = false))
  | .write _ true | .accept | .heartbeat _ | .arrive _ | .marshal _ | .cancel | .exit _ =>
    isTrue trivial

/-- No request has been given up, and whoever has one has a live connection. -/
structure Safe (s : Requests R) : Prop where
  lost : s.lost = []
  late : s.late = []
  live : ∀ x ∈ s.conns, x.phase.request.isSome = true → x.live = true

theorem live_set (hs : ∀ x ∈ s.conns, x.phase.request.isSome = true → x.live = true)
    (hx' : x'.phase.request.isSome = true → x'.live = true) :
    ∀ y ∈ (s.setConn c x').conns, y.phase.request.isSome = true → y.live = true := by
  intro y hy
  rcases mem_or_eq_of_mem_set hy with hmem | rfl
  · exact hs y hmem
  · exact hx'

theorem Safe.acts (henc : ∀ req, (marshal req).isSome = true) (hs : Safe s)
    (he : Steady s e) (h : Acts marshal s e s') : Safe s' := by
  have hlive : ∀ {c : Nat} {x : Link R}, s.conns[c]? = some x →
      x.phase.request.isSome = true → x.live = true :=
    fun hx => hs.live _ (mem_of_getElem? hx)
  have hidle : ∀ {x x' : Link R}, x.phase.request.isNone = true → x'.phase = x.phase →
      x'.phase.request.isSome = true → x'.live = true := by
    intro x x' hnone hph hsome
    cases hreq : x.phase.request <;> simp_all
  cases h with
  | accept =>
    refine ⟨hs.lost, hs.late, fun y hy => ?_⟩
    rcases mem_append.mp hy with hmem | hmem
    · exact hs.live y hmem
    · cases mem_singleton.mp hmem
      nofun
  | hangUp hx | handlerReturns hx =>
    exact ⟨hs.lost, hs.late, live_set hs.live (hidle (he _ hx) rfl)⟩
  | heartbeat hx hing =>
    have hx_live := hlive hx
    exact ⟨hs.lost, hs.late, live_set hs.live hx_live⟩
  | arrive hch | cancel => exact ⟨hs.lost, hs.late, hs.live⟩
  | @take c x req rest hx hph hch =>
    have hx_live : x.live = true := he x (mem_of_getElem? hx) (by rw [hph]; rfl)
    have hing : x.handling = true := (Bool.and_eq_true_iff.mp hx_live).2
    refine ⟨hs.lost, ?_, live_set hs.live fun _ => hx_live⟩
    rw [if_pos hing]
    exact hs.late
  | @marshalFails c x req hx hph hnone =>
    have hsome := henc req
    rw [hnone] at hsome
    cases hsome
  | marshal hx hph hpay =>
    have hx_live := hlive hx (by rw [hph]; rfl)
    exact ⟨hs.lost, hs.late, live_set hs.live fun _ => hx_live⟩
  | write hx hph hx_live => exact ⟨hs.lost, hs.late, live_set hs.live nofun⟩
  | writeFails hx hph =>
    have hx_live := hlive hx (by rw [hph]; rfl)
    rw [he _ hx] at hx_live
    cases hx_live
  | exit hx hph hcan => exact ⟨hs.lost, hs.late, live_set hs.live nofun⟩

theorem exec_write (marshal : R → Option (List UInt8)) {seqNum : UInt32} {frame : Frame}
    (hx : s.conns[c]? = some ⟨true, true, seqNum, .sending req frame⟩) :
    ∃ s', exec marshal s (.write c true) = some s' ∧ (c, req, frame) ∈ s'.written := by
  refine ⟨{ s.setConn c ⟨true, true, seqNum, .waiting⟩ with
    written := s.written ++ [(c, req, frame)] }, by simp [exec, hx], ?_⟩
  exact mem_append_right _ (mem_singleton_self _)

theorem written_of_live (henc : ∀ req, (marshal req).isSome = true) (hx : s.conns[c]? = some x)
    (hlive : x.live = true) (hreq : x.phase.request = some req) :
    ∃ es s' frame, (∀ e ∈ es, e = .marshal c ∨ e = .write c true) ∧
      StepRun.run (exec marshal) s es = some s' ∧ (c, req, frame) ∈ s'.written := by
  obtain ⟨peerOpen, handling, seqNum, phase⟩ := x
  obtain ⟨rfl, rfl⟩ := Bool.and_eq_true_iff.mp hlive
  cases phase with
  | waiting | stopped => cases hreq
  | sending req' frame =>
    cases hreq
    obtain ⟨s', hw, hmem⟩ := exec_write marshal hx
    refine ⟨[.write c true], s', frame, by simp, ?_, hmem⟩
    rw [StepRun.run, hw]
    rfl
  | holding req' =>
    cases hreq
    obtain ⟨payload, hpay⟩ := Option.isSome_iff_exists.mp (henc req)
    let frame := buildFrame MsgType.inferRequest.code (seqNum + 1) flagAckRequired payload
    have hstep : exec marshal s (.marshal c) =
        some (s.setConn c ⟨true, true, seqNum + 1, .sending req frame⟩) := by
      simp [exec, hx, hpay, frame]
    have hset : (s.setConn c ⟨true, true, seqNum + 1, .sending req frame⟩).conns[c]? =
        some ⟨true, true, seqNum + 1, .sending req frame⟩ :=
      List.getElem?_set_self (List.getElem?_eq_some_iff.mp hx).1
    obtain ⟨s', hw, hmem⟩ := exec_write marshal hset
    refine ⟨[.marshal c, .write c true], s', frame, by simp, ?_, hmem⟩
    rw [StepRun.run, hstep, Option.bind_some, StepRun.run, hw]
    rfl

/-- Every request that was taken has been written to a live connection or is held by a
forwarder that can write it, and no forwarder took one after its handler had returned. -/
structure Delivered (marshal : R → Option (List UInt8)) (s : Requests R) : Prop where
  taken : s.taken.Perm (s.held ++ s.written.map fun w => w.2.1)
  late : s.late = []
  pending : ∀ (c : Nat) (x : Link R) (req : R), s.conns[c]? = some x →
    x.phase.request = some req →
    ∃ es s' frame, (∀ e ∈ es, e = .marshal c ∨ e = .write c true) ∧
      StepRun.run (exec marshal) s es = some s' ∧ (c, req, frame) ∈ s'.written

theorem no_request_lost {es : List (ForwardStep R)} (hmarshal : ∀ req, (marshal req).isSome = true)
    (hes : StepRun.Along (exec marshal) Steady newServer es)
    (hrun : StepRun.run (exec marshal) newServer es = some s) : Delivered marshal s := by
  have hsafe : Safe s := by
    refine hes.invariant (fun s e s' hs he h => hs.acts hmarshal he (Acts.of_exec h)) ?_ hrun
    exact ⟨rfl, rfl, nofun⟩
  have hcons : Conserved s := by
    refine StepRun.run_invariant (Q := fun _ => True)
      (fun s e s' hs _ h => hs.acts (Acts.of_exec h)) (fun _ _ => trivial) ?_ hrun
    exact List.Perm.refl _
  refine ⟨?_, hsafe.late, fun c x req hx hreq => ?_⟩
  · rw [Conserved, done, hsafe.lost, List.append_nil] at hcons
    exact hcons
  · have hlive := hsafe.live x (List.mem_of_getElem? hx) (by rw [hreq]; rfl)
    exact written_of_live hmarshal hx hlive hreq

theorem no_request_lost_two : ∃ s : Requests Nat,
    StepRun.run (exec fun _ => some []) newServer
      [.accept, .accept, .arrive 1, .arrive 2, .take 0, .marshal 0, .take 1, .write 0 true,
        .heartbeat 1, .hangUp 0, .handlerReturns 0] = some s ∧
      s.taken = [1, 2] ∧ s.held = [2] ∧ Delivered (fun _ => some []) s := by
  have hany : (StepRun.run (exec fun _ => some []) (newServer : Requests Nat)
      [.accept, .accept, .arrive 1, .arrive 2, .take 0, .marshal 0, .take 1, .write 0 true,
        .heartbeat 1, .hangUp 0, .handlerReturns 0]).any (fun s =>
      decide (s.taken = [1, 2] ∧ s.held = [2])) = true := by decide +kernel
  obtain ⟨s, hrun, hs⟩ := Option.any_eq_true _ _ |>.mp hany
  obtain ⟨htk, hheld⟩ := of_decide_eq_true hs
  exact ⟨s, hrun, htk, hheld, no_request_lost (fun _ => rfl) (by decide +kernel) hrun⟩

/-- The forwarder of a connection whose handler has returned takes a request that the forwarder
of the live connection could have written. -/
theorem request_lost_to_dead_peer :
    (StepRun.run (exec fun _ => some []) (newServer : Requests Nat)
      [.accept, .accept, .hangUp 0, .handlerReturns 0, .arrive 7, .take 0, .marshal 0,
        .write 0 false]).any (fun s =>
      decide (s.conns[1]? = some ⟨true, true, 0, .waiting⟩ ∧ s.taken = [7] ∧ s.held = [] ∧
        s.inferRequestCh = [] ∧ s.written = [] ∧ s.lost = [7] ∧ s.late = [7])) = true := by
  decide +kernel

end Requests

end Forwarding

end Ipc

end Falx
