import Falx.CircuitAgreement
import Falx.ReadModifyWrite

/-! The writers of `FAILSAFE_STATE`. `SetCircuitOpen` and `UpdateFailsafeThresholds` look the
record up and write all of it back, in falxd and in falx-soc, while the XDP program changes
it with every packet. -/

namespace Falx

open FailsafeState ReadModifyWrite

inductive FailsafeMapCall where
  | setCircuitOpen (isOpen : Bool) (nowNano : UInt64)
  | updateFailsafeThresholds (pps bps : UInt64)
  deriving DecidableEq

def FailsafeMapCall.modify : FailsafeMapCall → FailsafeState → FailsafeState
  | setCircuitOpen isOpen nowNano => Falx.setCircuitOpen isOpen nowNano
  | updateFailsafeThresholds pps bps => Falx.updateFailsafeThresholds pps bps

section Race

variable {ι : Type}

def failsafeMap (calls : ι → FailsafeMapCall) : System FailsafeState ι (PacketInfo × UInt64) where
  modify i := (calls i).modify
  other p s := s.after p.1 p.2

abbrev FailsafeStep (ι : Type) := Step ι (PacketInfo × UInt64)

def beforeCalls (s : FailsafeState) : State FailsafeState ι := ⟨s, fun _ => .ready⟩

def FailsafeState.settings (s : FailsafeState) : UInt64 × UInt64 × UInt8 :=
  (s.ppsThreshold, s.bpsThreshold, s.circuitOpen)

def Rethresholds (calls : ι → FailsafeMapCall) (e : FailsafeStep ι) : Prop :=
  ∃ i pps bps, e = .update i ∧ calls i = .updateFailsafeThresholds pps bps

/-- The step, taken at the record `s`, sets `circuit_open`. -/
def SetsCircuit (calls : ι → FailsafeMapCall) (s : FailsafeState) (e : FailsafeStep ι) : Prop :=
  (∃ i t, e = .update i ∧ calls i = .setCircuitOpen true t) ∨
    ∃ p, e = .other p ∧ s.circuitOpen = 0 ∧ (s.after p.1 p.2).circuitOpen ≠ 0

theorem FailsafeState.after_thresholds (s : FailsafeState) (pkt : PacketInfo) (now : UInt64) :
    (s.after pkt now).ppsThreshold = s.ppsThreshold ∧
      (s.after pkt now).bpsThreshold = s.bpsThreshold := by
  rw [after, (s.countPacket pkt.pktLen now).trip_eq, s.countPacket_eq]
  exact ⟨rfl, rfl⟩

theorem FailsafeMapCall.modify_thresholds {c : FailsafeMapCall} {s : FailsafeState}
    (h : ∀ pps bps, c ≠ .updateFailsafeThresholds pps bps) :
    (c.modify s).ppsThreshold = s.ppsThreshold ∧ (c.modify s).bpsThreshold = s.bpsThreshold := by
  cases c with
  | setCircuitOpen isOpen nowNano =>
    cases isOpen with
    | true | false => exact ⟨rfl, rfl⟩
  | updateFailsafeThresholds pps bps => exact absurd rfl (h pps bps)

theorem fresh_beforeCalls (s₀ : FailsafeState) :
    Fresh settings (beforeCalls s₀ : State FailsafeState ι) :=
  fun _ _ hph => by cases hph

variable [DecidableEq ι] {calls : ι → FailsafeMapCall} {s s' : State FailsafeState ι}
  {e : FailsafeStep ι} {es : List (FailsafeStep ι)}

section

variable (hs : Fresh FailsafeState.settings s)

include hs

theorem exec_thresholds (he : ¬ Rethresholds calls e) (h : exec (failsafeMap calls) s e = some s') :
    s'.record.ppsThreshold = s.record.ppsThreshold ∧
      s'.record.bpsThreshold = s.record.bpsThreshold := by
  cases e with
  | lookup i =>
    rw [(exec_lookup h).1]
    exact ⟨rfl, rfl⟩
  | update i =>
    obtain ⟨copy, hph, hrec, -⟩ := exec_update h
    have hview := hs i copy hph
    have hkept := FailsafeMapCall.modify_thresholds (s := copy)
      fun pps bps heq => he ⟨i, pps, bps, rfl, heq⟩
    simp only [settings, Prod.mk.injEq] at hview
    rw [hrec]
    exact ⟨hkept.1.trans hview.1, hkept.2.trans hview.2.1⟩
  | fail i =>
    rw [(exec_fail h).1]
    exact ⟨rfl, rfl⟩
  | other p =>
    rw [(exec_other h).1]
    exact s.record.after_thresholds p.1 p.2

theorem run_thresholds (hiso : IsolatedRun (failsafeMap calls) settings s es)
    (hes : ∀ e ∈ es, ¬ Rethresholds calls e) (h : run (failsafeMap calls) s es = some s') :
    s'.record.ppsThreshold = s.record.ppsThreshold ∧
      s'.record.bpsThreshold = s.record.bpsThreshold := by
  induction es generalizing s with
  | nil =>
    cases h
    exact ⟨rfl, rfl⟩
  | cons e es ih =>
    obtain ⟨t, ht, hrest⟩ := StepRun.run_cons_inv h
    obtain ⟨he, hes⟩ := List.forall_mem_cons.mp hes
    obtain ⟨hpps, hbps⟩ := exec_thresholds hs he ht
    obtain ⟨hpps', hbps'⟩ := ih (hs.exec hiso.1 ht) (hiso.cons_inv ht) hes hrest
    exact ⟨hpps'.trans hpps, hbps'.trans hbps⟩

theorem exec_closes (hopen : s.record.circuitOpen ≠ 0)
    (h : exec (failsafeMap calls) s e = some s') (hshut : s'.record.circuitOpen = 0) :
    ∃ i t, e = .update i ∧ calls i = .setCircuitOpen false t ∧ (s.phase i).isHolding = true := by
  cases e with
  | lookup i =>
    rw [(exec_lookup h).1] at hshut
    exact absurd hshut hopen
  | fail i =>
    rw [(exec_fail h).1] at hshut
    exact absurd hshut hopen
  | other p =>
    rw [(exec_other h).1] at hshut
    exact absurd hshut (circuitOpen_trip_ne hopen p.1.pktLen p.2)
  | update i =>
    obtain ⟨copy, hph, hrec, -⟩ := exec_update h
    have hview := hs i copy hph
    simp only [settings, Prod.mk.injEq] at hview
    rw [hrec] at hshut
    simp only [failsafeMap] at hshut
    cases hcall : calls i with
    | updateFailsafeThresholds pps bps =>
      rw [hcall] at hshut
      exact absurd (hview.2.2.symm.trans hshut) hopen
    | setCircuitOpen isOpen t =>
      cases isOpen with
      | true =>
        rw [hcall] at hshut
        exact absurd hshut (show (1 : UInt8) ≠ 0 by decide)
      | false => exact ⟨i, t, rfl, hcall, by rw [hph]; rfl⟩

end

theorem idle_of_setsCircuit (hiso : Isolated (failsafeMap calls) settings s e)
    (h : exec (failsafeMap calls) s e = some s') (hsets : SetsCircuit calls s.record e) :
    Idle s' := by
  rcases hsets with ⟨i, t, rfl, -⟩ | ⟨p, rfl, hzero, hset⟩
  · exact idle_of_update hiso h
  · have hidle : Idle s := by
      refine hiso fun hsame => hset ?_
      simp only [settings, Prod.mk.injEq] at hsame
      exact hsame.2.2.trans hzero
    intro j
    rw [(exec_other h).2]
    exact hidle j

/-- Thresholds stay until they are updated again, and an open circuit is closed by nothing but
a `SetCircuitOpen(false)` that looked the record up after the opening. -/
structure NothingLost (calls : ι → FailsafeMapCall) (s₀ : FailsafeState)
    (es : List (FailsafeStep ι)) : Prop where
  thresholds : ∀ pre i mid post pps bps s, es = pre ++ .update i :: (mid ++ post) →
    calls i = .updateFailsafeThresholds pps bps → (∀ e ∈ mid, ¬ Rethresholds calls e) →
    run (failsafeMap calls) (beforeCalls s₀) (pre ++ .update i :: mid) = some s →
    s.record.ppsThreshold = pps ∧ s.record.bpsThreshold = bps
  circuit : ∀ pre x mid y post u s s', es = pre ++ x :: (mid ++ y :: post) →
    run (failsafeMap calls) (beforeCalls s₀) pre = some u → SetsCircuit calls u.record x →
    run (failsafeMap calls) (beforeCalls s₀) (pre ++ x :: mid) = some s →
    s.record.circuitOpen ≠ 0 → exec (failsafeMap calls) s y = some s' →
    s'.record.circuitOpen = 0 →
    ∃ i t, y = .update i ∧ calls i = .setCircuitOpen false t ∧ .lookup i ∈ mid

theorem failsafeMap_nothing_lost {s₀ : FailsafeState} (hiso : IsolatedRun (failsafeMap calls)
    FailsafeState.settings (beforeCalls s₀) es) : NothingLost calls s₀ es := by
  constructor
  · rintro pre i mid post pps bps s rfl hcall hmid hrun
    obtain ⟨u, hu, hrest⟩ := StepRun.run_append_inv hrun
    obtain ⟨t, ht, hmidrun⟩ := StepRun.run_cons_inv hrest
    obtain ⟨hpre, haf⟩ := hiso.append_inv hu
    obtain ⟨hmidiso, -⟩ := (haf.cons_inv ht).append_inv hmidrun
    have hfr : Fresh FailsafeState.settings t := ((fresh_beforeCalls s₀).run hpre hu).exec haf.1 ht
    obtain ⟨copy, -, hrec, -⟩ := exec_update ht
    obtain ⟨hpps, hbps⟩ := run_thresholds hfr hmidiso hmid hmidrun
    simp only [failsafeMap, hcall] at hrec
    rw [hpps, hbps, hrec]
    exact ⟨rfl, rfl⟩
  · rintro pre x mid y post u s s' rfl hu hsets hrun hopen hy hshut
    obtain ⟨u', hu', hrest⟩ := StepRun.run_append_inv hrun
    cases hu.symm.trans hu'
    obtain ⟨t, ht, hmidrun⟩ := StepRun.run_cons_inv hrest
    obtain ⟨hpre, haf⟩ := hiso.append_inv hu
    obtain ⟨hmidiso, -⟩ := (haf.cons_inv ht).append_inv hmidrun
    have hfr : Fresh FailsafeState.settings t := ((fresh_beforeCalls s₀).run hpre hu).exec haf.1 ht
    obtain ⟨i, nowNano, rfl, hcall, hheld⟩ := exec_closes (hfr.run hmidiso hmidrun) hopen hy hshut
    have hidle := idle_of_setsCircuit haf.1 ht hsets
    exact ⟨i, nowNano, rfl, hcall, lookup_mem_of_isHolding hmidrun (hidle i) hheld⟩

end Race

def twoCalls (isOpen : Bool) : Bool → FailsafeMapCall
  | false => .updateFailsafeThresholds 5 5000000
  | true => .setCircuitOpen isOpen 1700000000000000000

def smallPacket (now : UInt64) : FailsafeStep Bool := .other ({ pktLen := 64 }, now)

def oneAfterAnother : List (FailsafeStep Bool) :=
  [smallPacket 1, smallPacket 2, .lookup false, smallPacket 3, .update false, .lookup true,
    .update true, smallPacket 4]

theorem failsafeMap_nothing_lost_sample :
    NothingLost (twoCalls false) tightCircuit oneAfterAnother :=
  failsafeMap_nothing_lost (by decide +kernel)

/-- A `SetCircuitOpen` that has read the record before the thresholds are updated puts the old
ones back, and an update of the thresholds that has read the record before the XDP program
opens the circuit closes it again. -/
theorem failsafeMap_loses :
    ((run (failsafeMap (twoCalls true)) (beforeCalls tightCircuit)
        [.lookup true, .lookup false, .update false]).map (·.record.ppsThreshold) = some 5 ∧
      (run (failsafeMap (twoCalls true)) (beforeCalls tightCircuit)
        [.lookup true, .lookup false, .update false, .update true]).map (·.record.ppsThreshold) =
          some 1) ∧
    (run (failsafeMap (twoCalls true)) (beforeCalls tightCircuit)
        [.lookup false, smallPacket 1, smallPacket 2]).map (·.record.circuitOpen) = some 1 ∧
      (run (failsafeMap (twoCalls true)) (beforeCalls tightCircuit)
        [.lookup false, smallPacket 1, smallPacket 2, .update false]).map (·.record.circuitOpen) =
          some 0 := by
  refine ⟨⟨by decide, by decide⟩, by decide, by decide⟩

end Falx
