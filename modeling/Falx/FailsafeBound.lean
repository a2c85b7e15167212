import Falx.Enforcement
import Falx.KeyAgreement
import Falx.TumblingWindow

/-! What the circuit breaker lets through before it opens. Packets and bits are
counted side by side in the same tumbling window of one second, each against its
own threshold, and the counters saturate: a threshold of 2^64 - 1 is never
exceeded. -/

namespace Falx

open FailsafeState List Words TumblingWindow

structure FailsafeCall where
  now : UInt64
  pktLen : UInt32
  verdict : Option XdpAction
  windowStartNs : UInt64

def failsafeCalls : List (UInt64 × PacketInfo) → Kernel → List FailsafeCall
  | [], _ => []
  | (now, pkt) :: rest, st =>
    let r := checkFailsafe pkt now st
    ⟨now, pkt.pktLen, r.1, r.2.failsafeState.elim 0 FailsafeState.windowStartNs⟩ ::
      failsafeCalls rest r.2

def admittedPackets (calls : List FailsafeCall) (p : FailsafeCall → Bool) : Nat :=
  (calls.filter fun c => c.verdict.isNone && p c).length

def admittedBits (calls : List FailsafeCall) (p : FailsafeCall → Bool) : Nat :=
  ((calls.filter fun c => c.verdict.isNone && p c).map fun c => c.pktLen.toNat * 8).sum

structure WindowBound (admitted : (FailsafeCall → Bool) → Nat) (threshold : UInt64) : Prop where
  interval : ∀ a, admitted (fun c => a ≤ c.now.toNat && c.now.toNat < a + 1000000000) ≤
    2 * threshold.toNat
  window : ∀ w, admitted (fun c => c.windowStartNs == w) ≤ threshold.toNat

variable {st : Kernel} {s : FailsafeState}

theorem checkFailsafe_eq (hs : st.failsafeState = some s) (pkt : PacketInfo) (now : UInt64) :
    (checkFailsafe pkt now st).2.failsafeState = some ((s.countPacket pkt.pktLen now).trip now) ∧
      (checkFailsafe pkt now st).1 =
        if ((s.countPacket pkt.pktLen now).trip now).circuitOpen ≠ 0 then some .drop else none := by
  simp only [checkFailsafe, hs]
  split
  · exact ⟨rfl, rfl⟩
  · exact ⟨rfl, rfl⟩

theorem failsafeCalls_of_open (arrivals : List (UInt64 × PacketInfo))
    (hs : st.failsafeState = some s) (hopen : s.circuitOpen ≠ 0) :
    ∀ c ∈ failsafeCalls arrivals st, c.verdict = some .drop := by
  induction arrivals generalizing st s with
  | nil =>
    intro c hc
    cases hc
  | cons x rest ih =>
    obtain ⟨now, pkt⟩ := x
    intro c hc
    rcases mem_cons.mp hc with rfl | hc
    · exact checkFailsafe_of_open hs hopen
    · exact ih (checkFailsafe_eq hs pkt now).1
        (circuitOpen_trip_ne hopen pkt.pktLen now) c hc

theorem failsafeCalls_latch (arrivals : List (UInt64 × PacketInfo))
    (hs : st.failsafeState = some s) :
    (failsafeCalls arrivals st).Pairwise
      fun c d => c.verdict = some .drop → d.verdict = some .drop := by
  induction arrivals generalizing st s with
  | nil => exact List.Pairwise.nil
  | cons x rest ih =>
    obtain ⟨now, pkt⟩ := x
    obtain ⟨hnext, hverd⟩ := checkFailsafe_eq hs pkt now
    refine List.Pairwise.cons ?_ (ih hnext)
    intro d hd hdrop
    simp only [hverd] at hdrop
    split at hdrop
    · rename_i hopen
      exact failsafeCalls_of_open rest hnext hopen d hd
    · cases hdrop

structure Gauge where
  count : FailsafeState → UInt64
  threshold : FailsafeState → UInt64
  weight : UInt32 → Nat
  count_countPacket : ∀ s len now, (count (s.countPacket len now)).toNat =
    if 1000000000 ≤ now.toNat - s.windowStartNs.toNat then weight len
    else min ((count s).toNat + weight len) (2 ^ 64 - 1)
  count_trip : ∀ s now, count (s.trip now) = count s
  threshold_countPacket : ∀ s len now, threshold (s.countPacket len now) = threshold s
  threshold_trip : ∀ s now, threshold (s.trip now) = threshold s
  count_le : ∀ s now, (s.trip now).circuitOpen = 0 → count s ≤ threshold s

theorem windowElapsed_iff (now start : UInt64) :
    nsPerSec ≤ satSub now start ↔ 1000000000 ≤ now.toNat - start.toNat := by
  rw [UInt64.le_iff_toNat_le, toNat_satSub]
  rfl

theorem FailsafeState.trip_closed {now : UInt64} (h : (s.trip now).circuitOpen = 0) :
    s.currentPps ≤ s.ppsThreshold ∧ s.currentBps ≤ s.bpsThreshold := by
  by_cases htrip : s.circuitOpen = 0 ∧
      (s.ppsThreshold < s.currentPps ∨ s.bpsThreshold < s.currentBps)
  · rw [trip, if_pos htrip] at h
    exact absurd h (show (1 : UInt8) ≠ 0 by decide)
  · rw [trip, if_neg htrip] at h
    have hle := fun hlt => htrip ⟨h, hlt⟩
    exact ⟨UInt64.not_lt.mp fun hlt => hle (.inl hlt), UInt64.not_lt.mp fun hlt => hle (.inr hlt)⟩

theorem toNat_bits (len : UInt32) : (len.toUInt64 * 8).toNat = len.toNat * 8 := by
  have hlen := len.toNat_lt
  rw [UInt64.toNat_mul, UInt32.toNat_toUInt64]
  exact Nat.mod_eq_of_lt (by simp only [UInt64.reduceToNat]; omega)

def Gauge.pps : Gauge where
  count := FailsafeState.currentPps
  threshold := FailsafeState.ppsThreshold
  weight := fun _ => 1
  count_countPacket := by
    intro s len now
    simp only [FailsafeState.countPacket, windowElapsed_iff]
    split
    · rfl
    · exact toNat_satAdd _ _
  count_trip := fun s now => by rw [s.trip_eq]
  threshold_countPacket := fun s len now => by rw [s.countPacket_eq]
  threshold_trip := fun s now => by rw [s.trip_eq]
  count_le := fun s now h => (FailsafeState.trip_closed h).1

def Gauge.bps : Gauge where
  count := FailsafeState.currentBps
  threshold := FailsafeState.bpsThreshold
  weight := fun len => len.toNat * 8
  count_countPacket := by
    intro s len now
    simp only [FailsafeState.countPacket, windowElapsed_iff]
    split
    · exact toNat_bits len
    · rw [← toNat_bits len]
      exact toNat_satAdd _ _
  count_trip := fun s now => by rw [s.trip_eq]
  threshold_countPacket := fun s len now => by rw [s.countPacket_eq]
  threshold_trip := fun s now => by rw [s.trip_eq]
  count_le := fun s now h => (FailsafeState.trip_closed h).2

def Gauge.admitted (g : Gauge) (calls : List FailsafeCall) (p : FailsafeCall → Bool) : Nat :=
  ((calls.filter fun c => c.verdict.isNone && p c).map fun c => g.weight c.pktLen).sum

def Gauge.ticks (g : Gauge) (calls : List FailsafeCall) : List Tick :=
  (calls.filter fun c => c.verdict.isNone).map fun c =>
    ⟨c.now.toNat, g.weight c.pktLen, c.windowStartNs.toNat⟩

theorem Gauge.load_ticks (g : Gauge) (calls : List FailsafeCall) (p : FailsafeCall → Bool)
    (q : Tick → Bool)
    (hpq : ∀ c : FailsafeCall, q ⟨c.now.toNat, g.weight c.pktLen, c.windowStartNs.toNat⟩ = p c) :
    load q (g.ticks calls) = g.admitted calls p := by
  have hcomp : (q ∘ fun c : FailsafeCall =>
      ⟨c.now.toNat, g.weight c.pktLen, c.windowStartNs.toNat⟩) = p := funext hpq
  rw [load, Gauge.ticks, filter_map, hcomp, filter_filter, map_map, Gauge.admitted]
  simp only [Bool.and_comm]
  rfl

theorem Gauge.ticks_of_open (g : Gauge) {calls : List FailsafeCall}
    (h : ∀ c ∈ calls, c.verdict = some .drop) : g.ticks calls = [] := by
  have hnone : calls.filter (fun c => c.verdict.isNone) = [] := by
    rw [filter_eq_nil_iff]
    intro c hc
    simp [h c hc]
  rw [Gauge.ticks, hnone, map_nil]

theorem FailsafeState.windowStartNs_step (s : FailsafeState) (len : UInt32) (now : UInt64) :
    ((s.countPacket len now).trip now).windowStartNs =
      if 1000000000 ≤ now.toNat - s.windowStartNs.toNat then now else s.windowStartNs := by
  rw [trip_eq]
  simp only [countPacket, windowElapsed_iff]
  split <;> rfl

theorem Gauge.ticks_cons_of_none (g : Gauge) {c : FailsafeCall} (h : c.verdict = none)
    (calls : List FailsafeCall) : g.ticks (c :: calls) =
      ⟨c.now.toNat, g.weight c.pktLen, c.windowStartNs.toNat⟩ :: g.ticks calls := by
  simp [Gauge.ticks, h]

section Tick

variable (g : Gauge) {s s' : FailsafeState} {len : UInt32} {now : UInt64}
  (hs' : (s.countPacket len now).trip now = s')

include hs'

theorem Gauge.threshold_step : g.threshold s' = g.threshold s := by
  rw [← hs', g.threshold_trip, g.threshold_countPacket]

theorem Gauge.count_step : (g.count s').toNat =
    if 1000000000 ≤ now.toNat - s.windowStartNs.toNat then g.weight len
    else min ((g.count s).toNat + g.weight len) (2 ^ 64 - 1) := by
  rw [← hs', g.count_trip, g.count_countPacket]

theorem Gauge.count_le_of_closed (hshut : s'.circuitOpen = 0) :
    (g.count s').toNat ≤ (g.threshold s).toNat := by
  rw [← hs'] at hshut ⊢
  have hle := g.count_le _ now hshut
  rw [g.threshold_countPacket] at hle
  rw [g.count_trip]
  exact UInt64.le_iff_toNat_le.mp hle

theorem Gauge.admitted_cons {last : Nat} {ts : List Tick} (hshut : s'.circuitOpen = 0)
    (hlast : last ≤ now.toNat) (hthr : (g.threshold s).toNat < 2 ^ 64 - 1)
    (hts : Admitted 1000000000 (g.threshold s).toNat now.toNat s'.windowStartNs.toNat
      (g.count s').toNat ts) :
    Admitted 1000000000 (g.threshold s).toNat last s.windowStartNs.toNat (g.count s).toNat
      (⟨now.toNat, g.weight len, s'.windowStartNs.toNat⟩ :: ts) := by
  have hwin := s.windowStartNs_step len now
  have hle := g.count_le_of_closed hs' hshut
  rw [hs'] at hwin
  rw [g.count_step hs'] at hle hts
  by_cases hage : 1000000000 ≤ now.toNat - s.windowStartNs.toNat
  · rw [if_pos hage] at hwin hle hts
    rw [hwin] at hts ⊢
    exact Admitted.restart hlast hage hle hts
  · rw [if_neg hage] at hwin hle hts
    have hex : min ((g.count s).toNat + g.weight len) (2 ^ 64 - 1) =
        (g.count s).toNat + g.weight len := by omega
    rw [hex] at hle hts
    rw [hwin] at hts ⊢
    exact Admitted.stay hlast (Nat.lt_of_not_le hage) hle hts

end Tick

theorem Gauge.admitted_ticks (g : Gauge) (arrivals : List (UInt64 × PacketInfo)) (last : Nat)
    (hs : st.failsafeState = some s) (hlast : ∀ x ∈ arrivals, last ≤ x.1.toNat)
    (hord : arrivals.Pairwise fun x y => x.1 ≤ y.1) (hthr : (g.threshold s).toNat < 2 ^ 64 - 1) :
    Admitted 1000000000 (g.threshold s).toNat last s.windowStartNs.toNat (g.count s).toNat
      (g.ticks (failsafeCalls arrivals st)) := by
  induction arrivals generalizing st s last with
  | nil => exact Admitted.nil
  | cons x rest ih =>
    obtain ⟨now, pkt⟩ := x
    obtain ⟨hnext, hverd⟩ := checkFailsafe_eq hs pkt now
    have hrest : ∀ x ∈ rest, now.toNat ≤ x.1.toNat :=
      fun x hx => UInt64.le_iff_toNat_le.mp (rel_of_pairwise_cons hord hx)
    generalize hs' : (s.countPacket pkt.pktLen now).trip now = s' at hnext hverd
    by_cases hopen : s'.circuitOpen ≠ 0
    · have hdrop := failsafeCalls_of_open rest hnext hopen
      rw [if_pos hopen] at hverd
      rw [failsafeCalls, Gauge.ticks_of_open]
      · exact Admitted.nil
      · intro c hc
        rcases mem_cons.mp hc with rfl | hc
        · exact hverd
        · exact hdrop c hc
    · rw [if_neg hopen] at hverd
      have hts' := g.threshold_step hs'
      have hrun := ih now.toNat hnext hrest (pairwise_cons.mp hord).2 (by rw [hts']; exact hthr)
      rw [hts'] at hrun
      rw [failsafeCalls, g.ticks_cons_of_none hverd, hnext]
      exact g.admitted_cons hs' (not_not.mp hopen) (hlast _ (.head _)) hthr hrun

theorem Gauge.windowBound (g : Gauge) {arrivals : List (UInt64 × PacketInfo)}
    (hs : st.failsafeState = some s) (hord : arrivals.Pairwise fun x y => x.1 ≤ y.1)
    (hthr : (g.threshold s).toNat < 2 ^ 64 - 1) :
    WindowBound (g.admitted (failsafeCalls arrivals st)) (g.threshold s) := by
  have hticks := g.admitted_ticks arrivals 0 hs (fun _ _ => Nat.zero_le _) hord hthr
  refine ⟨?_, ?_⟩
  · intro a
    have hload := hticks.load_within_le (by omega) a
    rwa [g.load_ticks _ _ _ fun _ => rfl] at hload
  · intro w
    have hload := hticks.load_inWindow_le (by omega) w.toNat
    rwa [g.load_ticks _ (fun c => c.windowStartNs == w) _ ?_] at hload
    simp [inWindow, Bool.beq_eq_decide_eq, UInt64.toNat_inj]

theorem toNat_lt_of_ne_max {x : UInt64} (h : x ≠ 0xFFFFFFFFFFFFFFFF) : x.toNat < 2 ^ 64 - 1 := by
  have hx := x.toNat_lt
  have hne : x.toNat ≠ 2 ^ 64 - 1 := fun he => h (UInt64.toNat_inj.mp he)
  omega

theorem admitted_pps (calls : List FailsafeCall) :
    Gauge.pps.admitted calls = admittedPackets calls := by
  funext p
  simp only [Gauge.admitted, Gauge.pps, admittedPackets]
  rw [map_const', sum_replicate_nat, Nat.mul_one]

/-- Below the largest threshold the breaker admits at most the threshold in one
window and twice the threshold in any second, and once it drops it keeps
dropping. -/
theorem failsafe_admission {arrivals : List (UInt64 × PacketInfo)} {st : Kernel}
    {s : FailsafeState} (hs : st.failsafeState = some s)
    (hord : arrivals.Pairwise fun x y => x.1 ≤ y.1) :
    (s.ppsThreshold ≠ 0xFFFFFFFFFFFFFFFF →
      WindowBound (admittedPackets (failsafeCalls arrivals st)) s.ppsThreshold) ∧
    (s.bpsThreshold ≠ 0xFFFFFFFFFFFFFFFF →
      WindowBound (admittedBits (failsafeCalls arrivals st)) s.bpsThreshold) ∧
    (failsafeCalls arrivals st).Pairwise
      fun c d => c.verdict = some .drop → d.verdict = some .drop := by
  refine ⟨?_, ?_, failsafeCalls_latch arrivals hs⟩
  · intro hmax
    rw [← admitted_pps]
    exact Gauge.pps.windowBound hs hord (toNat_lt_of_ne_max hmax)
  · intro hmax
    exact Gauge.bps.windowBound hs hord (toNat_lt_of_ne_max hmax)

def withThresholds (ppsThr bpsThr : UInt64) : Kernel :=
  Command.run (Kernel.boot (fun k => [k.toNat]) (limits 1000 1000000))
    (.updateThresholds ppsThr bpsThr)

def burst : List (UInt64 × PacketInfo) :=
  [(5, icmpInfo 1 1 1 1), (5, icmpInfo 2 2 2 2), (7, icmpInfo 1 1 1 1),
    (1000000005, icmpInfo 1 1 1 1)]

theorem failsafe_admission_burst :
    WindowBound (admittedPackets (failsafeCalls burst (withThresholds 2 10000))) 2 ∧
      WindowBound (admittedBits (failsafeCalls burst (withThresholds 2 10000))) 10000 ∧
      (failsafeCalls burst (withThresholds 2 10000)).Pairwise
        fun c d => c.verdict = some .drop → d.verdict = some .drop := by
  have hord : burst.Pairwise fun x y => x.1 ≤ y.1 := by decide
  have hs : (withThresholds 2 10000).failsafeState = some _ := rfl
  obtain ⟨hpkts, hbits, hla⟩ := failsafe_admission hs hord
  exact ⟨hpkts (by decide), hbits (by decide), hla⟩

theorem FailsafeState.trip_of_unlimited (hpps : s.ppsThreshold = 0xFFFFFFFFFFFFFFFF)
    (hbps : s.bpsThreshold = 0xFFFFFFFFFFFFFFFF) (now : UInt64) : s.trip now = s := by
  have hmax : ∀ x : UInt64, ¬ 0xFFFFFFFFFFFFFFFF < x := by
    intro x hx
    have hlt := UInt64.lt_iff_toNat_lt.mp hx
    have hx' := x.toNat_lt
    simp only [UInt64.reduceToNat] at hlt
    omega
  rw [trip, if_neg]
  rintro ⟨-, h | h⟩
  · rw [hpps] at h
    exact hmax _ h
  · rw [hbps] at h
    exact hmax _ h

theorem Gauge.admitted_of_unlimited (g : Gauge) (n : Nat) (pkt : PacketInfo)
    (hs : st.failsafeState = some s) (hshut : s.circuitOpen = 0)
    (hpps : s.ppsThreshold = 0xFFFFFFFFFFFFFFFF) (hbps : s.bpsThreshold = 0xFFFFFFFFFFFFFFFF) :
    g.admitted (failsafeCalls (List.replicate n (0, pkt)) st)
      (fun c => 0 ≤ c.now.toNat && c.now.toNat < 0 + 1000000000) = n * g.weight pkt.pktLen := by
  induction n generalizing st s with
  | zero => exact (Nat.zero_mul _).symm
  | succ n ih =>
    obtain ⟨hnext, hverd⟩ := checkFailsafe_eq hs pkt 0
    have hp := (Gauge.pps.threshold_countPacket s pkt.pktLen 0).trans hpps
    have hb := (Gauge.bps.threshold_countPacket s pkt.pktLen 0).trans hbps
    have hc := (s.circuitOpen_countPacket pkt.pktLen 0).trans hshut
    rw [trip_of_unlimited hp hb] at hnext hverd
    rw [if_neg (not_not.mpr hc)] at hverd
    have hrest := ih hnext hc hp hb
    simp only [Gauge.admitted, replicate_succ, failsafeCalls] at hrest ⊢
    rw [filter_cons_of_pos (by simp [hverd]), map_cons, sum_cons, hrest,
      Nat.succ_mul, Nat.add_comm]

/-- Counters that saturate never exceed the largest threshold, however many
packets arrive at once. -/
theorem failsafe_admission_fails_unlimited :
    ¬ WindowBound (admittedPackets (failsafeCalls
      (List.replicate (2 ^ 65) (0, icmpInfo 1 1 1 1))
      (withThresholds 0xFFFFFFFFFFFFFFFF 0xFFFFFFFFFFFFFFFF))) 0xFFFFFFFFFFFFFFFF ∧
    ¬ WindowBound (admittedBits (failsafeCalls
      (List.replicate (2 ^ 65) (0, icmpInfo 1 1 1 1))
      (withThresholds 0xFFFFFFFFFFFFFFFF 0xFFFFFFFFFFFFFFFF))) 0xFFFFFFFFFFFFFFFF := by
  have hs : (withThresholds 0xFFFFFFFFFFFFFFFF 0xFFFFFFFFFFFFFFFF).failsafeState = some _ := rfl
  have hall := fun g : Gauge =>
    g.admitted_of_unlimited (2 ^ 65) (icmpInfo 1 1 1 1) hs rfl rfl rfl
  refine ⟨?_, ?_⟩
  · intro h
    have hle := h.interval 0
    rw [← admitted_pps, hall Gauge.pps] at hle
    exact absurd hle (by decide)
  · intro h
    have hle : Gauge.bps.admitted _ _ ≤ _ := h.interval 0
    rw [hall Gauge.bps] at hle
    exact absurd hle (by decide)

end Falx
