import Falx.Effect
import Falx.Manager

/-! The whole system: packets, calls of the control plane, sweeps and evictions
in any order, all acting on the same maps. Calls that fail leave the maps as
they are. -/

namespace Falx

open Function

inductive Command where
  | packet (clk : Clock) (frame : Frame)
  | block (env : CallEnv) (ip : NetIP) (entry : BlockEntry)
  | blockBatch (allowed : Bool) (ds : List (CallEnv × BlockDecision))
  | unblock (env : CallEnv) (ip : NetIP)
  | blockV6 (env : CallEnv) (ip : NetIP) (entry : BlockEntry)
  | unblockV6 (env : CallEnv) (ip : NetIP)
  | sweep (nowSec : UInt64) (keys : List UInt32) (keys6 : List Ipv6Addr)
  | evict (key : UInt32)
  | updateConfig (cfg : FalxMapConfig)
  | setCircuitOpen (isOpen : Bool) (nowNano : UInt64)
  | updateThresholds (ppsThr bpsThr : UInt64)
  | resetRateBucket (ip : NetIP)

def Command.run (st : Kernel) : Command → Kernel
  | packet clk frame => (processPacket clk frame st).2
  | block env ip entry => { st with blocklistV4 := (blockIPv4 env ip entry st.blocklistV4).2 }
  | blockBatch allowed ds =>
    { st with blocklistV4 := (blockIPv4Batch allowed ds st.blocklistV4).2 }
  | unblock env ip => { st with blocklistV4 := (unblockIPv4 env ip st.blocklistV4).2 }
  | blockV6 env ip entry => { st with blocklistV6 := (blockIPv6 env ip entry st.blocklistV6).2 }
  | unblockV6 env ip => { st with blocklistV6 := (unblockIPv6 env ip st.blocklistV6).2 }
  | sweep nowSec keys keys6 =>
    { st with
      blocklistV4 := sweepBlocklistV4 nowSec keys st.blocklistV4
      blocklistV6 := sweepBlocklistV6 nowSec keys6 st.blocklistV6 }
  | evict key => { st with blocklistV4 := Function.update st.blocklistV4 key none }
  | updateConfig cfg => { st with config := some cfg }
  | setCircuitOpen isOpen nowNano =>
    { st with failsafeState := st.failsafeState.map (Falx.setCircuitOpen isOpen nowNano) }
  | updateThresholds ppsThr bpsThr =>
    { st with failsafeState := st.failsafeState.map (updateFailsafeThresholds ppsThr bpsThr) }
  | resetRateBucket ip =>
    match ipv4ToUint32 ip with
    | none => st
    | some key => { st with rateLimit := Function.update st.rateLimit key none }

def runAll (cs : List Command) (st : Kernel) : Kernel := cs.foldl Command.run st

def runPackets (ps : List (Clock × Frame)) (st : Kernel) : Kernel :=
  ps.foldl (fun st p => (processPacket p.1 p.2 st).2) st

/-- The state of freshly created maps, with the defaults of the source. -/
def Kernel.boot (hashes : UInt32 → List Nat) (cfg : FalxMapConfig) : Kernel where
  blocklistV4 _ := none
  blocklistV6 _ := none
  bloomFilter := ⟨hashes, []⟩
  coolingTracker _ := none
  synCounter _ := none
  rateLimit _ := none
  mappedXdpStats := some ⟨0, 0, 0, 0, 0, 0⟩
  xdpStats := some ⟨0, 0, 0, 0, 0, 0, 0, 0, 0, 0, 0, 0⟩
  failsafeState := some {
    circuitOpen := 0
    currentPps := 0
    currentBps := 0
    openSinceNs := 0
    ppsThreshold := 500000
    bpsThreshold := 10000000000
    windowStartNs := 0 }
  config := some cfg
  honeypotTargets _ := none
  honeypotActive := none
  history := []

def limits (capacity refillNs : UInt64) : FalxMapConfig where
  defaultAction := Action.pass
  rateLimitEnabled := 1
  failsafeEnabled := 1
  afxdpRedirect := 0
  rateCapacity := capacity
  rateRefillNs := refillNs
  honeypotIp := 0
  honeypotPort := 0

theorem runPackets_cons (p : Clock × Frame) (ps : List (Clock × Frame)) (st : Kernel) :
    runPackets (p :: ps) st = runPackets ps (processPacket p.1 p.2 st).2 := rfl

theorem runPackets_append (ps qs : List (Clock × Frame)) (st : Kernel) :
    runPackets (ps ++ qs) st = runPackets qs (runPackets ps st) :=
  List.foldl_append

theorem runPackets_history (ps : List (Clock × Frame)) (st : Kernel) :
    ∃ es, (runPackets ps st).history = es ++ st.history := by
  induction ps generalizing st with
  | nil => exact ⟨[], rfl⟩
  | cons p ps ih =>
    obtain ⟨es₁, he₁⟩ := processPacket_history p.1 p.2 st
    obtain ⟨es₂, he₂⟩ := ih (processPacket p.1 p.2 st).2
    exact ⟨es₂ ++ es₁, by rw [runPackets_cons, he₂, he₁, List.append_assoc]⟩

section Tables

variable {m : BlocklistV4}

theorem blockDecisions_apply (ds : List (CallEnv × BlockDecision)) (k : UInt32) :
    (blockDecisions ds m).2 k = m k ∨
      ∃ p ∈ ds, ipv4ToUint32 p.2.ip = some k ∧
        (blockDecisions ds m).2 k = some (absoluteExpiry p.1.now p.2.entry) := by
  induction ds generalizing m with
  | nil => exact .inl rfl
  | cons x ds ih =>
    obtain ⟨env, d⟩ := x
    have skip : ∀ {m' : BlocklistV4}, m' k = m k →
        (blockDecisions ds m').2 k = m k ∨
          ∃ p ∈ (env, d) :: ds, ipv4ToUint32 p.2.ip = some k ∧
            (blockDecisions ds m').2 k = some (absoluteExpiry p.1.now p.2.entry) := by
      intro m' hm'
      rcases ih (m := m') with h | ⟨p, hp, h⟩
      · exact .inl (h.trans hm')
      · exact .inr ⟨p, .tail _ hp, h⟩
    simp only [blockDecisions]
    cases hkey : ipv4ToUint32 d.ip with
    | none => exact skip rfl
    | some key =>
      cases env.mapErr with
      | some err => exact skip rfl
      | none =>
        by_cases hk : k = key
        · subst hk
          rcases ih (m := update m k (some (absoluteExpiry env.now d.entry)))
            with h | ⟨p, hp, h⟩
          · refine .inr ⟨(env, d), by simp, hkey, h.trans ?_⟩
            exact update_self _ _ _
          · exact .inr ⟨p, .tail _ hp, h⟩
        · exact skip (update_of_ne hk _ _)

theorem blockIPv4Batch_apply (allowed : Bool) (ds : List (CallEnv × BlockDecision)) (k : UInt32) :
    (blockIPv4Batch allowed ds m).2 k = m k ∨
      ∃ p ∈ ds, ipv4ToUint32 p.2.ip = some k ∧
        (blockIPv4Batch allowed ds m).2 k = some (absoluteExpiry p.1.now p.2.entry) := by
  simp only [blockIPv4Batch]
  split
  · exact .inl rfl
  · exact blockDecisions_apply ds k

end Tables

theorem Command.run_blocklistV4 (st : Kernel) (c : Command) (k : UInt32)
    (hc : ∀ clk frame, c ≠ .packet clk frame) :
    (c.run st).bloomFilter = st.bloomFilter ∧
    ((c.run st).blocklistV4 k = st.blocklistV4 k ∨ (c.run st).blocklistV4 k = none ∨
      (∃ env ip entry, c = .block env ip entry ∧ ipv4ToUint32 ip = some k ∧
        (c.run st).blocklistV4 k = some (absoluteExpiry env.now entry)) ∨
      ∃ allowed ds p, c = .blockBatch allowed ds ∧ p ∈ ds ∧ ipv4ToUint32 p.2.ip = some k ∧
        (c.run st).blocklistV4 k = some (absoluteExpiry p.1.now p.2.entry)) := by
  cases c with
  | packet clk frame => exact absurd rfl (hc clk frame)
  | block env ip entry =>
    refine ⟨rfl, ?_⟩
    rcases blockIPv4_apply env ip entry k with h | ⟨hk, h⟩
    · exact .inl h
    · exact .inr (.inr (.inl ⟨env, ip, entry, rfl, hk, h⟩))
  | blockBatch allowed ds =>
    refine ⟨rfl, ?_⟩
    rcases blockIPv4Batch_apply allowed ds k with h | ⟨p, hp, hk, h⟩
    · exact .inl h
    · exact .inr (.inr (.inr ⟨allowed, ds, p, rfl, hp, hk, h⟩))
  | unblock env ip =>
    refine ⟨rfl, ?_⟩
    rcases unblockIPv4_apply env ip k with h | ⟨hk, h⟩
    · exact .inl h
    · exact .inr (.inl h)
  | sweep nowSec keys keys6 =>
    refine ⟨rfl, ?_⟩
    have h := sweepBlocklist_apply nowSec keys st.blocklistV4 k
    by_cases hk : k ∈ keys ∧ isExpiredIn st.blocklistV4 nowSec k = true
    · exact .inr (.inl (h.trans (if_pos hk)))
    · exact .inl (h.trans (if_neg hk))
  | evict key =>
    refine ⟨rfl, ?_⟩
    by_cases hk : k = key
    · subst hk
      exact .inr (.inl (update_self _ _ _))
    · exact .inl (update_of_ne hk _ _)
  | resetRateBucket ip =>
    simp only [Command.run]
    split
    · exact ⟨rfl, .inl rfl⟩
    · exact ⟨rfl, .inl rfl⟩
  | _ => exact ⟨rfl, .inl rfl⟩

end Falx
