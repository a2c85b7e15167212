import Falx.BloomGate
import Falx.CircuitAgreement

/-! The open circuit against IP traffic. Traffic without a source address is
taken for non-IP and passed before the circuit is looked at, so the one IP
source that an open circuit does not stop is 0.0.0.0. -/

namespace Falx

open Words

variable {frame : Frame} {pkt : PacketInfo}

theorem FromAddr.srcIp_eq_zero_iff {addr : List UInt8} (h : FromAddr addr frame pkt) :
    pkt.srcIp = 0 ↔ addr = [0, 0, 0, 0] := by
  have hzero : bytes32 0 = [0, 0, 0, 0] := by decide
  constructor
  · intro h0
    rw [← h.srcIp_eq, h0, hzero]
  · intro ha
    apply bytes32_injective
    rw [h.srcIp_eq, ha, hzero]

theorem screened_iff (hp : parsePacket frame = some pkt)
    (hip : etherType frame = EtherType.ipv4 ∨ etherType frame = EtherType.ipv6) :
    pkt.Screened ↔ etherType frame = EtherType.ipv6 ∨ sourceBytes frame ≠ [0, 0, 0, 0] := by
  rcases parsePacket_cases hp with ⟨h4, hv, -⟩ | ⟨h6, hv⟩ | ⟨h4, h6, -⟩
  · have hsrc := FromAddr.srcIp_eq_zero_iff ⟨hp, h4, rfl⟩
    have hne : etherType frame ≠ EtherType.ipv6 := by
      rw [h4]
      decide
    simp [PacketInfo.Screened, hv, hsrc, hne]
  · simp [PacketInfo.Screened, hv, h6]
  · rcases hip with h | h
    · exact absurd h h4
    · exact absurd h h6

/-- With the circuit open, an accepted IP frame is dropped exactly when it is an
IPv6 frame or its source is not 0.0.0.0. -/
theorem openCircuit_drop_iff {clk : Clock} {frame : Frame} {st : Kernel} {pkt : PacketInfo}
    {s : FailsafeState} (hp : parsePacket frame = some pkt)
    (hip : etherType frame = EtherType.ipv4 ∨ etherType frame = EtherType.ipv6)
    (hcfg : st.readConfig.failsafeEnabled ≠ 0) (hs : st.failsafeState = some s)
    (hopen : s.circuitOpen ≠ 0) : (processPacket clk frame st).1.1 = .drop ↔
      etherType frame = EtherType.ipv6 ∨ sourceBytes frame ≠ [0, 0, 0, 0] := by
  rw [← screened_iff hp hip]
  constructor
  · intro hdrop
    by_contra hscr
    rw [processPacket_of_not_screened hp hscr] at hdrop
    exact absurd hdrop (show XdpAction.pass ≠ .drop by decide)
  · intro hscr
    exact processPacket_drop_of_open hp hscr hcfg hs hopen

def openCircuit : FailsafeState where
  circuitOpen := 1
  currentPps := 0
  currentBps := 0
  openSinceNs := 0
  ppsThreshold := 100
  bpsThreshold := 1000000
  windowStartNs := 0

def openKernel : Kernel :=
  { Kernel.boot (fun k => [k.toNat]) zeroCapacity with failsafeState := some openCircuit }

theorem openCircuit_drop_iff_icmpFrame :
    (processPacket (.instant 1) (icmpFrame 1 1 1 1) openKernel).1.1 = .drop ↔
      etherType (icmpFrame 1 1 1 1) = EtherType.ipv6 ∨
        sourceBytes (icmpFrame 1 1 1 1) ≠ [0, 0, 0, 0] :=
  openCircuit_drop_iff (parsePacket_icmpFrame 1 1 1 1) (.inl (etherType_icmpFrame 1 1 1 1))
    (by decide) rfl (by decide)

theorem openCircuit_passes_zeroSource :
    parsePacket (icmpFrame 0 0 0 0) = some (icmpInfo 0 0 0 0) ∧
      etherType (icmpFrame 0 0 0 0) = EtherType.ipv4 ∧
      openKernel.readConfig.failsafeEnabled ≠ 0 ∧
      openKernel.failsafeState = some openCircuit ∧ openCircuit.circuitOpen ≠ 0 ∧
      (processPacket (.instant 1) (icmpFrame 0 0 0 0) openKernel).1.1 = .pass := by
  refine ⟨parsePacket_icmpFrame 0 0 0 0, etherType_icmpFrame 0 0 0 0, by decide, rfl, by decide, ?_⟩
  decide +kernel

/-- The command neither closes the circuit nor turns the circuit breaker off. -/
def Command.KeepsOpen : Command → Prop
  | setCircuitOpen isOpen _ => isOpen = true
  | updateConfig cfg => cfg.failsafeEnabled ≠ 0
  | _ => True

structure Kernel.Tripped (st : Kernel) : Prop where
  enabled : st.readConfig.failsafeEnabled ≠ 0
  opened : ∃ s, st.failsafeState = some s ∧ s.circuitOpen ≠ 0

theorem Kernel.Tripped.run {st : Kernel} {c : Command} (h : st.Tripped) (hc : c.KeepsOpen) :
    (c.run st).Tripped := by
  obtain ⟨hen, s, hs, hopen⟩ := h
  cases c with
  | packet clk frame =>
    refine ⟨by rwa [Command.run, processPacket_config], ?_⟩
    rcases processPacket_failsafeState clk frame st with hk | ⟨pkt, -, -, -, hk⟩
    · exact ⟨s, hk.trans hs, hopen⟩
    · rw [hs] at hk
      exact ⟨_, hk, FailsafeState.circuitOpen_trip_ne hopen _ _⟩
  | setCircuitOpen isOpen nowNano =>
    cases show isOpen = true from hc
    exact ⟨hen, _, congrArg (Option.map (Falx.setCircuitOpen true nowNano)) hs,
      show (1 : UInt8) ≠ 0 by decide⟩
  | updateThresholds ppsThr bpsThr =>
    exact ⟨hen, _, congrArg (Option.map (updateFailsafeThresholds ppsThr bpsThr)) hs, hopen⟩
  | updateConfig cfg => exact ⟨hc, s, hs, hopen⟩
  | resetRateBucket ip =>
    simp only [Command.run]
    split <;> exact ⟨hen, s, hs, hopen⟩
  | _ => exact ⟨hen, s, hs, hopen⟩

end Falx
