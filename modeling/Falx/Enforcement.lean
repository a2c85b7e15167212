import Falx.System

/-! When a packet is dropped. An open circuit drops everything that gets past the
test for non-IP traffic; otherwise an unexpired DROP entry behind the Bloom
filter does, and then the packet leaves the tables alone. -/

namespace Falx

open FailsafeState Stage

theorem checkFailsafe_verdict (pkt : PacketInfo) (now : UInt64) (x : Kernel) :
    (checkFailsafe pkt now x).1 = none ∨ (checkFailsafe pkt now x).1 = some .drop := by
  simp only [checkFailsafe]
  split
  · exact .inl rfl
  · split
    · exact .inr rfl
    · exact .inl rfl

theorem failsafeStage_verdict (cfg : FalxMapConfig) (pkt : PacketInfo) (clk : Clock)
    (frame : Frame) (x : Kernel) : (failsafeStage cfg pkt clk frame x).1 = none ∨
      (failsafeStage cfg pkt clk frame x).1 = some (.drop, frame) := by
  by_cases hf : cfg.failsafeEnabled ≠ 0
  · simp only [failsafeStage, guarded, if_pos hf, onDecision_fst, mapVerdict]
    rcases checkFailsafe_verdict pkt clk.failsafe x with h | h
    · exact .inl (by rw [h]; rfl)
    · exact .inr (by rw [h]; rfl)
  · exact .inl (by simp only [failsafeStage, guarded, if_neg hf])

theorem FailsafeState.countPacket_eq (s : FailsafeState) (pktLen : UInt32) (now : UInt64) :
    s.countPacket pktLen now = { s with
      currentPps := (s.countPacket pktLen now).currentPps
      currentBps := (s.countPacket pktLen now).currentBps
      windowStartNs := (s.countPacket pktLen now).windowStartNs } := by
  simp only [countPacket]
  split <;> rfl

theorem FailsafeState.trip_eq (s : FailsafeState) (now : UInt64) :
    s.trip now = { s with
      circuitOpen := (s.trip now).circuitOpen
      openSinceNs := (s.trip now).openSinceNs } := by
  simp only [trip]
  split <;> rfl

theorem FailsafeState.circuitOpen_countPacket (s : FailsafeState) (pktLen : UInt32)
    (now : UInt64) : (s.countPacket pktLen now).circuitOpen = s.circuitOpen := by
  rw [countPacket_eq]

variable {s : FailsafeState} {pkt : PacketInfo} {x st : Kernel} {clk : Clock} {frame : Frame}
  {entry : BlockEntry}

theorem FailsafeState.circuitOpen_trip_ne (h : s.circuitOpen ≠ 0) (pktLen : UInt32) (now : UInt64) :
    ((s.countPacket pktLen now).trip now).circuitOpen ≠ 0 := by
  have hc := s.circuitOpen_countPacket pktLen now
  rw [trip, if_neg (by simp [hc, h]), hc]
  exact h

theorem checkFailsafe_of_open {now : UInt64} (hs : x.failsafeState = some s)
    (hopen : s.circuitOpen ≠ 0) : (checkFailsafe pkt now x).1 = some .drop := by
  have ht := circuitOpen_trip_ne hopen pkt.pktLen now
  simp only [checkFailsafe, hs, if_pos ht]

theorem processPacket_drop_of_open (hp : parsePacket frame = some pkt) (hscr : pkt.Screened)
    (hcfg : st.readConfig.failsafeEnabled ≠ 0) (hs : st.failsafeState = some s)
    (hopen : s.circuitOpen ≠ 0) : (processPacket clk frame st).1.1 = .drop := by
  have hf : (failsafeStage st.readConfig pkt clk frame (countReceived pkt st)).1 =
      some (.drop, frame) := by
    have hx : (countReceived pkt st).failsafeState = some s := hs
    simp only [failsafeStage, guarded, if_pos hcfg, onDecision_fst,
      mapVerdict, checkFailsafe_of_open hx hopen, Option.map_some]
  have hd : ipStages st.readConfig pkt clk frame (countReceived pkt st) =
      (some (.drop, frame), _) := (andThen_of_some hf).trans (Prod.ext hf rfl)
  rw [processPacket_of_decided hp hscr hd]

theorem blocklistStage_drop (h4 : pkt.isIpv6 = false) (hb : x.bloomFilter.contains pkt.srcIp = true)
    (he : x.blocklistV4 pkt.srcIp = some entry) (ha : entry.action = Action.drop)
    (hx : entry.expired (clk.blocklist / nsPerSec) = false) :
    (blocklistStage pkt clk frame x).1 = some (.drop, frame) := by
  rw [blocklistStage, if_pos h4, guarded, if_pos hb]
  refine (onDecision_fst _ _ _).trans ?_
  simp only [checkBlocklistV4, he, hx, Bool.false_eq_true, if_false, if_pos ha]

theorem processPacket_drop_of_entry (hp : parsePacket frame = some pkt) (h4 : pkt.isIpv6 = false)
    (h0 : pkt.srcIp ≠ 0) (hb : st.bloomFilter.contains pkt.srcIp = true)
    (he : st.blocklistV4 pkt.srcIp = some entry) (ha : entry.action = Action.drop)
    (hx : entry.expired (clk.blocklist / nsPerSec) = false) :
    (processPacket clk frame st).1.1 = .drop ∧
      Quiet pkt.srcIp st (processPacket clk frame st).2 := by
  have hscr : pkt.Screened := fun h => h0 h.1
  let x := countReceived pkt st
  have hrx : Quiet pkt.srcIp st x := Quiet.bumpMapped _ _ _
  have hq := failsafeStage_respects (quiet_statsBlind pkt.srcIp) st.readConfig frame
    (checkFailsafe_quiet pkt.srcIp pkt clk.failsafe) x
  rcases failsafeStage_verdict st.readConfig pkt clk frame x with hf | hf
  · let y := (failsafeStage st.readConfig pkt clk frame x).2
    have hy : (blocklistStage pkt clk frame y).1 = some (.drop, frame) :=
      blocklistStage_drop h4 (by rw [hq.bloomFilter]; exact hb)
        (by rw [hq.blocklistV4]; exact he) ha hx
    have hqy := blocklistStage_respects (quiet_statsBlind pkt.srcIp) pkt clk frame y
    have hd : ipStages st.readConfig pkt clk frame x =
        (some (.drop, frame), (blocklistStage pkt clk frame y).2) :=
      (andThen_of_none hf).trans ((andThen_of_some hy).trans (Prod.ext hy rfl))
    rw [processPacket_of_decided hp hscr hd]
    exact ⟨rfl, hrx.trans (hq.trans hqy)⟩
  · have hd : ipStages st.readConfig pkt clk frame x =
        (some (.drop, frame), (failsafeStage st.readConfig pkt clk frame x).2) :=
      (andThen_of_some hf).trans (Prod.ext hf rfl)
    rw [processPacket_of_decided hp hscr hd]
    exact ⟨rfl, hrx.trans hq⟩

end Falx
