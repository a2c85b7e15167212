import Falx.Kernel
import Falx.Stage

/-! The drop pipeline of the XDP program, in the order of the source: bounds
check, parser, receive counters, non-IP traffic, circuit breaker, blocklists
behind the Bloom filter, SYN counter, token bucket, SYN flood heuristic. -/

namespace Falx

open Words

structure Clock where
  failsafe : UInt64
  blocklist : UInt64
  synCounter : UInt64
  rateLimit : UInt64
  synFlood : UInt64
  deriving DecidableEq

def Clock.instant (t : UInt64) : Clock := ⟨t, t, t, t, t⟩

structure Clock.Ordered (clk : Clock) : Prop where
  blocklist : clk.failsafe ≤ clk.blocklist
  synCounter : clk.blocklist ≤ clk.synCounter
  rateLimit : clk.synCounter ≤ clk.rateLimit
  synFlood : clk.rateLimit ≤ clk.synFlood

theorem Clock.instant_ordered (t : UInt64) : (Clock.instant t).Ordered :=
  ⟨UInt64.le_refl t, UInt64.le_refl t, UInt64.le_refl t, UInt64.le_refl t⟩

abbrev Verdict := XdpAction × Frame

def countDropped (pkt : PacketInfo) (st : Kernel) : Kernel :=
  st.bumpMapped fun m => { m with
    dropped := satAdd m.dropped 1
    droppedBytes := satAdd m.droppedBytes pkt.pktLen.toUInt64 }

def countPassed (pkt : PacketInfo) (st : Kernel) : Kernel :=
  st.bumpMapped fun m => { m with
    passed := satAdd m.passed 1
    passedBytes := satAdd m.passedBytes pkt.pktLen.toUInt64 }

def countReceived (pkt : PacketInfo) (st : Kernel) : Kernel :=
  st.bumpMapped fun m => { m with
    rxPackets := satAdd m.rxPackets 1
    rxBytes := satAdd m.rxBytes pkt.pktLen.toUInt64 }

def countRateLimited (st : Kernel) : Kernel :=
  st.bumpStat fun x => { x with rateLimited := satAdd x.rateLimited 1 }

def countIfDropped (pkt : PacketInfo) (v : Verdict) (st : Kernel) : Kernel :=
  if v.1 = .drop then countDropped pkt st else st

def failsafeStage (cfg : FalxMapConfig) (pkt : PacketInfo) (clk : Clock) (frame : Frame) :
    Stage Kernel Verdict :=
  Stage.guarded (fun _ => cfg.failsafeEnabled ≠ 0)
    ((Stage.mapVerdict (·, frame) (checkFailsafe pkt clk.failsafe)).onDecision
      (countIfDropped pkt))

def blocklistStage (pkt : PacketInfo) (clk : Clock) (frame : Frame) : Stage Kernel Verdict :=
  if pkt.isIpv6 = false then
    Stage.guarded (fun st => st.bloomFilter.contains pkt.srcIp = true)
      (Stage.onDecision (countIfDropped pkt) (checkBlocklistV4 frame pkt.srcIp clk.blocklist))
  else
    (Stage.mapVerdict (·, frame) (checkBlocklistV6 pkt.srcIp6 clk.blocklist)).onDecision
      (countIfDropped pkt)

def synCounterStage (pkt : PacketInfo) (clk : Clock) (frame : Frame) : Stage Kernel Verdict :=
  Stage.guarded (fun _ => pkt.protocol = Proto.tcp ∧ pkt.isIpv6 = false)
    ((Stage.mapVerdict (·, frame) (checkSynCounter pkt.srcIp pkt.tcpFlags clk.synCounter)).onDecision
      (fun _ st => countDropped pkt st))

def rateLimitStage (cfg : FalxMapConfig) (pkt : PacketInfo) (clk : Clock) (frame : Frame) :
    Stage Kernel Verdict :=
  Stage.guarded (fun _ => cfg.rateLimitEnabled ≠ 0 ∧ pkt.isIpv6 = false)
    ((Stage.mapVerdict (·, frame) (checkRateLimit pkt.srcIp cfg clk.rateLimit)).onDecision
      (fun _ st => countRateLimited st))

def synFloodStage (cfg : FalxMapConfig) (pkt : PacketInfo) (clk : Clock) (frame : Frame) :
    Stage Kernel Verdict :=
  Stage.guarded
    (fun _ => pkt.protocol = Proto.tcp ∧ TcpFlags.isSynOnly pkt.tcpFlags = true ∧
      cfg.rateLimitEnabled ≠ 0 ∧ pkt.isIpv6 = false)
    ((Stage.mapVerdict (·, frame) (checkSynFlood pkt.srcIp clk.rateLimit clk.synFlood)).onDecision
      (fun _ st => countRateLimited st))

def limiterStages (cfg : FalxMapConfig) (pkt : PacketInfo) (clk : Clock) (frame : Frame) :
    Stage Kernel Verdict :=
  (synCounterStage pkt clk frame).andThen
    ((rateLimitStage cfg pkt clk frame).andThen (synFloodStage cfg pkt clk frame))

def ipStages (cfg : FalxMapConfig) (pkt : PacketInfo) (clk : Clock) (frame : Frame) :
    Stage Kernel Verdict :=
  (failsafeStage cfg pkt clk frame).andThen
    ((blocklistStage pkt clk frame).andThen (limiterStages cfg pkt clk frame))

def processPacket (clk : Clock) (frame : Frame) (st : Kernel) : Verdict × Kernel :=
  if frame.length < 14 then ((.drop, frame), st)
  else
    match parsePacket frame with
    | none =>
      ((.drop, frame), st.bumpStat fun x => { x with parseErrors := satAdd x.parseErrors 1 })
    | some pkt =>
      let st := countReceived pkt st
      -- the source address 0 stands for "not an IP packet"
      if pkt.srcIp = 0 ∧ pkt.isIpv6 = false then ((.pass, frame), countPassed pkt st)
      else
        match ipStages st.readConfig pkt clk frame st with
        | (some v, st) => (v, st)
        | (none, st) => ((.pass, frame), countPassed pkt st)

def PacketInfo.Screened (pkt : PacketInfo) : Prop := ¬ (pkt.srcIp = 0 ∧ pkt.isIpv6 = false)

variable {clk : Clock} {frame : Frame} {st : Kernel} {pkt : PacketInfo}

section

variable (hp : parsePacket frame = some pkt)

include hp

theorem processPacket_eq (hs : pkt.Screened) :
    processPacket clk frame st =
      match ipStages st.readConfig pkt clk frame (countReceived pkt st) with
      | (some v, st) => (v, st)
      | (none, st) => ((.pass, frame), countPassed pkt st) := by
  simp only [processPacket, if_neg (parsePacket_length hp), hp, if_neg (show ¬ (_ ∧ _) from hs)]
  rfl

theorem processPacket_of_not_screened (hs : ¬ pkt.Screened) :
    processPacket clk frame st = ((.pass, frame), countPassed pkt (countReceived pkt st)) := by
  have h0 : pkt.srcIp = 0 ∧ pkt.isIpv6 = false := Classical.not_not.mp hs
  simp only [processPacket, if_neg (parsePacket_length hp), hp, if_pos h0]

theorem processPacket_of_decided {st' : Kernel} {v : Verdict} (hs : pkt.Screened)
    (hd : ipStages st.readConfig pkt clk frame (countReceived pkt st) = (some v, st')) :
    processPacket clk frame st = (v, st') := by
  rw [processPacket_eq hp hs, hd]

end

section Respects

variable {Q : Kernel → Bool → Kernel → Prop}

/-- A relation between the states around a stage, given whether the stage
decided, for which the statistics maps do not matter. -/
structure StatsBlind (Q : Kernel → Bool → Kernel → Prop) : Prop where
  refl : ∀ x b, Q x b x
  trans : ∀ x y z b, Q x false y → Q y b z → Q x b z
  mapped : ∀ x b y f, Q x b y → Q x b (Kernel.bumpMapped y f)
  stat : ∀ x b y f, Q x b y → Q x b (Kernel.bumpStat y f)

section

variable (hQ : StatsBlind Q)

include hQ

theorem StatsBlind.countIfDropped (pkt : PacketInfo) (v : Verdict)
    (x : Kernel) (b : Bool) (y : Kernel) (h : Q x b y) : Q x b (countIfDropped pkt v y) := by
  simp only [Falx.countIfDropped]
  split
  · exact hQ.mapped _ _ _ _ h
  · exact h

theorem checkBlocklistV4_respects (frame : Frame) (srcIp : UInt32)
    (now : UInt64) : Stage.Respects Q (checkBlocklistV4 frame srcIp now) := by
  intro x
  simp only [checkBlocklistV4]
  split
  · exact hQ.refl _ _
  · split
    · exact hQ.refl _ _
    · split
      · exact hQ.stat _ _ _ _ (hQ.refl _ _)
      · split
        · exact hQ.stat _ _ _ _ (hQ.refl _ _)
        · exact hQ.refl _ _

theorem checkBlocklistV6_respects (srcIp6 : Ipv6Addr) (now : UInt64) :
    Stage.Respects Q (checkBlocklistV6 srcIp6 now) := by
  intro x
  simp only [checkBlocklistV6]
  split
  · exact hQ.refl _ _
  · split
    · exact hQ.refl _ _
    · split
      · exact hQ.stat _ _ _ _ (hQ.refl _ _)
      · exact hQ.refl _ _

theorem blocklistStage_respects (pkt : PacketInfo) (clk : Clock)
    (frame : Frame) : Stage.Respects Q (blocklistStage pkt clk frame) := by
  simp only [blocklistStage]
  split
  · exact Stage.Respects.guarded (hQ.refl · _) fun x _ =>
      (checkBlocklistV4_respects hQ _ _ _).onDecision (hQ.countIfDropped pkt) x
  · exact ((checkBlocklistV6_respects hQ _ _).mapVerdict _).onDecision (hQ.countIfDropped pkt)

end

/-- What the checks that write the maps have to establish for one packet. -/
structure ChecksRespect (Q : Kernel → Bool → Kernel → Prop) (cfg : FalxMapConfig)
    (pkt : PacketInfo) (clk : Clock) : Prop where
  failsafe : Stage.Respects Q (checkFailsafe pkt clk.failsafe)
  synCounter : pkt.isIpv6 = false →
    Stage.Respects Q (checkSynCounter pkt.srcIp pkt.tcpFlags clk.synCounter)
  rateLimit : pkt.isIpv6 = false →
    Stage.Respects Q (checkRateLimit pkt.srcIp cfg clk.rateLimit)
  synFlood : pkt.isIpv6 = false →
    Stage.Respects Q (checkSynFlood pkt.srcIp clk.rateLimit clk.synFlood)

variable {cfg : FalxMapConfig} {pkt : PacketInfo} {clk : Clock}

section

variable (hQ : StatsBlind Q)

include hQ

theorem limiterStages_respects (frame : Frame)
    (h : ChecksRespect Q cfg pkt clk) : Stage.Respects Q (limiterStages cfg pkt clk frame) := by
  refine Stage.Respects.andThen hQ.trans ?_ (Stage.Respects.andThen hQ.trans ?_ ?_)
  · exact Stage.Respects.guarded (hQ.refl · _) fun x hx =>
      ((h.synCounter hx.2).mapVerdict _).onDecision (fun _ _ _ _ => hQ.mapped _ _ _ _) x
  · exact Stage.Respects.guarded (hQ.refl · _) fun x hx =>
      ((h.rateLimit hx.2).mapVerdict _).onDecision (fun _ _ _ _ => hQ.stat _ _ _ _) x
  · exact Stage.Respects.guarded (hQ.refl · _) fun x hx =>
      ((h.synFlood hx.2.2.2).mapVerdict _).onDecision (fun _ _ _ _ => hQ.stat _ _ _ _) x

theorem failsafeStage_respects (cfg : FalxMapConfig) (frame : Frame)
    (h : Stage.Respects Q (checkFailsafe pkt clk.failsafe)) :
    Stage.Respects Q (failsafeStage cfg pkt clk frame) :=
  Stage.Respects.guarded (hQ.refl · _) fun x _ =>
    (h.mapVerdict _).onDecision (hQ.countIfDropped pkt) x

theorem ipStages_respects (frame : Frame) (h : ChecksRespect Q cfg pkt clk) :
    Stage.Respects Q (ipStages cfg pkt clk frame) :=
  (failsafeStage_respects hQ cfg frame h.failsafe).andThen hQ.trans
    ((blocklistStage_respects hQ pkt clk frame).andThen hQ.trans
      (limiterStages_respects hQ frame h))

theorem processPacket_respects {frame : Frame} {st : Kernel}
    (h : ∀ pkt, parsePacket frame = some pkt → pkt.Screened →
      ChecksRespect Q st.readConfig pkt clk) :
    ∃ b, Q st b (processPacket clk frame st).2 := by
  by_cases hlen : frame.length < 14
  · exact ⟨true, by simpa only [processPacket, if_pos hlen] using hQ.refl st true⟩
  · cases hp : parsePacket frame with
    | none =>
      refine ⟨true, ?_⟩
      simpa only [processPacket, if_neg hlen, hp] using hQ.stat _ _ _ _ (hQ.refl st true)
    | some pkt =>
      have hrx : Q st false (countReceived pkt st) := hQ.mapped _ _ _ _ (hQ.refl _ _)
      have hpass : ∀ x y, Q x false y → Q x false (countPassed pkt y) :=
        fun x y hxy => hQ.mapped _ _ _ _ hxy
      by_cases hs : pkt.srcIp = 0 ∧ pkt.isIpv6 = false
      · refine ⟨false, ?_⟩
        rw [processPacket_of_not_screened hp (not_not.mpr hs)]
        exact hpass _ _ hrx
      · have hst := ipStages_respects hQ frame (h pkt hp hs) (countReceived pkt st)
        rw [processPacket_eq hp hs]
        split <;> rename_i he <;> rw [he] at hst
        · exact ⟨true, hQ.trans _ _ _ _ hrx hst⟩
        · exact ⟨false, hpass _ _ (hQ.trans _ _ _ _ hrx hst)⟩

end

end Respects

section Triples

variable {I J K L M : Kernel → Prop}

structure StatsFree (I : Kernel → Prop) : Prop where
  mapped : ∀ x f, I x → I (Kernel.bumpMapped x f)
  stat : ∀ x f, I x → I (Kernel.bumpStat x f)

theorem StatsFree.blind (h : StatsFree I) : StatsBlind (fun x _ y => I x → I y) where
  refl _ _ hx := hx
  trans _ _ _ _ hxy hyz hx := hyz (hxy hx)
  mapped _ _ _ f hxy hx := h.mapped _ f (hxy hx)
  stat _ _ _ f hxy hx := h.stat _ f (hxy hx)

variable {pkt : PacketInfo} {clk : Clock} {cfg : FalxMapConfig} {frame : Frame} {st : Kernel}

theorem ipStages_triple (hI : StatsFree I) (hK : ∀ x, I x → K x)
    (hfail : Stage.Respects (fun x _ y => I x → I y) (checkFailsafe pkt clk.failsafe))
    (hsyn : Stage.Triple I (synCounterStage pkt clk frame) J K)
    (hrate : Stage.Triple J (rateLimitStage cfg pkt clk frame) L K)
    (hfl : Stage.Triple L (synFloodStage cfg pkt clk frame) M K) :
    Stage.Triple I (ipStages cfg pkt clk frame) M K :=
  (Stage.Triple.of_respects (failsafeStage_respects hI.blind cfg frame hfail) hK).andThen
    ((Stage.Triple.of_respects (blocklistStage_respects hI.blind pkt clk frame) hK).andThen
      (hsyn.andThen (hrate.andThen hfl)))

theorem processPacket_post_of_screened (hI : StatsFree I) (hJ : StatsFree J)
    (hp : parsePacket frame = some pkt) (hs : pkt.Screened)
    (h : Stage.Triple I (ipStages st.readConfig pkt clk frame) J J) (hst : I st) :
    J (processPacket clk frame st).2 := by
  have hrx : I (countReceived pkt st) := hI.mapped st _ hst
  have hpost := h.post hrx
  rw [processPacket_eq hp hs]
  split <;> rename_i he <;> rw [he] at hpost
  · exact hpost
  · exact hJ.mapped _ _ hpost

theorem processPacket_post (hI : StatsFree I) (hJ : StatsFree J) (hskip : ∀ x, I x → J x)
    (h : ∀ pkt, parsePacket frame = some pkt → pkt.Screened →
      Stage.Triple I (ipStages st.readConfig pkt clk frame) J J)
    (hst : I st) : J (processPacket clk frame st).2 := by
  by_cases hlen : frame.length < 14
  · simpa only [processPacket, if_pos hlen] using hskip st hst
  · cases hp : parsePacket frame with
    | none =>
      simpa only [processPacket, if_neg hlen, hp] using hskip _ (hI.stat st _ hst)
    | some pkt =>
      by_cases hs : pkt.Screened
      · exact processPacket_post_of_screened hI hJ hp hs (h pkt hp hs) hst
      · rw [processPacket_of_not_screened hp hs]
        exact hJ.mapped _ _ (hskip _ (hI.mapped st _ hst))

end Triples

end Falx
