import Falx.ProcessPacket

/-! What one run of the XDP program adds to the counters that the control plane reads.
A frame that parses is counted as received and ends in one of six ways. A redirect that
fails is counted as redirected and as dropped. -/

namespace Falx

open Words Kernel

inductive Counter where
  | rxPackets
  | passed
  | dropped
  | rateLimited
  | redirected
  | failsafeDrops
  deriving DecidableEq

def Kernel.count (st : Kernel) : Counter → Option UInt64
  | .rxPackets => st.mappedXdpStats.map (·.rxPackets)
  | .passed => st.mappedXdpStats.map (·.passed)
  | .dropped => st.mappedXdpStats.map (·.dropped)
  | .rateLimited => st.xdpStats.map (·.rateLimited)
  | .redirected => st.xdpStats.map (·.redirected)
  | .failsafeDrops => st.xdpStats.map (·.failsafeDrops)

inductive Outcome where
  | unparsed
  | passed
  | dropped
  | tripped
  | limited
  | redirected
  | refused
  deriving DecidableEq

namespace Outcome

def action : Outcome → XdpAction
  | passed => .pass
  | redirected => .tx
  | unparsed | dropped | tripped | limited | refused => .drop

def counters : Outcome → List Counter
  | unparsed => []
  | passed => [.passed]
  | dropped => [.dropped]
  | tripped => [.failsafeDrops, .dropped]
  | limited => [.rateLimited]
  | redirected => [.redirected]
  | refused => [.redirected, .dropped]

def counts : Outcome → List Counter
  | unparsed => []
  | o => .rxPackets :: o.counters

end Outcome

def Adds (cs : List Counter) (x y : Kernel) : Prop :=
  ∀ c v, x.count c = some v →
    ∃ w, y.count c = some w ∧ w.toNat = min (v.toNat + cs.count c) (2 ^ 64 - 1)

section Adds

variable {cs cs' : List Counter} {x y z : Kernel}

theorem Adds.of_eq (h : ∀ c, y.count c = x.count c) : Adds [] x y := by
  intro c v hv
  have hlt := v.toNat_lt
  refine ⟨v, (h c).trans hv, ?_⟩
  rw [List.count_nil]
  omega

theorem Adds.refl (x : Kernel) : Adds [] x x := .of_eq fun _ => rfl

theorem Adds.of_stats (hm : y.mappedXdpStats = x.mappedXdpStats) (hs : y.xdpStats = x.xdpStats) :
    Adds [] x y :=
  .of_eq fun c => by cases c <;> simp only [count, hm, hs]

theorem Adds.trans (h : Adds cs x y) (h' : Adds cs' y z) : Adds (cs ++ cs') x z := by
  intro c v hv
  obtain ⟨w, hw, hwv⟩ := h c v hv
  obtain ⟨u, hu, huw⟩ := h' c w hw
  refine ⟨u, hu, ?_⟩
  rw [List.count_append]
  omega

theorem Adds.of_bumped (c : Counter)
    (h : ∀ d, y.count d = if d = c then (x.count d).map (satAdd · 1) else x.count d) :
    Adds [c] x y := by
  intro d v hv
  have hlt := v.toNat_lt
  have hd := h d
  rw [hv] at hd
  by_cases hdc : d = c
  · subst hdc
    refine ⟨satAdd v 1, hd.trans (if_pos rfl), ?_⟩
    rw [toNat_satAdd, List.count_singleton_self, UInt64.toNat_one]
  · refine ⟨v, hd.trans (if_neg hdc), ?_⟩
    rw [List.count_eq_zero.mpr (by simpa using hdc)]
    omega

end Adds

section Bumps

variable (pkt : PacketInfo) (st : Kernel)

theorem countReceived_adds : Adds [.rxPackets] st (countReceived pkt st) :=
  .of_bumped _ fun d => by
    cases d <;> simp [count, countReceived, bumpMapped, Function.comp_def]

theorem countPassed_adds : Adds [.passed] st (countPassed pkt st) :=
  .of_bumped _ fun d => by
    cases d <;> simp [count, countPassed, bumpMapped, Function.comp_def]

theorem countDropped_adds : Adds [.dropped] st (countDropped pkt st) :=
  .of_bumped _ fun d => by
    cases d <;> simp [count, countDropped, bumpMapped, Function.comp_def]

theorem countRateLimited_adds : Adds [.rateLimited] st (countRateLimited st) :=
  .of_bumped _ fun d => by
    cases d <;> simp [count, countRateLimited, bumpStat, Function.comp_def]

theorem bumpRedirected_adds :
    Adds [.redirected] st (st.bumpStat fun x => { x with redirected := satAdd x.redirected 1 }) :=
  .of_bumped _ fun d => by cases d <;> simp [count, bumpStat, Function.comp_def]

theorem bumpFailsafeDrops_adds : Adds [.failsafeDrops] st
    (st.bumpStat fun x => { x with failsafeDrops := satAdd x.failsafeDrops 1 }) :=
  .of_bumped _ fun d => by cases d <;> simp [count, bumpStat, Function.comp_def]

theorem bumpStat_adds {f : XdpStats → XdpStats} (hl : ∀ s, (f s).rateLimited = s.rateLimited)
    (hr : ∀ s, (f s).redirected = s.redirected) (hf : ∀ s, (f s).failsafeDrops = s.failsafeDrops) :
    Adds [] st (st.bumpStat f) :=
  .of_eq fun d => by
    cases d <;> simp [count, bumpStat, Function.comp_def, hl, hr, hf]

end Bumps

structure HandsOn (x y : Kernel) : Prop where
  adds : Adds [] x y
  blocklistV4 : y.blocklistV4 = x.blocklistV4
  honeypotTargets : y.honeypotTargets = x.honeypotTargets
  honeypotActive : y.honeypotActive = x.honeypotActive

theorem HandsOn.refl (x : Kernel) : HandsOn x x := ⟨.refl x, rfl, rfl, rfl⟩

theorem HandsOn.trans (x y z : Kernel) (h : HandsOn x y) (h' : HandsOn y z) : HandsOn x z :=
  ⟨h.adds.trans h'.adds, h'.blocklistV4.trans h.blocklistV4,
    h'.honeypotTargets.trans h.honeypotTargets, h'.honeypotActive.trans h.honeypotActive⟩

/-- The breaker drops the packet, as it is open already or as the packet takes its window
past a threshold. -/
def Trips (cfg : FalxMapConfig) (pkt : PacketInfo) (now : UInt64) (st : Kernel) : Prop :=
  cfg.failsafeEnabled ≠ 0 ∧ ∃ s, st.failsafeState = some s ∧
    (s.circuitOpen ≠ 0 ∨ s.ppsThreshold < (s.countPacket pkt.pktLen now).currentPps ∨
      s.bpsThreshold < (s.countPacket pkt.pktLen now).currentBps)

def RefusesRedirect (frame : Frame) (src : UInt32) (now : UInt64) (st : Kernel) : Prop :=
  (∃ e, st.blocklistV4 src = some e ∧ e.expired (now / nsPerSec) = false ∧
    e.action = Action.redirect) ∧
  tryRedirect st.honeypotTargets st.honeypotActive frame = none

def Outcome.Cause (cfg : FalxMapConfig) (pkt : PacketInfo) (clk : Clock) (frame : Frame)
    (st : Kernel) : Outcome → Prop
  | unparsed | passed => False
  | dropped | limited | redirected => True
  | tripped => Trips cfg pkt clk.failsafe st
  | refused => pkt.isIpv6 = false ∧ RefusesRedirect frame pkt.srcIp clk.blocklist st

def Decides (C : Kernel → Outcome → Prop) (x : Kernel) (v : Verdict) (y : Kernel) : Prop :=
  ∃ o, C x o ∧ v.1 = o.action ∧ Adds o.counters x y

section Checks

theorem checkFailsafe_outcomes (pkt : PacketInfo) (now : UInt64) :
    Stage.Outcomes HandsOn (fun x v y => v = .drop ∧ (∃ s, x.failsafeState = some s ∧
      ((s.countPacket pkt.pktLen now).trip now).circuitOpen ≠ 0) ∧ Adds [.failsafeDrops] x y)
      (checkFailsafe pkt now) := by
  intro x
  simp only [checkFailsafe]
  split
  · exact HandsOn.refl x
  rename_i s hs
  split
  · refine ⟨rfl, ⟨s, hs, ‹_›⟩, ?_⟩
    exact Adds.trans (.of_stats rfl rfl) (bumpFailsafeDrops_adds _)
  · exact ⟨.of_stats rfl rfl, rfl, rfl, rfl⟩

theorem tryRedirect_tx {targets : UInt32 → Option HoneypotTarget} {active : Option UInt32}
    {frame : Frame} {v : Verdict} (h : tryRedirect targets active frame = some v) : v.1 = .tx := by
  simp only [tryRedirect, Option.bind_eq_bind, Option.bind_eq_some_iff] at h
  obtain ⟨target, -, h⟩ := h
  split at h
  · cases h
  simp only [Option.bind_eq_some_iff] at h
  obtain ⟨-, -, h⟩ := h
  split at h
  · cases h
  simp only [Option.bind_eq_some_iff] at h
  obtain ⟨ip, -, h⟩ := h
  split at h
  · cases h
  simp only [Option.bind_eq_some_iff] at h
  obtain ⟨check, -, f, -, h⟩ := h
  cases h
  rfl

theorem countIfDropped_of_drop (pkt : PacketInfo) {v : Verdict} (st : Kernel) (h : v.1 = .drop) :
    countIfDropped pkt v st = countDropped pkt st := if_pos h

theorem checkBlocklistV4_outcomes (frame : Frame) (srcIp : UInt32) (now : UInt64) :
    Stage.Outcomes HandsOn (fun x v y => v.1 = .drop ∧ Adds [] x y ∨
      (v.1 = .tx ∨ v.1 = .drop ∧ RefusesRedirect frame srcIp now x) ∧ Adds [.redirected] x y)
      (checkBlocklistV4 frame srcIp now) := by
  intro x
  simp only [checkBlocklistV4]
  split
  · exact HandsOn.refl x
  rename_i e he
  split
  · exact HandsOn.refl x
  rename_i hexp
  split
  · exact .inl ⟨rfl, bumpStat_adds _ (fun _ => rfl) (fun _ => rfl) fun _ => rfl⟩
  split
  · refine .inr ⟨?_, bumpRedirected_adds x⟩
    rw [redirectToHoneypot]
    cases hr : tryRedirect x.honeypotTargets x.honeypotActive frame with
    | none => exact .inr ⟨rfl, ⟨e, he, by simpa using hexp, ‹_›⟩, hr⟩
    | some w => exact .inl (tryRedirect_tx hr)
  · exact HandsOn.refl x

theorem checkBlocklistV6_outcomes (srcIp6 : Ipv6Addr) (now : UInt64) :
    Stage.Outcomes HandsOn (fun x v y => v = .drop ∧ Adds [] x y)
      (checkBlocklistV6 srcIp6 now) := by
  intro x
  simp only [checkBlocklistV6]
  split
  · exact HandsOn.refl x
  split
  · exact HandsOn.refl x
  split
  · exact ⟨rfl, bumpStat_adds _ (fun _ => rfl) (fun _ => rfl) fun _ => rfl⟩
  · exact HandsOn.refl x

theorem applyCoolingBan_adds (srcIp : UInt32) (now : UInt64) (minR : UInt32) (st : Kernel) :
    Adds [] st (applyCoolingBan srcIp now minR st) :=
  Adds.trans (.of_stats rfl rfl) (bumpStat_adds _ (fun _ => rfl) (fun _ => rfl) fun _ => rfl)

def Limits (x : Kernel) (v : XdpAction) (y : Kernel) : Prop := v = .drop ∧ Adds [] x y

theorem checkSynCounter_outcomes (srcIp : UInt32) (flags : UInt8) (now : UInt64) :
    Stage.Outcomes HandsOn Limits (checkSynCounter srcIp flags now) := by
  intro x
  simp only [checkSynCounter]
  split
  · split <;> exact ⟨.of_stats rfl rfl, rfl, rfl, rfl⟩
  split
  · split
    · split
      · have hban : Adds [] x (applyCoolingBan srcIp now synFloodPenaltyR
            (x.log (.synCheck srcIp flags))) :=
          Adds.trans (.of_stats rfl rfl) (applyCoolingBan_adds srcIp now synFloodPenaltyR _)
        have hcnt := hban.trans (bumpStat_adds _
          (f := fun s => { s with synFloodBans := satAdd s.synFloodBans 1 })
          (fun _ => rfl) (fun _ => rfl) fun _ => rfl)
        exact ⟨rfl, hcnt.trans (.of_stats rfl rfl)⟩
      · exact ⟨.of_stats rfl rfl, rfl, rfl, rfl⟩
    · exact ⟨.of_stats rfl rfl, rfl, rfl, rfl⟩
  · exact ⟨.of_stats rfl rfl, rfl, rfl, rfl⟩

theorem dropLimited_adds (srcIp : UInt32) (now : UInt64) (bucket : RateBucket) (st : Kernel) :
    Adds [] st (dropLimited srcIp now bucket st).2 :=
  Adds.trans (.of_stats rfl rfl) (applyCoolingBan_adds srcIp now 0 _)

theorem checkRateLimit_outcomes (srcIp : UInt32) (cfg : FalxMapConfig) (now : UInt64) :
    Stage.Outcomes HandsOn Limits (checkRateLimit srcIp cfg now) := by
  intro x
  simp only [checkRateLimit]
  split
  · split
    · exact ⟨rfl, Adds.trans (y := x.log (.limited srcIp now)) (.of_stats rfl rfl)
        (dropLimited_adds srcIp now _ _)⟩
    · exact ⟨.of_stats rfl rfl, rfl, rfl, rfl⟩
  · exact ⟨.of_stats rfl rfl, rfl, rfl, rfl⟩

theorem checkSynFlood_outcomes (srcIp : UInt32) (charge now : UInt64) :
    Stage.Outcomes HandsOn Limits (checkSynFlood srcIp charge now) := by
  intro x
  simp only [checkSynFlood]
  split
  · split
    · exact ⟨rfl, dropLimited_adds srcIp now _ _⟩
    · exact ⟨.of_stats rfl rfl, rfl, rfl, rfl⟩
  · exact HandsOn.refl x

end Checks

theorem Decides.back {C C' : Kernel → Outcome → Prop} {x y z : Kernel} {v : Verdict}
    (hC : ∀ o, HandsOn x y → C' y o → C x o) (hxy : HandsOn x y) (h : Decides C' y v z) :
    Decides C x v z := by
  obtain ⟨o, ho, hv, hadds⟩ := h
  exact ⟨o, hC o hxy ho, hv, by simpa using hxy.adds.trans hadds⟩

section Stages

variable (cfg : FalxMapConfig) (pkt : PacketInfo) (clk : Clock) (frame : Frame)

theorem trips_of_open {s : FailsafeState} {pktLen : UInt32} {now : UInt64}
    (h : ((s.countPacket pktLen now).trip now).circuitOpen ≠ 0) :
    s.circuitOpen ≠ 0 ∨ s.ppsThreshold < (s.countPacket pktLen now).currentPps ∨
      s.bpsThreshold < (s.countPacket pktLen now).currentBps := by
  have hkept : (s.countPacket pktLen now).circuitOpen = s.circuitOpen ∧
      (s.countPacket pktLen now).ppsThreshold = s.ppsThreshold ∧
      (s.countPacket pktLen now).bpsThreshold = s.bpsThreshold := by
    rw [FailsafeState.countPacket]
    split <;> exact ⟨rfl, rfl, rfl⟩
  rw [FailsafeState.trip, hkept.1, hkept.2.1, hkept.2.2] at h
  by_cases htrip : s.circuitOpen = 0 ∧ (s.ppsThreshold < (s.countPacket pktLen now).currentPps ∨
      s.bpsThreshold < (s.countPacket pktLen now).currentBps)
  · exact .inr htrip.2
  · rw [if_neg htrip, hkept.1] at h
    exact .inl h

theorem failsafeStage_outcomes : Stage.Outcomes HandsOn
    (Decides fun x o => o.Cause cfg pkt clk frame x) (failsafeStage cfg pkt clk frame) := by
  refine Stage.Outcomes.guarded HandsOn.refl fun x hcfg => ?_
  refine Stage.Outcomes.onDecision ((checkFailsafe_outcomes pkt clk.failsafe).mapVerdict
    (E := fun x v y => v.1 = .drop ∧ (∃ s, x.failsafeState = some s ∧
      ((s.countPacket pkt.pktLen clk.failsafe).trip clk.failsafe).circuitOpen ≠ 0) ∧
      Adds [.failsafeDrops] x y) fun _ _ _ h => h) ?_ x
  rintro x v y ⟨hv, ⟨s, hs, hopen⟩, hadds⟩
  rw [countIfDropped_of_drop pkt y hv]
  exact ⟨.tripped, ⟨hcfg, s, hs, trips_of_open hopen⟩, hv, hadds.trans (countDropped_adds pkt y)⟩

abbrev LaterStage (s : Stage Kernel Verdict) : Prop :=
  Stage.Outcomes HandsOn (Decides fun x o => o ≠ .tripped ∧ o.Cause cfg pkt clk frame x) s

theorem blocklistStage_outcomes : LaterStage cfg pkt clk frame (blocklistStage pkt clk frame) := by
  rw [blocklistStage]
  split
  · rename_i hv4
    refine Stage.Outcomes.guarded HandsOn.refl fun x _ => ?_
    refine (checkBlocklistV4_outcomes frame pkt.srcIp clk.blocklist).onDecision ?_ x
    rintro x v y (⟨hv, hadds⟩ | ⟨hv | ⟨hv, hno⟩, hadds⟩)
    · rw [countIfDropped_of_drop pkt y hv]
      exact ⟨.dropped, ⟨by decide, trivial⟩, hv, hadds.trans (countDropped_adds pkt y)⟩
    · rw [countIfDropped, if_neg (by rw [hv]; decide)]
      exact ⟨.redirected, ⟨by decide, trivial⟩, hv, hadds⟩
    · rw [countIfDropped_of_drop pkt y hv]
      exact ⟨.refused, ⟨by decide, hv4, hno⟩, hv, hadds.trans (countDropped_adds pkt y)⟩
  · refine Stage.Outcomes.onDecision ((checkBlocklistV6_outcomes pkt.srcIp6 clk.blocklist).mapVerdict
      (E := fun x v y => v.1 = .drop ∧ Adds [] x y) fun _ _ _ h => h) ?_
    rintro x v y ⟨hv, hadds⟩
    rw [countIfDropped_of_drop pkt y hv]
    exact ⟨.dropped, ⟨by decide, trivial⟩, hv, hadds.trans (countDropped_adds pkt y)⟩

theorem limited_outcomes {p : Kernel → Prop} [DecidablePred p] {s : Stage Kernel XdpAction}
    (hs : Stage.Outcomes HandsOn Limits s) {count : Kernel → Kernel} {o : Outcome}
    (hcnt : ∀ x, Adds o.counters x (count x)) (ho : o = .dropped ∨ o = .limited) :
    LaterStage cfg pkt clk frame
      (Stage.guarded p ((s.mapVerdict (·, frame)).onDecision fun _ st => count st)) := by
  refine Stage.Outcomes.guarded HandsOn.refl fun x _ => ?_
  refine Stage.Outcomes.onDecision (hs.mapVerdict (E := fun x v y => Limits x v.1 y)
    fun _ _ _ h => h) ?_ x
  rintro x v y ⟨hv, hadds⟩
  have hsum := hadds.trans (hcnt y)
  rcases ho with rfl | rfl
  · exact ⟨.dropped, ⟨by decide, trivial⟩, hv, hsum⟩
  · exact ⟨.limited, ⟨by decide, trivial⟩, hv, hsum⟩

theorem Outcome.Cause.back {x y : Kernel} {o : Outcome} (hxy : HandsOn x y)
    (h : o ≠ .tripped ∧ o.Cause cfg pkt clk frame y) : o.Cause cfg pkt clk frame x := by
  obtain ⟨hne, hy⟩ := h
  cases o with
  | tripped => exact absurd rfl hne
  | refused =>
    obtain ⟨hv4, hrefuses⟩ := hy
    rw [RefusesRedirect, hxy.blocklistV4, hxy.honeypotTargets, hxy.honeypotActive] at hrefuses
    exact ⟨hv4, hrefuses⟩
  | unparsed | passed => exact hy
  | dropped | limited | redirected => trivial

theorem laterStages_outcomes : LaterStage cfg pkt clk frame
    ((blocklistStage pkt clk frame).andThen (limiterStages cfg pkt clk frame)) := by
  have hthen : ∀ {s t : Stage Kernel Verdict}, LaterStage cfg pkt clk frame s →
      LaterStage cfg pkt clk frame t → LaterStage cfg pkt clk frame (s.andThen t) :=
    fun hs ht => hs.andThen ht HandsOn.trans fun x y v z hxy h =>
      h.back (fun o hxy ho => ⟨ho.1, Outcome.Cause.back cfg pkt clk frame hxy ho⟩) hxy
  have hsyn : LaterStage cfg pkt clk frame (synCounterStage pkt clk frame) :=
    limited_outcomes cfg pkt clk frame (o := .dropped) (checkSynCounter_outcomes _ _ _)
      (countDropped_adds pkt) (.inl rfl)
  have hrate : LaterStage cfg pkt clk frame (rateLimitStage cfg pkt clk frame) :=
    limited_outcomes cfg pkt clk frame (o := .limited) (checkRateLimit_outcomes _ _ _)
      countRateLimited_adds (.inr rfl)
  have hfl : LaterStage cfg pkt clk frame (synFloodStage cfg pkt clk frame) :=
    limited_outcomes cfg pkt clk frame (o := .limited) (checkSynFlood_outcomes _ _ _)
      countRateLimited_adds (.inr rfl)
  exact hthen (blocklistStage_outcomes cfg pkt clk frame) (hthen hsyn (hthen hrate hfl))

theorem ipStages_outcomes : Stage.Outcomes HandsOn
    (Decides fun x o => o.Cause cfg pkt clk frame x) (ipStages cfg pkt clk frame) :=
  (failsafeStage_outcomes cfg pkt clk frame).andThen (laterStages_outcomes cfg pkt clk frame)
    HandsOn.trans fun _ _ _ _ hxy h =>
      h.back (fun _ hxy ho => Outcome.Cause.back cfg pkt clk frame hxy ho) hxy

end Stages

structure Accounted (clk : Clock) (frame : Frame) (st : Kernel) (o : Outcome) : Prop where
  action : (processPacket clk frame st).1.1 = o.action
  adds : Adds o.counts st (processPacket clk frame st).2
  unparsed_iff : o = .unparsed ↔ parsePacket frame = none
  trips : o = .tripped → ∃ pkt, parsePacket frame = some pkt ∧ pkt.Screened ∧
    Trips st.readConfig pkt clk.failsafe st
  refuses : o = .refused → ∃ pkt, parsePacket frame = some pkt ∧ pkt.Screened ∧
    pkt.isIpv6 = false ∧ RefusesRedirect frame pkt.srcIp clk.blocklist st

section Accounted

variable {clk : Clock} {frame : Frame} {st : Kernel} {pkt : PacketInfo}

theorem accounted_of_unparsed (hp : parsePacket frame = none) :
    Accounted clk frame st .unparsed := by
  have hrun : (processPacket clk frame st).1.1 = .drop ∧
      Adds [] st (processPacket clk frame st).2 := by
    rw [processPacket, hp]
    split
    · exact ⟨rfl, .refl st⟩
    · exact ⟨rfl, bumpStat_adds _ (fun _ => rfl) (fun _ => rfl) fun _ => rfl⟩
  exact ⟨hrun.1, hrun.2, ⟨fun _ => hp, fun _ => rfl⟩, by simp, by simp⟩

theorem accounted_of_passed (hp : parsePacket frame = some pkt)
    (hv : (processPacket clk frame st).1.1 = .pass)
    (hadds : Adds [.rxPackets, .passed] st (processPacket clk frame st).2) :
    Accounted clk frame st .passed :=
  ⟨hv, hadds, by simp [hp], by simp, by simp⟩

theorem accounted_of_decided (hp : parsePacket frame = some pkt) (hs : pkt.Screened) {o : Outcome}
    (ho : o.Cause st.readConfig pkt clk frame (countReceived pkt st))
    (hv : (processPacket clk frame st).1.1 = o.action)
    (hadds : Adds o.counters (countReceived pkt st) (processPacket clk frame st).2) :
    Accounted clk frame st o := by
  have hall := (countReceived_adds pkt st).trans hadds
  cases o with
  | unparsed | passed => exact ho.elim
  | tripped => exact ⟨hv, hall, by simp [hp], fun _ => ⟨pkt, hp, hs, ho⟩, by simp⟩
  | refused => exact ⟨hv, hall, by simp [hp], by simp, fun _ => ⟨pkt, hp, hs, ho⟩⟩
  | dropped | limited | redirected => exact ⟨hv, hall, by simp [hp], by simp, by simp⟩

theorem processPacket_accounted (clk : Clock) (frame : Frame) (st : Kernel) :
    ∃ o, Accounted clk frame st o := by
  cases hp : parsePacket frame with
  | none => exact ⟨_, accounted_of_unparsed hp⟩
  | some pkt =>
    have hrx := countReceived_adds pkt st
    by_cases hs : pkt.Screened
    · have hends := ipStages_outcomes st.readConfig pkt clk frame (countReceived pkt st)
      rcases hrun : ipStages st.readConfig pkt clk frame (countReceived pkt st) with ⟨_ | v, y⟩
      · rw [hrun] at hends
        have heq : processPacket clk frame st = ((.pass, frame), countPassed pkt y) := by
          rw [processPacket_eq hp hs, hrun]
        refine ⟨_, accounted_of_passed hp (by rw [heq]) ?_⟩
        rw [heq]
        exact (hrx.trans (HandsOn.adds hends)).trans (countPassed_adds pkt y)
      · rw [hrun] at hends
        obtain ⟨o, ho, hv, hadds⟩ := hends
        have heq : processPacket clk frame st = (v, y) := processPacket_of_decided hp hs hrun
        refine ⟨o, accounted_of_decided hp hs ho ?_ ?_⟩
        · rw [heq, hv]
        · rw [heq]
          exact hadds
    · have heq : processPacket clk frame st =
          ((.pass, frame), countPassed pkt (countReceived pkt st)) :=
        processPacket_of_not_screened hp hs
      refine ⟨_, accounted_of_passed hp (by rw [heq]) ?_⟩
      rw [heq]
      exact hrx.trans (countPassed_adds pkt _)

end Accounted

end Falx
