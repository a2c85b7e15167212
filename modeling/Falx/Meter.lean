import Falx.System

/-! The token bucket of one source, seen through the pipeline. A packet of another
source does not touch it; a packet of the source itself is charged or refused by
the rate limit, and after a charge the SYN flood heuristic may charge it again at
the same reading of the clock. -/

namespace Falx

open Words Kernel

def Event.meters (s : UInt32) : Event → Bool
  | opened src _ => src == s
  | charged src _ _ _ => src == s
  | limited src _ => src == s
  | _ => false

structure Meter where
  bucket : Option RateBucket
  events : List Event

def Kernel.meter (st : Kernel) (s : UInt32) : Meter :=
  ⟨st.rateLimit s, st.history.filter (Event.meters s)⟩

namespace RateBucket

def opening (cfg : FalxMapConfig) (now : UInt64) : RateBucket where
  tokens := satSub cfg.rateCapacity 1
  lastRefill := now
  capacity := cfg.rateCapacity
  refillRate := cfg.rateRefillNs
  dropCount := 0

def charge (bucket : RateBucket) (cost : UInt64) : RateBucket :=
  { bucket with tokens := bucket.tokens - cost }

def countDrop (bucket : RateBucket) : RateBucket :=
  { bucket with dropCount := satAdd bucket.dropCount 1 }

end RateBucket

section Steps

variable (s : UInt32) (cfg : FalxMapConfig) (now : UInt64)

inductive Rated : Meter → Meter → Prop
  | opened {events : List Event} :
      Rated ⟨none, events⟩ ⟨some (.opening cfg now), .opened s now :: events⟩
  | charged {bucket : RateBucket} {events : List Event} (h : (bucket.refill now).tokens ≠ 0) :
      Rated ⟨some bucket, events⟩ ⟨some ((bucket.refill now).charge 1),
        .charged s now (bucket.refill now).tokens 1 :: events⟩

inductive Limited : Meter → Meter → Prop
  | limited {bucket : RateBucket} {events : List Event} (h : (bucket.refill now).tokens = 0) :
      Limited ⟨some bucket, events⟩
        ⟨some (bucket.refill now).countDrop, .limited s now :: events⟩

inductive Flooded : Meter → Meter → Prop
  | dropped {bucket : RateBucket} {events : List Event} :
      Flooded ⟨some bucket, events⟩ ⟨some bucket.countDrop, events⟩
  | charged {bucket : RateBucket} {events : List Event} (h : ¬ bucket.tokens < 10) :
      Flooded ⟨some bucket, events⟩
        ⟨some (bucket.charge 10), .charged s now bucket.tokens 10 :: events⟩

inductive MeterStep (synOnly : Prop) : Meter → Meter → Prop
  | idle {m : Meter} : MeterStep synOnly m m
  | limited {m m' : Meter} (h : Limited s now m m') : MeterStep synOnly m m'
  | rated {m m' : Meter} (h : Rated s cfg now m m') : MeterStep synOnly m m'
  | flooded {m m' m'' : Meter} (hsyn : synOnly) (h : Rated s cfg now m m')
      (h' : Flooded s now m' m'') : MeterStep synOnly m m''

end Steps

theorem Event.meters_of_src_ne {s : UInt32} {e : Event} (h : e.src ≠ s) : e.meters s = false := by
  cases e with
  | opened src now | charged src now held cost | limited src now => exact beq_false_of_ne h
  | _ => rfl

theorem Kernel.meter_suffix {s : UInt32} {x y : Kernel} {es es' : List Event}
    (hes : y.history = es ++ x.history) (hes' : (y.meter s).events = es' ++ (x.meter s).events) :
    es' = es.filter (Event.meters s) := by
  simp only [meter, hes, List.filter_append] at hes'
  exact (List.append_cancel_right hes').symm

theorem statsFree_meter (s : UInt32) (P : Meter → Prop) : StatsFree (fun x => P (x.meter s)) :=
  ⟨fun _ _ h => h, fun _ _ h => h⟩

section Checks

variable {s : UInt32} {m : Meter}

theorem applyCoolingBan_meter (src : UInt32) (now : UInt64) (minR : UInt32) (x : Kernel) :
    (applyCoolingBan src now minR x).meter s = x.meter s := by
  simp [meter, applyCoolingBan, bumpStat, log, Event.meters]

theorem checkFailsafe_meter (pkt : PacketInfo) (now : UInt64) (x : Kernel) :
    (checkFailsafe pkt now x).2.meter s = x.meter s := by
  simp only [checkFailsafe]
  split
  · rfl
  · split
    · rfl
    · rfl

theorem checkSynCounter_meter (src : UInt32) (flags : UInt8) (now : UInt64) (x : Kernel) :
    (checkSynCounter src flags now x).2.meter s = x.meter s := by
  have hlog : (x.log (.synCheck src flags)).meter s = x.meter s := by
    simp [meter, log, Event.meters]
  simp only [checkSynCounter]
  split
  · split
    · exact hlog
    · exact hlog
  · split
    · split
      · split
        · exact (applyCoolingBan_meter src now synFloodPenaltyR _).trans hlog
        · exact hlog
      · exact hlog
    · exact hlog

theorem dropLimited_meter (now : UInt64) (bucket : RateBucket) (x : Kernel) :
    (dropLimited s now bucket x).2.meter s = ⟨some bucket.countDrop, (x.meter s).events⟩ := by
  refine (applyCoolingBan_meter s now 0 _).trans ?_
  simp [meter, RateBucket.countDrop]

theorem chargeBucket_meter (now cost : UInt64) (bucket : RateBucket) (x : Kernel) :
    (chargeBucket s now cost bucket x).2.meter s =
      ⟨some (bucket.charge cost), .charged s now bucket.tokens cost :: (x.meter s).events⟩ := by
  simp [meter, chargeBucket, log, Event.meters, RateBucket.charge]

theorem checkRateLimit_triple (cfg : FalxMapConfig) (now : UInt64) :
    Stage.Triple (fun x => x.meter s = m) (checkRateLimit s cfg now)
      (fun y => Rated s cfg now m (y.meter s)) (fun y => Limited s now m (y.meter s)) := by
  rintro x rfl
  cases hb : x.rateLimit s with
  | none =>
    have hm : x.meter s = ⟨none, (x.meter s).events⟩ := by rw [← hb]; rfl
    have hy : (checkRateLimit s cfg now x).2.meter s =
        ⟨some (.opening cfg now), .opened s now :: (x.meter s).events⟩ := by
      simp [checkRateLimit, hb, meter, log, Event.meters, RateBucket.opening]
    have hv : (checkRateLimit s cfg now x).1 = none := by simp [checkRateLimit, hb]
    refine ⟨fun _ => ?_, fun v h => absurd (hv.symm.trans h).symm (Option.some_ne_none v)⟩
    show Rated s cfg now (x.meter s) (meter _ s)
    rw [hy, hm]
    exact .opened
  | some bucket =>
    have hm : x.meter s = ⟨some bucket, (x.meter s).events⟩ := by rw [← hb]; rfl
    by_cases h0 : (bucket.refill now).tokens = 0
    · have hr : checkRateLimit s cfg now x =
          dropLimited s now (bucket.refill now) (x.log (.limited s now)) := by
        simp only [checkRateLimit, hb, if_pos h0]
      have hl : ((x.log (.limited s now)).meter s).events =
          .limited s now :: (x.meter s).events := by simp [meter, log, Event.meters]
      rw [hr]
      refine ⟨fun h => absurd h (Option.some_ne_none _), fun _ _ => ?_⟩
      show Limited s now (x.meter s) (meter _ s)
      rw [dropLimited_meter, hl, hm]
      exact .limited h0
    · have hr : checkRateLimit s cfg now x = chargeBucket s now 1 (bucket.refill now) x := by
        simp only [checkRateLimit, hb, if_neg h0]
      rw [hr]
      refine ⟨fun _ => ?_, fun v h => absurd h.symm (Option.some_ne_none v)⟩
      show Rated s cfg now (x.meter s) (meter _ s)
      rw [chargeBucket_meter, hm]
      exact .charged h0

theorem checkSynFlood_flooded (charge now : UInt64) {x : Kernel} {bucket : RateBucket}
    (hb : x.rateLimit s = some bucket) :
    Flooded s charge (x.meter s) ((checkSynFlood s charge now x).2.meter s) := by
  have hm : x.meter s = ⟨some bucket, (x.meter s).events⟩ := by rw [← hb]; rfl
  by_cases h10 : bucket.tokens < 10
  · have hr : checkSynFlood s charge now x = dropLimited s now bucket x := by
      simp only [checkSynFlood, hb, if_pos h10]
    rw [hr, dropLimited_meter, hm]
    exact .dropped
  · have hr : checkSynFlood s charge now x = chargeBucket s charge 10 bucket x := by
      simp only [checkSynFlood, hb, if_neg h10]
    rw [hr, chargeBucket_meter, hm]
    exact .charged h10

end Checks

section Packets

variable {s : UInt32}

variable {src : UInt32} {x y : Kernel} {pkt : PacketInfo}

theorem Quiet.meter (h : Quiet src x y) (hne : s ≠ src) :
    y.meter s = x.meter s := by
  obtain ⟨es, he, hsrc⟩ := h.history
  have hnone : es.filter (Event.meters s) = [] := by
    rw [List.filter_eq_nil_iff]
    intro e hm
    rw [Event.meters_of_src_ne (by rw [(hsrc e hm).1]; exact hne.symm)]
    exact Bool.false_ne_true
  simp only [Kernel.meter, h.rateLimit s hne, he, List.filter_append, hnone, List.nil_append]

theorem Effect.meter {b : Bool} (h : Effect src x b y) (hne : s ≠ src) : y.meter s = x.meter s := by
  cases h with
  | quiet h => exact h.meter hne
  | ban now minR before after =>
    exact (after.meter hne).trans ((applyCoolingBan_meter src now minR _).trans (before.meter hne))

theorem limiter_triple {m : Meter} {cfg : FalxMapConfig} {clk : Clock} (frame : Frame)
    (hsrc : pkt.srcIp = s) :
    Stage.Triple (fun x => x.meter s = m) (ipStages cfg pkt clk frame)
      (fun y => MeterStep s cfg clk.rateLimit (TcpFlags.isSynOnly pkt.tcpFlags = true) m
        (y.meter s))
      (fun y => MeterStep s cfg clk.rateLimit (TcpFlags.isSynOnly pkt.tcpFlags = true) m
        (y.meter s)) := by
  subst hsrc
  let Enabled := cfg.rateLimitEnabled ≠ 0 ∧ pkt.isIpv6 = false
  have hidle : ∀ x : Kernel, x.meter pkt.srcIp = m → MeterStep pkt.srcIp cfg clk.rateLimit
      (TcpFlags.isSynOnly pkt.tcpFlags = true) m (x.meter pkt.srcIp) := by
    intro x hx
    rw [hx]
    exact .idle
  have hI : StatsFree fun x => x.meter pkt.srcIp = m := statsFree_meter _ (· = m)
  have hK := statsFree_meter pkt.srcIp (MeterStep pkt.srcIp cfg clk.rateLimit
    (TcpFlags.isSynOnly pkt.tcpFlags = true) m)
  refine ipStages_triple (J := fun x => x.meter pkt.srcIp = m)
    (L := fun x => (Enabled ∧ Rated pkt.srcIp cfg clk.rateLimit m (x.meter pkt.srcIp)) ∨
      (¬ Enabled ∧ x.meter pkt.srcIp = m)) hI hidle ?_ ?_ ?_ ?_
  · intro x hx
    exact (checkFailsafe_meter pkt _ x).trans hx
  · refine Stage.Triple.checked (fun _ y => hK.mapped y _) (fun _ => ?_) fun _ _ hx => hx
    intro x hx
    have hy := (checkSynCounter_meter pkt.srcIp pkt.tcpFlags clk.synCounter x).trans hx
    exact ⟨fun _ => hy, fun _ _ => hidle _ hy⟩
  · refine Stage.Triple.checked (fun _ y => hK.stat y _) (fun hon => ?_)
      fun hoff _ hx => .inr ⟨hoff, hx⟩
    intro x hx
    obtain ⟨hnone, hsome⟩ := checkRateLimit_triple (m := m) cfg clk.rateLimit x hx
    exact ⟨fun h => .inl ⟨hon, hnone h⟩, fun v h => .limited (hsome v h)⟩
  · refine Stage.Triple.checked (fun _ y => hK.stat y _) (fun hon => ?_) ?_
    · rintro x (⟨-, hx⟩ | ⟨hoff, -⟩)
      · have hbucket : ∃ bucket, x.rateLimit pkt.srcIp = some bucket := by
          generalize hy : x.meter pkt.srcIp = y at hx
          cases hx with
          | opened | charged h => exact ⟨_, congrArg Meter.bucket hy⟩
        obtain ⟨bucket, hb⟩ := hbucket
        have hy := MeterStep.flooded hon.2.1 hx
          (checkSynFlood_flooded clk.rateLimit clk.synFlood hb)
        exact ⟨fun _ => hy, fun _ _ => hy⟩
      · exact absurd hon.2.2 hoff
    · rintro - x (⟨-, hx⟩ | ⟨-, hx⟩)
      · exact .rated hx
      · exact hidle x hx

theorem processPacket_meter (clk : Clock) (frame : Frame) (st : Kernel) (s : UInt32) :
    (processPacket clk frame st).2.meter s = st.meter s ∨
    ∃ pkt, parsePacket frame = some pkt ∧ ipv4Source frame = some s ∧
      MeterStep s st.readConfig clk.rateLimit (TcpFlags.isSynOnly pkt.tcpFlags = true)
        (st.meter s) ((processPacket clk frame st).2.meter s) := by
  rcases processPacket_effect clk frame st with hq | ⟨pkt, b, hp, h4, h0, he⟩
  · by_cases hs : s = 0
    · exact .inl ((hq 1).meter (by rw [hs]; decide))
    · exact .inl ((hq 0).meter hs)
  · by_cases hs : pkt.srcIp = s
    · refine .inr ⟨pkt, hp, by rw [ipv4Source_of_parsed hp h4 h0, hs], ?_⟩
      refine processPacket_post (statsFree_meter s (· = st.meter s)) (statsFree_meter s _) ?_ ?_ rfl
      · intro x hx
        rw [hx]
        exact .idle
      · intro pkt' hp' _
        obtain rfl : pkt = pkt' := Option.some.inj (hp.symm.trans hp')
        exact limiter_triple frame hs
    · exact .inl (he.meter (Ne.symm hs))

theorem processPacket_unimpeded (clk : Clock) (st : Kernel) {frame : Frame}
    (hp : parsePacket frame = some pkt) (h4 : pkt.isIpv6 = false) (h0 : pkt.srcIp ≠ 0)
    (htcp : pkt.protocol ≠ Proto.tcp) (hoff : st.readConfig.failsafeEnabled = 0)
    (hon : st.readConfig.rateLimitEnabled ≠ 0) (hbl : st.bloomFilter.contains pkt.srcIp = false) :
    (Rated pkt.srcIp st.readConfig clk.rateLimit (st.meter pkt.srcIp)
        ((processPacket clk frame st).2.meter pkt.srcIp) ∧
      (processPacket clk frame st).2.bloomFilter.contains pkt.srcIp = false) ∨
    Limited pkt.srcIp clk.rateLimit (st.meter pkt.srcIp)
      ((processPacket clk frame st).2.meter pkt.srcIp) := by
  let I : Kernel → Prop := fun x =>
    x.meter pkt.srcIp = st.meter pkt.srcIp ∧ x.bloomFilter.contains pkt.srcIp = false
  let J : Kernel → Prop := fun y =>
    (Rated pkt.srcIp st.readConfig clk.rateLimit (st.meter pkt.srcIp) (y.meter pkt.srcIp) ∧
      y.bloomFilter.contains pkt.srcIp = false) ∨
    Limited pkt.srcIp clk.rateLimit (st.meter pkt.srcIp) (y.meter pkt.srcIp)
  have hI : StatsFree I := ⟨fun _ _ h => h, fun _ _ h => h⟩
  have hJ : StatsFree J := ⟨fun _ _ h => h, fun _ _ h => h⟩
  have hfail : Stage.Triple I (failsafeStage st.readConfig pkt clk frame) I J :=
    Stage.Triple.guarded (fun _ hx => absurd hoff hx.2) fun _ hx _ => hx
  have hblock : Stage.Triple I (blocklistStage pkt clk frame) I J := by
    rw [blocklistStage, if_pos h4]
    refine Stage.Triple.guarded ?_ fun _ hx _ => hx
    intro x hx
    exact absurd hx.2 (by simp [hx.1.2])
  have hsyn : Stage.Triple I (synCounterStage pkt clk frame) I J :=
    Stage.Triple.checked (fun _ y => hJ.mapped y _) (fun h => absurd h.1 htcp) fun _ _ hx => hx
  have hrate : Stage.Triple I (rateLimitStage st.readConfig pkt clk frame) J J := by
    refine Stage.Triple.checked (fun _ y => hJ.stat y _) (fun _ => ?_) fun h => absurd ⟨hon, h4⟩ h
    intro x hx
    obtain ⟨hnone, hsome⟩ := checkRateLimit_triple st.readConfig clk.rateLimit x hx.1
    refine ⟨fun h => .inl ⟨hnone h, ?_⟩, fun v h => .inr (hsome v h)⟩
    have heff := checkRateLimit_effect pkt.srcIp st.readConfig clk.rateLimit x
    rw [h] at heff
    cases heff with
    | quiet hq =>
      rw [hq.bloomFilter]
      exact hx.2
  have hfl : Stage.Triple J (synFloodStage st.readConfig pkt clk frame) J J :=
    Stage.Triple.checked (fun _ y => hJ.stat y _) (fun h => absurd h.1 htcp) fun _ _ hx => hx
  exact processPacket_post_of_screened hI hJ hp (fun h => h0 h.1)
    (hfail.andThen (hblock.andThen (hsyn.andThen (hrate.andThen hfl)))) ⟨rfl, hbl⟩

end Packets

end Falx
