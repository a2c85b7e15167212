import Falx.Types
import Mathlib.Data.Rat.Floor

/-! The flood detector of the failsafe engine. Instants are nanoseconds since the
Unix epoch; rates, baselines and ratios, which the source keeps in floating point,
are exact rationals. -/

namespace Falx

abbrev Time := Int

def zeroTime : Time := -62135596800000000000

def seconds (duration : Int) : ℚ := duration / 1000000000

inductive DetectionAlgorithm where
  | absolutePps
  | absoluteBps
  | rateSpike
  | dropRatio
  | parseErrorSpike
  deriving DecidableEq

structure DetectionResult where
  triggered : Bool
  algorithm : Option DetectionAlgorithm
  currentPps : UInt64
  currentBps : UInt64
  deriving DecidableEq

def DetectionResult.untriggered : DetectionResult := ⟨false, none, 0, 0⟩

/-- What the engine asks of a detector: a reading of the counters gives results and
the next state, and the two absolute thresholds can be replaced. -/
structure DetectorOps (δ : Type) where
  analyze : XdpStats → Time → δ → List DetectionResult × δ
  updateThresholds : UInt64 → UInt64 → δ → δ

structure StatsSample where
  deltaPps : UInt64
  deltaBps : UInt64
  deriving DecidableEq

structure DetectorConfig where
  ppsThreshold : UInt64
  bpsThreshold : UInt64
  spikeMultiplier : ℚ
  baselineWindow : Int
  dropRatioThreshold : ℚ
  parseErrorRateThreshold : ℚ
  deriving DecidableEq

def defaultDetectorConfig : DetectorConfig where
  ppsThreshold := 1000000
  bpsThreshold := 10000000000
  spikeMultiplier := 5
  baselineWindow := 10
  dropRatioThreshold := 9 / 10
  parseErrorRateThreshold := 1 / 20

structure Detector where
  cfg : DetectorConfig
  emaPps : ℚ
  emaBps : ℚ
  emaAlpha : ℚ
  sampleCount : Nat
  prevStats : Option XdpStats
  prevAt : Time
  deriving DecidableEq

def dropStats (drops : UInt64) : XdpStats where
  rxPackets := 1000
  rxBytes := 64000
  dropped := drops
  rateLimited := 0
  passed := 1000 - drops
  redirected := 0
  failsafeDrops := 0
  parseErrors := 0
  mapErrors := 0
  coolingBans := 0
  synFloodBans := 0
  lastResetNs := 0

def newDetector (cfg : DetectorConfig) : Detector where
  cfg := cfg
  emaPps := 0
  emaBps := 0
  emaAlpha := 2 / (cfg.baselineWindow + 1)
  sampleCount := 0
  prevStats := none
  prevAt := zeroTime

namespace Detector

def updateThresholds (pps bps : UInt64) (d : Detector) : Detector :=
  { d with cfg := { d.cfg with ppsThreshold := pps, bpsThreshold := bps } }

def rate (counted : UInt64) (interval : Int) : ℚ := counted.toNat / seconds interval

-- A rate of 2^64 and more has no fixed conversion in Go; here it keeps its low bits.
def truncate (q : ℚ) : UInt64 := UInt64.ofNat ⌊q⌋₊

def buildSample (d : Detector) (stats : XdpStats) (now : Time) : StatsSample :=
  match d.prevStats with
  | none => ⟨0, 0⟩
  | some prev =>
    if d.prevAt ≠ zeroTime ∧ 0 < now - d.prevAt then
      let deltaPkts := stats.rxPackets - prev.rxPackets
      let deltaBytes := stats.rxBytes - prev.rxBytes
      ⟨truncate (rate deltaPkts (now - d.prevAt)), truncate (rate (deltaBytes * 8) (now - d.prevAt))⟩
    else ⟨0, 0⟩

def checkAbsolute (d : Detector) (s : StatsSample) : DetectionResult :=
  if s.deltaPps > d.cfg.ppsThreshold then ⟨true, some .absolutePps, s.deltaPps, s.deltaBps⟩
  else if s.deltaBps > d.cfg.bpsThreshold then ⟨true, some .absoluteBps, s.deltaPps, s.deltaBps⟩
  else .untriggered

def checkSpike (d : Detector) (s : StatsSample) : DetectionResult :=
  if d.emaPps < 1 then .untriggered
  else if (s.deltaPps.toNat : ℚ) / d.emaPps > d.cfg.spikeMultiplier then
    ⟨true, some .rateSpike, s.deltaPps, s.deltaBps⟩
  else .untriggered

def totalDrops (stats : XdpStats) : UInt64 :=
  stats.dropped + stats.rateLimited + stats.failsafeDrops

def checkDropRatio (d : Detector) (stats : XdpStats) : DetectionResult :=
  if stats.rxPackets = 0 then .untriggered
  else if ((totalDrops stats).toNat : ℚ) / stats.rxPackets.toNat > d.cfg.dropRatioThreshold then
    ⟨true, some .dropRatio, 0, 0⟩
  else .untriggered

def checkParseErrors (d : Detector) (stats : XdpStats) : DetectionResult :=
  if stats.rxPackets = 0 then .untriggered
  else if (stats.parseErrors.toNat : ℚ) / stats.rxPackets.toNat >
      d.cfg.parseErrorRateThreshold then
    ⟨true, some .parseErrorSpike, 0, 0⟩
  else .untriggered

def updateEMA (d : Detector) (s : StatsSample) : Detector :=
  if d.sampleCount ≤ 1 then
    { d with emaPps := s.deltaPps.toNat, emaBps := s.deltaBps.toNat }
  else
    { d with
      emaPps := d.emaAlpha * s.deltaPps.toNat + (1 - d.emaAlpha) * d.emaPps
      emaBps := d.emaAlpha * s.deltaBps.toNat + (1 - d.emaAlpha) * d.emaBps }

def sampled (d : Detector) (stats : XdpStats) (now : Time) : Detector :=
  { d with prevStats := some stats, prevAt := now, sampleCount := d.sampleCount + 1 }

def analyze (stats : XdpStats) (now : Time) (d : Detector) : List DetectionResult × Detector :=
  let sample := d.buildSample stats now
  let d := d.sampled stats now
  if d.sampleCount < 2 then ([], d.updateEMA sample)
  else
    let spike := if d.cfg.baselineWindow ≤ d.sampleCount then [d.checkSpike sample] else []
    let results := d.checkAbsolute sample :: spike ++
      [d.checkDropRatio stats, d.checkParseErrors stats]
    (results.filter DetectionResult.triggered, d.updateEMA sample)

def ops : DetectorOps Detector := ⟨analyze, updateThresholds⟩

def increase (counter : XdpStats → UInt64) (stats : XdpStats) (d : Detector) : UInt64 :=
  match d.prevStats with
  | none => 0
  | some prev => counter stats - counter prev

/-- `n` per second of the time since the previous sample, 0 when no time has passed. -/
def perSecond (n : Nat) (now : Time) (d : Detector) : ℚ :=
  if d.prevAt ≠ zeroTime ∧ 0 < now - d.prevAt then n / seconds (now - d.prevAt) else 0

def packetRate (stats : XdpStats) (now : Time) (d : Detector) : ℚ :=
  d.perSecond (d.increase XdpStats.rxPackets stats).toNat now

def bitRate (stats : XdpStats) (now : Time) (d : Detector) : ℚ :=
  d.perSecond ((d.increase XdpStats.rxBytes stats).toNat * 8) now

theorem perSecond_nonneg (n : Nat) (now : Time) (d : Detector) : 0 ≤ d.perSecond n now := by
  unfold perSecond
  split
  · next h =>
    have hpos : (0 : ℚ) ≤ (now - d.prevAt : Int) := by exact_mod_cast h.2.le
    exact div_nonneg (Nat.cast_nonneg n) (div_nonneg hpos (by norm_num))
  · exact le_refl 0

theorem perSecond_mono {n m : Nat} (h : n ≤ m) (now : Time) (d : Detector) :
    d.perSecond n now ≤ d.perSecond m now := by
  unfold perSecond
  split
  · next hpos =>
    have hle : (0 : ℚ) ≤ (now - d.prevAt : Int) := by exact_mod_cast hpos.2.le
    exact div_le_div_of_nonneg_right (by exact_mod_cast h) (div_nonneg hle (by norm_num))
  · exact le_refl 0

theorem truncate_le {q : ℚ} (h : 0 ≤ q) : ((truncate q).toNat : ℚ) ≤ q := by
  have hmod : (truncate q).toNat ≤ ⌊q⌋₊ := by exact Nat.mod_le _ _
  calc ((truncate q).toNat : ℚ) ≤ (⌊q⌋₊ : ℚ) := by exact_mod_cast hmod
    _ ≤ q := Nat.floor_le h

theorem buildSample_le (d : Detector) (stats : XdpStats) (now : Time) :
    ((d.buildSample stats now).deltaPps.toNat : ℚ) ≤ d.packetRate stats now ∧
      ((d.buildSample stats now).deltaBps.toNat : ℚ) ≤ d.bitRate stats now := by
  have hpkts : 0 ≤ d.packetRate stats now := d.perSecond_nonneg _ now
  have hbits : 0 ≤ d.bitRate stats now := d.perSecond_nonneg _ now
  cases hp : d.prevStats with
  | none =>
    simp only [buildSample, hp]
    exact ⟨by simpa using hpkts, by simpa using hbits⟩
  | some prev =>
    by_cases ht : d.prevAt ≠ zeroTime ∧ 0 < now - d.prevAt
    · have hrate : ∀ c : UInt64, rate c (now - d.prevAt) = d.perSecond c.toNat now := fun c => by
        rw [perSecond, if_pos ht, rate]
      simp only [buildSample, hp, if_pos ht, hrate, packetRate, bitRate, increase]
      refine ⟨truncate_le (d.perSecond_nonneg _ now), ?_⟩
      refine (truncate_le (d.perSecond_nonneg _ now)).trans (d.perSecond_mono ?_ now)
      exact Nat.mod_le _ _
    · simp only [buildSample, hp, if_neg ht]
      exact ⟨by simpa using hpkts, by simpa using hbits⟩

/-- The packet and bit rates since the previous sample are within the absolute
thresholds and not above the allowed multiple of the baseline, and there are no new
parse errors. -/
def Calm (stats : XdpStats) (now : Time) (d : Detector) : Prop :=
  (d.packetRate stats now ≤ d.cfg.ppsThreshold.toNat ∧
    d.bitRate stats now ≤ d.cfg.bpsThreshold.toNat) ∧
  (d.packetRate stats now ≤ d.cfg.spikeMultiplier * d.emaPps ∧
    d.bitRate stats now ≤ d.cfg.spikeMultiplier * d.emaBps) ∧
  d.increase XdpStats.parseErrors stats = 0

/-- The share of drops and the share of parse errors among all packets received
since the program was loaded are within their thresholds. -/
def LifetimeWithin (cfg : DetectorConfig) (stats : XdpStats) : Prop :=
  stats.rxPackets = 0 ∨
    ((totalDrops stats).toNat : ℚ) / stats.rxPackets.toNat ≤ cfg.dropRatioThreshold ∧
      (stats.parseErrors.toNat : ℚ) / stats.rxPackets.toNat ≤ cfg.parseErrorRateThreshold

theorem updateEMA_cfg (d : Detector) (s : StatsSample) : (d.updateEMA s).cfg = d.cfg := by
  unfold updateEMA
  split <;> rfl

theorem updateEMA_sampleCount (d : Detector) (s : StatsSample) :
    (d.updateEMA s).sampleCount = d.sampleCount := by
  unfold updateEMA
  split <;> rfl

theorem analyze_snd (d : Detector) (stats : XdpStats) (now : Time) :
    (d.analyze stats now).2 = (d.sampled stats now).updateEMA (d.buildSample stats now) := by
  simp only [analyze]
  split <;> rfl

instance (stats : XdpStats) (now : Time) (d : Detector) : Decidable (d.Calm stats now) :=
  inferInstanceAs (Decidable (_ ∧ _ ∧ _))

section Calm

variable {stats : XdpStats} {now : Time} {d : Detector}

theorem checkAbsolute_of_le {s : StatsSample} (hp : s.deltaPps ≤ d.cfg.ppsThreshold)
    (hb : s.deltaBps ≤ d.cfg.bpsThreshold) : (d.checkAbsolute s).triggered = false := by
  simp only [checkAbsolute, gt_iff_lt, UInt64.not_lt.mpr hp, UInt64.not_lt.mpr hb, if_false]
  rfl

theorem checkSpike_of_le {s : StatsSample}
    (h : (s.deltaPps.toNat : ℚ) ≤ d.cfg.spikeMultiplier * d.emaPps) :
    (d.checkSpike s).triggered = false := by
  unfold checkSpike
  by_cases hema : d.emaPps < 1
  · rw [if_pos hema]
    rfl
  · have hpos : 0 < d.emaPps := lt_of_lt_of_le one_pos (not_lt.mp hema)
    have hle : (s.deltaPps.toNat : ℚ) / d.emaPps ≤ d.cfg.spikeMultiplier := (div_le_iff₀ hpos).mpr h
    rw [if_neg hema, if_neg (not_lt.mpr hle)]
    rfl

theorem Calm.checkAbsolute (h : d.Calm stats now) :
    ((d.sampled stats now).checkAbsolute (d.buildSample stats now)).triggered = false := by
  obtain ⟨⟨hpps, hbps⟩, -, -⟩ := h
  obtain ⟨hp, hb⟩ := d.buildSample_le stats now
  have hp' : (d.buildSample stats now).deltaPps ≤ d.cfg.ppsThreshold := by
    exact_mod_cast hp.trans hpps
  have hb' : (d.buildSample stats now).deltaBps ≤ d.cfg.bpsThreshold := by
    exact_mod_cast hb.trans hbps
  exact checkAbsolute_of_le hp' hb'

theorem Calm.checkSpike (h : d.Calm stats now) :
    ((d.sampled stats now).checkSpike (d.buildSample stats now)).triggered = false :=
  checkSpike_of_le ((d.buildSample_le stats now).1.trans h.2.1.1)

theorem lifetime_checks (d : Detector) (stats : XdpStats) :
    ((d.checkDropRatio stats).triggered = true ∨ (d.checkParseErrors stats).triggered = true) ↔
      ¬ LifetimeWithin d.cfg stats := by
  by_cases hrx : stats.rxPackets = 0
  · simp [checkDropRatio, checkParseErrors, LifetimeWithin, hrx, DetectionResult.untriggered]
  · have hdrop : (d.checkDropRatio stats).triggered = true ↔
        d.cfg.dropRatioThreshold < ((totalDrops stats).toNat : ℚ) / stats.rxPackets.toNat := by
      simp only [checkDropRatio, hrx, if_false]
      split <;> simp_all [DetectionResult.untriggered]
    have hpa : (d.checkParseErrors stats).triggered = true ↔
        d.cfg.parseErrorRateThreshold < (stats.parseErrors.toNat : ℚ) / stats.rxPackets.toNat := by
      simp only [checkParseErrors, hrx, if_false]
      split <;> simp_all [DetectionResult.untriggered]
    rw [hdrop, hpa, LifetimeWithin, or_iff_right hrx, not_and_or, not_le, not_le]

/-- On a calm sample only the lifetime ratios can trigger, and on the first sample
nothing can. -/
theorem Calm.analyze_iff (h : d.Calm stats now) :
    (d.analyze stats now).1.any DetectionResult.triggered = true ↔
      d.sampleCount ≠ 0 ∧ ¬ LifetimeWithin d.cfg stats := by
  by_cases hc : d.sampleCount = 0
  · have hfst : (d.sampled stats now).sampleCount < 2 := by
      simp only [sampled]
      omega
    simp only [analyze, hfst, if_true, hc]
    simp
  · have hlt : ¬ (d.sampled stats now).sampleCount < 2 := by
      simp only [sampled]
      omega
    have hspike : (if (d.sampled stats now).cfg.baselineWindow ≤ (d.sampled stats now).sampleCount
        then [(d.sampled stats now).checkSpike (d.buildSample stats now)] else []).any
          DetectionResult.triggered = false := by split <;> simp [h.checkSpike]
    have hlife : _ ↔ ¬ LifetimeWithin d.cfg stats := (d.sampled stats now).lifetime_checks stats
    rw [← hlife, and_iff_right hc]
    simp only [analyze, hlt, if_false, List.any_filter, Bool.and_self, List.cons_append,
      List.any_cons, List.any_append, h.checkAbsolute, hspike, List.any_nil, Bool.false_or,
      Bool.or_false, Bool.or_eq_true]

end Calm

end Detector

end Falx
