import Falx.FloodDetector

/-! The three consumers of the statistics that work with differences of successive samples:
the flood detector, the metrics streamer of the SOC server and the Prometheus collector.
All subtract unsigned words. Rates, which the source keeps in floating point, are exact
rationals, and the totals of the collector are natural numbers. -/

namespace Falx

inductive XdpCounter where
  | rxPackets | rxBytes | dropped | rateLimited | passed | redirected | failsafeDrops
  | parseErrors | coolingBans | synFloodBans
  deriving DecidableEq

def XdpStats.get (s : XdpStats) : XdpCounter → UInt64
  | .rxPackets => s.rxPackets
  | .rxBytes => s.rxBytes
  | .dropped => s.dropped
  | .rateLimited => s.rateLimited
  | .passed => s.passed
  | .redirected => s.redirected
  | .failsafeDrops => s.failsafeDrops
  | .parseErrors => s.parseErrors
  | .coolingBans => s.coolingBans
  | .synFloodBans => s.synFloodBans

structure MetricsRates where
  pps : ℚ
  dropPps : ℚ
  passPps : ℚ
  limitedPps : ℚ
  mbps : ℚ
  sampledAt : Time
  deriving DecidableEq

structure MetricsStreamer where
  prev : Option (XdpStats × Time)
  deriving DecidableEq

namespace MetricsStreamer

def elapsed (prevAt now : Time) : ℚ :=
  if seconds (now - prevAt) ≤ 0 then 1 else seconds (now - prevAt)

-- the source's guard against a counter reset
def clamp (rate : ℚ) : ℚ := if rate < 0 then 0 else rate

def rates (prev stats : XdpStats) (prevAt now : Time) : MetricsRates where
  pps := clamp ((stats.rxPackets - prev.rxPackets).toNat / elapsed prevAt now)
  dropPps := clamp ((stats.dropped - prev.dropped).toNat / elapsed prevAt now)
  passPps := clamp ((stats.passed - prev.passed).toNat / elapsed prevAt now)
  limitedPps := clamp ((stats.rateLimited - prev.rateLimited).toNat / elapsed prevAt now)
  mbps := clamp ((stats.rxBytes - prev.rxBytes).toNat * 8 / 1000000 / elapsed prevAt now)
  sampledAt := now

/-- One tick: the rates that are published, if any. A failed read is skipped. -/
def tick (s : MetricsStreamer) (now : Time) :
    Option XdpStats → Option MetricsRates × MetricsStreamer
  | none => (none, s)
  | some stats =>
    match s.prev with
    | none => (none, ⟨some (stats, now)⟩)
    | some (prev, prevAt) => (some (rates prev stats prevAt now), ⟨some (stats, now)⟩)

end MetricsStreamer

structure Collector where
  prev : XdpStats
  total : XdpCounter → Nat

namespace Collector

def addCounter (total : Nat) (delta : UInt64) : Nat :=
  if 0 < delta then total + delta.toNat else total

def collect (c : Collector) : Option XdpStats → Collector
  | none => c
  | some stats =>
    { prev := stats
      total := fun x => addCounter (c.total x) (stats.get x - c.prev.get x) }

def initial : Collector := ⟨⟨0, 0, 0, 0, 0, 0, 0, 0, 0, 0, 0, 0⟩, fun _ => 0⟩

def collectAll (c : Collector) (samples : List (Option XdpStats)) : Collector :=
  samples.foldl collect c

end Collector

def growth (prev stats : XdpStats) (x : XdpCounter) : Nat :=
  (stats.get x).toNat - (prev.get x).toNat

theorem toNat_sub_eq_iff (a b : UInt64) : (b - a).toNat = b.toNat - a.toNat ↔ a ≤ b := by
  have ha := a.toNat_lt
  have hb := b.toNat_lt
  rw [UInt64.toNat_sub, UInt64.le_iff_toNat_le]
  omega

section Growth

variable {prev stats : XdpStats}

def Detector.sampleOf (d : Detector) (packets bytes : Nat) (now : Time) : StatsSample :=
  if d.prevAt ≠ zeroTime ∧ 0 < now - d.prevAt then
    ⟨truncate (packets / seconds (now - d.prevAt)),
      truncate ((bytes * 8 % 2 ^ 64 : Nat) / seconds (now - d.prevAt))⟩
  else ⟨0, 0⟩

theorem Detector.buildSample_eq {d : Detector} (hprev : d.prevStats = some prev)
    (hpkts : prev.rxPackets ≤ stats.rxPackets) (hby : prev.rxBytes ≤ stats.rxBytes)
    (now : Time) : d.buildSample stats now =
      d.sampleOf (growth prev stats .rxPackets) (growth prev stats .rxBytes) now := by
  have hp := (toNat_sub_eq_iff _ _).mpr hpkts
  have hb := (toNat_sub_eq_iff _ _).mpr hby
  simp only [Detector.sampleOf, Detector.buildSample, hprev]
  by_cases ht : d.prevAt ≠ zeroTime ∧ 0 < now - d.prevAt
  · rw [if_pos ht, if_pos ht]
    simp only [Detector.rate, UInt64.toNat_mul, hp, hb]
    rfl
  · rw [if_neg ht, if_neg ht]

namespace MetricsStreamer

theorem elapsed_pos (prevAt now : Time) : 0 < elapsed prevAt now := by
  rw [elapsed]
  split
  · exact one_pos
  · exact lt_of_not_ge ‹_›

theorem clamp_of_nonneg {q : ℚ} (h : 0 ≤ q) : clamp q = q := if_neg (not_lt.mpr h)

def ratesOf (grown : XdpCounter → Nat) (prevAt now : Time) : MetricsRates where
  pps := grown .rxPackets / elapsed prevAt now
  dropPps := grown .dropped / elapsed prevAt now
  passPps := grown .passed / elapsed prevAt now
  limitedPps := grown .rateLimited / elapsed prevAt now
  mbps := grown .rxBytes * 8 / 1000000 / elapsed prevAt now
  sampledAt := now

theorem rates_eq (h : ∀ x, prev.get x ≤ stats.get x) (prevAt now : Time) :
    rates prev stats prevAt now = ratesOf (growth prev stats) prevAt now := by
  have hpos := elapsed_pos prevAt now
  have hgrown : ∀ x, (stats.get x - prev.get x).toNat = growth prev stats x :=
    fun x => (toNat_sub_eq_iff _ _).mpr (h x)
  have hrate : ∀ x, clamp ((stats.get x - prev.get x).toNat / elapsed prevAt now) =
      growth prev stats x / elapsed prevAt now := by
    intro x
    rw [hgrown]
    exact clamp_of_nonneg (div_nonneg (Nat.cast_nonneg _) hpos.le)
  have hbits : clamp ((stats.rxBytes - prev.rxBytes).toNat * 8 / 1000000 / elapsed prevAt now) =
      growth prev stats .rxBytes * 8 / 1000000 / elapsed prevAt now := by
    rw [show (stats.rxBytes - prev.rxBytes).toNat = _ from hgrown .rxBytes]
    exact clamp_of_nonneg (by positivity)
  simp only [rates, ratesOf, MetricsRates.mk.injEq]
  exact ⟨hrate .rxPackets, hrate .dropped, hrate .passed, hrate .rateLimited, hbits, trivial⟩

end MetricsStreamer

namespace Collector

theorem addCounter_eq (total : Nat) (delta : UInt64) :
    addCounter total delta = total + delta.toNat := by
  rw [addCounter]
  split
  · rfl
  · rename_i h
    rw [UInt64.lt_iff_toNat_lt, UInt64.toNat_zero] at h
    omega

theorem collect_total (c : Collector) {x : XdpCounter} (h : c.prev.get x ≤ stats.get x) :
    (c.collect (some stats)).total x = c.total x + growth c.prev stats x := by
  have hadd : (c.collect (some stats)).total x = c.total x + (stats.get x - c.prev.get x).toNat :=
    addCounter_eq _ _
  rw [hadd, (toNat_sub_eq_iff _ _).mpr h, growth]

def Growing : XdpStats → List (Option XdpStats) → Prop
  | _, [] => True
  | prev, none :: samples => Growing prev samples
  | prev, some stats :: samples => (∀ x, prev.get x ≤ stats.get x) ∧ Growing stats samples

theorem collectAll_total {c : Collector} {samples : List (Option XdpStats)}
    (h : Growing c.prev samples) (x : XdpCounter) :
    (c.collectAll samples).total x + (c.prev.get x).toNat =
      c.total x + ((c.collectAll samples).prev.get x).toNat := by
  induction samples generalizing c with
  | nil => rfl
  | cons read samples ih =>
    cases read with
    | none => exact ih h
    | some stats =>
      have hstep := c.collect_total (h.1 x)
      have hrest := ih (c := c.collect (some stats)) h.2
      have hle := UInt64.le_iff_toNat_le.mp (h.1 x)
      rw [growth] at hstep
      simp only [collectAll, List.foldl_cons] at hrest ⊢
      have hprev : (c.collect (some stats)).prev = stats := rfl
      rw [hprev] at hrest
      omega

end Collector

end Growth

def steadyStats : XdpStats := ⟨2000, 128000, 100, 0, 1900, 0, 0, 0, 0, 0, 0, 0⟩

end Falx
