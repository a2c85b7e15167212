import Falx.KeyAgreement
import Falx.Meter
import Falx.TokenBucket

/-! The token bucket of the pipeline as a bucket of the library: what it pays for
in any window of time. -/

namespace Falx

open List Words TokenBucket

def RateBucket.abs (bucket : RateBucket) : Bucket := ⟨bucket.tokens.toNat, bucket.lastRefill.toNat⟩

def Event.payment : Event → Option Spend
  | opened _ now => some ⟨now.toNat, 1⟩
  | charged _ now _ cost => some ⟨now.toNat, cost.toNat⟩
  | _ => none

/-- The tokens that `s` is charged by an event in the window from `a` to `b`. -/
def Event.consumed (s : UInt32) (a b : Nat) : Event → Nat
  | opened src now => if src = s ∧ a ≤ now.toNat ∧ now.toNat ≤ b then 1 else 0
  | charged src now _ cost => if src = s ∧ a ≤ now.toNat ∧ now.toNat ≤ b then cost.toNat else 0
  | _ => 0

def consumed (s : UInt32) (a b : Nat) (es : List Event) : Nat :=
  (es.map (Event.consumed s a b)).sum

theorem consumed_eq_spent (s : UInt32) (a b : Nat) (es : List Event) :
    consumed s a b es = spent a b ((es.filter (Event.meters s)).filterMap Event.payment) := by
  induction es with
  | nil => rfl
  | cons e es ih =>
    rw [consumed, map_cons, sum_cons, ← consumed, ih]
    cases e with
    | opened src now | charged src now held cost =>
      by_cases hs : src = s
      · simp [Event.consumed, Event.meters, Event.payment, hs, spent_cons]
      · simp [Event.consumed, Event.meters, hs]
    | limited src now =>
      by_cases hs : src = s
      · simp [Event.consumed, Event.meters, Event.payment, filterMap_cons, hs]
      · simp [Event.consumed, Event.meters, hs]
    | synCheck src flags | ban src now repeatCount banSecs => exact Nat.zero_add _

structure Account (c r : UInt64) (now : Nat) (bucket : Option RateBucket) (es : List Event) :
    Prop where
  metered : Metered c.toNat r.toNat now (bucket.map RateBucket.abs) (es.filterMap Event.payment)
  limits : ∀ b, bucket = some b → b.capacity = c ∧ b.refillRate = r
  covered : ∀ src now held cost, .charged src now held cost ∈ es → cost ≤ held

section Account

variable {c r : UInt64} {s : UInt32} {cfg : FalxMapConfig} {now : UInt64} {es : List Event}

theorem Account.start (c r : UInt64) (now : Nat) : Account c r now none [] :=
  ⟨Metered.idle, nofun, nofun⟩

variable {t : Nat} {bucket : RateBucket} {st : Kernel}

theorem Account.wait {bucket : Option RateBucket} {t' : Nat} (h : Account c r t bucket es)
    (hle : t ≤ t') : Account c r t' bucket es :=
  ⟨h.metered.wait hle, h.limits, h.covered⟩

theorem toNat_refill (bucket : RateBucket) (now : UInt64) :
    (bucket.refill now).abs =
      if 0 < (now.toNat - bucket.lastRefill.toNat) / bucket.refillRate.toNat then
        ⟨min (bucket.tokens.toNat +
          (now.toNat - bucket.lastRefill.toNat) / bucket.refillRate.toNat)
          bucket.capacity.toNat, now.toNat⟩
      else bucket.abs := by
  have hamt : (satSub now bucket.lastRefill / bucket.refillRate).toNat =
      (now.toNat - bucket.lastRefill.toNat) / bucket.refillRate.toNat := by
    rw [UInt64.toNat_div, toNat_satSub]
  have hpos : 0 < satSub now bucket.lastRefill / bucket.refillRate ↔
      0 < (now.toNat - bucket.lastRefill.toNat) / bucket.refillRate.toNat := by
    rw [UInt64.lt_iff_toNat_lt, hamt]
    rfl
  simp only [RateBucket.refill, hpos]
  split
  · have hcap := bucket.capacity.toNat_lt
    rw [RateBucket.abs]
    congr 1
    rw [toNat_min, toNat_satAdd]
    omega
  · rfl

theorem refill_of_young (bucket : RateBucket) (now : UInt64)
    (hage : now.toNat - bucket.lastRefill.toNat < bucket.refillRate.toNat) :
    (bucket.refill now).abs = bucket.abs := by
  rw [toNat_refill, Nat.div_eq_of_lt hage, if_neg (Nat.lt_irrefl 0)]

theorem refill_of_old (bucket : RateBucket) (now : UInt64) (hr : 0 < bucket.refillRate.toNat)
    (hage : bucket.refillRate.toNat ≤ now.toNat - bucket.lastRefill.toNat) :
    (bucket.refill now).abs = ⟨min (bucket.tokens.toNat +
      (now.toNat - bucket.lastRefill.toNat) / bucket.refillRate.toNat)
      bucket.capacity.toNat, now.toNat⟩ := by
  rw [toNat_refill, if_pos (Nat.div_pos hage hr)]

theorem refill_limits (bucket : RateBucket) (now : UInt64) :
    (bucket.refill now).capacity = bucket.capacity ∧
      (bucket.refill now).refillRate = bucket.refillRate := by
  simp only [RateBucket.refill]
  split
  · exact ⟨rfl, rfl⟩
  · exact ⟨rfl, rfl⟩

def UpToDate (r now : UInt64) (bucket : Option RateBucket) : Prop :=
  ∀ b, bucket = some b → now.toNat - b.lastRefill.toNat < r.toNat

theorem Account.refill (hr : 0 < r.toNat) (h : Account c r now.toNat (some bucket) es) :
    Account c r now.toNat (some (bucket.refill now)) es ∧
      UpToDate r now (some (bucket.refill now)) := by
  obtain ⟨hcap, hrate⟩ := h.limits bucket rfl
  obtain ⟨hcap', hrate'⟩ := refill_limits bucket now
  have hlims : ∀ b, some (bucket.refill now) = some b → b.capacity = c ∧ b.refillRate = r := by
    rintro b ⟨⟩
    exact ⟨hcap'.trans hcap, hrate'.trans hrate⟩
  by_cases hage : r.toNat ≤ now.toNat - bucket.lastRefill.toNat
  · have habs := refill_of_old bucket now (by rw [hrate]; exact hr)
      (by rw [hrate]; exact hage)
    rw [hcap, hrate] at habs
    refine ⟨⟨?_, hlims, h.covered⟩, ?_⟩
    · rw [Option.map_some, habs]
      exact h.metered.refill hage
    · rintro b ⟨⟩
      have hlast : (bucket.refill now).lastRefill.toNat = now.toNat := congrArg Bucket.last habs
      omega
  · have habs := refill_of_young bucket now (by rw [hrate]; exact Nat.lt_of_not_le hage)
    refine ⟨⟨?_, hlims, h.covered⟩, ?_⟩
    · rw [Option.map_some, habs]
      exact h.metered
    · rintro b ⟨⟩
      have hlast : (bucket.refill now).lastRefill.toNat = bucket.lastRefill.toNat :=
        congrArg Bucket.last habs
      omega

theorem Account.charge {cost : UInt64} (h : Account c r now.toNat (some bucket) es)
    (hup : UpToDate r now (some bucket)) (hcost : cost ≤ bucket.tokens) :
    Account c r now.toNat (some (bucket.charge cost))
        (.charged s now bucket.tokens cost :: es) ∧
      UpToDate r now (some (bucket.charge cost)) := by
  have hle := UInt64.le_iff_toNat_le.mp hcost
  refine ⟨⟨?_, ?_, ?_⟩, ?_⟩
  · have hpay := h.metered.pay (hup bucket rfl) hle
    rw [Option.map_some, RateBucket.abs, RateBucket.charge, UInt64.toNat_sub_of_le _ _ hcost]
    exact hpay
  · rintro b ⟨⟩
    exact h.limits bucket rfl
  · intro src t held cost' hm
    rcases mem_cons.mp hm with heq | hm
    · cases heq
      exact hcost
    · exact h.covered src t held cost' hm
  · rintro b ⟨⟩
    exact hup bucket rfl

theorem Account.countDrop (h : Account c r now.toNat (some bucket) es) :
    Account c r now.toNat (some bucket.countDrop) es :=
  ⟨h.metered, by rintro b ⟨⟩; exact h.limits bucket rfl, h.covered⟩

theorem Account.log {bucket : Option RateBucket} {e : Event} (he : e.payment = none)
    (h : Account c r now.toNat bucket es) : Account c r now.toNat bucket (e :: es) := by
  refine ⟨?_, h.limits, ?_⟩
  · rw [filterMap_cons_none he]
    exact h.metered
  · intro src t held cost hm
    rcases mem_cons.mp hm with rfl | hm
    · cases he
    · exact h.covered src t held cost hm

theorem Account.opening (hcfg : cfg.rateCapacity = c ∧ cfg.rateRefillNs = r) (hr : 0 < r.toNat)
    (h : Account c r now.toNat none es) :
    Account c r now.toNat (some (.opening cfg now)) (.opened s now :: es) ∧
      UpToDate r now (some (.opening cfg now)) := by
  refine ⟨⟨?_, ?_, ?_⟩, ?_⟩
  · have hfst := h.metered.first
    have htoks : (satSub cfg.rateCapacity 1).toNat = c.toNat - 1 := by
      rw [toNat_satSub, hcfg.1]
      rfl
    rw [Option.map_some, RateBucket.abs, RateBucket.opening, htoks]
    exact hfst
  · rintro b ⟨⟩
    exact hcfg
  · intro src t held cost hm
    rcases mem_cons.mp hm with heq | hm
    · cases heq
    · exact h.covered src t held cost hm
  · rintro b ⟨⟩
    show now.toNat - now.toNat < r.toNat
    omega

variable {m m' : Meter}

theorem one_le_of_ne_zero {x : UInt64} (h : x ≠ 0) : 1 ≤ x := by
  have hx : x.toNat ≠ 0 := fun h0 => h (UInt64.toNat_inj.mp h0)
  exact UInt64.le_iff_toNat_le.mpr (Nat.one_le_iff_ne_zero.mpr hx)

theorem Account.rated (hcfg : cfg.rateCapacity = c ∧ cfg.rateRefillNs = r) (hr : 0 < r.toNat)
    (hstep : Rated s cfg now m m') (h : Account c r now.toNat m.bucket es) :
    ∃ e, m'.events = e :: m.events ∧ e.payment = some ⟨now.toNat, 1⟩ ∧
      Account c r now.toNat m'.bucket (e :: es) ∧ UpToDate r now m'.bucket := by
  cases hstep with
  | opened => exact ⟨_, rfl, rfl, h.opening hcfg hr⟩
  | charged hne =>
    obtain ⟨href, hup⟩ := h.refill hr
    exact ⟨_, rfl, rfl, href.charge hup (one_le_of_ne_zero hne)⟩

theorem Account.flooded (hup : UpToDate r now m.bucket) (hstep : Flooded s now m m')
    (h : Account c r now.toNat m.bucket es) :
    ∃ es', m'.events = es' ++ m.events ∧ Account c r now.toNat m'.bucket (es' ++ es) := by
  cases hstep with
  | dropped => exact ⟨[], rfl, h.countDrop⟩
  | charged hten => exact ⟨[_], rfl, (h.charge hup (UInt64.not_lt.mp hten)).1⟩

theorem Account.step (hcfg : cfg.rateCapacity = c ∧ cfg.rateRefillNs = r) (hr : 0 < r.toNat)
    {synOnly : Prop} (hstep : MeterStep s cfg now synOnly m m')
    (h : Account c r now.toNat m.bucket es) :
    ∃ es', m'.events = es' ++ m.events ∧ Account c r now.toNat m'.bucket (es' ++ es) := by
  cases hstep with
  | idle => exact ⟨[], rfl, h⟩
  | limited hlim =>
    cases hlim with
    | limited hnil => exact ⟨[_], rfl, ((h.refill hr).1.countDrop).log rfl⟩
  | rated hra =>
    obtain ⟨e, he, -, hacc, -⟩ := h.rated hcfg hr hra
    exact ⟨[e], he, hacc⟩
  | flooded hsyn hra hfld =>
    obtain ⟨e, he, -, hacc, hup⟩ := h.rated hcfg hr hra
    obtain ⟨es', he', hacc'⟩ := hacc.flooded hup hfld
    refine ⟨es' ++ [e], ?_, ?_⟩
    · rw [he', he, append_assoc, singleton_append]
    · rw [append_assoc, singleton_append]
      exact hacc'

theorem Account.packet (hr : 0 < r.toNat) (p : Clock × Frame)
    (hcfg : st.readConfig.rateCapacity = c ∧ st.readConfig.rateRefillNs = r)
    (h : Account c r p.1.rateLimit.toNat (st.meter s).bucket es) :
    ∃ es', ((processPacket p.1 p.2 st).2.meter s).events = es' ++ (st.meter s).events ∧
      Account c r p.1.rateLimit.toNat ((processPacket p.1 p.2 st).2.meter s).bucket
        (es' ++ es) := by
  rcases processPacket_meter p.1 p.2 st s with heq | ⟨pkt, -, -, hstep⟩
  · rw [heq]
    exact ⟨[], rfl, h⟩
  · exact h.step hcfg hr hstep

theorem Account.run (hr : 0 < r.toNat) (ps : List (Clock × Frame))
    (hcfg : st.readConfig.rateCapacity = c ∧ st.readConfig.rateRefillNs = r)
    (hlast : ∀ p ∈ ps, t ≤ p.1.rateLimit.toNat)
    (hord : ps.Pairwise fun p q => p.1.rateLimit ≤ q.1.rateLimit)
    (h : Account c r t (st.meter s).bucket es) :
    ∃ es' t', ((runPackets ps st).meter s).events = es' ++ (st.meter s).events ∧
      Account c r t' ((runPackets ps st).meter s).bucket (es' ++ es) := by
  induction ps generalizing st t es with
  | nil => exact ⟨[], t, rfl, h⟩
  | cons p ps ih =>
    obtain ⟨es₁, he₁, h₁⟩ := (h.wait (hlast p (.head _))).packet hr p hcfg
    have hcfg₁ := processPacket_config p.1 p.2 st
    have hlast₁ : ∀ q ∈ ps, p.1.rateLimit.toNat ≤ q.1.rateLimit.toNat :=
      fun q hq => UInt64.le_iff_toNat_le.mp (rel_of_pairwise_cons hord hq)
    obtain ⟨es₂, t₂, he₂, h₂⟩ :=
      ih (by rw [hcfg₁]; exact hcfg) hlast₁ (pairwise_cons.mp hord).2 h₁
    refine ⟨es₂ ++ es₁, t₂, ?_, ?_⟩
    · rw [runPackets_cons, he₂, he₁, append_assoc]
    · rw [runPackets_cons, append_assoc]
      exact h₂

end Account

/-- A source that starts without a bucket never holds more than the capacity, is
never charged more than it holds, and in any window is charged at most a full
bucket, what the window refills and one token more. -/
theorem tokenBucket_sound {s : UInt32} {c r : UInt64} {st : Kernel} {ps : List (Clock × Frame)}
    (hr : 1 ≤ r) (hc : st.readConfig.rateCapacity = c) (hrate : st.readConfig.rateRefillNs = r)
    (hnew : st.rateLimit s = none) (hord : ps.Pairwise fun p q => p.1.rateLimit ≤ q.1.rateLimit) :
    (∀ bucket, (runPackets ps st).rateLimit s = some bucket → bucket.tokens ≤ c) ∧
    ∃ es, (runPackets ps st).history = es ++ st.history ∧
      (∀ now held cost, .charged s now held cost ∈ es → cost ≤ held) ∧
      ∀ a b, consumed s a b es ≤ max c.toNat 1 + (b - a) / r.toNat + 1 := by
  have hr' : 0 < r.toNat := UInt64.le_iff_toNat_le.mp hr
  have hst : Account c r 0 (st.meter s).bucket [] := by
    rw [Kernel.meter, hnew]
    exact Account.start c r 0
  obtain ⟨es', t, he', hacc⟩ := hst.run hr' ps ⟨hc, hrate⟩ (fun _ _ => Nat.zero_le _) hord
  rw [List.append_nil] at hacc
  obtain ⟨es, he⟩ := runPackets_history ps st
  have hes : es' = es.filter (Event.meters s) := Kernel.meter_suffix he he'
  refine ⟨?_, es, he, ?_, ?_⟩
  · intro bucket hb
    have habs : ((runPackets ps st).meter s).bucket.map RateBucket.abs = some bucket.abs := by
      rw [Kernel.meter, hb, Option.map_some]
    exact UInt64.le_iff_toNat_le.mpr (hacc.metered.tokens_le _ habs).1
  · intro now held cost hm
    apply hacc.covered s now held cost
    rw [hes, List.mem_filter]
    exact ⟨hm, beq_self_eq_true s⟩
  · intro a b
    rw [consumed_eq_spent, ← hes]
    exact hacc.metered.spent_le hr' a b

def twoPackets : List (Clock × Frame) :=
  [(.instant 5, icmpFrame 1 1 1 1), (.instant 27, icmpFrame 1 1 1 1)]

theorem tokenBucket_sound_twoPackets :
    (∀ bucket, (runPackets twoPackets
      (Kernel.boot (fun k => [k.toNat]) (limits 3 10))).rateLimit (le32 1 1 1 1) = some bucket →
        bucket.tokens ≤ 3) ∧
    ∃ es, (runPackets twoPackets (Kernel.boot (fun k => [k.toNat]) (limits 3 10))).history =
        es ++ (Kernel.boot (fun k => [k.toNat]) (limits 3 10)).history ∧
      (∀ now held cost, .charged (le32 1 1 1 1) now held cost ∈ es → cost ≤ held) ∧
      ∀ a b, consumed (le32 1 1 1 1) a b es ≤ max (3 : UInt64).toNat 1 +
        (b - a) / (10 : UInt64).toNat + 1 :=
  tokenBucket_sound (by decide) rfl rfl rfl (by decide)

end Falx
