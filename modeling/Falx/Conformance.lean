import Falx.RateLimit

/-! Sources that keep to the configured rate. A refill forgets the part of the
elapsed time that does not make a whole token, and a source that spaces its
packets just short of two periods loses almost every other token it has earned.
Only where a refill cannot lose anything is every conforming source served. -/

namespace Falx

open List Words TokenBucket

def arrivals (s : UInt32) (ps : List (Clock × Frame)) : List Nat :=
  ps.filterMap fun p => if ipv4Source p.2 = some s then some p.1.rateLimit.toNat else none

def NoSynOnly (s : UInt32) (ps : List (Clock × Frame)) : Prop :=
  ∀ p ∈ ps, ∀ pkt, parsePacket p.2 = some pkt → ipv4Source p.2 = some s →
    TcpFlags.isSynOnly pkt.tcpFlags = false

/-- No source that conforms to capacity `c` and refill period `r` is ever limited. -/
def RateConformance (c r : UInt64) : Prop :=
  ∀ (s : UInt32) (st : Kernel) (ps : List (Clock × Frame)),
    st.readConfig.rateCapacity = c → st.readConfig.rateRefillNs = r → st.rateLimit s = none →
    (ps.Pairwise fun p q => p.1.rateLimit ≤ q.1.rateLimit) → NoSynOnly s ps →
    Conforming c.toNat r.toNat (arrivals s ps) →
    ∀ es, (runPackets ps st).history = es ++ st.history → ∀ now, .limited s now ∉ es

structure Served (s : UInt32) (c r : UInt64) (t : Nat) (bucket : Option RateBucket)
    (es : List Event) (seen : List Nat) : Prop where
  account : Account c r t bucket es
  unit : ∀ x ∈ es.filterMap Event.payment, x.cost = 1
  unlimited : ∀ now, .limited s now ∉ es
  times : ((es.filterMap Event.payment).map Spend.now).Sublist seen

section Served

variable {s : UInt32} {c r : UInt64} {es : List Event} {seen : List Nat} {now : UInt64}

variable {t : Nat} {bucket : Option RateBucket} {st : Kernel}

theorem Served.wait {t' : Nat} (h : Served s c r t bucket es seen) (hle : t ≤ t') :
    Served s c r t' bucket es seen :=
  ⟨h.account.wait hle, h.unit, h.unlimited, h.times⟩

theorem Served.skip (h : Served s c r t bucket es seen) (x : Nat) :
    Served s c r t bucket es (x :: seen) :=
  ⟨h.account, h.unit, h.unlimited, h.times.cons x⟩

variable (hcond : c.toNat = 1 ∨ r.toNat = 1 ∨ 2 ^ 64 - 1 < 2 * r.toNat) (hc : 0 < c.toNat)
  (hr : 0 < r.toNat)

include hcond hc hr

theorem Served.refill_tokens_pos {bucket : RateBucket}
    (h : Served s c r now.toNat (some bucket) es seen)
    (hconf : Conforming c.toNat r.toNat (now.toNat :: seen)) : (bucket.refill now).tokens ≠ 0 := by
  obtain ⟨hacc, hup⟩ := h.account.refill hr
  have hnow := now.toNat_lt
  have hpos := hacc.metered.tokens_pos hcond hr hc (by omega) (hup _ rfl) h.unit
    (hconf.sublist (h.times.cons_cons _))
  intro h0
  simp [RateBucket.abs, h0] at hpos

theorem Served.step {cfg : FalxMapConfig} {m m' : Meter} {synOnly : Prop}
    (hcfg : cfg.rateCapacity = c ∧ cfg.rateRefillNs = r) (hsyn : ¬ synOnly)
    (hconf : Conforming c.toNat r.toNat (now.toNat :: seen))
    (hstep : MeterStep s cfg now synOnly m m') (h : Served s c r now.toNat m.bucket es seen) :
    ∃ es', m'.events = es' ++ m.events ∧
      Served s c r now.toNat m'.bucket (es' ++ es) (now.toNat :: seen) := by
  cases hstep with
  | idle => exact ⟨[], rfl, h.skip _⟩
  | limited hlim =>
    cases hlim with
    | limited hnil => exact absurd hnil (h.refill_tokens_pos hcond hc hr hconf)
  | rated hra =>
    obtain ⟨e, he, hpay, hacc, -⟩ := h.account.rated hcfg hr hra
    refine ⟨[e], he, hacc, ?_, ?_, ?_⟩
    · intro x hx
      rw [singleton_append, filterMap_cons_some hpay] at hx
      rcases mem_cons.mp hx with rfl | hx
      · rfl
      · exact h.unit x hx
    · intro t hm
      rcases mem_cons.mp hm with rfl | hm
      · cases hpay
      · exact h.unlimited t hm
    · rw [singleton_append, filterMap_cons_some hpay, map_cons]
      exact h.times.cons_cons _
  | flooded hyes _ _ => exact absurd hyes hsyn

theorem Served.packet {p : Clock × Frame} {ps : List (Clock × Frame)}
    (hcfg : st.readConfig.rateCapacity = c ∧ st.readConfig.rateRefillNs = r)
    (hsyn : NoSynOnly s (p :: ps))
    (hconf : Conforming c.toNat r.toNat ((arrivals s (p :: ps)).reverse ++ seen))
    (h : Served s c r p.1.rateLimit.toNat (st.meter s).bucket es seen) :
    ∃ es' seen', ((processPacket p.1 p.2 st).2.meter s).events = es' ++ (st.meter s).events ∧
      Served s c r p.1.rateLimit.toNat ((processPacket p.1 p.2 st).2.meter s).bucket
        (es' ++ es) seen' ∧
      (arrivals s (p :: ps)).reverse ++ seen = (arrivals s ps).reverse ++ seen' := by
  by_cases hsrc : ipv4Source p.2 = some s
  · have hti : (arrivals s (p :: ps)).reverse ++ seen =
        (arrivals s ps).reverse ++ (p.1.rateLimit.toNat :: seen) := by simp [arrivals, hsrc]
    rcases processPacket_meter p.1 p.2 st s with heq | ⟨pkt, hp, -, hstep⟩
    · rw [heq]
      exact ⟨[], _, rfl, h.skip _, hti⟩
    · have hno := hsyn p (.head _) pkt hp hsrc
      rw [hti] at hconf
      obtain ⟨es', he', h'⟩ := h.step hcond hc hr hcfg (by simp [hno])
        (hconf.sublist (sublist_append_right _ _)) hstep
      exact ⟨es', _, he', h', hti⟩
  · have hti : (arrivals s (p :: ps)).reverse ++ seen =
        (arrivals s ps).reverse ++ seen := by simp [arrivals, hsrc]
    rcases processPacket_meter p.1 p.2 st s with heq | ⟨pkt, -, hsrc', -⟩
    · rw [heq]
      exact ⟨[], _, rfl, h, hti⟩
    · exact absurd hsrc' hsrc

theorem Served.run (ps : List (Clock × Frame))
    (hcfg : st.readConfig.rateCapacity = c ∧ st.readConfig.rateRefillNs = r)
    (hlast : ∀ p ∈ ps, t ≤ p.1.rateLimit.toNat)
    (hord : ps.Pairwise fun p q => p.1.rateLimit ≤ q.1.rateLimit) (hsyn : NoSynOnly s ps)
    (hconf : Conforming c.toNat r.toNat ((arrivals s ps).reverse ++ seen))
    (h : Served s c r t (st.meter s).bucket es seen) :
    ∃ es' t' seen', ((runPackets ps st).meter s).events = es' ++ (st.meter s).events ∧
      Served s c r t' ((runPackets ps st).meter s).bucket (es' ++ es) seen' := by
  induction ps generalizing st t es seen with
  | nil => exact ⟨[], t, seen, rfl, h⟩
  | cons p ps ih =>
    have hcfg₁ : (processPacket p.1 p.2 st).2.readConfig.rateCapacity = c ∧
        (processPacket p.1 p.2 st).2.readConfig.rateRefillNs = r := by
      rw [processPacket_config]
      exact hcfg
    have hlast₁ : ∀ q ∈ ps, p.1.rateLimit.toNat ≤ q.1.rateLimit.toNat :=
      fun q hq => UInt64.le_iff_toNat_le.mp (rel_of_pairwise_cons hord hq)
    have hord₁ := (pairwise_cons.mp hord).2
    have hsyn₁ : NoSynOnly s ps := fun q hq => hsyn q (.tail _ hq)
    have hwait := h.wait (hlast p (.head _))
    obtain ⟨es₁, seen₁, he₁, h₁, hti⟩ := hwait.packet hcond hc hr hcfg hsyn hconf
    rw [hti] at hconf
    obtain ⟨es₂, t₂, seen₂, he₂, h₂⟩ := ih hcfg₁ hlast₁ hord₁ hsyn₁ hconf h₁
    refine ⟨es₂ ++ es₁, t₂, seen₂, ?_, ?_⟩
    · rw [runPackets_cons, he₂, he₁, append_assoc]
    · rw [runPackets_cons, append_assoc]
      exact h₂

theorem rateConformance_of_lossless : RateConformance c r := by
  intro s st ps hcap hrate hnew hord hsyn hconf es he now hm
  have hst : Served s c r 0 (st.meter s).bucket [] [] := by
    rw [Kernel.meter, hnew]
    refine ⟨Account.start c r 0, ?_, ?_, List.Sublist.refl _⟩
    · intro x hx
      cases hx
    · intro t ht
      cases ht
  have hconf' : Conforming c.toNat r.toNat ((arrivals s ps).reverse ++ []) := by
    intro a b
    rw [append_nil, filter_reverse, length_reverse]
    exact hconf a b
  obtain ⟨es', t, seen, he', hsrv⟩ := hst.run hcond hc hr ps ⟨hcap, hrate⟩
    (fun _ _ => Nat.zero_le _) hord hsyn hconf'
  have hes : es' = es.filter (Event.meters s) := Kernel.meter_suffix he he'
  apply hsrv.unlimited now
  rw [append_nil, hes, mem_filter]
  exact ⟨hm, beq_self_eq_true s⟩

end Served

section Starved

def unguarded (c r : UInt64) : FalxMapConfig := { limits c r with failsafeEnabled := 0 }

def oneAddr : UInt32 := le32 1 1 1 1

abbrev pinged (now : UInt64) (st : Kernel) : Kernel :=
  (processPacket (.instant now) (icmpFrame 1 1 1 1) st).2

structure Held (c r : UInt64) (tokens last : Nat) (st : Kernel) : Prop where
  config : st.readConfig = unguarded c r
  bloom : st.bloomFilter.contains oneAddr = false
  bucket : ∃ b, st.rateLimit oneAddr = some b ∧ b.capacity = c ∧ b.refillRate = r ∧
    b.abs = ⟨tokens, last⟩

variable {c r : UInt64} {tokens last : Nat} {st : Kernel}

theorem limiter_icmpFrame (now : UInt64) (hcfg : st.readConfig = unguarded c r)
    (hbl : st.bloomFilter.contains oneAddr = false) :
    (Rated oneAddr (unguarded c r) now (st.meter oneAddr) ((pinged now st).meter oneAddr) ∧
      (pinged now st).bloomFilter.contains oneAddr = false) ∨
    Limited oneAddr now (st.meter oneAddr) ((pinged now st).meter oneAddr) := by
  have h := processPacket_unimpeded (.instant now) st
    (parsePacket_icmpFrame 1 1 1 1) rfl (by decide) (by decide) (by rw [hcfg]; rfl)
    (by rw [hcfg]; exact (show (1 : UInt8) ≠ 0 by decide)) hbl
  rw [hcfg] at h
  exact h

theorem held_of_opened (now : UInt64) (hcfg : st.readConfig = unguarded c r)
    (hbl : st.bloomFilter.contains oneAddr = false) (hnew : st.rateLimit oneAddr = none) :
    Held c r (c.toNat - 1) now.toNat (pinged now st) := by
  have hm : st.meter oneAddr = ⟨none, (st.meter oneAddr).events⟩ := by rw [← hnew]; rfl
  have hcfg' := (processPacket_config (.instant now) (icmpFrame 1 1 1 1) st).trans hcfg
  have h := limiter_icmpFrame now hcfg hbl
  rw [hm] at h
  generalize hy : (pinged now st).meter oneAddr = m at h
  rcases h with ⟨hra, hbl'⟩ | hlim
  · cases hra with
    | opened =>
      refine ⟨hcfg', hbl', _, congrArg Meter.bucket hy, rfl, rfl, ?_⟩
      rw [RateBucket.abs, RateBucket.opening, toNat_satSub]
      rfl
  · cases hlim

section

variable (h : Held c r tokens last st)

include h

theorem Held.next (now : UInt64) :
    ∃ b : RateBucket, b.capacity = c ∧ b.refillRate = r ∧ b.abs = ⟨tokens, last⟩ ∧
      (((b.refill now).tokens ≠ 0 ∧
          (pinged now st).rateLimit oneAddr = some ((b.refill now).charge 1) ∧
          (pinged now st).bloomFilter.contains oneAddr = false) ∨
        ((b.refill now).tokens = 0 ∧ .limited oneAddr now ∈ (pinged now st).history)) := by
  obtain ⟨b, hb, hcap, hrate, habs⟩ := h.bucket
  have hm : st.meter oneAddr = ⟨some b, (st.meter oneAddr).events⟩ := by rw [← hb]; rfl
  have hnext := limiter_icmpFrame now h.config h.bloom
  refine ⟨b, hcap, hrate, habs, ?_⟩
  rw [hm] at hnext
  generalize hy : (pinged now st).meter oneAddr = m at hnext
  rcases hnext with ⟨hra, hbl⟩ | hlim
  · cases hra with
    | charged hne => exact .inl ⟨hne, congrArg Meter.bucket hy, hbl⟩
  · cases hlim with
    | limited hnil =>
      have hmem : Event.limited oneAddr now ∈ ((pinged now st).meter oneAddr).events := by
        rw [hy]
        exact .head _
      exact .inr ⟨hnil, (mem_filter.mp hmem).1⟩

theorem Held.pass (now : UInt64) {tokens' last' : Nat}
    (href : ∀ b : RateBucket, b.capacity = c → b.refillRate = r → b.abs = ⟨tokens, last⟩ →
      (b.refill now).abs = ⟨tokens' + 1, last'⟩) :
    Held c r tokens' last' (pinged now st) := by
  obtain ⟨b, hcap, hrate, habs, hnext⟩ := h.next now
  have hr := href b hcap hrate habs
  have htoks : (b.refill now).tokens.toNat = tokens' + 1 := congrArg Bucket.tokens hr
  have hlast : (b.refill now).lastRefill.toNat = last' := congrArg Bucket.last hr
  have hlims := refill_limits b now
  rcases hnext with ⟨hne, hbucket, hbl⟩ | ⟨hnil, -⟩
  · refine ⟨(processPacket_config _ _ st).trans h.config, hbl, _, hbucket,
      hlims.1.trans hcap, hlims.2.trans hrate, ?_⟩
    have hone := one_le_of_ne_zero hne
    rw [RateBucket.abs, RateBucket.charge, UInt64.toNat_sub_of_le _ _ hone, htoks]
    simp only [hlast]
    rfl
  · rw [hnil, UInt64.toNat_zero] at htoks
    omega

theorem Held.starve (now : UInt64)
    (href : ∀ b : RateBucket, b.capacity = c → b.refillRate = r → b.abs = ⟨tokens, last⟩ →
      (b.refill now).tokens = 0) :
    .limited oneAddr now ∈ (pinged now st).history := by
  obtain ⟨b, hcap, hrate, habs, ⟨hne, -⟩ | ⟨-, hlim⟩⟩ := h.next now
  · exact absurd (href b hcap hrate habs) hne
  · exact hlim

end

theorem Held.drain (n : Nat) (hr : 0 < r.toNat) (h : Held c r n 0 st) :
    Held c r 0 0 (runPackets (List.replicate n (.instant 0, icmpFrame 1 1 1 1)) st) := by
  induction n generalizing st with
  | zero => exact h
  | succ n ih =>
    apply ih
    apply h.pass
    intro b _ hrate habs
    rw [refill_of_young b 0 (by rw [hrate, UInt64.toNat_zero]; omega), habs]

def starvingRun (c r : UInt64) : List (Clock × Frame) :=
  List.replicate c.toNat (.instant 0, icmpFrame 1 1 1 1) ++
    [(.instant (2 * r - 1), icmpFrame 1 1 1 1), (.instant (2 * r), icmpFrame 1 1 1 1)]

theorem toNat_two_mul (hr : r.toNat < 2 ^ 63) : (2 * r).toNat = 2 * r.toNat := by
  rw [UInt64.toNat_mul]
  exact Nat.mod_eq_of_lt (by simp only [UInt64.reduceToNat]; omega)

theorem toNat_two_mul_sub_one (hpos : 0 < r.toNat) (hr : r.toNat < 2 ^ 63) :
    (2 * r - 1).toNat = 2 * r.toNat - 1 := by
  have hle : (1 : UInt64) ≤ 2 * r := by
    rw [UInt64.le_iff_toNat_le, toNat_two_mul hr]
    simp only [UInt64.reduceToNat]
    omega
  rw [UInt64.toNat_sub_of_le _ _ hle, toNat_two_mul hr]
  rfl

theorem arrivals_starvingRun (hpos : 0 < r.toNat) (hr : r.toNat < 2 ^ 63) :
    arrivals oneAddr (starvingRun c r) =
      List.replicate c.toNat 0 ++ [2 * r.toNat - 1, 2 * r.toNat] := by
  have hsrc : ipv4Source (icmpFrame 1 1 1 1) = some oneAddr := by
    rw [ipv4Source, if_pos (etherType_icmpFrame 1 1 1 1), parsePacket_icmpFrame]
    rfl
  simp [arrivals, starvingRun, hsrc, filterMap_append, Clock.instant, toNat_two_mul hr,
    toNat_two_mul_sub_one hpos hr]

theorem conforming_starvingRun {c r : Nat} (hc : 2 ≤ c) (hr : 0 < r) :
    Conforming c r (List.replicate c 0 ++ [2 * r - 1, 2 * r]) := by
  intro a b
  rw [filter_append, length_append]
  by_cases ha : a = 0
  · subst ha
    have hfst := length_filter_le (fun t => decide (0 ≤ t) && decide (t ≤ b))
      (List.replicate c 0)
    rw [length_replicate] at hfst
    by_cases hb : 2 * r ≤ b
    · have htwo : 2 ≤ (b - 0) / r := (Nat.le_div_iff_mul_le hr).mpr (by omega)
      have hlast := length_filter_le (fun t => decide (0 ≤ t) && decide (t ≤ b))
        [2 * r - 1, 2 * r]
      simp only [length_cons, length_nil] at hlast
      omega
    · have hlast : ([2 * r - 1, 2 * r].filter fun t => decide (0 ≤ t) && decide (t ≤ b)).length =
          if 2 * r - 1 ≤ b then 1 else 0 := by
        by_cases hb' : 2 * r - 1 ≤ b
        · simp [hb, hb']
        · simp [hb, hb']
      rw [hlast]
      by_cases hb' : 2 * r - 1 ≤ b
      · have hone : 1 ≤ (b - 0) / r := (Nat.le_div_iff_mul_le hr).mpr (by omega)
        rw [if_pos hb']
        omega
      · rw [if_neg hb']
        exact hfst.trans (Nat.le_add_right _ _)
  · have hfst : (List.replicate c 0).filter (fun t => decide (a ≤ t) && decide (t ≤ b)) = [] := by
      rw [filter_eq_nil_iff]
      intro t ht
      rw [eq_of_mem_replicate ht]
      simp [ha]
    have hlast := length_filter_le (fun t => decide (a ≤ t) && decide (t ≤ b))
      [2 * r - 1, 2 * r]
    rw [hfst, length_nil, Nat.zero_add]
    exact (hlast.trans hc).trans (Nat.le_add_right _ _)

theorem starvingRun_ordered (hpos : 0 < r.toNat) (hr : r.toNat < 2 ^ 63) :
    (starvingRun c r).Pairwise fun p q => p.1.rateLimit ≤ q.1.rateLimit := by
  rw [starvingRun, pairwise_append]
  refine ⟨pairwise_replicate.mpr (.inr (UInt64.le_refl 0)), ?_, ?_⟩
  · rw [pairwise_pair]
    show 2 * r - 1 ≤ 2 * r
    rw [UInt64.le_iff_toNat_le, toNat_two_mul hr, toNat_two_mul_sub_one hpos hr]
    omega
  · intro p hp q _
    rw [eq_of_mem_replicate hp]
    exact UInt64.le_iff_toNat_le.mpr (Nat.zero_le _)

theorem noSynOnly_starvingRun : NoSynOnly oneAddr (starvingRun c r) := by
  intro p hp pkt hpkt _
  have hfm : p.2 = icmpFrame 1 1 1 1 := by
    rcases mem_append.mp hp with hp | hp
    · rw [eq_of_mem_replicate hp]
    · rcases mem_cons.mp hp with rfl | hp
      · rfl
      · rw [mem_singleton.mp hp]
  rw [hfm, parsePacket_icmpFrame] at hpkt
  rw [← Option.some.inj hpkt]
  decide

theorem Held.refilled (hc : 0 < c.toNat) (hpos : 0 < r.toNat) (hr : r.toNat < 2 ^ 63)
    (h : Held c r 0 0 st) : Held c r 0 (2 * r.toNat - 1) (pinged (2 * r - 1) st) := by
  apply h.pass
  intro b hcap hrate habs
  have htoks : b.tokens.toNat = 0 := congrArg Bucket.tokens habs
  have hlast : b.lastRefill.toNat = 0 := congrArg Bucket.last habs
  have hnow := toNat_two_mul_sub_one hpos hr
  have hdiv : (2 * r.toNat - 1) / r.toNat = 1 := by
    rw [Nat.div_eq_iff hpos]
    omega
  rw [refill_of_old b _ (by rw [hrate]; exact hpos) (by rw [hrate, hnow, hlast]; omega)]
  rw [htoks, hlast, hnow, hcap, hrate, Nat.sub_zero, hdiv, Nat.min_eq_left (by omega)]

theorem Held.limited (hr : 2 ≤ r.toNat) (hr' : r.toNat < 2 ^ 63)
    (h : Held c r 0 (2 * r.toNat - 1) st) :
    .limited oneAddr (2 * r) ∈ (pinged (2 * r) st).history := by
  apply h.starve
  intro b _ hrate habs
  have hlast : b.lastRefill.toNat = 2 * r.toNat - 1 := congrArg Bucket.last habs
  have hyoung := refill_of_young b (2 * r) (by rw [hrate, toNat_two_mul hr', hlast]; omega)
  exact UInt64.toNat_inj.mp (congrArg Bucket.tokens (hyoung.trans habs))

theorem starvingRun_limited (hc : 0 < c.toNat) (hr : 2 ≤ r.toNat) (hr' : r.toNat < 2 ^ 63)
    (hcfg : st.readConfig = unguarded c r) (hbl : st.bloomFilter.contains oneAddr = false)
    (hnew : st.rateLimit oneAddr = none) :
    .limited oneAddr (2 * r) ∈ (runPackets (starvingRun c r) st).history := by
  have hpos : 0 < r.toNat := by omega
  have hdrained : Held c r 0 0
      (runPackets (List.replicate c.toNat (.instant 0, icmpFrame 1 1 1 1)) st) := by
    obtain ⟨n, hn⟩ : ∃ n, c.toNat = n + 1 := ⟨c.toNat - 1, by omega⟩
    have hopen := held_of_opened 0 hcfg hbl hnew
    rw [hn, Nat.add_sub_cancel] at hopen
    rw [hn, replicate_succ, runPackets_cons]
    exact hopen.drain n hpos
  rw [starvingRun, runPackets_append, runPackets_cons, runPackets_cons]
  exact (hdrained.refilled hc hpos hr').limited hr hr'

theorem not_rateConformance (hc : 2 ≤ c.toNat) (hr : 2 ≤ r.toNat) (hr' : r.toNat < 2 ^ 63) :
    ¬ RateConformance c r := by
  intro h
  let st := Kernel.boot (fun k => [k.toNat]) (unguarded c r)
  have hconf : Conforming c.toNat r.toNat (arrivals oneAddr (starvingRun c r)) := by
    rw [arrivals_starvingRun (by omega) hr']
    exact conforming_starvingRun hc (by omega)
  have hrun : (runPackets (starvingRun c r) st).history =
      (runPackets (starvingRun c r) st).history ++ st.history := (append_nil _).symm
  have hlim : .limited oneAddr (2 * r) ∈ (runPackets (starvingRun c r) st).history :=
    starvingRun_limited (by omega) hr hr' rfl rfl rfl
  exact h oneAddr st (starvingRun c r) rfl rfl rfl (starvingRun_ordered (by omega) hr')
    noSynOnly_starvingRun hconf _ hrun (2 * r) hlim

/-- Every conforming source is served exactly when one token fills the bucket,
every nanosecond is worth a token, or there is no time for a second refill. -/
theorem rateConformance_iff {c r : UInt64} (hc : 1 ≤ c) (hr : 1 ≤ r) :
    RateConformance c r ↔ c = 1 ∨ r = 1 ∨ 0x8000000000000000 ≤ r := by
  have hc' : 1 ≤ c.toNat := UInt64.le_iff_toNat_le.mp hc
  have hr' : 1 ≤ r.toNat := UInt64.le_iff_toNat_le.mp hr
  have hcond : c = 1 ∨ r = 1 ∨ 0x8000000000000000 ≤ r ↔
      c.toNat = 1 ∨ r.toNat = 1 ∨ 2 ^ 64 - 1 < 2 * r.toNat := by
    rw [← UInt64.toNat_inj, ← UInt64.toNat_inj, UInt64.le_iff_toNat_le]
    simp only [UInt64.reduceToNat]
    omega
  rw [hcond]
  constructor
  · intro h
    by_contra hne
    exact not_rateConformance (by omega) (by omega) (by omega) h
  · intro h
    exact rateConformance_of_lossless h hc' hr'

theorem rateConformance_iff_thousand :
    RateConformance 1000 1000000 ↔
      (1000 : UInt64) = 1 ∨ (1000000 : UInt64) = 1 ∨ 0x8000000000000000 ≤ (1000000 : UInt64) :=
  rateConformance_iff (by decide) (by decide)

/-- Two packets at once, one after 19 ns and one after 20 ns, with two tokens and
10 ns a token. -/
theorem rateConformance_fails : ¬ RateConformance 2 10 :=
  not_rateConformance (by decide) (by decide) (by decide)

end Starved

end Falx
