import Mathlib.Algebra.BigOperators.Group.List.Basic
import Mathlib.Algebra.Order.Group.Nat
import Mathlib.Algebra.Ring.Nat

/-! Token buckets that are refilled only when they are used. A refill adds one
token for each full period since the last refill, up to the capacity, and
forgets the rest of the elapsed time. The log lists the payments, latest
first. -/

namespace TokenBucket

structure Bucket where
  tokens : Nat
  last : Nat

structure Spend where
  now : Nat
  cost : Nat

def spent (a b : Nat) (log : List Spend) : Nat :=
  ((log.filter fun x => a ≤ x.now && x.now ≤ b).map Spend.cost).sum

def paidSince (a : Nat) (log : List Spend) : Nat := (log.filter fun x => a ≤ x.now).length

/-- At time `now` the bucket, if it was opened, has paid for `log`. It pays only
when no full period has passed since its last refill. -/
inductive Metered (capacity period : Nat) : Nat → Option Bucket → List Spend → Prop
  | idle {now : Nat} : Metered capacity period now none []
  | wait {now now' : Nat} {bucket : Option Bucket} {log : List Spend} (hle : now ≤ now')
      (h : Metered capacity period now bucket log) : Metered capacity period now' bucket log
  | first {now : Nat} {log : List Spend} (h : Metered capacity period now none log) :
      Metered capacity period now (some ⟨capacity - 1, now⟩) (⟨now, 1⟩ :: log)
  | refill {now : Nat} {bucket : Bucket} {log : List Spend} (hage : period ≤ now - bucket.last)
      (h : Metered capacity period now (some bucket) log) :
      Metered capacity period now
        (some ⟨min (bucket.tokens + (now - bucket.last) / period) capacity, now⟩) log
  | pay {now cost : Nat} {bucket : Bucket} {log : List Spend} (hage : now - bucket.last < period)
      (hcost : cost ≤ bucket.tokens) (h : Metered capacity period now (some bucket) log) :
      Metered capacity period now (some ⟨bucket.tokens - cost, bucket.last⟩) (⟨now, cost⟩ :: log)

theorem spent_cons (a b : Nat) (x : Spend) (log : List Spend) : spent a b (x :: log) =
    (if a ≤ x.now ∧ x.now ≤ b then x.cost else 0) + spent a b log := by
  by_cases h : a ≤ x.now ∧ x.now ≤ b
  · simp [spent, h]
  · have hout : (decide (a ≤ x.now) && decide (x.now ≤ b)) = false := by simpa using h
    simp [spent, hout, h]

variable {a b now : Nat}

theorem spent_cons_of_mem (ha : a ≤ now) (hb : now ≤ b) (cost : Nat) (log : List Spend) :
    spent a b (⟨now, cost⟩ :: log) = cost + spent a b log := by
  rw [spent_cons, if_pos ⟨ha, hb⟩]

theorem spent_cons_of_notMem (h : ¬ (a ≤ now ∧ now ≤ b)) (cost : Nat) (log : List Spend) :
    spent a b (⟨now, cost⟩ :: log) = spent a b log := by
  rw [spent_cons, if_neg h, Nat.zero_add]

theorem paidSince_cons_of_le (h : a ≤ now) (cost : Nat) (log : List Spend) :
    paidSince a (⟨now, cost⟩ :: log) = paidSince a log + 1 := by
  simp [paidSince, h]

section Metered

variable {capacity period now : Nat} {bucket : Option Bucket} {log : List Spend}

section

variable (h : Metered capacity period now bucket log)

include h

theorem Metered.log_eq_nil (hb : bucket = none) : log = [] := by
  induction h with
  | idle => rfl
  | wait hle h ih => exact ih hb
  | first h ih | refill hage h ih | pay hage hcost h ih => cases hb

theorem Metered.tokens_le : ∀ b, bucket = some b → b.tokens ≤ capacity ∧ b.last ≤ now := by
  induction h with
  | idle =>
    intro b hb
    cases hb
  | wait hle h ih =>
    intro b hb
    exact ⟨(ih b hb).1, (ih b hb).2.trans hle⟩
  | first h ih =>
    rintro b ⟨⟩
    exact ⟨Nat.sub_le _ _, le_rfl⟩
  | refill hage h ih =>
    rintro b ⟨⟩
    exact ⟨Nat.min_le_right _ _, le_rfl⟩
  | pay hage hcost h ih =>
    rintro b ⟨⟩
    obtain ⟨htoks, hlast⟩ := ih _ rfl
    exact ⟨(Nat.sub_le _ _).trans htoks, hlast⟩

theorem Metered.log_now_le : ∀ x ∈ log, x.now ≤ now := by
  induction h with
  | idle =>
    intro x hx
    cases hx
  | wait hle h ih =>
    intro x hx
    exact (ih x hx).trans hle
  | first h ih =>
    intro x hx
    rcases List.mem_cons.mp hx with rfl | hx
    · exact le_rfl
    · exact ih x hx
  | refill hage h ih => exact ih
  | pay hage hcost h ih =>
    intro x hx
    rcases List.mem_cons.mp hx with rfl | hx
    · exact le_rfl
    · exact ih x hx

end

/-- What the window has been paid is covered by a full bucket and the refills
since the start of the window, with the tokens still held to spare. -/
def Covered (capacity period a b now : Nat) (bucket : Option Bucket) (log : List Spend) : Prop :=
  spent a b log = 0 ∨
    (b < now ∧ spent a b log ≤ max capacity 1 + (b - a) / period + 1) ∨
    (now ≤ b ∧ ∃ v, bucket = some v ∧ a < v.last + period ∧
      spent a b log + v.tokens ≤ max capacity 1 + (v.last + period - a) / period)

variable {a b horizon : Nat} {v : Bucket}

theorem Covered.spent_le (hperiod : 0 < period) (hlast : ∀ v, bucket = some v → v.last ≤ now)
    (h : Covered capacity period a b now bucket log) :
    spent a b log ≤ max capacity 1 + (b - a) / period + 1 := by
  rcases h with h | ⟨-, h⟩ | ⟨hb, v, hv, -, h⟩
  · rw [h]
    exact Nat.zero_le _
  · exact h
  · have hle : v.last + period - a ≤ b - a + period := by
      have := hlast v hv
      omega
    have hdiv := Nat.div_le_div_right hle (c := period)
    rw [Nat.add_div_right _ hperiod] at hdiv
    omega

theorem Covered.wait {now' : Nat} (hperiod : 0 < period) (hle : now ≤ now')
    (hlast : ∀ v, bucket = some v → v.last ≤ now) (h : Covered capacity period a b now bucket log) :
    Covered capacity period a b now' bucket log := by
  have hspent := h.spent_le hperiod hlast
  by_cases hb : b < now'
  · exact .inr (.inl ⟨hb, hspent⟩)
  · rcases h with hs | ⟨hlt, -⟩ | ⟨-, hv⟩
    · exact .inl hs
    · omega
    · exact .inr (.inr ⟨Nat.le_of_not_lt hb, hv⟩)

theorem Covered.first (a b : Nat) (hperiod : 0 < period) :
    Covered capacity period a b now (some ⟨capacity - 1, now⟩) [⟨now, 1⟩] := by
  by_cases hw : a ≤ now ∧ now ≤ b
  · refine .inr (.inr ⟨hw.2, _, rfl, by simp only; omega, ?_⟩)
    have hfull : 1 + (capacity - 1) ≤ max capacity 1 := by omega
    rw [spent_cons_of_mem hw.1 hw.2]
    exact hfull.trans (Nat.le_add_right _ _)
  · rw [Covered, spent_cons_of_notMem hw]
    exact .inl rfl

theorem Covered.refill (hlast : v.last ≤ now) (h : Covered capacity period a b now (some v) log) :
    Covered capacity period a b now
      (some ⟨min (v.tokens + (now - v.last) / period) capacity, now⟩) log := by
  rcases h with hs | hs | ⟨hb, v', hv, hst, hsum⟩
  · exact .inl hs
  · exact .inr (.inl hs)
  · obtain rfl := Option.some.inj hv
    refine .inr (.inr ⟨hb, _, rfl, by simp only; omega, ?_⟩)
    have hadd : (v.last + period - a) / period + (now - v.last) / period ≤
        (v.last + period - a + (now - v.last)) / period := Nat.div_add_div_le_add_div
    have heq : v.last + period - a + (now - v.last) = now + period - a := by omega
    rw [heq] at hadd
    simp only
    omega

theorem Covered.pay {cost : Nat} (htoks : v.tokens ≤ capacity) (hage : now - v.last < period)
    (hcost : cost ≤ v.tokens) (h : Covered capacity period a b now (some v) log) :
    Covered capacity period a b now (some ⟨v.tokens - cost, v.last⟩) (⟨now, cost⟩ :: log) := by
  by_cases hw : a ≤ now ∧ now ≤ b
  · refine .inr (.inr ⟨hw.2, _, rfl, by simp only; omega, ?_⟩)
    rw [spent_cons_of_mem hw.1 hw.2]
    rcases h with hs | ⟨hlt, -⟩ | ⟨-, v', hv, -, hsum⟩
    · have hheld : cost + 0 + (v.tokens - cost) ≤ max capacity 1 := by omega
      rw [hs]
      exact hheld.trans (Nat.le_add_right _ _)
    · omega
    · obtain rfl := Option.some.inj hv
      simp only
      omega
  · rw [Covered, spent_cons_of_notMem hw]
    rcases h with hs | hs | ⟨hb, v', hv, hst, hsum⟩
    · exact .inl hs
    · exact .inr (.inl hs)
    · obtain rfl := Option.some.inj hv
      exact .inr (.inr ⟨hb, _, rfl, hst, by simp only; omega⟩)

section

variable (h : Metered capacity period now bucket log) (hperiod : 0 < period)

include h hperiod

theorem Metered.covered (a b : Nat) : Covered capacity period a b now bucket log := by
  induction h with
  | idle => exact .inl rfl
  | wait hle h ih => exact ih.wait hperiod hle fun v hv => (h.tokens_le v hv).2
  | first h ih =>
    obtain rfl := h.log_eq_nil rfl
    exact Covered.first a b hperiod
  | refill hage h ih => exact ih.refill (h.tokens_le _ rfl).2
  | pay hage hcost h ih => exact ih.pay (h.tokens_le _ rfl).1 hage hcost

/-- In any window the bucket pays at most a full bucket, what the length of the
window refills, and one token more. -/
theorem Metered.spent_le (a b : Nat) : spent a b log ≤ max capacity 1 + (b - a) / period + 1 :=
  (h.covered hperiod a b).spent_le hperiod fun v hv => (h.tokens_le v hv).2

end

/-- No interval holds more arrivals than a full bucket and what its length
refills. -/
def Conforming (capacity period : Nat) (times : List Nat) : Prop :=
  ∀ a b, (times.filter fun t => a ≤ t && t ≤ b).length ≤ capacity + (b - a) / period

theorem Conforming.sublist {times times' : List Nat} (h : Conforming capacity period times)
    (hsub : times'.Sublist times) : Conforming capacity period times' := by
  intro a b
  exact (hsub.filter _).length_le.trans (h a b)

/-- Since the anchor, when the bucket was last full, it has been credited `credit`
tokens, and up to the horizon that is all the elapsed time is worth. -/
def Anchored (capacity period horizon : Nat) (v : Bucket) (log : List Spend) : Prop :=
  ∃ anchor credit, anchor ≤ v.last ∧
    (∀ t ≤ horizon, v.last ≤ t → t < v.last + period → (t - anchor) / period ≤ credit) ∧
    capacity + credit ≤ v.tokens + paidSince anchor log

theorem Anchored.of_full {now tokens : Nat} {log : List Spend}
    (hfull : capacity ≤ tokens + paidSince now log) :
    Anchored capacity period horizon ⟨tokens, now⟩ log := by
  refine ⟨now, 0, le_rfl, ?_, hfull⟩
  intro t _ hle hlt
  simp only at hle hlt
  have hsm : (t - now) / period = 0 := Nat.div_eq_of_lt (by omega)
  exact hsm.le

theorem Anchored.refill {now : Nat} {log : List Spend}
    (hcond : capacity = 1 ∨ period = 1 ∨ horizon < 2 * period) (hperiod : 0 < period)
    (hage : period ≤ now - v.last) (h : Anchored capacity period horizon v log) :
    Anchored capacity period horizon
      ⟨min (v.tokens + (now - v.last) / period) capacity, now⟩ log := by
  have hadd : 1 ≤ (now - v.last) / period := (Nat.one_le_div_iff hperiod).mpr hage
  by_cases hfull : capacity ≤ v.tokens + (now - v.last) / period
  · rw [Nat.min_eq_right hfull]
    exact Anchored.of_full (Nat.le_add_right _ _)
  · obtain ⟨anchor, credit, hanc, hwo, hheld⟩ := h
    rw [Nat.min_eq_left (Nat.le_of_not_le hfull)]
    refine ⟨anchor, credit + (now - v.last) / period, by simp only; omega, ?_, by simp only; omega⟩
    intro t ht hle hlt
    simp only at hle hlt
    rcases hcond with hcond | hcond | hcond
    · omega
    · have hlast := hwo v.last (by omega) le_rfl (by omega)
      subst hcond
      omega
    · have hone : (t - anchor) / period < 2 := (Nat.div_lt_iff_lt_mul hperiod).mpr (by omega)
      omega

theorem Metered.anchored (h : Metered capacity period now bucket log)
    (hcond : capacity = 1 ∨ period = 1 ∨ horizon < 2 * period) (hperiod : 0 < period)
    (hcap : 0 < capacity) (hunit : ∀ x ∈ log, x.cost = 1) :
    ∀ v, bucket = some v → Anchored capacity period horizon v log := by
  induction h with
  | idle =>
    intro v hv
    cases hv
  | wait hle h ih => exact ih hunit
  | @first now log h ih =>
    rintro v ⟨⟩
    apply Anchored.of_full
    rw [paidSince_cons_of_le le_rfl]
    omega
  | refill hage h ih =>
    rintro v ⟨⟩
    exact (ih hunit _ rfl).refill hcond hperiod hage
  | @pay now cost bucket log hage hcost h ih =>
    rintro v ⟨⟩
    have hlast := (h.tokens_le _ rfl).2
    have hone : cost = 1 := hunit ⟨now, cost⟩ (.head _)
    obtain ⟨anchor, credit, hanc, hwo, hheld⟩ :=
      ih (fun x hx => hunit x (.tail _ hx)) _ rfl
    refine ⟨anchor, credit, hanc, hwo, ?_⟩
    rw [paidSince_cons_of_le (hanc.trans hlast)]
    simp only
    omega

theorem Metered.tokens_pos (h : Metered capacity period now (some v) log)
    (hcond : capacity = 1 ∨ period = 1 ∨ horizon < 2 * period) (hperiod : 0 < period)
    (hcap : 0 < capacity) (hnow : now ≤ horizon) (hage : now - v.last < period)
    (hunit : ∀ x ∈ log, x.cost = 1)
    (hconf : Conforming capacity period (now :: log.map Spend.now)) : 0 < v.tokens := by
  have hlast := (h.tokens_le v rfl).2
  obtain ⟨anchor, credit, hanc, hwo, hheld⟩ := h.anchored hcond hperiod hcap hunit v rfl
  have hcredit := hwo now hnow hlast (by omega)
  have hpaid : (log.map Spend.now).filter (fun t => anchor ≤ t && t ≤ now) =
      (log.filter fun x => anchor ≤ x.now).map Spend.now := by
    rw [List.filter_map]
    congr 1
    apply List.filter_congr
    intro x hx
    simp [h.log_now_le x hx]
  have hcnt := hconf anchor now
  rw [List.filter_cons_of_pos (by simp [hanc.trans hlast]), hpaid, List.length_cons,
    List.length_map] at hcnt
  simp only [paidSince] at hheld
  omega

end Metered

section Comparison

variable {capacity period now : Nat} {a b : Bucket} {d : Nat}

def Bucket.refill (capacity period now : Nat) (b : Bucket) : Bucket :=
  if 0 < (now - b.last) / period then
    ⟨min (b.tokens + (now - b.last) / period) capacity, now⟩
  else b

def served (capacity period : Nat) : List Nat → Bucket → Nat
  | [], _ => 0
  | now :: ts, b =>
    let b := b.refill capacity period now
    if b.tokens = 0 then served capacity period ts b
    else served capacity period ts ⟨b.tokens - 1, b.last⟩ + 1

/-- With `d` requests to its credit, `a` will serve as many as `b`: it has been refilled no
later and holds no fewer tokens, or else it holds one more for less than a period of delay. -/
def Ahead (period d : Nat) (a b : Bucket) : Prop :=
  (b.tokens ≤ a.tokens + d ∧ a.last ≤ b.last) ∨
    (b.tokens + 1 ≤ a.tokens + d ∧ b.last < a.last ∧ a.last < b.last + period)

theorem div_le_div_add_one {x y : Nat} (h : x ≤ y + period) : x / period ≤ y / period + 1 := by
  by_cases hp : period = 0
  · simp [hp]
  · calc x / period ≤ (y + period) / period := Nat.div_le_div_right h
      _ = y / period + 1 := Nat.add_div_right y (Nat.pos_of_ne_zero hp)

theorem Ahead.refill (h : Ahead period d a b) (hb : b.tokens < capacity) (hna : a.last ≤ now)
    (hnb : b.last ≤ now) :
    Ahead period d (a.refill capacity period now) (b.refill capacity period now) := by
  simp only [Bucket.refill]
  rcases h with ⟨htoks, hlast⟩ | ⟨htoks, hlast, hnear⟩
  · have hmore : (now - b.last) / period ≤ (now - a.last) / period :=
      Nat.div_le_div_right (by omega)
    by_cases hkb : 0 < (now - b.last) / period
    · rw [if_pos hkb, if_pos (by omega)]
      exact .inl ⟨by simp only; omega, le_refl _⟩
    · rw [if_neg hkb]
      by_cases hka : 0 < (now - a.last) / period
      · rw [if_pos hka]
        have hperiod : 0 < period := Nat.pos_of_ne_zero fun hz => by simp [hz] at hka
        have hyoung : now - b.last < period := by
          by_contra hold
          exact hkb (Nat.div_pos (Nat.not_lt.mp hold) hperiod)
        by_cases hsame : b.last = now
        · exact .inl ⟨by simp only; omega, hsame.ge⟩
        · exact .inr ⟨by simp only; omega, by simp only; omega, by simp only; omega⟩
      · rw [if_neg hka]
        exact .inl ⟨htoks, hlast⟩
  · have hless : (now - a.last) / period ≤ (now - b.last) / period :=
      Nat.div_le_div_right (by omega)
    have hone : (now - b.last) / period ≤ (now - a.last) / period + 1 :=
      div_le_div_add_one (by omega)
    by_cases hkb : 0 < (now - b.last) / period
    · rw [if_pos hkb]
      by_cases hka : 0 < (now - a.last) / period
      · rw [if_pos hka]
        exact .inl ⟨by simp only; omega, le_refl _⟩
      · rw [if_neg hka]
        exact .inl ⟨by simp only; omega, hna⟩
    · rw [if_neg hkb, if_neg (by omega)]
      exact .inr ⟨htoks, hlast, hnear⟩

theorem Bucket.refill_last_le (h : b.last ≤ now) : (b.refill capacity period now).last ≤ now := by
  rw [refill]
  split
  · exact le_refl _
  · exact h

theorem Bucket.refill_tokens_le (h : b.tokens ≤ capacity) :
    (b.refill capacity period now).tokens ≤ capacity := by
  rw [refill]
  split
  · exact Nat.min_le_right _ _
  · exact h

section

variable (h : Ahead period d a b)

include h

theorem Ahead.serve_first : Ahead period (d + 1) ⟨a.tokens - 1, a.last⟩ b := by
  simp only [Ahead] at h ⊢
  omega

theorem Ahead.serve_second (ha : a.tokens = 0) (hb : b.tokens ≠ 0) :
    1 ≤ d ∧ Ahead period (d - 1) a ⟨b.tokens - 1, b.last⟩ := by
  simp only [Ahead] at h ⊢
  omega

theorem Ahead.serve_both (ha : a.tokens ≠ 0) (hb : b.tokens ≠ 0) :
    Ahead period d ⟨a.tokens - 1, a.last⟩ ⟨b.tokens - 1, b.last⟩ := by
  simp only [Ahead] at h ⊢
  omega

theorem served_le_of_ahead {ts : List Nat} {last : Nat}
    (hb : b.tokens < capacity) (hla : a.last ≤ last) (hlb : b.last ≤ last)
    (hclk : (last :: ts).Pairwise (· ≤ ·)) :
    served capacity period ts b ≤ served capacity period ts a + d := by
  induction ts generalizing a b d last with
  | nil => exact Nat.zero_le _
  | cons now ts ih =>
    obtain ⟨hfst, hrest⟩ := List.pairwise_cons.mp hclk
    have hnow : last ≤ now := hfst now (.head _)
    have hah := h.refill hb (hla.trans hnow) (hlb.trans hnow)
    have hla' : (a.refill capacity period now).last ≤ now := Bucket.refill_last_le (hla.trans hnow)
    have hlb' : (b.refill capacity period now).last ≤ now := Bucket.refill_last_le (hlb.trans hnow)
    have htb : (b.refill capacity period now).tokens ≤ capacity := Bucket.refill_tokens_le hb.le
    simp only [served]
    generalize a.refill capacity period now = a' at hah hla' ⊢
    generalize b.refill capacity period now = b' at hah hlb' htb ⊢
    -- a request that only one of the two serves moves the credit by one
    by_cases hzb : b'.tokens = 0
    · rw [if_pos hzb]
      by_cases hza : a'.tokens = 0
      · rw [if_pos hza]
        exact ih hah (by omega) hla' hlb' hrest
      · rw [if_neg hza]
        have hle := ih hah.serve_first (by omega) hla' hlb' hrest
        omega
    · rw [if_neg hzb]
      by_cases hza : a'.tokens = 0
      · rw [if_pos hza]
        obtain ⟨hpos, hcredit⟩ := hah.serve_second hza hzb
        have hle := ih hcredit (by simp only; omega) hla' hlb' hrest
        omega
      · rw [if_neg hza]
        have hle := ih (hah.serve_both hza hzb) (by simp only; omega) hla' hlb' hrest
        omega

end

end Comparison

end TokenBucket
