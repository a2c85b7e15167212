import Mathlib.Algebra.BigOperators.Group.List.Basic
import Mathlib.Algebra.Order.Group.Nat
import Mathlib.Algebra.Ring.Nat

/-! Counting in tumbling windows. The counter starts again with the first tick
that comes a period or more after the window began. When every tick is admitted
below a threshold, an interval as long as the period meets at most two windows
and therefore holds at most twice the threshold. -/

namespace TumblingWindow

structure Tick where
  now : Nat
  weight : Nat
  start : Nat

def load (p : Tick → Bool) (ts : List Tick) : Nat := ((ts.filter p).map Tick.weight).sum

def within (a period : Nat) (t : Tick) : Bool := a ≤ t.now && t.now < a + period

def inWindow (w : Nat) (t : Tick) : Bool := t.start == w

/-- The ticks are admitted in order by a counter whose last tick was at `last` and
which has counted `count` in the window that began at `start`. -/
inductive Admitted (period threshold : Nat) : Nat → Nat → Nat → List Tick → Prop
  | nil {last start count : Nat} : Admitted period threshold last start count []
  | stay {last start count now weight : Nat} {ts : List Tick} (hlast : last ≤ now)
      (hage : now - start < period) (hle : count + weight ≤ threshold)
      (hts : Admitted period threshold now start (count + weight) ts) :
      Admitted period threshold last start count (⟨now, weight, start⟩ :: ts)
  | restart {last start count now weight : Nat} {ts : List Tick} (hlast : last ≤ now)
      (hage : period ≤ now - start) (hle : weight ≤ threshold)
      (hts : Admitted period threshold now now weight ts) :
      Admitted period threshold last start count (⟨now, weight, now⟩ :: ts)

variable {a period w now weight start bound count : Nat} {t : Tick} {p : Tick → Bool}
  {ts : List Tick}

theorem le_of_within (h : within a period t = true) : a ≤ t.now := by
  simp only [within, Bool.and_eq_true, decide_eq_true_eq] at h
  exact h.1

theorem within_of_late (h : a + period ≤ t.now) : within a period t = false := by
  simp [within, Nat.not_lt.mpr h]

theorem eq_of_inWindow (h : inWindow w ⟨now, weight, start⟩ = true) : start = w :=
  eq_of_beq h

theorem inWindow_of_ne (h : t.start ≠ w) : inWindow w t = false :=
  beq_eq_false_iff_ne.mpr h

theorem load_nil (p : Tick → Bool) : load p [] = 0 := rfl

theorem load_cons_of_pos (h : p t = true) (ts : List Tick) :
    load p (t :: ts) = t.weight + load p ts := by
  simp [load, h]

theorem load_cons_of_neg (h : p t = false) (ts : List Tick) : load p (t :: ts) = load p ts := by
  simp [load, h]

theorem load_cons_le (hpos : p ⟨now, weight, start⟩ = true → weight + load p ts ≤ bound)
    (hneg : load p ts ≤ bound) : load p (⟨now, weight, start⟩ :: ts) ≤ bound := by
  cases h : p ⟨now, weight, start⟩ with
  | true =>
    rw [load_cons_of_pos h]
    exact hpos h
  | false =>
    rw [load_cons_of_neg h]
    exact hneg

theorem add_load_cons_le (h : count + weight + load p ts ≤ bound) :
    count + load p (⟨now, weight, start⟩ :: ts) ≤ bound := by
  have hhead : load p (⟨now, weight, start⟩ :: ts) ≤ weight + load p ts :=
    load_cons_le (fun _ => le_refl _) (Nat.le_add_left _ _)
  omega

theorem Admitted.of_le {threshold last last' : Nat}
    (h : Admitted period threshold last' start count ts) (hle : last ≤ last') :
    Admitted period threshold last start count ts := by
  cases h with
  | nil => exact .nil
  | stay hlast hage hle' hts => exact .stay (hle.trans hlast) hage hle' hts
  | restart hlast hage hle' hts => exact .restart (hle.trans hlast) hage hle' hts

theorem load_map_eq_countP {α : Type} {f : α → Tick} (hf : ∀ x, (f x).weight = 1)
    (p : Tick → Bool) (xs : List α) : load p (xs.map f) = xs.countP (fun x => p (f x)) := by
  induction xs with
  | nil => rfl
  | cons x xs ih =>
    rw [List.map_cons, List.countP_cons]
    cases hx : p (f x) with
    | true =>
      rw [load_cons_of_pos hx, hf, ih, if_pos rfl, Nat.add_comm]
    | false =>
      rw [load_cons_of_neg hx, ih]
      rfl

section Interval

variable {period threshold last start count a : Nat} {ts : List Tick}

section

variable (h : Admitted period threshold last start count ts)

include h

theorem Admitted.load_eq_zero_of_late (hlate : a + period ≤ last) :
    load (within a period) ts = 0 := by
  induction h with
  | nil => exact load_nil _
  | stay hlast hage hle hts ih | restart hlast hage hle hts ih =>
    rw [load_cons_of_neg (within_of_late (hlate.trans hlast))]
    exact ih (hlate.trans hlast)

theorem Admitted.add_load_le_of_started (hperiod : 0 < period) (hst : a ≤ start)
    (hcnt : count ≤ threshold) : count + load (within a period) ts ≤ threshold := by
  induction h with
  | nil => exact hcnt
  | stay hlast hage hle hts ih => exact add_load_cons_le (ih hst hle)
  | @restart last start count now weight ts hlast hage hle hts ih =>
    have hlate : load (within a period) ts = 0 := hts.load_eq_zero_of_late (by omega)
    rw [load_cons_of_neg (within_of_late (show a + period ≤ now by omega)), hlate]
    exact hcnt

theorem Admitted.add_load_le_of_reached (hperiod : 0 < period) (hat : a ≤ last)
    (hcnt : count ≤ threshold) : count + load (within a period) ts ≤ 2 * threshold := by
  induction h with
  | nil =>
    rw [load_nil]
    omega
  | stay hlast hage hle hts ih => exact add_load_cons_le (ih (hat.trans hlast) hle)
  | restart hlast hage hle hts ih =>
    have hrest := hts.add_load_le_of_started hperiod (hat.trans hlast) hle
    exact add_load_cons_le (by omega)

theorem Admitted.load_within_le (hperiod : 0 < period) (a : Nat) :
    load (within a period) ts ≤ 2 * threshold := by
  induction h with
  | nil => exact Nat.zero_le _
  | stay hlast hage hle hts ih =>
    refine load_cons_le (fun hin => ?_) ih
    have hrest := hts.add_load_le_of_reached hperiod (le_of_within hin) hle
    omega
  | restart hlast hage hle hts ih =>
    refine load_cons_le (fun hin => ?_) ih
    exact hts.add_load_le_of_reached hperiod (le_of_within hin) hle

end

end Interval

section Window

variable {period threshold last start count w : Nat} {ts : List Tick}

section

variable (h : Admitted period threshold last start count ts) (hperiod : 0 < period)

include h hperiod

theorem Admitted.load_inWindow_eq_zero (hw : w < start) : load (inWindow w) ts = 0 := by
  induction h with
  | nil => exact load_nil _
  | stay hlast hage hle hts ih =>
    rw [load_cons_of_neg (inWindow_of_ne (by simp only; omega))]
    exact ih hw
  | restart hlast hage hle hts ih =>
    rw [load_cons_of_neg (inWindow_of_ne (by simp only; omega))]
    exact ih (by omega)

theorem Admitted.add_load_inWindow_le (hcnt : count ≤ threshold) :
    count + load (inWindow start) ts ≤ threshold := by
  induction h with
  | nil => exact hcnt
  | stay hlast hage hle hts ih => exact add_load_cons_le (ih hle)
  | @restart last start count now weight ts hlast hage hle hts ih =>
    have hlt : load (inWindow start) ts = 0 := hts.load_inWindow_eq_zero hperiod (by omega)
    rw [load_cons_of_neg (inWindow_of_ne (by simp only; omega)), hlt]
    exact hcnt

theorem Admitted.load_inWindow_le (w : Nat) : load (inWindow w) ts ≤ threshold := by
  induction h with
  | nil => exact Nat.zero_le _
  | stay hlast hage hle hts ih =>
    refine load_cons_le (fun hin => ?_) ih
    have hrest := hts.add_load_inWindow_le hperiod hle
    rw [eq_of_inWindow hin] at hrest
    omega
  | restart hlast hage hle hts ih =>
    refine load_cons_le (fun hin => ?_) ih
    have hrest := hts.add_load_inWindow_le hperiod hle
    rwa [eq_of_inWindow hin] at hrest

end

end Window

end TumblingWindow
