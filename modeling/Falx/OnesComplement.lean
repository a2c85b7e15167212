import Mathlib.Algebra.BigOperators.Group.List.Basic
import Mathlib.Algebra.Ring.Nat

/-! One's-complement sums of 16-bit words. Addition with end-around carry is
addition modulo 65535, except that a nonzero sum is never represented by 0. -/

namespace OnesComplement

def fold (s : Nat) : Nat := s % 65536 + s / 65536

def add (a b : Nat) : Nat := fold (a + b)

def sum (ws : List Nat) : Nat := ws.foldl add 0

def swap (w : Nat) : Nat := w % 256 * 256 + w / 256

theorem fold_mod (s : Nat) : fold s % 65535 = s % 65535 := by
  simp only [fold]
  omega

theorem fold_eq_zero (s : Nat) : fold s = 0 ↔ s = 0 := by
  simp only [fold]
  omega

variable {s a b : Nat} {ws : List Nat}

theorem fold_fold_le (h : s < 2 ^ 32) : fold (fold s) ≤ 65535 := by
  simp only [fold]
  omega

theorem fold_fold_eq_ffff (h : s < 2 ^ 32) : fold (fold s) = 65535 ↔ s ≠ 0 ∧ s % 65535 = 0 := by
  have hle := fold_fold_le h
  have hmod : fold (fold s) % 65535 = s % 65535 := by rw [fold_mod, fold_mod]
  have hzero : fold (fold s) = 0 ↔ s = 0 := by rw [fold_eq_zero, fold_eq_zero]
  omega

theorem fold_fold_sub_eq_ffff {r : Nat} (ha : a < 2 ^ 32) (hr : r < 2 ^ 32) :
    fold (fold ((2 ^ 32 + a - r) % 2 ^ 32)) = 65535 ↔
      r < a ∧ (a - r) % 65535 = 0 ∨ a < r ∧ (r - a) % 65535 = 1 := by
  rw [fold_fold_eq_ffff (Nat.mod_lt _ (by decide))]
  by_cases hborrow : r ≤ a
  · obtain ⟨d, rfl⟩ : ∃ d, a = r + d := ⟨a - r, by omega⟩
    have hv : (2 ^ 32 + (r + d) - r) % 2 ^ 32 = d := by omega
    rw [hv]
    omega
  · obtain ⟨d, rfl⟩ : ∃ d, r = a + d := ⟨r - a, by omega⟩
    have hv : (2 ^ 32 + a - (a + d)) % 2 ^ 32 = 2 ^ 32 - d := by omega
    rw [hv]
    omega

theorem add_le (ha : a ≤ 65535) (hb : b ≤ 65535) : add a b ≤ 65535 := by
  simp only [add, fold]
  omega

theorem foldl_add_spec (hws : ∀ w ∈ ws, w ≤ 65535) {acc : Nat} (hacc : acc ≤ 65535) :
    ws.foldl add acc ≤ 65535 ∧ ws.foldl add acc % 65535 = (acc + ws.sum) % 65535 ∧
      (ws.foldl add acc = 0 ↔ acc + ws.sum = 0) := by
  induction ws generalizing acc with
  | nil => simp [hacc]
  | cons w ws ih =>
    have hw : w ≤ 65535 := hws w (by simp)
    obtain ⟨hle, hmod, hzero⟩ := ih (fun x hx => hws x (by simp [hx])) (add_le hacc hw)
    have hm := fold_mod (acc + w)
    have hz := fold_eq_zero (acc + w)
    simp only [List.foldl_cons, List.sum_cons]
    change (add acc w) % 65535 = _ at hm
    change add acc w = 0 ↔ _ at hz
    refine ⟨hle, ?_, ?_⟩
    · omega
    · omega

theorem sum_eq_ffff_iff (hws : ∀ w ∈ ws, w ≤ 65535) :
    sum ws = 65535 ↔ ws.sum % 65535 = 0 ∧ ws.sum ≠ 0 := by
  obtain ⟨hle, hmod, hzero⟩ := foldl_add_spec hws (Nat.zero_le 65535)
  change sum ws ≤ _ at hle
  change sum ws % _ = _ at hmod
  change sum ws = 0 ↔ _ at hzero
  omega

theorem swap_swap {w : Nat} (h : w < 65536) : swap (swap w) = w := by
  simp only [swap]
  omega

theorem swap_mod (w : Nat) : swap w % 65535 = 256 * w % 65535 := by
  simp only [swap]
  omega

/-- Replacing the summands `a` and `p` of a valid sum by `b` and `q` with an
incremental update of the check word. The update subtracts on 32-bit words, and
takes `p` and `q` with their bytes exchanged relative to the other summands. -/
theorem incremental_update_iff {p q c c' s' : Nat} (hs : s % 65535 = 0) (hp : p < 65536)
    (hq : q < 65536) (hc : c < 65536) (ha : a ≤ 131070) (hb : b ≤ 131070)
    (hc' : c' = 65535 - fold (fold ((2 ^ 32 + (65535 + b + q) - (c + a + p)) % 2 ^ 32)))
    (hsum : (s' + a + 256 * p + c) % 65535 = (s + b + 256 * q + c') % 65535) :
    s' % 65535 = 0 ↔ c + a + p ≤ 65535 + b + q ∧
      (q % 256 + p / 256) % 257 = (p % 256 + q / 256) % 257 := by
  have hle := fold_fold_le
    (Nat.mod_lt (2 ^ 32 + (65535 + b + q) - (c + a + p)) (by decide : 0 < 2 ^ 32))
  have hmod : fold (fold ((2 ^ 32 + (65535 + b + q) - (c + a + p)) % 2 ^ 32)) % 65535 =
      (2 ^ 32 + (65535 + b + q) - (c + a + p)) % 2 ^ 32 % 65535 := by rw [fold_mod, fold_mod]
  generalize fold (fold ((2 ^ 32 + (65535 + b + q) - (c + a + p)) % 2 ^ 32)) = t at *
  by_cases hborrow : c + a + p ≤ 65535 + b + q
  · have hv : (2 ^ 32 + (65535 + b + q) - (c + a + p)) % 2 ^ 32 =
        65535 + b + q - (c + a + p) := by omega
    rw [hv] at hmod
    have hdiff : (s' + 255 * p) % 65535 = 255 * q % 65535 := by omega
    omega
  · have hv : (2 ^ 32 + (65535 + b + q) - (c + a + p)) % 2 ^ 32 =
        2 ^ 32 + (65535 + b + q) - (c + a + p) := by omega
    rw [hv] at hmod
    have hdiff : (s' + 255 * p + 1) % 65535 = 255 * q % 65535 := by omega
    omega

/-- Completing a sum with the byte-swapped complement works exactly when the
two bytes of the folded sum are equal, which is divisibility by 257. -/
theorem swapped_complement_iff (hs : s < 2 ^ 32) (hpos : s ≠ 0) :
    (s + swap (65535 - fold (fold s))) % 65535 = 0 ↔ s % 257 = 0 := by
  have hle := fold_fold_le hs
  have hne : fold (fold s) ≠ 0 := by
    rw [Ne, fold_eq_zero, fold_eq_zero]
    exact hpos
  have hmod : fold (fold s) % 65535 = s % 65535 := by rw [fold_mod, fold_mod]
  generalize fold (fold s) = t at *
  have hsp : s % 257 = t % 257 := by omega
  rw [hsp]
  simp only [swap]
  omega

end OnesComplement
