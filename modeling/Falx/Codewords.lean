import Mathlib.Data.List.Basic
import Mathlib.Tactic.Ring

/-! Numbers as bits, the most significant first, and blocks of codewords that are interleaved:
first the first codeword of every block, then the second ones, and so on. -/

namespace Codewords

open List

def toBits (v : Nat) : Nat → List Bool
  | 0 => []
  | n + 1 => v.testBit n :: toBits v n

def ofBits (bits : List Bool) : Nat := bits.foldl (fun v b => 2 * v + b.toNat) 0

theorem length_toBits (v n : Nat) : (toBits v n).length = n := by
  induction n with
  | zero => rfl
  | succ n ih => rw [toBits, length_cons, ih]

theorem foldl_toBits (v w n : Nat) :
    (toBits v n).foldl (fun v b => 2 * v + b.toNat) w = w * 2 ^ n + v % 2 ^ n := by
  induction n generalizing w with
  | zero => simp [toBits, Nat.mod_one]
  | succ n ih =>
    have hbit : v % 2 ^ (n + 1) = (v.testBit n).toNat * 2 ^ n + v % 2 ^ n := by
      rw [Nat.mod_pow_succ, Nat.toNat_testBit, Nat.mul_comm, Nat.add_comm]
    rw [toBits, foldl_cons, ih, hbit, Nat.pow_succ]
    ring

theorem ofBits_toBits {v n : Nat} (h : v < 2 ^ n) : ofBits (toBits v n) = v := by
  rw [ofBits, foldl_toBits, Nat.zero_mul, Nat.zero_add, Nat.mod_eq_of_lt h]

section Blocks

variable {α : Type}

def interleave (n : Nat) (blocks : List (List α)) : List α :=
  (List.range n).flatMap fun i => blocks.filterMap (·[i]?)

def deal : List Nat → List α → List (List α) × List α
  | [], cs => ([], cs)
  | 0 :: sizes, cs => ([] :: (deal sizes cs).1, (deal sizes cs).2)
  | _ :: sizes, cs => (cs.take 1 :: (deal sizes (cs.drop 1)).1, (deal sizes (cs.drop 1)).2)

def deinterleave : Nat → List Nat → List α → List (List α)
  | 0, sizes, _ => sizes.map fun _ => []
  | n + 1, sizes, cs => List.zipWith (· ++ ·) (deal sizes cs).1
      (deinterleave n (sizes.map (· - 1)) (deal sizes cs).2)

theorem interleave_succ (n : Nat) (blocks : List (List α)) :
    interleave (n + 1) blocks = blocks.filterMap (·[0]?) ++ interleave n (blocks.map List.tail) := by
  rw [interleave, interleave, range_succ_eq_map, flatMap_cons, flatMap_map]
  simp only [filterMap_map, Function.comp_def, List.getElem?_tail]

theorem deal_heads (blocks : List (List α)) (rest : List α) :
    deal (blocks.map List.length) (blocks.filterMap (·[0]?) ++ rest) =
      (blocks.map (List.take 1), rest) := by
  induction blocks with
  | nil => rfl
  | cons b blocks ih =>
    cases b with
    | nil | cons c b => simp [deal, ih]

theorem deinterleave_interleave {n : Nat} {blocks : List (List α)}
    (h : ∀ b ∈ blocks, b.length ≤ n) (rest : List α) :
    deinterleave n (blocks.map List.length) (interleave n blocks ++ rest) = blocks := by
  induction n generalizing blocks with
  | zero =>
    rw [deinterleave, map_map]
    exact (map_congr_left fun b hb =>
      (length_eq_zero_iff.mp (Nat.le_zero.mp (h b hb))).symm).trans (map_id _)
  | succ n ih =>
    have htails : (blocks.map List.tail).map List.length = (blocks.map List.length).map (· - 1) := by
      simp [Function.comp_def]
    have hrest := @ih (blocks.map List.tail) (fun t ht => by
      obtain ⟨b, hb, rfl⟩ := mem_map.mp ht
      have hle := h b hb
      rw [length_tail]
      omega)
    rw [deinterleave, interleave_succ, append_assoc, deal_heads, ← htails, hrest,
      zipWith_map, zipWith_self]
    refine (map_congr_left fun b _ => ?_).trans (map_id _)
    cases b <;> rfl

end Blocks

end Codewords
