import Mathlib.Algebra.Ring.Basic
import Mathlib.Tactic.Ring

/-! Values of polynomials that are given by their coefficients, the highest first. Where `x + x`
is zero, a remainder can be told from the values at the roots of the divisor. -/

namespace Horner

open List

variable {α R : Type} [CommRing R]

def horner (φ : α → R) (x : R) (cs : List α) : R := cs.foldl (fun v c => v * x + φ c) 0

def addInto (add : α → α → α) : List α → List α → List α
  | xs, [] => xs
  | [], _ => []
  | x :: xs, y :: ys => add x y :: addInto add xs ys

variable {φ : α → R} {x : R} {add : α → α → α}

theorem foldl_eq (v : R) (cs : List α) :
    cs.foldl (fun v c => v * x + φ c) v = v * x ^ cs.length + horner φ x cs := by
  induction cs generalizing v with
  | nil => simp [horner]
  | cons c cs ih =>
    rw [horner, foldl_cons, foldl_cons, ih, ih (0 * x + φ c), length_cons]
    ring

theorem horner_append (cs ds : List α) :
    horner φ x (cs ++ ds) = horner φ x cs * x ^ ds.length + horner φ x ds := by
  rw [horner, foldl_append, foldl_eq]
  rfl

theorem horner_cons (c : α) (cs : List α) :
    horner φ x (c :: cs) = φ c * x ^ cs.length + horner φ x cs := by
  have hone : horner φ x [c] = φ c := by simp [horner]
  rw [← hone, ← horner_append]
  rfl

theorem horner_replicate {z : α} (hz : φ z = 0) (n : Nat) : horner φ x (List.replicate n z) = 0 := by
  induction n with
  | zero => rfl
  | succ n ih => rw [replicate_succ, horner_cons, ih, hz, zero_mul, zero_add]

theorem horner_map {f : α → α} {m : R} (hf : ∀ c, φ (f c) = m * φ c) (cs : List α) :
    horner φ x (cs.map f) = m * horner φ x cs := by
  induction cs with
  | nil => simp [horner]
  | cons c cs ih =>
    rw [map_cons, horner_cons, horner_cons, ih, hf, length_map]
    ring

theorem length_addInto (xs ys : List α) : (addInto add xs ys).length = xs.length := by
  induction xs generalizing ys with
  | nil => cases ys <;> rfl
  | cons x xs ih =>
    cases ys with
    | nil => rfl
    | cons y ys => rw [addInto, length_cons, ih, length_cons]

theorem horner_addInto (hadd : ∀ a b, φ (add a b) = φ a + φ b) {xs ys : List α}
    (hle : ys.length ≤ xs.length) : horner φ x (addInto add xs ys) =
      horner φ x xs + horner φ x ys * x ^ (xs.length - ys.length) := by
  induction xs generalizing ys with
  | nil =>
    rw [length_eq_zero_iff.mp (Nat.le_zero.mp hle)]
    simp [addInto, horner]
  | cons a xs ih =>
    cases ys with
    | nil => simp [addInto, horner]
    | cons b ys =>
      have hle := Nat.le_of_succ_le_succ hle
      have hpow : x ^ xs.length = x ^ ys.length * x ^ (xs.length - ys.length) := by
        rw [← pow_add, Nat.add_sub_cancel' hle]
      rw [addInto, horner_cons, horner_cons, horner_cons, ih hle, length_addInto, hadd,
        length_cons, length_cons, Nat.add_sub_add_right, hpow]
      ring

/-- Long division by `1 :: g` without the quotient: the head is taken off, and its multiple of
`g` from what follows. -/
theorem horner_eliminate (htwo : ∀ v : R, v + v = 0) (hadd : ∀ a b, φ (add a b) = φ a + φ b)
    {mul : α → α → α} (hmul : ∀ a b, φ (mul a b) = φ a * φ b) {one c : α} (hone : φ one = 1)
    {g rest : List α} (hroot : horner φ x (one :: g) = 0) (hle : g.length ≤ rest.length) :
    horner φ x (addInto add rest (g.map (mul c))) = horner φ x (c :: rest) := by
  rw [horner_cons, hone, one_mul] at hroot
  have hg : horner φ x g = x ^ g.length := by
    rw [← add_zero (horner φ x g), ← htwo (x ^ g.length), ← add_assoc, add_comm (horner φ x g),
      hroot, zero_add]
  rw [horner_addInto hadd (by rwa [length_map]), horner_map (hmul c), hg, horner_cons,
    length_map, mul_assoc, ← pow_add, Nat.add_sub_cancel' hle, add_comm]

end Horner
