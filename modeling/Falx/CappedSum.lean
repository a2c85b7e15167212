import Mathlib.Algebra.BigOperators.Fin
import Mathlib.Algebra.Order.BigOperators.Group.Finset

/-! Counters that stop at a bound. A counter kept in several places and added up
under the same bound behaves as one such counter. -/

namespace CappedSum

theorem foldl_add {α : Type} {add : α → α → α} {f : α → Nat} {cap : Nat}
    (hadd : ∀ a b, f (add a b) = min (f a + f b) cap) (l : List α) (z : α) (hz : f z ≤ cap) :
    f (l.foldl add z) = min (f z + (l.map f).sum) cap := by
  induction l generalizing z with
  | nil =>
    simp only [List.foldl_nil, List.map_nil, List.sum_nil]
    omega
  | cons a l ih =>
    have hstep := hadd z a
    rw [List.foldl_cons, ih (add z a) (by omega), List.map_cons, List.sum_cons]
    omega

variable {ι : Type} [Fintype ι] [DecidableEq ι]

theorem sum_update_add (v : ι → Nat) (i : ι) (b : Nat) :
    (∑ j, Function.update v i b j) + v i = (∑ j, v j) + b := by
  have hsp := Finset.sum_erase_add Finset.univ v (Finset.mem_univ i)
  rw [Finset.sum_update_of_mem (Finset.mem_univ i), Finset.sdiff_singleton_eq_erase]
  omega

theorem min_sum_update (v : ι → Nat) (i : ι) (t cap : Nat) :
    min (∑ j, Function.update v i (min (v i + t) cap) j) cap =
      min (min (∑ j, v j) cap + t) cap := by
  have hsum := sum_update_add v i (min (v i + t) cap)
  have hle : v i ≤ ∑ j, v j := Finset.single_le_sum (fun j _ => Nat.zero_le (v j)) (Finset.mem_univ i)
  omega

end CappedSum
