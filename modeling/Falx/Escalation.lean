import Mathlib

/-! A level that rises by one at every call, at least to a floor that comes with the call and
never above a cap, and what it has come to after a sequence of calls. -/

namespace Escalation

def raise (cap level floor : Nat) : Nat := max (min (level + 1) cap) (min floor cap)

/-- The level after the last of the calls: each floor has risen by one at every later call. -/
def reached (cap : Nat) (floors : List Nat) : Nat :=
  min cap ((Finset.range floors.length).sup fun j =>
    min (floors.getD j 0) cap + (floors.length - 1 - j))

variable {cap : Nat} {floors : List Nat}

theorem reached_le (cap : Nat) (floors : List Nat) : reached cap floors ≤ cap :=
  Nat.min_le_left _ _

theorem reached_singleton (cap floor : Nat) : reached cap [floor] = min floor cap := by
  simp [reached]

theorem sup_add_one {s : Finset Nat} (hs : s.Nonempty) (f : Nat → Nat) :
    s.sup (fun j => f j + 1) = s.sup f + 1 := by
  apply le_antisymm
  · refine Finset.sup_le fun j hj => ?_
    exact Nat.succ_le_succ (Finset.le_sup hj)
  · obtain ⟨j, hj, hmax⟩ := s.exists_mem_eq_sup hs f
    rw [hmax]
    exact Finset.le_sup (f := fun j => f j + 1) hj

theorem reached_concat (h : floors ≠ []) (floor : Nat) :
    reached cap (floors ++ [floor]) = raise cap (reached cap floors) floor := by
  have hlen : (floors ++ [floor]).length = floors.length + 1 := by simp
  have hlast : (floors ++ [floor]).getD floors.length 0 = floor := by simp
  have hpre : ∀ j ∈ Finset.range floors.length,
      min ((floors ++ [floor]).getD j 0) cap + (floors.length + 1 - 1 - j) =
        min (floors.getD j 0) cap + (floors.length - 1 - j) + 1 := by
    intro j hj
    have hj := Finset.mem_range.mp hj
    rw [List.getD_append _ _ _ _ hj]
    omega
  have hne : (Finset.range floors.length).Nonempty :=
    Finset.nonempty_range_iff.mpr (mt List.length_eq_zero_iff.mp h)
  rw [reached, hlen, Finset.range_add_one, Finset.sup_insert, hlast,
    Finset.sup_congr rfl hpre, sup_add_one hne, raise, reached]
  omega

end Escalation
