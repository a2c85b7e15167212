import Mathlib.Data.List.Basic
import Mathlib.Data.List.Perm.Basic

/-! Queries that keep some rows of a table and return them in an order. The order may
leave ties, so an answer is any sorted arrangement of the kept rows; the first row of an
answer with a property is then a best row with it. -/

namespace RankedQuery

variable {ρ : Type}

structure Answers (keep : ρ → Bool) (before : ρ → ρ → Prop) (rows out : List ρ) : Prop where
  perm : out.Perm (rows.filter keep)
  sorted : out.Pairwise before

structure Selection (keep : ρ → Bool) (before : ρ → ρ → Prop) where
  select : List ρ → List ρ
  answers : ∀ rows, Answers keep before rows (select rows)

def Selection.ofMergeSort (keep : ρ → Bool) (le : ρ → ρ → Bool)
    (htrans : ∀ a b c, le a b = true → le b c = true → le a c = true)
    (htotal : ∀ a b, (le a b || le b a) = true) : Selection keep fun a b => le a b = true where
  select rows := (rows.filter keep).mergeSort le
  answers _ := ⟨List.mergeSort_perm _ le, List.pairwise_mergeSort htrans htotal _⟩

variable {keep : ρ → Bool} {before : ρ → ρ → Prop} {rows out : List ρ} {p : ρ → Bool}

namespace Answers

section

variable (h : Answers keep before rows out)

include h

theorem mem_iff {r : ρ} : r ∈ out ↔ r ∈ rows ∧ keep r = true := by
  rw [h.perm.mem_iff, List.mem_filter]

theorem find?_eq_some {r : ρ} (hr : out.find? p = some r) :
    r ∈ rows ∧ keep r = true ∧ p r = true ∧
      ∀ r' ∈ rows, keep r' = true → p r' = true → r' = r ∨ before r r' := by
  obtain ⟨hp, as, bs, hout, has⟩ := List.find?_eq_some_iff_append.mp hr
  have hmem : r ∈ out := by simp [hout]
  obtain ⟨hrow, hkeep⟩ := h.mem_iff.mp hmem
  refine ⟨hrow, hkeep, hp, fun r' hrow' hkeep' hp' => ?_⟩
  have hmem' : r' ∈ out := h.mem_iff.mpr ⟨hrow', hkeep'⟩
  rw [hout, List.mem_append, List.mem_cons] at hmem'
  rcases hmem' with hmem' | rfl | hmem'
  · have hnot := has r' hmem'
    simp [hp'] at hnot
  · exact .inl rfl
  · have hsort := h.sorted
    rw [hout, List.pairwise_append, List.pairwise_cons] at hsort
    exact .inr (hsort.2.1.1 r' hmem')

theorem find?_eq_none : out.find? p = none ↔ ∀ r ∈ rows, keep r = true → p r = false := by
  rw [List.find?_eq_none]
  constructor
  · intro hout r hrow hkeep
    simpa using hout r (h.mem_iff.mpr ⟨hrow, hkeep⟩)
  · intro hrows r hmem
    obtain ⟨hrow, hkeep⟩ := h.mem_iff.mp hmem
    simp [hrows r hrow hkeep]

end

end Answers

end RankedQuery
