import Mathlib.Algebra.Ring.Nat
import Mathlib.Data.List.Basic
import Mathlib.Logic.Relation

/-! Depth-first search with an explicit stack, a list of the nodes seen and a value
collected along the way. The graph may have cycles and shared nodes; the fuel that a
finite graph needs is counted beforehand. -/

namespace DepthFirst

open List

variable {ν σ : Type} [DecidableEq ν] (children : ν → List ν) (collect : ν → σ → σ)

/-- The head of `stack` is its top, and the last child of a node goes on top of the
others. `none` means that the fuel did not suffice. -/
def search : Nat → List ν → List ν → σ → Option (List ν × σ)
  | _, [], visited, acc => some (visited, acc)
  | 0, _ :: _, _, _ => none
  | fuel + 1, top :: stack, visited, acc =>
    if top ∈ visited then search fuel stack visited acc
    else search fuel ((children top).reverse ++ stack) (top :: visited) (collect top acc)

def pending (nodes visited : List ν) : Nat :=
  ((nodes.filter fun u => u ∉ visited).map fun u => (children u).length).sum

theorem pending_mono (nodes visited : List ν) (top : ν) :
    pending children nodes (top :: visited) ≤ pending children nodes visited := by
  induction nodes with
  | nil => exact Nat.le_refl _
  | cons u nodes ih =>
    simp only [pending, filter_cons, mem_cons, not_or] at ih ⊢
    by_cases hu : u ∈ visited
    · simpa [hu] using ih
    · by_cases ht : u = top
      · subst ht
        simp only [not_true, false_and, decide_false, Bool.false_eq_true, if_false, hu,
          not_false_eq_true, decide_true, if_true, map_cons, sum_cons]
        omega
      · simp only [ht, hu, not_false_eq_true, and_self, decide_true, if_true, map_cons,
          sum_cons]
        omega

variable {nodes visited stack : List ν} {acc : σ} {r : List ν × σ}

theorem pending_visit {top : ν} (hmem : top ∈ nodes) (hnew : top ∉ visited) :
    pending children nodes (top :: visited) + (children top).length ≤
      pending children nodes visited := by
  induction nodes with
  | nil => cases hmem
  | cons u nodes ih =>
    by_cases ht : u = top
    · subst ht
      have hmono := pending_mono children nodes visited u
      simp only [pending, filter_cons, mem_cons, true_or, not_true, decide_false,
        Bool.false_eq_true, if_false, hnew, not_false_eq_true, decide_true, if_true,
        map_cons, sum_cons] at hmono ⊢
      omega
    · have hrest := ih ((mem_cons.mp hmem).resolve_left (Ne.symm ht))
      simp only [pending, filter_cons, mem_cons, ht, false_or] at hrest ⊢
      by_cases hu : u ∈ visited
      · simpa [hu] using hrest
      · simp only [hu, not_false_eq_true, decide_true, if_true, map_cons, sum_cons]
        omega

theorem pending_le {k : Nat} (h : ∀ u, (children u).length ≤ k) (nodes visited : List ν) :
    pending children nodes visited ≤ k * nodes.length := by
  induction nodes with
  | nil => exact Nat.le_refl _
  | cons u nodes ih =>
    have hu := h u
    simp only [pending, filter_cons, length_cons, Nat.mul_add, Nat.mul_one] at ih ⊢
    by_cases hv : u ∈ visited
    · simp only [hv, not_true, decide_false, Bool.false_eq_true, if_false]
      omega
    · simp only [hv, not_false_eq_true, decide_true, if_true, map_cons, sum_cons]
      omega

variable {children collect}

theorem search_isSome (hshut : ∀ u ∈ nodes, ∀ v ∈ children u, v ∈ nodes)
    (fuel : Nat) (acc : σ) (hstack : ∀ u ∈ stack, u ∈ nodes)
    (hfuel : stack.length + pending children nodes visited ≤ fuel) :
    ∃ r, search children collect fuel stack visited acc = some r := by
  induction fuel generalizing stack visited acc with
  | zero =>
    cases stack with
    | nil => exact ⟨_, rfl⟩
    | cons top stack => simp only [length_cons] at hfuel; omega
  | succ fuel ih =>
    cases stack with
    | nil => exact ⟨_, rfl⟩
    | cons top stack =>
      have hrest : ∀ u ∈ stack, u ∈ nodes := fun u hu => hstack u (.tail _ hu)
      have htop := hstack top (.head _)
      simp only [length_cons] at hfuel
      simp only [search]
      split
      · exact ih acc hrest (by omega)
      · next hnew =>
        have hless := pending_visit children htop hnew
        refine ih _ (fun u hu => ?_) ?_
        · rcases mem_append.mp hu with hu | hu
          · exact hshut top htop u (mem_reverse.mp hu)
          · exact hrest u hu
        · simp only [length_append, length_reverse]
          omega

theorem search_map {τ : Type} {collect' : ν → τ → τ} (f : σ → τ)
    (h : ∀ node s, collect' node (f s) = f (collect node s)) (fuel : Nat) (stack visited : List ν)
    (acc : σ) : search children collect' fuel stack visited (f acc) =
      (search children collect fuel stack visited acc).map fun r => (r.1, f r.2) := by
  induction fuel generalizing stack visited acc with
  | zero => cases stack <;> rfl
  | succ fuel ih =>
    cases stack with
    | nil => rfl
    | cons top stack =>
      simp only [search, h]
      split
      · exact ih _ _ _
      · exact ih _ _ _

/-- What the search returns: the nodes it has added, in order, and the value
collected from them. Everything on the stack is visited, and so are the children of
every added node; every added node is reached from the stack. -/
structure Searched (children : ν → List ν) (collect : ν → σ → σ) (stack visited : List ν) (acc : σ)
    (r : List ν × σ) (added : List ν) : Prop where
  visited_eq : r.1 = added ++ visited
  collected : r.2 = added.foldr collect acc
  stack_mem : ∀ u ∈ stack, u ∈ r.1
  closed : ∀ u ∈ added, ∀ v ∈ children u, v ∈ r.1
  reached : ∀ u ∈ added, ∃ s ∈ stack, Relation.ReflTransGen (fun u v => v ∈ children u) s u

omit [DecidableEq ν] in
theorem searched_nil (visited : List ν) (acc : σ) :
    Searched children collect [] visited acc (visited, acc) [] :=
  ⟨rfl, rfl, by simp, by simp, by simp⟩

section Step

variable {stack visited added : List ν} {top : ν} {acc : σ} {r : List ν × σ}

omit [DecidableEq ν] in
theorem Searched.skip (hs : Searched children collect stack visited acc r added)
    (hseen : top ∈ visited) : Searched children collect (top :: stack) visited acc r added := by
  refine ⟨hs.visited_eq, hs.collected, fun u hu => ?_, hs.closed, fun u hu => ?_⟩
  · rcases mem_cons.mp hu with rfl | hu
    · rw [hs.visited_eq]
      exact mem_append_right _ hseen
    · exact hs.stack_mem u hu
  · obtain ⟨s, hmem, hpath⟩ := hs.reached u hu
    exact ⟨s, .tail _ hmem, hpath⟩

omit [DecidableEq ν] in
theorem Searched.visit (hs : Searched children collect ((children top).reverse ++ stack)
      (top :: visited) (collect top acc) r added) :
    Searched children collect (top :: stack) visited acc r (added ++ [top]) := by
  have htop : top ∈ r.1 := by simp [hs.visited_eq]
  refine ⟨by simp [hs.visited_eq], by simp [hs.collected], fun u hu => ?_, fun u hu v hv => ?_,
    fun u hu => ?_⟩
  · rcases mem_cons.mp hu with rfl | hu
    · exact htop
    · exact hs.stack_mem u (mem_append_right _ hu)
  · rcases mem_append.mp hu with hu | hu
    · exact hs.closed u hu v hv
    · rw [mem_singleton.mp hu] at hv
      exact hs.stack_mem v (mem_append_left _ (mem_reverse.mpr hv))
  · rcases mem_append.mp hu with hu | hu
    · obtain ⟨s, hmem, hpath⟩ := hs.reached u hu
      rcases mem_append.mp hmem with hmem | hmem
      · exact ⟨top, .head _, .head (mem_reverse.mp hmem) hpath⟩
      · exact ⟨s, .tail _ hmem, hpath⟩
    · rw [mem_singleton.mp hu]
      exact ⟨top, .head _, .refl⟩

end Step

theorem search_searched {fuel : Nat} (h : search children collect fuel stack visited acc = some r) :
    ∃ added, Searched children collect stack visited acc r added := by
  induction fuel generalizing stack visited acc with
  | zero =>
    cases stack with
    | nil =>
      obtain rfl := (Option.some.inj h).symm
      exact ⟨[], searched_nil visited acc⟩
    | cons top stack => cases h
  | succ fuel ih =>
    cases stack with
    | nil =>
      obtain rfl := (Option.some.inj h).symm
      exact ⟨[], searched_nil visited acc⟩
    | cons top stack =>
      simp only [search] at h
      split at h
      · next hseen =>
        obtain ⟨added, hs⟩ := ih h
        exact ⟨added, hs.skip hseen⟩
      · obtain ⟨added, hs⟩ := ih h
        exact ⟨added ++ [top], hs.visit⟩

omit [DecidableEq ν] in
theorem Searched.mem_iff {added : List ν} (h : Searched children collect stack [] acc r added)
    (u : ν) : u ∈ r.1 ↔ ∃ s ∈ stack, Relation.ReflTransGen (fun u v => v ∈ children u) s u := by
  have heq : r.1 = added := by rw [h.visited_eq, append_nil]
  constructor
  · intro hu
    exact h.reached u (heq ▸ hu)
  · rintro ⟨s, hs, hpath⟩
    induction hpath with
    | refl => exact h.stack_mem s hs
    | tail _ hstep ih => exact h.closed _ (heq ▸ ih) _ hstep

end DepthFirst
