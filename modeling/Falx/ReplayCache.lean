import Mathlib.Data.List.Nodup
import Mathlib.Data.List.Triplewise
import Mathlib.Logic.Function.Basic

/-! A cache of used keys with a retention time. A key is accepted when it is not cached;
each acceptance stores the key with its time and drops the entries that are too old. -/

namespace ReplayCache

abbrev Cache (K : Type) := K → Option Int

structure Attempt (K : Type) where
  now : Int
  key : Option K

/-- Between two attempts with one key nothing happens later than the retention time
after the first. -/
def Retained {K : Type} (retention : Int) (as : List (Attempt K)) : Prop :=
  as.Triplewise fun a x b => a.key = b.key → a.key ≠ none → x.now ≤ a.now + retention

variable {K : Type} [DecidableEq K]

def purge (retention now : Int) (c : Cache K) : Cache K :=
  fun k => (c k).filter fun t => now - retention ≤ t

def present (retention now : Int) (c : Cache K) (k : K) : Bool × Cache K :=
  if (c k).isSome then (false, c)
  else (true, purge retention now (Function.update c k (some now)))

def attempt (retention : Int) (c : Cache K) (a : Attempt K) : Bool × Cache K :=
  match a.key with
  | none => (false, c)
  | some k => present retention a.now c k

def accepted (retention : Int) : Cache K → List (Attempt K) → List K
  | _, [] => []
  | c, a :: as =>
    let r := attempt retention c a
    (if r.1 then a.key.toList else []) ++ accepted retention r.2 as

variable {retention : Int} {c : Cache K} {a : Attempt K} {as : List (Attempt K)} {k : K} {t : Int}

theorem mem_of_accepted (h : k ∈ accepted retention c as) : ∃ a ∈ as, a.key = some k := by
  induction as generalizing c with
  | nil => simp [accepted] at h
  | cons a as ih =>
    rcases List.mem_append.mp h with h | h
    · split at h
      · exact ⟨a, .head _, Option.mem_toList.mp h⟩
      · cases h
    · obtain ⟨b, hb, hk⟩ := ih h
      exact ⟨b, .tail _ hb, hk⟩

omit [DecidableEq K] in
theorem purge_of_fresh {now : Int} (hk : c k = some t) (hle : now - retention ≤ t) :
    purge retention now c k = some t := by
  rw [purge, hk, Option.filter_some, if_pos (decide_eq_true hle)]

theorem attempt_cached (ht : c k = some t) (ha : a.key = some k) :
    attempt retention c a = (false, c) := by
  simp [attempt, ha, present, ht]

theorem attempt_keeps (ht : c k = some t) (ha : a.key ≠ some k) (hnow : a.now ≤ t + retention) :
    (attempt retention c a).2 k = some t := by
  rw [attempt]
  split
  · exact ht
  · rename_i j hj
    have hkj : k ≠ j := by
      rintro rfl
      exact ha hj
    rw [present]
    split
    · exact ht
    · have hcopy : Function.update c j (some a.now) k = some t :=
        (Function.update_of_ne hkj _ _).trans ht
      exact purge_of_fresh hcopy (by omega)

theorem not_accepted_of_cached (ht : c k = some t)
    (h : as.Pairwise fun x b => b.key = some k → x.now ≤ t + retention) :
    k ∉ accepted retention c as := by
  induction as generalizing c with
  | nil => simp [accepted]
  | cons a as ih =>
    obtain ⟨hhead, htail⟩ := List.pairwise_cons.mp h
    rw [accepted, List.mem_append]
    by_cases ha : a.key = some k
    · rw [attempt_cached ht ha]
      rintro (hmem | hmem)
      · cases hmem
      · exact ih ht htail hmem
    · rintro (hmem | hmem)
      · split at hmem
        · exact ha (Option.mem_toList.mp hmem)
        · cases hmem
      · obtain ⟨b, hb, hk⟩ := mem_of_accepted hmem
        exact ih (attempt_keeps ht ha (hhead b hb hk)) htail hmem

theorem attempt_accepts (h : (attempt retention c a).1 = true) (hret : 0 ≤ retention) :
    ∃ k, a.key = some k ∧ (attempt retention c a).2 k = some a.now := by
  rw [attempt] at h ⊢
  split at h
  · cases h
  · rename_i k hk
    refine ⟨k, hk, ?_⟩
    rw [present] at h ⊢
    split at h
    · cases h
    · rename_i hnone
      rw [if_neg hnone]
      exact purge_of_fresh (Function.update_self k _ c) (by omega)

theorem accepted_nodup (hret : 0 ≤ retention) (h : Retained retention as) :
    (accepted retention c as).Nodup := by
  induction as generalizing c with
  | nil => exact List.nodup_nil
  | cons a as ih =>
    obtain ⟨hhead, htail⟩ := List.triplewise_cons.mp h
    rw [accepted]
    split
    · rename_i hacc
      obtain ⟨k, hk, ht⟩ := attempt_accepts hacc hret
      have hnot : k ∉ accepted retention (attempt retention c a).2 as :=
        not_accepted_of_cached ht (hhead.imp fun hx hb => hx (hk.trans hb.symm) (by simp [hk]))
      rw [hk]
      exact List.nodup_cons.mpr ⟨hnot, ih htail⟩
    · exact ih htail

end ReplayCache
