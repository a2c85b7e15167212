import Mathlib.Data.List.Basic

/-! Bloom filters over an arbitrary key type and family of hash functions. The
hash functions are fixed when the filter is created, and `bits` lists the
positions of the bit array that have been set. A filter never forgets: a key
that was inserted is contained from then on. -/

structure BloomFilter (κ : Type) where
  hashes : κ → List Nat
  bits : List Nat

namespace BloomFilter

variable {κ : Type}

def contains (b : BloomFilter κ) (k : κ) : Bool :=
  (b.hashes k).all (fun i => b.bits.contains i)

def insert (b : BloomFilter κ) (k : κ) : BloomFilter κ :=
  { b with bits := b.hashes k ++ b.bits }

theorem contains_iff (b : BloomFilter κ) (k : κ) :
    b.contains k = true ↔ ∀ i ∈ b.hashes k, i ∈ b.bits := by
  simp [contains, List.all_eq_true]

theorem contains_insert_self (b : BloomFilter κ) (k : κ) : (b.insert k).contains k = true := by
  rw [contains_iff]
  intro i hi
  exact List.mem_append_left _ hi

theorem contains_insert_of_contains {b : BloomFilter κ} {k : κ} (j : κ)
    (h : b.contains k = true) : (b.insert j).contains k = true := by
  rw [contains_iff] at h ⊢
  intro i hi
  exact List.mem_append_right _ (h i hi)

end BloomFilter
