import Falx.Words

/-! Running indices of a ring, kept in 64 bits while they count without bound, and
the slots they stand for when the ring has a power of two of them. -/

namespace RingIndex

variable {a b k : Nat} {mask : UInt64}

theorem toNat_ofNat_sub (h : b ≤ a) (hlt : a - b < 2 ^ 64) :
    (UInt64.ofNat a - UInt64.ofNat b).toNat = a - b := by
  rw [UInt64.toNat_sub, UInt64.toNat_ofNat', UInt64.toNat_ofNat']
  omega

theorem ofNat_eq_iff (h : b ≤ a) (hlt : a - b < 2 ^ 64) :
    UInt64.ofNat a = UInt64.ofNat b ↔ a = b := by
  constructor
  · intro he
    have hsub := toNat_ofNat_sub h hlt
    rw [he, UInt64.sub_self] at hsub
    have hzero : (0 : UInt64).toNat = 0 := rfl
    omega
  · rintro rfl
    rfl

theorem ofNat_succ (a : Nat) : UInt64.ofNat (a + 1) = UInt64.ofNat a + 1 := by
  rw [UInt64.ofNat_add]
  rfl

def slot (mask : UInt64) (i : Nat) : UInt64 := UInt64.ofNat i &&& mask

theorem toNat_slot (hk : k ≤ 64) (hmask : mask.toNat = 2 ^ k - 1) (i : Nat) :
    (slot mask i).toNat = i % 2 ^ k := by
  rw [slot, UInt64.toNat_and, hmask, Nat.and_two_pow_sub_one_eq_mod, UInt64.toNat_ofNat',
    Nat.mod_mod_of_dvd _ (Nat.pow_dvd_pow 2 hk)]

theorem slot_ne (hk : k ≤ 64) (hmask : mask.toNat = 2 ^ k - 1) {i j : Nat} (hlt : i < j)
    (hrd : j < i + 2 ^ k) : slot mask i ≠ slot mask j := by
  intro he
  have hmod : i % 2 ^ k = j % 2 ^ k := by rw [← toNat_slot hk hmask, ← toNat_slot hk hmask, he]
  have hdvd : 2 ^ k ∣ j - i := Nat.dvd_of_mod_eq_zero (Nat.sub_mod_eq_zero_of_mod_eq hmod.symm)
  have hle := Nat.le_of_dvd (by omega) hdvd
  omega

end RingIndex
