import Mathlib.Algebra.Ring.Nat
import Mathlib.Data.List.Basic

/-! Machine words: saturating counters, and the order in which the bytes of a
word lie in the memory of a little-endian machine. The arguments of `le16` and
`le32` are the bytes at ascending addresses; `swap16` converts between the
big-endian and the native order. -/

namespace Words

def satAdd (a b : UInt64) : UInt64 :=
  if a.toNat + b.toNat < 2 ^ 64 then a + b else UInt64.ofNat (2 ^ 64 - 1)

def satSub (a b : UInt64) : UInt64 :=
  if b ≤ a then a - b else 0

def satAdd32 (a b : UInt32) : UInt32 :=
  if a.toNat + b.toNat < 2 ^ 32 then a + b else UInt32.ofNat (2 ^ 32 - 1)

theorem toNat_satAdd (a b : UInt64) :
    (satAdd a b).toNat = min (a.toNat + b.toNat) (2 ^ 64 - 1) := by
  by_cases h : a.toNat + b.toNat < 2 ^ 64
  · rw [satAdd, if_pos h, UInt64.toNat_add, Nat.mod_eq_of_lt h]
    omega
  · rw [satAdd, if_neg h, UInt64.toNat_ofNat_of_lt' (by decide)]
    omega

theorem toNat_satSub (a b : UInt64) : (satSub a b).toNat = a.toNat - b.toNat := by
  by_cases h : b ≤ a
  · rw [satSub, if_pos h, UInt64.toNat_sub_of_le _ _ h]
  · have hlt : a.toNat < b.toNat := by simpa [UInt64.le_iff_toNat_le] using h
    rw [satSub, if_neg h]
    simp only [UInt64.toNat_zero]
    omega

theorem toNat_min (a b : UInt64) : (min a b).toNat = min a.toNat b.toNat := by
  show (if a ≤ b then a else b).toNat = _
  by_cases h : a ≤ b
  · rw [if_pos h, Nat.min_eq_left (UInt64.le_iff_toNat_le.mp h)]
  · rw [if_neg h, Nat.min_eq_right]
    exact Nat.le_of_not_le fun hle => h (UInt64.le_iff_toNat_le.mpr hle)

theorem toNat_satAdd32 (a b : UInt32) :
    (satAdd32 a b).toNat = min (a.toNat + b.toNat) (2 ^ 32 - 1) := by
  by_cases h : a.toNat + b.toNat < 2 ^ 32
  · rw [satAdd32, if_pos h, UInt32.toNat_add, Nat.mod_eq_of_lt h]
    omega
  · rw [satAdd32, if_neg h, UInt32.toNat_ofNat_of_lt' (by decide)]
    omega

def le16 (b0 b1 : UInt8) : UInt16 :=
  UInt16.ofNat (b0.toNat + 256 * b1.toNat)

def le32 (b0 b1 b2 b3 : UInt8) : UInt32 :=
  UInt32.ofNat (b0.toNat + 256 * b1.toNat + 65536 * b2.toNat + 16777216 * b3.toNat)

def bytes16 (w : UInt16) : List UInt8 :=
  [UInt8.ofNat w.toNat, UInt8.ofNat (w.toNat / 256)]

def bytes32 (w : UInt32) : List UInt8 :=
  [UInt8.ofNat w.toNat, UInt8.ofNat (w.toNat / 256), UInt8.ofNat (w.toNat / 65536),
    UInt8.ofNat (w.toNat / 16777216)]

def swap16 (w : UInt16) : UInt16 :=
  UInt16.ofNat (w.toNat % 256 * 256 + w.toNat / 256)

theorem toNat_le16 (b0 b1 : UInt8) : (le16 b0 b1).toNat = b0.toNat + 256 * b1.toNat := by
  have h0 := b0.toNat_lt
  have h1 := b1.toNat_lt
  rw [le16, UInt16.toNat_ofNat']
  omega

theorem toNat_le32 (b0 b1 b2 b3 : UInt8) : (le32 b0 b1 b2 b3).toNat =
    b0.toNat + 256 * b1.toNat + 65536 * b2.toNat + 16777216 * b3.toNat := by
  have h0 := b0.toNat_lt
  have h1 := b1.toNat_lt
  have h2 := b2.toNat_lt
  have h3 := b3.toNat_lt
  rw [le32, UInt32.toNat_ofNat']
  omega

theorem bytes16_le16 (b0 b1 : UInt8) : bytes16 (le16 b0 b1) = [b0, b1] := by
  have h0 := b0.toNat_lt
  have h1 := b1.toNat_lt
  simp only [bytes16, toNat_le16, List.cons.injEq, ← UInt8.toNat_inj, UInt8.toNat_ofNat', and_true]
  omega

theorem le16_bytes16 (w : UInt16) :
    le16 (UInt8.ofNat w.toNat) (UInt8.ofNat (w.toNat / 256)) = w := by
  have hw := w.toNat_lt
  rw [← UInt16.toNat_inj, toNat_le16, UInt8.toNat_ofNat', UInt8.toNat_ofNat']
  omega

theorem le32_bytes32 (w : UInt32) :
    le32 (UInt8.ofNat w.toNat) (UInt8.ofNat (w.toNat / 256)) (UInt8.ofNat (w.toNat / 65536))
      (UInt8.ofNat (w.toNat / 16777216)) = w := by
  have hw := w.toNat_lt
  rw [← UInt32.toNat_inj, toNat_le32, UInt8.toNat_ofNat', UInt8.toNat_ofNat', UInt8.toNat_ofNat',
    UInt8.toNat_ofNat']
  omega

theorem bytes32_le32 (b0 b1 b2 b3 : UInt8) : bytes32 (le32 b0 b1 b2 b3) = [b0, b1, b2, b3] := by
  have h0 := b0.toNat_lt
  have h1 := b1.toNat_lt
  have h2 := b2.toNat_lt
  have h3 := b3.toNat_lt
  simp only [bytes32, toNat_le32, List.cons.injEq, ← UInt8.toNat_inj, UInt8.toNat_ofNat', and_true]
  omega

theorem bytes32_injective {v w : UInt32} (h : bytes32 v = bytes32 w) : v = w := by
  have hv := v.toNat_lt
  have hw := w.toNat_lt
  simp only [bytes32, List.cons.injEq, ← UInt8.toNat_inj, UInt8.toNat_ofNat', and_true] at h
  rw [← UInt32.toNat_inj]
  omega

theorem toNat_swap16 (w : UInt16) : (swap16 w).toNat = w.toNat % 256 * 256 + w.toNat / 256 := by
  have h := w.toNat_lt
  rw [swap16, UInt16.toNat_ofNat']
  omega

theorem swap16_le16 (b0 b1 : UInt8) : swap16 (le16 b0 b1) = le16 b1 b0 := by
  have h0 := b0.toNat_lt
  rw [← UInt16.toNat_inj, toNat_swap16, toNat_le16, toNat_le16]
  omega

variable {x y : UInt32} {k a b : Nat}

theorem toNat_or_of_lt (hx : 2 ^ k ∣ x.toNat) (hy : y.toNat < 2 ^ k) :
    (x ||| y).toNat = x.toNat + y.toNat := by
  obtain ⟨q, hq⟩ := hx
  rw [UInt32.toNat_or, hq, Nat.two_pow_add_eq_or_of_lt hy]

theorem toNat_or_of_dvd (hx : x.toNat < 2 ^ k) (hy : 2 ^ k ∣ y.toNat) :
    (x ||| y).toNat = x.toNat + y.toNat := by
  rw [UInt32.or_comm, toNat_or_of_lt hy hx, Nat.add_comm]

theorem toNat_byte_shiftLeft (b : UInt8) (hk : k ≤ 24) :
    (b.toUInt32 <<< UInt32.ofNat k).toNat = b.toNat * 2 ^ k := by
  have hb := b.toNat_lt
  have hpow : 2 ^ k ≤ 2 ^ 24 := Nat.pow_le_pow_right (by omega) hk
  have hlt : b.toNat * 2 ^ k < 2 ^ 32 := by
    calc b.toNat * 2 ^ k < 2 ^ 8 * 2 ^ 24 := Nat.mul_lt_mul_of_lt_of_le hb hpow (by omega)
      _ = 2 ^ 32 := (Nat.pow_add 2 8 24).symm
  rw [UInt32.toNat_shiftLeft, UInt8.toNat_toUInt32, UInt32.toNat_ofNat_of_lt' (by
    rw [UInt32.size]; omega), Nat.mod_eq_of_lt (show k < 32 by omega), Nat.shiftLeft_eq,
    Nat.mod_eq_of_lt hlt]

theorem and_highNibble {n : Nat} (hn : n < 256) : n &&& 0xF0 = n / 16 * 16 := by
  revert n
  decide +kernel

theorem shiftLeft_or_eq (hb : b < 256) : a <<< 8 ||| b = a * 256 + b := by
  rw [← Nat.shiftLeft_add_eq_or_of_lt (show b < 2 ^ 8 by omega), Nat.shiftLeft_eq]

theorem shiftLeft_or_or_eq {c : Nat} (hb : b < 256) (hc : c < 256) :
    a <<< 16 ||| b <<< 8 ||| c = a * 65536 + b * 256 + c := by
  have hab : a <<< 16 ||| b <<< 8 = (a <<< 8 ||| b) <<< 8 := by
    rw [Nat.shiftLeft_or_distrib, ← Nat.shiftLeft_add]
  rw [hab, shiftLeft_or_eq hc, shiftLeft_or_eq hb]
  omega

end Words
