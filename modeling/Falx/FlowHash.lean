import Falx.FrameMeta

/-! The FNV-1a hash of a flow. A byte changes the state by a permutation of it, and two bytes
can be told from their effect on it, so flows that differ in a port have different hashes. -/

namespace Falx

namespace AfXdp

open Words

variable {x y : UInt64} {b b' : UInt8}

theorem mul_prime_injective (h : x * 1099511628211 = y * 1099511628211) : x = y := by
  have hinv : (1099511628211 : UInt64) * 14886173955864302971 = 1 := by decide +kernel
  have hmul := congrArg (· * 14886173955864302971) h
  simpa only [UInt64.mul_assoc, hinv, UInt64.mul_one] using hmul

theorem xor_right_injective {c : UInt64} (h : x ^^^ c = y ^^^ c) : x = y := by
  have hxor := congrArg (· ^^^ c) h
  simpa only [UInt64.xor_assoc, UInt64.xor_self, UInt64.xor_zero] using hxor

theorem fnv_append (h : UInt64) (bs bs' : List UInt8) : fnv h (bs ++ bs') = fnv (fnv h bs) bs' :=
  List.foldl_append

theorem fnv_left_injective (bs : List UInt8) (h : fnv x bs = fnv y bs) : x = y := by
  induction bs generalizing x y with
  | nil => exact h
  | cons b bs ih => exact xor_right_injective (mul_prime_injective (ih h))

theorem eq_zero_of_prime_mul {d k r : Int} (h : d * 1099511628211 = 18446744073709551616 * k + r)
    (hd : -255 ≤ d ∧ d ≤ 255) (hr : -255 ≤ r ∧ r ≤ 255) : d = 0 := by
  have hk : k = 0 := by
    rcases Int.lt_trichotomy k 0 with hneg | hzero | hpos
    · omega
    · exact hzero
    · omega
  omega

theorem eq_of_prime_mul {u v q q' x y : Nat} (hu : 18446744073709551616 * q + x = u * 1099511628211)
    (hv : 18446744073709551616 * q' + y = v * 1099511628211) (hhigh : u / 256 = v / 256)
    (hmul : x / 256 = y / 256) : u = v := by
  have hdiff : ((u : Int) - v) * 1099511628211 =
      18446744073709551616 * ((q : Int) - q') + ((x : Int) - y) := by omega
  have hzero := eq_zero_of_prime_mul hdiff (by omega) (by omega)
  omega

theorem xor_byte_div (n : Nat) (b : UInt8) : (n ^^^ b.toNat) / 256 = n / 256 := by
  have hb : b.toNat / 2 ^ 8 = 0 := Nat.div_eq_of_lt b.toNat_lt
  have hxor : (n ^^^ b.toNat) / 2 ^ 8 = n / 2 ^ 8 ^^^ b.toNat / 2 ^ 8 := Nat.xor_div_two_pow
  rw [hb, Nat.xor_zero] at hxor
  exact hxor

theorem xor_left_injective {n : Nat} (h : n ^^^ b.toNat = n ^^^ b'.toNat) :
    b = b' := by
  have hxor := congrArg (n ^^^ ·) h
  simp only [← Nat.xor_assoc, Nat.xor_self, Nat.zero_xor] at hxor
  exact UInt8.toNat_inj.mp hxor

theorem toNat_xor_byte (x : UInt64) (b : UInt8) : (x ^^^ b.toUInt64).toNat = x.toNat ^^^ b.toNat := by
  rw [UInt64.toNat_xor, UInt8.toNat_toUInt64]

theorem fnv_two_injective {a a' : UInt8} (h : fnv x [a, b] = fnv x [a', b']) :
    a = a' ∧ b = b' := by
  have hst : (x ^^^ a.toUInt64) * 1099511628211 ^^^ b.toUInt64 =
      (x ^^^ a'.toUInt64) * 1099511628211 ^^^ b'.toUInt64 := mul_prime_injective h
  have hnat := congrArg UInt64.toNat hst
  rw [toNat_xor_byte, toNat_xor_byte] at hnat
  have hhigh := congrArg (· / 256) hnat
  simp only [xor_byte_div, UInt64.toNat_mul, toNat_xor_byte] at hhigh
  have hfst : a = a' := xor_left_injective (eq_of_prime_mul (Nat.div_add_mod _ _)
    (Nat.div_add_mod _ _) ((xor_byte_div _ a).trans (xor_byte_div _ a').symm) hhigh)
  subst hfst
  exact ⟨rfl, xor_left_injective hnat⟩

end AfXdp

end Falx
