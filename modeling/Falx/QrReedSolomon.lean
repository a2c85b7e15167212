import Falx.Horner
import Mathlib.Algebra.Field.ZMod
import Mathlib.RingTheory.AdjoinRoot
import Mathlib.Tactic.ComputeDegree

/-! The error correction of the QR codes for the enrolment of a second factor. Products of bytes
are looked up in tables of powers and logarithms; they are the products of the field with 256
elements, and a block with its error correction codewords is a multiple of the generator. -/

namespace Falx.Qr

open Function Horner Polynomial

def qrShift (x : Nat) : Nat :=
  let x := x <<< 1
  if 256 ≤ x then x ^^^ 0x11d else x

structure QrTables where
  exp : Nat → UInt8
  log : Nat → UInt8
  x : Nat

def qrFill : Nat → QrTables
  | 0 => ⟨fun _ => 0, fun _ => 0, 1⟩
  | i + 1 =>
    let t := qrFill i
    ⟨Function.update t.exp i (UInt8.ofNat t.x), Function.update t.log t.x (UInt8.ofNat i),
      qrShift t.x⟩

def qrExtend : Nat → Nat → UInt8
  | 0 => (qrFill 255).exp
  | k + 1 => Function.update (qrExtend k) (255 + k) (qrExtend k k)

def qrExp : Nat → UInt8 := qrExtend 257

def qrLog : Nat → UInt8 := (qrFill 255).log

def qrMul (a b : UInt8) : UInt8 :=
  if a = 0 ∨ b = 0 then 0
  else qrExp ((qrLog a.toNat).toNat + (qrLog b.toNat).toNat)

/-- The generator polynomial: each round adds to the polynomial its own multiple, one place
further to the right. -/
def qrGenerator : Nat → List UInt8
  | 0 => [1]
  | i + 1 => addInto (· ^^^ ·) (qrGenerator i ++ [0]) (0 :: (qrGenerator i).map (qrMul · (qrExp i)))

def qrDivide (g : List UInt8) : Nat → List UInt8 → List UInt8
  | 0, msg => msg
  | _ + 1, [] => []
  | k + 1, c :: msg =>
    qrDivide g k (if c ≠ 0 then addInto (· ^^^ ·) msg (g.tail.map (qrMul c)) else msg)

def qrRS (data : List UInt8) (n : Nat) : List UInt8 :=
  qrDivide (qrGenerator n) data.length (data ++ List.replicate n 0)

def bitPoly {R : Type} [CommRing R] (x : R) (w : Nat) : R :=
  ∑ i ∈ Finset.range 9, if w.testBit i then x ^ i else 0

noncomputable def modulus : (ZMod 2)[X] := bitPoly X 0x11d

abbrev GF256 := AdjoinRoot modulus

noncomputable def alpha : GF256 := AdjoinRoot.root modulus

noncomputable def toGF (b : UInt8) : GF256 := bitPoly alpha b.toNat

section Field

theorem add_self (x : GF256) : x + x = 0 := by
  have htwo : (2 : GF256) = 0 := by
    rw [← map_ofNat (algebraMap (ZMod 2) GF256) 2, show (OfNat.ofNat 2 : ZMod 2) = 0 from rfl,
      map_zero]
  rw [← two_mul, htwo, zero_mul]

theorem bitPoly_xor (a b : Nat) : bitPoly alpha (a ^^^ b) = bitPoly alpha a + bitPoly alpha b := by
  rw [bitPoly, bitPoly, bitPoly, ← Finset.sum_add_distrib]
  refine Finset.sum_congr rfl fun i _ => ?_
  rw [Nat.testBit_xor]
  cases a.testBit i <;> cases b.testBit i <;> simp [add_self]

theorem bitPoly_modulus : bitPoly alpha 0x11d = 0 := by
  have hmk : AdjoinRoot.mk modulus (bitPoly X 0x11d) = bitPoly alpha 0x11d := by
    simp [bitPoly, Finset.sum_range_succ, alpha, Nat.testBit]
  exact AdjoinRoot.mk_self

variable {w : Nat}

theorem bitPoly_shiftLeft (hw : w < 256) :
    bitPoly alpha (w <<< 1) = alpha * bitPoly alpha w := by
  have htop : w.testBit 8 = false := Nat.testBit_lt_two_pow hw
  have hlow : bitPoly alpha w = ∑ i ∈ Finset.range 8, if w.testBit i then alpha ^ i else 0 := by
    rw [bitPoly, Finset.sum_range_succ, htop]
    exact add_zero _
  rw [hlow, bitPoly, Finset.sum_range_succ', Finset.mul_sum]
  simp [Nat.testBit_shiftLeft, pow_succ']

theorem bitPoly_qrShift (hw : w < 256) :
    bitPoly alpha (qrShift w) = alpha * bitPoly alpha w := by
  rw [qrShift]
  split
  · rw [bitPoly_xor, bitPoly_modulus, add_zero, bitPoly_shiftLeft hw]
  · exact bitPoly_shiftLeft hw

theorem qrShift_lt (hw : w < 256) : qrShift w < 256 := by
  have hall : ∀ w < 256, qrShift w < 256 := by decide +kernel
  exact hall w hw

def power (i : Nat) : Nat := qrShift^[i] 1

theorem power_succ (i : Nat) : power (i + 1) = qrShift (power i) :=
  Function.iterate_succ_apply' qrShift i 1

theorem power_lt (i : Nat) : power i < 256 := by
  induction i with
  | zero => decide
  | succ i ih =>
    rw [power_succ]
    exact qrShift_lt ih

theorem bitPoly_power (i : Nat) : bitPoly alpha (power i) = alpha ^ i := by
  induction i with
  | zero => simp [bitPoly, power, Finset.sum_range_succ, Nat.testBit]
  | succ i ih => rw [power_succ, bitPoly_qrShift (power_lt i), ih, pow_succ']

theorem alpha_pow : alpha ^ 255 = 1 := by
  have hone : power 255 = power 0 := by decide +kernel
  rw [← bitPoly_power, hone, bitPoly_power, pow_zero]

theorem alpha_pow_mod (i : Nat) : alpha ^ (i % 255) = alpha ^ i := by
  conv_rhs => rw [← Nat.div_add_mod i 255, pow_add, pow_mul, alpha_pow, one_pow, one_mul]

theorem exists_power (hw : w < 256) (hpos : w ≠ 0) : ∃ i < 255, power i = w := by
  have hall : ∀ w ∈ List.range 256, w = 0 ∨ w ∈ List.iterate qrShift 1 255 := by decide +kernel
  obtain ⟨i, hi, hpw⟩ := List.mem_iterate.mp ((hall w (List.mem_range.mpr hw)).resolve_left hpos)
  exact ⟨i, hi, hpw.symm⟩

theorem power_injective {i j : Nat} (hi : i < 255) (hj : j < 255) (h : power i = power j) :
    i = j := by
  have hnd : (List.iterate qrShift 1 255).Nodup := by decide +kernel
  refine (List.getElem?_inj (by rwa [List.length_iterate]) hnd).mp ?_
  rw [List.getElem?_iterate _ _ _ _ hi, List.getElem?_iterate _ _ _ _ hj]
  exact congrArg some h

theorem toGF_xor (a b : UInt8) : toGF (a ^^^ b) = toGF a + toGF b := by
  exact bitPoly_xor _ _

theorem toGF_power (i : Nat) : toGF (UInt8.ofNat (power i)) = alpha ^ i := by
  rw [toGF, UInt8.toNat_ofNat', Nat.mod_eq_of_lt (power_lt i), bitPoly_power]

end Field

section Tables

theorem qrFill_power (k : Nat) : (qrFill k).x = power k := by
  induction k with
  | zero => rfl
  | succ k ih =>
    rw [power_succ, ← ih]
    rfl

variable {k i : Nat}

theorem qrFill_exp (hi : i < k) : (qrFill k).exp i = UInt8.ofNat (power i) := by
  induction k with
  | zero => cases hi
  | succ k ih =>
    rw [qrFill]
    dsimp only
    by_cases hik : i = k
    · rw [hik, update_self, qrFill_power]
    · rw [update_of_ne hik]
      exact ih (by omega)

theorem qrFill_log (hk : k ≤ 255) (hi : i < k) :
    (qrFill k).log (power i) = UInt8.ofNat i := by
  induction k with
  | zero => cases hi
  | succ k ih =>
    rw [qrFill]
    dsimp only
    rw [qrFill_power]
    by_cases hik : i = k
    · rw [hik, update_self]
    · rw [update_of_ne fun h => hik (power_injective (by omega) (by omega) h)]
      exact ih (by omega) (by omega)

theorem qrExtend_eq (hi : i < 255 + k) :
    qrExtend k i = UInt8.ofNat (power (i % 255)) := by
  induction k generalizing i with
  | zero =>
    rw [Nat.mod_eq_of_lt hi]
    exact qrFill_exp hi
  | succ k ih =>
    rw [qrExtend]
    by_cases hik : i = 255 + k
    · rw [hik, update_self, ih (by omega), Nat.add_mod_left]
    · rw [update_of_ne hik, ih (by omega)]

theorem toGF_qrExp (hi : i < 512) : toGF (qrExp i) = alpha ^ i := by
  rw [qrExp, qrExtend_eq hi, toGF_power, alpha_pow_mod]

theorem toGF_eq_pow {a : UInt8} (ha : a ≠ 0) :
    (qrLog a.toNat).toNat < 255 ∧ toGF a = alpha ^ (qrLog a.toNat).toNat := by
  have hpos : a.toNat ≠ 0 := fun h => ha (UInt8.toNat_inj.mp h)
  obtain ⟨i, hi, hpw⟩ := exists_power a.toNat_lt hpos
  rw [qrLog, ← hpw, qrFill_log (Nat.le_refl 255) hi, UInt8.toNat_ofNat',
    Nat.mod_eq_of_lt (by omega), toGF, ← hpw]
  exact ⟨hi, bitPoly_power i⟩

theorem toGF_zero : toGF 0 = 0 := by
  simp [toGF, bitPoly]

theorem toGF_qrMul (a b : UInt8) : toGF (qrMul a b) = toGF a * toGF b := by
  rw [qrMul]
  by_cases hzero : a = 0 ∨ b = 0
  · rw [if_pos hzero, toGF_zero]
    rcases hzero with rfl | rfl
    · rw [toGF_zero, zero_mul]
    · rw [toGF_zero, mul_zero]
  · obtain ⟨ha, hb⟩ := not_or.mp hzero
    obtain ⟨hla, hpa⟩ := toGF_eq_pow ha
    obtain ⟨hlb, hpb⟩ := toGF_eq_pow hb
    rw [if_neg hzero, toGF_qrExp (by omega), hpa, hpb, pow_add]

theorem degree_modulus : modulus.degree = 8 := by
  have hmodulus : modulus = X ^ 8 + X ^ 4 + X ^ 3 + X ^ 2 + 1 := by
    simp [modulus, bitPoly, Finset.sum_range_succ, Nat.testBit]
    ring
  rw [hmodulus]
  compute_degree!

instance : Nontrivial GF256 := AdjoinRoot.nontrivial modulus (by rw [degree_modulus]; decide)

theorem toGF_bijective : Function.Bijective toGF := by
  have hunit (i : Nat) : alpha ^ i ≠ 0 := by
    have hpow : IsUnit alpha := IsUnit.of_pow_eq_one alpha_pow (by decide)
    exact (hpow.pow i).ne_zero
  constructor
  · intro a b hab
    by_contra hne
    have hxor : a ^^^ b ≠ 0 := fun h => hne (UInt8.xor_eq_zero_iff.mp h)
    refine hunit _ ((toGF_eq_pow hxor).2.symm.trans ?_)
    rw [toGF_xor, hab, add_self]
  · intro x
    obtain ⟨p, rfl⟩ := AdjoinRoot.mk_surjective x
    induction p using Polynomial.induction_on' with
    | add p q hp hq =>
      obtain ⟨a, ha⟩ := hp
      obtain ⟨b, hb⟩ := hq
      exact ⟨a ^^^ b, by rw [toGF_xor, ha, hb, map_add]⟩
    | monomial n c =>
      obtain rfl | rfl : c = 0 ∨ c = 1 := by
        revert c
        decide
      · exact ⟨0, by rw [toGF_zero, map_zero, map_zero]⟩
      · refine ⟨UInt8.ofNat (power n), ?_⟩
        rw [toGF_power, alpha, monomial_one_right_eq_X_pow, map_pow, AdjoinRoot.mk_X]

theorem isField_GF256 : IsField GF256 where
  exists_pair_ne := ⟨0, 1, zero_ne_one⟩
  mul_comm := mul_comm
  mul_inv_cancel := by
    intro x hx
    obtain ⟨a, rfl⟩ := toGF_bijective.2 x
    have ha : a ≠ 0 := by
      rintro rfl
      exact hx toGF_zero
    obtain ⟨hlog, hpow⟩ := toGF_eq_pow ha
    refine ⟨alpha ^ (255 - (qrLog a.toNat).toNat), ?_⟩
    rw [hpow, ← pow_add, Nat.add_sub_cancel' hlog.le, alpha_pow]

end Tables

section Code

theorem qrGenerator_eq (n : Nat) : ∃ g, qrGenerator n = 1 :: g ∧ g.length = n := by
  induction n with
  | zero => exact ⟨[], rfl, rfl⟩
  | succ n ih =>
    obtain ⟨g, hg, hlen⟩ := ih
    rw [qrGenerator, hg]
    refine ⟨_, rfl, ?_⟩
    rw [length_addInto, ← hlen]
    exact List.length_append

theorem horner_qrGenerator {n k : Nat} (hk : k < n) (hn : n ≤ 512) :
    horner toGF (alpha ^ k) (qrGenerator n) = 0 := by
  induction n with
  | zero => cases hk
  | succ n ih =>
    have hmul (c : UInt8) : toGF (qrMul c (qrExp n)) = alpha ^ n * toGF c := by
      rw [toGF_qrMul, toGF_qrExp hn, mul_comm]
    have hleft : horner toGF (alpha ^ k) (qrGenerator n ++ [0]) =
        horner toGF (alpha ^ k) (qrGenerator n) * alpha ^ k := by simp [horner, toGF_zero]
    have hright : horner toGF (alpha ^ k) (0 :: (qrGenerator n).map (qrMul · (qrExp n))) =
        alpha ^ n * horner toGF (alpha ^ k) (qrGenerator n) := by
      rw [horner_cons, toGF_zero, zero_mul, zero_add, horner_map hmul]
    rw [qrGenerator, horner_addInto toGF_xor (by simp), hleft, hright]
    by_cases hkn : k = n
    · simp [hkn, mul_comm (alpha ^ n), add_self]
    · rw [ih (by omega) (by omega)]
      simp

theorem horner_qrDivide {x : GF256} {g : List UInt8} (hroot : horner toGF x (1 :: g) = 0)
    {k : Nat} {msg : List UInt8} (hle : k + g.length ≤ msg.length) :
    (qrDivide (1 :: g) k msg).length + k = msg.length ∧
      horner toGF x (qrDivide (1 :: g) k msg) = horner toGF x msg := by
  induction k generalizing msg with
  | zero => exact ⟨rfl, rfl⟩
  | succ k ih =>
    cases msg with
    | nil => simp at hle
    | cons c msg =>
      rw [List.length_cons] at hle
      rw [qrDivide, List.tail_cons]
      by_cases hc : c ≠ 0
      · rw [if_pos hc]
        have hrest := @ih (addInto (· ^^^ ·) msg (g.map (qrMul c))) (by rw [length_addInto]; omega)
        rw [length_addInto, horner_eliminate add_self toGF_xor toGF_qrMul
          (by simp [toGF, bitPoly, Finset.sum_range_succ, Nat.testBit]) hroot (by omega)] at hrest
        refine ⟨?_, hrest.2⟩
        rw [List.length_cons]
        omega
      · rw [if_neg hc, horner_cons, not_not.mp hc, toGF_zero, zero_mul, zero_add]
        obtain ⟨hlen, hv⟩ := @ih msg (by omega)
        refine ⟨?_, hv⟩
        rw [List.length_cons]
        omega

/-- `qrMul` is the multiplication of the field with 256 elements, and a block with its error
correction codewords is zero at the first `n` powers of `alpha`. -/
theorem reed_solomon :
    (IsField GF256 ∧ Function.Bijective toGF ∧ toGF 2 = alpha ∧
      (∀ a b, toGF (a ^^^ b) = toGF a + toGF b) ∧ ∀ a b, toGF (qrMul a b) = toGF a * toGF b) ∧
    ∀ data n k, k < n → n ≤ 254 →
      (qrRS data n).length = n ∧ horner toGF (alpha ^ k) (data ++ qrRS data n) = 0 := by
  refine ⟨⟨isField_GF256, toGF_bijective, ?_, toGF_xor, toGF_qrMul⟩, fun data n k hk hn => ?_⟩
  · exact (toGF_power 1).trans (pow_one alpha)
  · have hroot := horner_qrGenerator hk (show n ≤ 512 by omega)
    obtain ⟨g, hg, hlen⟩ := qrGenerator_eq n
    rw [hg] at hroot
    obtain ⟨hsame, hv⟩ := @horner_qrDivide _ _ hroot data.length
      (data ++ List.replicate n 0) (by simp [hlen])
    rw [← hg] at hsame hv
    have hn : (qrRS data n).length = n := by
      rw [qrRS]
      simp only [List.length_append, List.length_replicate] at hsame
      omega
    refine ⟨hn, ?_⟩
    rw [horner_append, hn, qrRS, hv, horner_append, List.length_replicate,
      horner_replicate toGF_zero, add_zero, add_self]

theorem reed_solomon_three : horner toGF (alpha ^ 9) ([1, 2, 3] ++ qrRS [1, 2, 3] 10) = 0 :=
  (reed_solomon.2 [1, 2, 3] 10 9 (by decide) (by decide)).2

end Code

end Falx.Qr
