import Falx.FailsafeEngine
import Mathlib.Analysis.SpecialFunctions.Log.Base

/-! The cooldown after repeated trips: it doubles until it reaches its bound. -/

namespace Falx

namespace RecoveryConfig

def maxShift (cfg : RecoveryConfig) : Nat :=
  Nat.log 2 ⌊(cfg.maxCooldown / cfg.baseCooldown : ℚ)⌋₊ + 1

variable {cfg : RecoveryConfig}

section

variable (hpos : 0 < cfg.baseCooldown) (hle : cfg.baseCooldown ≤ cfg.maxCooldown)

include hpos hle

theorem one_le_maxMult : (1 : ℚ) ≤ cfg.maxCooldown / cfg.baseCooldown := by
  have hbase : (0 : ℚ) < cfg.baseCooldown := by exact_mod_cast hpos
  rw [le_div_iff₀ hbase, one_mul]
  exact_mod_cast hle

theorem maxShift_bounds :
    cfg.maxCooldown < cfg.baseCooldown * 2 ^ cfg.maxShift ∧
      cfg.baseCooldown * 2 ^ cfg.maxShift ≤ 2 * cfg.maxCooldown := by
  have hbase : (0 : ℚ) < cfg.baseCooldown := by exact_mod_cast hpos
  have hone := one_le_maxMult hpos hle
  have hnum : (cfg.maxCooldown / cfg.baseCooldown : ℚ) * cfg.baseCooldown = cfg.maxCooldown :=
    div_mul_cancel₀ _ hbase.ne'
  rw [maxShift]
  generalize (cfg.maxCooldown / cfg.baseCooldown : ℚ) = x at *
  have hupper : x < 2 ^ (Nat.log 2 ⌊x⌋₊ + 1) :=
    (Nat.lt_floor_add_one x).trans_le (by exact_mod_cast Nat.lt_pow_succ_log_self Nat.one_lt_two _)
  have hlower : 2 ^ Nat.log 2 ⌊x⌋₊ ≤ x :=
    le_trans (by exact_mod_cast Nat.pow_log_le_self 2 (Nat.floor_pos.mpr hone).ne')
      (Nat.floor_le (by linarith))
  have hbounds : (cfg.maxCooldown : ℚ) < cfg.baseCooldown * 2 ^ (Nat.log 2 ⌊x⌋₊ + 1) ∧
      cfg.baseCooldown * 2 ^ (Nat.log 2 ⌊x⌋₊ + 1) ≤ 2 * (cfg.maxCooldown : ℚ) := by
    rw [← hnum, pow_succ] at *
    constructor <;> nlinarith
  exact_mod_cast hbounds

theorem cooldownFor_eq (n : Nat) :
    cfg.cooldownFor n = min (cfg.baseCooldown * 2 ^ (n - 1)) cfg.maxCooldown := by
  have hover := (maxShift_bounds hpos hle).1
  have hd : 0 ≤ cfg.baseCooldown * 2 ^ (n - 1) := by positivity
  rw [cooldownFor]
  split_ifs with hn
  · rw [Nat.sub_eq_zero_of_le hn, pow_zero, mul_one, min_eq_left hle]
  simp only [if_neg (not_lt.mpr (one_le_maxMult hpos hle))]
  rw [← maxShift]
  rcases le_total (n - 1) cfg.maxShift with hshift | hshift
  · rw [min_eq_left hshift]
    split_ifs <;> omega
  · have hmono : cfg.baseCooldown * 2 ^ cfg.maxShift ≤ cfg.baseCooldown * 2 ^ (n - 1) :=
      mul_le_mul_of_nonneg_left (pow_le_pow_right₀ (by decide) hshift) hpos.le
    rw [min_eq_right hshift, if_pos (.inl hover)]
    omega

end

theorem baseCooldown_le_cooldownFor (cfg : RecoveryConfig) (hpos : 0 < cfg.baseCooldown)
    (n : Nat) : cfg.baseCooldown ≤ cfg.cooldownFor n := by
  by_cases hle : cfg.baseCooldown ≤ cfg.maxCooldown
  · rw [cooldownFor_eq hpos hle]
    exact le_min (le_mul_of_one_le_right hpos.le (one_le_pow₀ (by decide))) hle
  · have hmult : (cfg.maxCooldown / cfg.baseCooldown : ℚ) < 1 := by
      rw [div_lt_one (by exact_mod_cast hpos)]
      exact_mod_cast not_le.mp hle
    simp only [cooldownFor, if_pos hmult, ite_self, le_refl]

theorem maxShift_eq_floor_logb (hpos : 0 < cfg.baseCooldown)
    (hle : cfg.baseCooldown ≤ cfg.maxCooldown) :
    cfg.maxShift = ⌊Real.logb 2 (cfg.maxCooldown / cfg.baseCooldown)⌋ + 1 := by
  have hone : (1 : ℝ) ≤ cfg.maxCooldown / cfg.baseCooldown := by
    exact_mod_cast one_le_maxMult hpos hle
  have hlog : ⌊Real.logb 2 (cfg.maxCooldown / cfg.baseCooldown)⌋ =
      Int.log 2 (cfg.maxCooldown / cfg.baseCooldown : ℝ) :=
    Real.floor_logb_natCast (zero_le_one.trans hone)
  have hfloor : ⌊(cfg.maxCooldown / cfg.baseCooldown : ℝ)⌋ =
      ⌊(cfg.maxCooldown / cfg.baseCooldown : ℚ)⌋ := by
    rw [← Rat.floor_cast (α := ℝ)]
    push_cast
    rfl
  rw [hlog, Int.log_of_one_le_right 2 hone, ← Int.floor_toNat, hfloor, Int.floor_toNat, maxShift]
  rfl

/-- The largest shift is that of the code, with the logarithm of the reals, and the product that
is compared with the bound fits a `time.Duration`. -/
theorem cooldown_schedule (hpos : 0 < cfg.baseCooldown) (hle : cfg.baseCooldown ≤ cfg.maxCooldown)
    (hmax : cfg.maxCooldown < 2 ^ 62) (n : Nat) (hn : 1 ≤ n) :
    cfg.cooldownFor n = min (cfg.baseCooldown * 2 ^ (n - 1)) cfg.maxCooldown ∧
      (∀ m, n ≤ m → cfg.cooldownFor n ≤ cfg.cooldownFor m) ∧
      cfg.baseCooldown ≤ cfg.cooldownFor n ∧ cfg.cooldownFor n ≤ cfg.maxCooldown ∧
      cfg.maxShift = ⌊Real.logb 2 (cfg.maxCooldown / cfg.baseCooldown)⌋ + 1 ∧
      cfg.baseCooldown * 2 ^ min (n - 1) cfg.maxShift < 2 ^ 63 := by
  refine ⟨cooldownFor_eq hpos hle n, fun m hm => ?_, cfg.baseCooldown_le_cooldownFor hpos n, ?_,
    maxShift_eq_floor_logb hpos hle, ?_⟩
  · have hpow : (2 : Int) ^ (n - 1) ≤ 2 ^ (m - 1) := pow_le_pow_right₀ (by decide) (by omega)
    rw [cooldownFor_eq hpos hle, cooldownFor_eq hpos hle]
    exact min_le_min_right _ (mul_le_mul_of_nonneg_left hpow hpos.le)
  · rw [cooldownFor_eq hpos hle]
    exact min_le_right _ _
  · have hpow : (2 : Int) ^ min (n - 1) cfg.maxShift ≤ 2 ^ cfg.maxShift :=
      pow_le_pow_right₀ (by decide) (min_le_right _ _)
    calc cfg.baseCooldown * 2 ^ min (n - 1) cfg.maxShift
        ≤ cfg.baseCooldown * 2 ^ cfg.maxShift := mul_le_mul_of_nonneg_left hpow hpos.le
      _ ≤ 2 * cfg.maxCooldown := (maxShift_bounds hpos hle).2
      _ < 2 ^ 63 := by omega

theorem cooldown_schedule_default : defaultRecoveryConfig.cooldownFor 4 = 240000000000 := by
  have h := (@cooldown_schedule defaultRecoveryConfig (by decide) (by decide) (by decide) 4
    (by decide)).1
  rw [h]
  decide

end RecoveryConfig

end Falx
