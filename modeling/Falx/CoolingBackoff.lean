import Falx.Escalation
import Falx.CoolingBan

/-! How the bans of one source grow. Each ban raises the exponent by one, at least to the floor
that its caller asks for and at most to 16, and none of the words it is computed in wraps. -/

namespace Falx

open Function Words

structure BanCall where
  src : UInt32
  now : UInt64
  minR : UInt32
  deriving DecidableEq

def BanCall.apply (st : Kernel) (c : BanCall) : Kernel := applyCoolingBan c.src c.now c.minR st

def banAll (calls : List BanCall) (st : Kernel) : Kernel := calls.foldl BanCall.apply st

def floorsOf (s : UInt32) (calls : List BanCall) : List Nat :=
  (calls.filter fun c => c.src = s).map fun c => c.minR.toNat

def nextExponent (s : UInt32) (minR : UInt32) (st : Kernel) : UInt32 :=
  nextRepeatCount (st.coolingTracker s) minR

section Exponent

variable {s : UInt32} {st : Kernel} {calls : List BanCall}

theorem toNat_maxCoolingShift : maxCoolingShift.toNat = 16 := rfl

theorem toNat_clampedFloor (minR : UInt32) :
    (if minR ≤ maxCoolingShift then minR else maxCoolingShift).toNat = min minR.toNat 16 := by
  have hle := UInt32.le_iff_toNat_le (a := minR) (b := maxCoolingShift)
  rw [toNat_maxCoolingShift] at hle
  split
  · rename_i h
    exact (Nat.min_eq_left (hle.mp h)).symm
  · rename_i h
    have hbig := mt hle.mpr h
    rw [toNat_maxCoolingShift]
    omega

theorem toNat_raisedCount (r : UInt32) :
    (if r < maxCoolingShift then r + 1 else maxCoolingShift).toNat = min (r.toNat + 1) 16 := by
  have hlt := UInt32.lt_iff_toNat_lt (a := r) (b := maxCoolingShift)
  rw [toNat_maxCoolingShift] at hlt
  split
  · rename_i h
    have hsm := hlt.mp h
    have hone : (1 : UInt32).toNat = 1 := rfl
    rw [UInt32.toNat_add, hone]
    omega
  · rename_i h
    have hbig := mt hlt.mpr h
    rw [toNat_maxCoolingShift]
    omega

theorem toNat_nextRepeatCount_none (minR : UInt32) :
    (nextRepeatCount none minR).toNat = min minR.toNat 16 :=
  toNat_clampedFloor minR

theorem toNat_nextRepeatCount_some (entry : CoolingEntry) (minR : UInt32) :
    (nextRepeatCount (some entry) minR).toNat =
      Escalation.raise 16 entry.repeatCount.toNat minR.toNat := by
  have hfloor := toNat_clampedFloor minR
  have hraised := toNat_raisedCount entry.repeatCount
  simp only [nextRepeatCount, Escalation.raise]
  generalize (if minR ≤ maxCoolingShift then minR else maxCoolingShift) = a at hfloor ⊢
  generalize (if entry.repeatCount < maxCoolingShift then entry.repeatCount + 1
    else maxCoolingShift) = b at hraised ⊢
  have hlt := UInt32.lt_iff_toNat_lt (a := a) (b := b)
  split
  · rename_i h
    have := hlt.mp h
    omega
  · rename_i h
    have := mt hlt.mpr h
    omega

theorem nextRepeatCount_le (prev : Option CoolingEntry) (minR : UInt32) :
    (nextRepeatCount prev minR).toNat ≤ 16 := by
  cases prev with
  | none =>
    rw [toNat_nextRepeatCount_none]
    exact Nat.min_le_right _ _
  | some entry =>
    rw [toNat_nextRepeatCount_some, Escalation.raise]
    omega

theorem toNat_banSecs {r : UInt32} (h : r.toNat ≤ 16) :
    (coolingBaseS <<< r.toUInt64).toNat = 10 * 2 ^ r.toNat := by
  have hbase : coolingBaseS.toNat = 10 := rfl
  have hpow : 2 ^ r.toNat ≤ 2 ^ 16 := Nat.pow_le_pow_right (by decide) h
  have hshift : r.toNat % 64 = r.toNat := Nat.mod_eq_of_lt (by omega)
  rw [UInt64.toNat_shiftLeft, UInt32.toNat_toUInt64, hbase, hshift, Nat.shiftLeft_eq,
    Nat.mod_eq_of_lt (by omega)]

theorem toNat_banEntry_expireAt {r : UInt32} (h : r.toNat ≤ 16) (now : UInt64) :
    (banEntry now r).expireAt.toNat = now.toNat / 1000000000 + 10 * 2 ^ r.toNat := by
  have hsec : (now / nsPerSec).toNat = now.toNat / 1000000000 := UInt64.toNat_div _ _
  have hpow : 2 ^ r.toNat ≤ 2 ^ 16 := Nat.pow_le_pow_right (by decide) h
  have hlt := now.toNat_lt
  rw [banEntry, toNat_satAdd, hsec, toNat_banSecs h]
  omega

theorem BanCall.apply_self (c : BanCall) (st : Kernel) :
    ∃ entry, (c.apply st).coolingTracker c.src = some entry ∧
      entry.repeatCount = nextExponent c.src c.minR st ∧ entry.lastBanAtNs = c.now ∧
      (c.apply st).blocklistV4 c.src = some (banEntry c.now (nextExponent c.src c.minR st)) := by
  refine ⟨_, update_self _ _ _, ?_, ?_, update_self _ _ _⟩
  · split <;> rfl
  · split <;> rfl

theorem BanCall.apply_of_ne {c : BanCall} (h : s ≠ c.src) (st : Kernel) :
    (c.apply st).coolingTracker s = st.coolingTracker s ∧
      (c.apply st).blocklistV4 s = st.blocklistV4 s :=
  ⟨update_of_ne h _ _, update_of_ne h _ _⟩

theorem banAll_concat (calls : List BanCall) (c : BanCall) (st : Kernel) :
    banAll (calls ++ [c]) st = c.apply (banAll calls st) := by
  rw [banAll, List.foldl_append, List.foldl_cons, List.foldl_nil, banAll]

theorem floorsOf_concat_self (calls : List BanCall) (c : BanCall) :
    floorsOf c.src (calls ++ [c]) = floorsOf c.src calls ++ [c.minR.toNat] := by
  simp [floorsOf]

theorem floorsOf_concat_of_ne {c : BanCall} (h : s ≠ c.src) (calls : List BanCall) :
    floorsOf s (calls ++ [c]) = floorsOf s calls := by
  simp [floorsOf, Ne.symm h]

/-- The source has no entry before its first ban and then one with what the bans have come
to. -/
def Escalates (s : UInt32) (calls : List BanCall) (st : Kernel) : Prop :=
  (floorsOf s calls = [] ∧ st.coolingTracker s = none) ∨
    floorsOf s calls ≠ [] ∧ ∃ entry, st.coolingTracker s = some entry ∧
      entry.repeatCount.toNat = Escalation.reached 16 (floorsOf s calls)

theorem Escalates.exponent {minR : UInt32} (h : Escalates s calls st) :
    (nextExponent s minR st).toNat =
      Escalation.reached 16 (floorsOf s calls ++ [minR.toNat]) := by
  rcases h with ⟨hnil, hnone⟩ | ⟨hne, entry, hen, hcnt⟩
  · rw [nextExponent, hnone, hnil, List.nil_append, Escalation.reached_singleton,
      toNat_nextRepeatCount_none]
  · rw [nextExponent, hen, toNat_nextRepeatCount_some, hcnt, Escalation.reached_concat hne]

theorem Escalates.apply (h : Escalates s calls st) (c : BanCall) :
    Escalates s (calls ++ [c]) (c.apply st) := by
  by_cases hs : s = c.src
  · subst hs
    obtain ⟨entry, hen, hcnt, -⟩ := c.apply_self st
    refine .inr ⟨?_, entry, hen, ?_⟩
    · rw [floorsOf_concat_self]
      exact List.concat_ne_nil _ _
    · rw [hcnt, h.exponent, floorsOf_concat_self]
  · rw [Escalates, floorsOf_concat_of_ne hs, (BanCall.apply_of_ne hs st).1]
    exact h

theorem escalates_banAll (hfr : st.coolingTracker s = none) (calls : List BanCall) :
    Escalates s calls (banAll calls st) := by
  induction calls using List.reverseRecOn with
  | nil => exact .inl ⟨rfl, hfr⟩
  | append_singleton calls c ih =>
    rw [banAll_concat]
    exact ih.apply c

end Exponent

structure NoWrap (s : UInt32) (c : BanCall) (st : Kernel) : Prop where
  count : ∀ entry, st.coolingTracker s = some entry → entry.repeatCount.toNat + 1 < 2 ^ 32
  shift : (nextExponent s c.minR st).toUInt64.toNat < 64
  secs : coolingBaseS.toNat * 2 ^ (nextExponent s c.minR st).toNat < 2 ^ 64
  expiry : (c.now / nsPerSec).toNat +
    (coolingBaseS <<< (nextExponent s c.minR st).toUInt64).toNat < 2 ^ 64

/-- The last of any sequence of bans, of its source and others, has the exponent that the
floors of its source lead to, and its length is ten seconds times that power of two. -/
theorem backoff_escalates {st : Kernel} (calls : List BanCall) (c : BanCall)
    (hfresh : st.coolingTracker c.src = none) :
    let before := banAll calls st
    let r := nextExponent c.src c.minR before
    let after := banAll (calls ++ [c]) st
    r.toNat = Escalation.reached 16 (floorsOf c.src (calls ++ [c])) ∧
      (coolingBaseS <<< r.toUInt64).toNat = 10 * 2 ^ r.toNat ∧ 10 * 2 ^ r.toNat ≤ 655360 ∧
      (∃ entry, after.coolingTracker c.src = some entry ∧ entry.repeatCount = r) ∧
      (∃ block, after.blocklistV4 c.src = some block ∧
        block.expireAt.toNat = c.now.toNat / 1000000000 + 10 * 2 ^ r.toNat) ∧
      after.history = .ban c.src c.now r (coolingBaseS <<< r.toUInt64) :: before.history ∧
      NoWrap c.src c before := by
  intro before r after
  have hesc : Escalates c.src calls before := escalates_banAll hfresh calls
  have hr : r.toNat ≤ 16 := nextRepeatCount_le _ _
  have hpow : 2 ^ r.toNat ≤ 2 ^ 16 := Nat.pow_le_pow_right (by decide) hr
  have hsecs := toNat_banSecs hr
  have haf : after = c.apply before := banAll_concat calls c st
  obtain ⟨entry, hen, hcnt, -, hbl⟩ := c.apply_self before
  refine ⟨?_, hsecs, by omega, ⟨entry, ?_, hcnt⟩, ⟨_, ?_, toNat_banEntry_expireAt hr c.now⟩,
    ?_, ?_, ?_, ?_, ?_⟩
  · rw [floorsOf_concat_self]
    exact hesc.exponent
  · rw [haf]
    exact hen
  · rw [haf]
    exact hbl
  · rw [haf]
    exact applyCoolingBan_history c.src c.now c.minR before
  · intro entry hen
    rcases hesc with ⟨-, hnone⟩ | ⟨-, entry', hen', hcnt'⟩
    · cases hnone.symm.trans hen
    · cases hen'.symm.trans hen
      have hle := Escalation.reached_le 16 (floorsOf c.src calls)
      omega
  · rw [UInt32.toNat_toUInt64]
    exact Nat.lt_of_le_of_lt hr (by decide)
  · show 10 * 2 ^ r.toNat < 2 ^ 64
    omega
  · have hsec : (c.now / nsPerSec).toNat = c.now.toNat / 1000000000 := UInt64.toNat_div _ _
    have hlt := c.now.toNat_lt
    show _ + (coolingBaseS <<< r.toUInt64).toNat < _
    omega

/-- A ban after an overrun, one after a flood of SYN packets and another one. -/
theorem backoff_escalates_three :
    (nextExponent 1 0 (banAll [⟨1, 0, 0⟩, ⟨2, 3, 0⟩, ⟨1, 5, 8⟩]
        (Kernel.boot (fun k => [k.toNat]) (limits 1 1)))).toNat = 9 := by
  have hfr : (Kernel.boot (fun k => [k.toNat]) (limits 1 1)).coolingTracker 1 = none := rfl
  have hlaw := backoff_escalates [⟨1, 0, 0⟩, ⟨2, 3, 0⟩, ⟨1, 5, 8⟩] ⟨1, 9, 0⟩ hfr
  exact hlaw.1.trans (by decide)

end Falx
