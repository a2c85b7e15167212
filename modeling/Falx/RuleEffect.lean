import Falx.BatchRollback
import Falx.RateLimit
import Falx.RelativeTtl

/-! What the application of a rule achieves. A block rule is skipped when the source has any
unexpired entry, whatever it does and however soon it ends. A rate-limit rule deletes the
source's token bucket, and the next packet opens a full one. -/

namespace Falx

open TokenBucket

/-- The entry stays for `ttl` seconds from `now`, or for ever if `ttl` is zero. -/
def BlockEntry.Lasts (now ttl : UInt64) (e : BlockEntry) : Prop :=
  e.expireAt = 0 ∨ ttl ≠ 0 ∧ now.toNat + ttl.toNat ≤ e.expireAt.toNat

instance (now ttl : UInt64) (e : BlockEntry) : Decidable (e.Lasts now ttl) :=
  inferInstanceAs (Decidable (_ ∨ _))

variable {now ttl : UInt64} {e : BlockEntry}

theorem absoluteExpiry_lasts (he : e.expireAt = ttl)
    (h : ttl = 0 ∨ ttl < 1000000000 ∧ now.toNat + ttl.toNat ≤ 2 ^ 64) :
    (absoluteExpiry now e).Lasts now ttl := by
  by_cases hzero : ttl = 0
  · rw [absoluteExpiry, he, hzero, if_neg (by simp), BlockEntry.Lasts, he, hzero]
    exact .inl rfl
  · obtain ⟨hrel, hsum⟩ := h.resolve_left hzero
    have hpos : 0 < ttl := UInt64.pos_iff_ne_zero.mpr hzero
    have hexpiry : (absoluteExpiry now e).expireAt.toNat = (now.toNat + ttl.toNat) % 2 ^ 64 := by
      rw [absoluteExpiry, he, if_pos ⟨hpos, hrel⟩, UInt64.toNat_add]
    rw [BlockEntry.Lasts, ← UInt64.toNat_inj, hexpiry, UInt64.toNat_zero]
    rcases Nat.lt_or_eq_of_le hsum with hlt | heq
    · exact .inr ⟨hzero, (Nat.mod_eq_of_lt hlt).ge⟩
    · exact .inl (by rw [heq, Nat.mod_self])

theorem BlockEntry.Lasts.unexpired (h : e.Lasts now ttl) :
    e.expired now = false := by
  rw [← Bool.not_eq_true, BlockEntry.expired_iff]
  rintro ⟨hne, hle⟩
  rcases h with hzero | ⟨httl, hlong⟩
  · exact hne hzero
  · have hpos : ttl.toNat ≠ 0 := fun hz => httl (UInt64.toNat_inj.mp hz)
    omega

namespace Policy

/-- The last time that the clock is read: the search for a duplicate ends the call when it
finds one. -/
def ApplyEnv.appliedAt (env : ApplyEnv) (ip : NetIP) (m : BlocklistV4) : UInt64 :=
  if (isBlocked env.checkedAt ip m).isSome then env.checkedAt else env.call.now

section Block

variable {ipString : NetIP → String} {actor : String} {env : ApplyEnv} {r : Rule} {f : Flow}
  {s s' : Enforcer} {ip : NetIP} {key : UInt32}

end Block

def redirectedEnforcer : Enforcer :=
  { quietEnforcer with
    blocklistV4 := Function.update (fun _ => none) 0xC0000201
      (some ⟨0, Action.redirect, 1, 0, 0, Reason.aiVerdict⟩) }

end Policy

/-- How many packets of a source the rate limit check lets through. A packet comes with the
configuration that is read for it and with its time. -/
def passedPackets (src : UInt32) : List (FalxMapConfig × UInt64) → Kernel → Nat
  | [], _ => 0
  | (cfg, now) :: ps, st =>
    let r := checkRateLimit src cfg now st
    (if r.1 = none then 1 else 0) + passedPackets src ps r.2

section Passed

variable {src : UInt32} {st : Kernel} {b : RateBucket} {cfg : FalxMapConfig} {now : UInt64}

variable (cfg) in
theorem checkRateLimit_of_empty (h : st.rateLimit src = some b) (hzero : (b.refill now).tokens = 0) :
    (checkRateLimit src cfg now st).1 = some .drop ∧
      (checkRateLimit src cfg now st).2.rateLimit src = some (b.refill now).countDrop := by
  simp only [checkRateLimit, h, if_pos hzero]
  exact ⟨rfl, congrArg Meter.bucket (dropLimited_meter now (b.refill now) _)⟩

variable (cfg) in
theorem checkRateLimit_of_tokens (h : st.rateLimit src = some b)
    (hpos : (b.refill now).tokens ≠ 0) :
    (checkRateLimit src cfg now st).1 = none ∧
      (checkRateLimit src cfg now st).2.rateLimit src = some ((b.refill now).charge 1) := by
  simp only [checkRateLimit, h, if_neg hpos]
  exact ⟨rfl, congrArg Meter.bucket (chargeBucket_meter now 1 (b.refill now) st)⟩

variable (cfg now) in
theorem checkRateLimit_of_none (h : st.rateLimit src = none) :
    (checkRateLimit src cfg now st).1 = none ∧
      (checkRateLimit src cfg now st).2.rateLimit src = some (.opening cfg now) := by
  rw [checkRateLimit, h]
  exact ⟨rfl, Function.update_self _ _ _⟩

theorem RateBucket.abs_refill (b : RateBucket) (now : UInt64) : (b.refill now).abs =
    b.abs.refill b.capacity.toNat b.refillRate.toNat now.toNat :=
  toNat_refill b now

theorem RateBucket.abs_charge (hpos : b.tokens ≠ 0) :
    (b.charge 1).abs = ⟨b.tokens.toNat - 1, b.lastRefill.toNat⟩ := by
  rw [RateBucket.abs, RateBucket.charge, UInt64.toNat_sub_of_le _ _ (one_le_of_ne_zero hpos)]
  rfl

theorem passedPackets_eq_served (ps : List (FalxMapConfig × UInt64))
    (h : st.rateLimit src = some b) :
    passedPackets src ps st =
      served b.capacity.toNat b.refillRate.toNat (ps.map fun p => p.2.toNat) b.abs := by
  induction ps generalizing st b with
  | nil => rfl
  | cons p ps ih =>
    obtain ⟨cfg, now⟩ := p
    obtain ⟨hcap, hrate⟩ := refill_limits b now
    have htoks : (b.refill now).tokens = 0 ↔
        (b.abs.refill b.capacity.toNat b.refillRate.toNat now.toNat).tokens = 0 := by
      rw [← b.abs_refill]
      exact UInt64.toNat_inj.symm
    rw [passedPackets, List.map_cons, served]
    by_cases hzero : (b.refill now).tokens = 0
    · obtain ⟨hdrop, hnext⟩ := checkRateLimit_of_empty cfg h hzero
      have hrest := ih hnext
      simp only [RateBucket.countDrop, hcap, hrate] at hrest
      rw [if_pos (htoks.mp hzero), ← b.abs_refill, hrest]
      simp [hdrop, RateBucket.abs]
    · obtain ⟨hpass, hnext⟩ := checkRateLimit_of_tokens cfg h hzero
      have hrest := ih hnext
      rw [RateBucket.abs_charge hzero] at hrest
      simp only [RateBucket.charge, hcap, hrate] at hrest
      rw [if_neg (mt htoks.mpr hzero), ← b.abs_refill, hrest]
      simp [hpass, RateBucket.abs, Nat.add_comm]

/-- The bucket was opened with the present limits and has refilled to its capacity by `now`. -/
structure RateBucket.FullAt (cfg : FalxMapConfig) (now : UInt64) (b : RateBucket) : Prop where
  capacity : b.capacity = cfg.rateCapacity
  refillRate : b.refillRate = cfg.rateRefillNs
  refilled : b.lastRefill ≤ now
  nonzero : cfg.rateCapacity ≠ 0
  full : cfg.rateCapacity ≤ (b.refill now).tokens

theorem RateBucket.FullAt.tokens_ne_zero (h : b.FullAt cfg now) : (b.refill now).tokens ≠ 0 := by
  intro hz
  have hfull := h.full
  rw [hz] at hfull
  exact h.nonzero (UInt64.le_zero_iff.mp hfull)

theorem RateBucket.FullAt.last_le (h : b.FullAt cfg now) :
    ((b.refill now).charge 1).abs.last ≤ now.toNat := by
  show (b.refill now).abs.last ≤ now.toNat
  rw [b.abs_refill]
  exact Bucket.refill_last_le (UInt64.le_iff_toNat_le.mp h.refilled)

theorem RateBucket.abs_opening (cfg : FalxMapConfig) (now : UInt64) :
    (opening cfg now).abs = ⟨cfg.rateCapacity.toNat - 1, now.toNat⟩ := by
  rw [RateBucket.abs, opening, Words.toNat_satSub]
  rfl

theorem RateBucket.FullAt.ahead (h : b.FullAt cfg now) :
    Ahead cfg.rateRefillNs.toNat 0 ((b.refill now).charge 1).abs (opening cfg now).abs := by
  have hfull := UInt64.le_iff_toNat_le.mp h.full
  refine .inl ⟨?_, by rw [abs_opening]; exact h.last_le⟩
  rw [RateBucket.abs_charge h.tokens_ne_zero, abs_opening]
  simp only
  omega

theorem RateBucket.FullAt.served_le {ts : List Nat} (h : b.FullAt cfg now)
    (hclk : (now.toNat :: ts).Pairwise (· ≤ ·)) :
    served cfg.rateCapacity.toNat cfg.rateRefillNs.toNat ts (opening cfg now).abs ≤
      served cfg.rateCapacity.toNat cfg.rateRefillNs.toNat ts ((b.refill now).charge 1).abs := by
  have hcap : 0 < cfg.rateCapacity.toNat :=
    Nat.pos_of_ne_zero fun hz => h.nonzero (UInt64.toNat_inj.mp hz)
  have hbe : (opening cfg now).abs.tokens < cfg.rateCapacity.toNat := by
    rw [abs_opening]
    simp only
    omega
  exact served_le_of_ahead h.ahead hbe h.last_le (by rw [abs_opening]) hclk

theorem passedPackets_reset {st' : Kernel} {ps : List (FalxMapConfig × UInt64)}
    (hnone : st'.rateLimit src = none) (hclk : (ps.map Prod.snd).Pairwise (· ≤ ·))
    (hfull : ∀ b, st.rateLimit src = some b → ∀ cfg now rest, ps = (cfg, now) :: rest →
      b.FullAt cfg now) :
    passedPackets src ps st' ≤ passedPackets src ps st := by
  cases ps with
  | nil => exact le_refl _
  | cons p ps =>
    obtain ⟨cfg, now⟩ := p
    have hclk' : (now.toNat :: ps.map fun p => p.2.toNat).Pairwise (· ≤ ·) := by
      have hmap : now.toNat :: ps.map (fun p => p.2.toNat) =
          (((cfg, now) :: ps).map Prod.snd).map UInt64.toNat := by simp
      rw [hmap]
      exact hclk.map UInt64.toNat fun _ _ => UInt64.le_iff_toNat_le.mp
    obtain ⟨hpass', hnext'⟩ := checkRateLimit_of_none cfg now hnone
    simp only [passedPackets, hpass', if_true]
    rw [passedPackets_eq_served ps hnext']
    cases hst : st.rateLimit src with
    | none =>
      obtain ⟨hpass, hnext⟩ := checkRateLimit_of_none cfg now hst
      rw [hpass, if_pos rfl, passedPackets_eq_served ps hnext]
    | some b =>
      have hb := hfull b hst cfg now ps rfl
      obtain ⟨hcap, hrate⟩ := refill_limits b now
      obtain ⟨hpass, hnext⟩ := checkRateLimit_of_tokens cfg hst hb.tokens_ne_zero
      have hlims : ((b.refill now).charge 1).capacity = cfg.rateCapacity ∧
          ((b.refill now).charge 1).refillRate = cfg.rateRefillNs :=
        ⟨hcap.trans hb.capacity, hrate.trans hb.refillRate⟩
      rw [hpass, if_pos rfl, passedPackets_eq_served ps hnext, hlims.1, hlims.2]
      exact Nat.add_le_add_left (hb.served_le hclk') 1

end Passed

section RateLimitRule

variable {ipString : NetIP → String} {actor : String} {env : Policy.ApplyEnv} {r : Policy.Rule}
  {f : Policy.Flow} {s : Policy.Enforcer} {ip : NetIP} {key : UInt32}

theorem Policy.applyRule_rateLimit (hact : r.action = .rateLimit) (hsrc : f.srcIP = some ip) :
    (Enforcer.applyRule ipString actor env r f s).2.rateLimit =
      (resetRateBucket env.call ip s.rateLimit).2 := by
  simp only [Enforcer.applyRule, hsrc, hact]
  split <;> rename_i hcall <;> rw [hcall]

theorem resetRateBucket_cases {call : CallEnv} {m : UInt32 → Option RateBucket}
    (hkey : ipv4ToUint32 ip = some key) :
    call.Refuses ∧ (resetRateBucket call ip m).2 = m ∨
      ¬ call.Refuses ∧ (resetRateBucket call ip m).2 = Function.update m key none := by
  by_cases hok : call.allowed = false
  · exact .inl ⟨.inl hok, by rw [resetRateBucket, if_pos hok]⟩
  · rw [resetRateBucket, if_neg hok, hkey]
    cases herr : call.mapErr with
    | some e => exact .inl ⟨.inr (by simp [herr]), rfl⟩
    | none => exact .inr ⟨fun h => h.elim hok fun hne => hne herr, rfl⟩

end RateLimitRule

def throttledKernel : Kernel :=
  { Kernel.boot (fun k => [k.toNat]) (limits 1000 1000000) with
    rateLimit := Function.update (fun _ => none) 0xC0000201
      (some ⟨0, 5000000000, 1000, 1000000, 0⟩) }

def throttleRule : Policy.Rule := { Policy.sshRule with action := .rateLimit }

def throttled : Kernel :=
  { throttledKernel with
    rateLimit := (Policy.Enforcer.applyRule (fun _ => "192.0.2.1") "ai-engine"
      ⟨Ipc.quietCall, 1700000000⟩ throttleRule sshFlow
      { quietEnforcer with rateLimit := throttledKernel.rateLimit }).2.rateLimit }

end Falx
