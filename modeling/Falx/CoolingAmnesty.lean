import Falx.CoolingBackoff

/-! The sweep over the cooling tracker. An entry is older than the longest ban before it is
deleted, so that the ban which it recorded last has run out in the kernel. -/

namespace Falx

open Function Words

abbrev CoolingTracker := UInt32 → Option CoolingEntry

def maxCoolingBanNs : UInt64 := 655360 * 1000000000

/-- What one sweep meets: the keys in the order of the iterator, whether that ends in an error,
and the keys that cannot be deleted. -/
structure SweepEnv where
  visit : List UInt32
  iterErr : Bool
  deleteErr : UInt32 → Bool

namespace AmnestySweeeper

def isStale (nowNs : UInt64) (val : CoolingEntry) : Bool :=
  0 < val.lastBanAtNs && val.lastBanAtNs < nowNs && maxCoolingBanNs < nowNs - val.lastBanAtNs

def stale (nowNs : UInt64) (visit : List UInt32) (m : CoolingTracker) : List UInt32 :=
  visit.filter fun key => (m key).any (isStale nowNs)

structure Purge where
  purged : UInt64
  errs : UInt64
  tracker : CoolingTracker

/-- A key that the iterator has given twice is not there at its second deletion. -/
def delete (env : SweepEnv) (p : Purge) (key : UInt32) : Purge :=
  if env.deleteErr key = true ∨ p.tracker key = none then { p with errs := p.errs + 1 }
  else { p with purged := p.purged + 1, tracker := Function.update p.tracker key none }

def sweepCooling (env : SweepEnv) (nowNs : UInt64) (m : CoolingTracker) : Purge :=
  (stale nowNs env.visit m).foldl (delete env) ⟨0, if env.iterErr then 1 else 0, m⟩

section Deleted

variable {env : SweepEnv} {nowNs : UInt64} {m : CoolingTracker} {key : UInt32}

theorem delete_cases (p : Purge) (k : UInt32) :
    (delete env p k).tracker key = p.tracker key ∨
      key = k ∧ (delete env p k).tracker key = none := by
  unfold delete
  split
  · exact .inl rfl
  · by_cases hkey : key = k
    · subst hkey
      exact .inr ⟨rfl, update_self _ _ _⟩
    · exact .inl (update_of_ne hkey _ _)

theorem foldl_delete_cases (keys : List UInt32) (p : Purge) :
    (keys.foldl (delete env) p).tracker key = p.tracker key ∨
      key ∈ keys ∧ (keys.foldl (delete env) p).tracker key = none := by
  induction keys generalizing p with
  | nil => exact .inl rfl
  | cons k keys ih =>
    rcases ih (delete env p k) with hsame | ⟨hkey, hnone⟩
    · rw [List.foldl_cons, hsame]
      rcases @delete_cases env key p k with hsame | ⟨rfl, hnone⟩
      · exact .inl hsame
      · exact .inr ⟨.head _, hnone⟩
    · exact .inr ⟨.tail k hkey, hnone⟩

theorem sweepCooling_apply (env : SweepEnv) (nowNs : UInt64) (m : CoolingTracker) (key : UInt32) :
    (sweepCooling env nowNs m).tracker key = m key ∨
      (sweepCooling env nowNs m).tracker key = none ∧
        ∃ val, m key = some val ∧ isStale nowNs val = true := by
  rcases foldl_delete_cases (stale nowNs env.visit m) ⟨0, if env.iterErr then 1 else 0, m⟩
    with hsame | ⟨hkey, hnone⟩
  · exact .inl hsame
  · exact .inr ⟨hnone, (Option.any_eq_true _ _).mp (List.mem_filter.mp hkey).2⟩

end Deleted

end AmnestySweeeper

/-- What changes the two maps: packets and bans in the kernel, evictions from either of them and
earlier sweeps. -/
inductive CoolingStep where
  | packet (clk : Clock) (frame : Frame)
  | ban (call : BanCall)
  | evictTracker (key : UInt32)
  | evictBlock (key : UInt32)
  | sweepCooling (env : SweepEnv) (nowNs : UInt64)
  | sweepBlocklist (nowS : UInt64) (keys : List UInt32)

def CoolingStep.run (st : Kernel) : CoolingStep → Kernel
  | packet clk frame => (processPacket clk frame st).2
  | ban call => call.apply st
  | evictTracker key => { st with coolingTracker := Function.update st.coolingTracker key none }
  | evictBlock key => { st with blocklistV4 := Function.update st.blocklistV4 key none }
  | sweepCooling env nowNs =>
    { st with coolingTracker := (AmnestySweeeper.sweepCooling env nowNs st.coolingTracker).tracker }
  | sweepBlocklist nowS keys => { st with blocklistV4 := sweepBlocklistV4 nowS keys st.blocklistV4 }

def BanInForce (st : Kernel) (src : UInt32) (now : UInt64) : Prop :=
  ∃ frame, (checkBlocklistV4 frame src now st).1 = some (.drop, frame)

/-- The blocklist has no other entry for a tracked source than the ban that was recorded last. -/
def Recorded (st : Kernel) : Prop :=
  ∀ key entry, st.coolingTracker key = some entry → entry.repeatCount.toNat ≤ 16 ∧
    ∀ block, st.blocklistV4 key = some block → block = banEntry entry.lastBanAtNs entry.repeatCount

section Recorded

variable {st st' : Kernel}

section

variable (h : Recorded st)

include h

theorem Recorded.shrink (htrk : ∀ key, st'.coolingTracker key = st.coolingTracker key ∨
      st'.coolingTracker key = none)
    (hbl : ∀ key, st'.blocklistV4 key = st.blocklistV4 key ∨ st'.blocklistV4 key = none) :
    Recorded st' := by
  intro key entry hen
  rcases htrk key with ht | ht
  · obtain ⟨hcnt, hban⟩ := h key entry (ht.symm.trans hen)
    refine ⟨hcnt, fun block hb => ?_⟩
    rcases hbl key with hb' | hb'
    · exact hban block (hb'.symm.trans hb)
    · cases hb'.symm.trans hb
  · cases ht.symm.trans hen

theorem Recorded.ban (c : BanCall) : Recorded (c.apply st) := by
  intro key entry hen
  by_cases hkey : key = c.src
  · subst hkey
    obtain ⟨entry', hen', hcnt, hlast, hbl⟩ := c.apply_self st
    cases hen'.symm.trans hen
    refine ⟨?_, fun block hb => ?_⟩
    · rw [hcnt]
      exact nextRepeatCount_le _ _
    · rw [hlast, hcnt]
      exact Option.some.inj (hb.symm.trans hbl)
  · obtain ⟨htrk, hbl⟩ := BanCall.apply_of_ne hkey st
    rw [htrk] at hen
    rw [hbl]
    exact h key entry hen

theorem Recorded.quiet {src : UInt32} (hq : Quiet src st st') : Recorded st' :=
  h.shrink (fun key => .inl (congrFun hq.coolingTracker key))
    fun key => .inl (congrFun hq.blocklistV4 key)

theorem Recorded.packet (clk : Clock) (frame : Frame) :
    Recorded (processPacket clk frame st).2 := by
  rcases processPacket_effect clk frame st with hqt | ⟨pkt, b, -, -, -, heffect⟩
  · exact h.quiet (hqt 0)
  · generalize (processPacket clk frame st).2 = st' at heffect
    cases heffect with
    | quiet hq => exact h.quiet hq
    | ban now minR before after =>
      exact ((h.quiet before).ban ⟨pkt.srcIp, now, minR⟩).quiet after

end

theorem update_none_eq_or {κ α : Type} [DecidableEq κ] (m : κ → Option α) (key k : κ) :
    update m key none k = m k ∨ update m key none k = none := by
  by_cases hk : k = key
  · subst hk
    exact .inr (update_self _ _ _)
  · exact .inl (update_of_ne hk _ _)

theorem Recorded.run (h : Recorded st) (step : CoolingStep) : Recorded (step.run st) := by
  cases step with
  | packet clk frame => exact h.packet clk frame
  | ban call => exact h.ban call
  | evictTracker key =>
    exact h.shrink (fun k => update_none_eq_or _ key k) fun _ => .inl rfl
  | evictBlock key =>
    exact h.shrink (fun _ => .inl rfl) fun k => update_none_eq_or _ key k
  | sweepCooling env nowNs =>
    refine h.shrink (fun k => ?_) fun _ => .inl rfl
    rcases AmnestySweeeper.sweepCooling_apply env nowNs st.coolingTracker k with hsame | hgone
    · exact .inl hsame
    · exact .inr hgone.1
  | sweepBlocklist nowS keys =>
    refine h.shrink (fun _ => .inl rfl) fun k => ?_
    have hk : sweepBlocklistV4 nowS keys st.blocklistV4 k = _ :=
      sweepBlocklist_apply nowS keys st.blocklistV4 k
    by_cases hsl : k ∈ keys ∧ isExpiredIn st.blocklistV4 nowS k = true
    · exact .inr (hk.trans (if_pos hsl))
    · exact .inl (hk.trans (if_neg hsl))

theorem Recorded.runAll (h : Recorded st) (steps : List CoolingStep) :
    Recorded (steps.foldl CoolingStep.run st) := by
  induction steps generalizing st with
  | nil => exact h
  | cons step steps ih => exact ih (h.run step)

end Recorded

theorem banEntry_expired_of_isStale {nowNs now : UInt64} {entry : CoolingEntry}
    (hcnt : entry.repeatCount.toNat ≤ 16)
    (hsl : AmnestySweeeper.isStale nowNs entry = true) (hle : nowNs ≤ now) :
    (banEntry entry.lastBanAtNs entry.repeatCount).expired (now / nsPerSec) = true := by
  simp only [AmnestySweeeper.isStale, Bool.and_eq_true, decide_eq_true_eq] at hsl
  obtain ⟨⟨-, haf⟩, hage⟩ := hsl
  have hmax : maxCoolingBanNs.toNat = 655360 * 1000000000 := rfl
  have hold := UInt64.lt_iff_toNat_lt.mp hage
  rw [UInt64.toNat_sub_of_le _ _ (UInt64.le_of_lt haf), hmax] at hold
  have hnow := UInt64.le_iff_toNat_le.mp hle
  have hsec : (now / nsPerSec).toNat = now.toNat / 1000000000 := UInt64.toNat_div _ _
  have hpow : 2 ^ entry.repeatCount.toNat ≤ 2 ^ 16 := Nat.pow_le_pow_right (by decide) hcnt
  have hpos : 0 < 2 ^ entry.repeatCount.toNat := Nat.two_pow_pos _
  have hexp := toNat_banEntry_expireAt hcnt entry.lastBanAtNs
  rw [BlockEntry.expired_iff]
  refine ⟨fun hzero => ?_, ?_⟩
  · rw [hzero, UInt64.toNat_zero] at hexp
    omega
  · rw [hexp, hsec]
    omega

theorem not_banInForce {st : Kernel} {src : UInt32} {now : UInt64}
    (h : ∀ block, st.blocklistV4 src = some block → block.expired (now / nsPerSec) = true) :
    ¬ BanInForce st src now := by
  rintro ⟨frame, hdrop⟩
  cases hbl : st.blocklistV4 src with
  | none =>
    rw [checkBlocklistV4, hbl] at hdrop
    cases hdrop
  | some block =>
    simp only [checkBlocklistV4, hbl, if_pos (h block hbl)] at hdrop
    cases hdrop

/-- In every state that bans, packets, evictions and sweeps lead to, a sweep deletes no entry
whose ban is in force at the time of the sweep or at any time after it. -/
theorem sweepCooling_safe (hashes : UInt32 → List Nat) (cfg : FalxMapConfig)
    (steps : List CoolingStep) (env : SweepEnv) (nowNs : UInt64) {key : UInt32}
    {entry : CoolingEntry} :
    let st := steps.foldl CoolingStep.run (Kernel.boot hashes cfg)
    st.coolingTracker key = some entry →
      (AmnestySweeeper.sweepCooling env nowNs st.coolingTracker).tracker key = none →
      ∀ now, nowNs ≤ now → ¬ BanInForce st key now := by
  intro st hen hdel now hle
  have hboot : Recorded (Kernel.boot hashes cfg) := nofun
  have hrec : Recorded st := hboot.runAll steps
  obtain ⟨hcnt, hban⟩ := hrec key entry hen
  rcases AmnestySweeeper.sweepCooling_apply env nowNs st.coolingTracker key with hsame | hgone
  · cases (hsame.symm.trans hdel).symm.trans hen
  · obtain ⟨-, val, hval, hsl⟩ := hgone
    cases hval.symm.trans hen
    refine not_banInForce fun block hbl => ?_
    rw [hban block hbl]
    exact banEntry_expired_of_isStale hcnt hsl hle

/-- A ban of the greatest length at 5 ns, swept as soon as it is older than that. -/
theorem sweepCooling_safe_longest :
    let st := [CoolingStep.ban ⟨1, 5, 16⟩].foldl CoolingStep.run
      (Kernel.boot (fun k => [k.toNat]) (limits 1 1))
    (AmnestySweeeper.sweepCooling ⟨[1], false, fun _ => false⟩ 655360000000006
        st.coolingTracker).tracker 1 = none ∧
      ¬ BanInForce st 1 655360000000006 := by
  intro st
  have hen : st.coolingTracker 1 = some ⟨16, 0, 5⟩ := by decide +kernel
  have hdel : (AmnestySweeeper.sweepCooling ⟨[1], false, fun _ => false⟩ 655360000000006
      st.coolingTracker).tracker 1 = none := by decide +kernel
  exact ⟨hdel, sweepCooling_safe (fun k => [k.toNat]) (limits 1 1) [.ban ⟨1, 5, 16⟩] _ _
    hen hdel _ (UInt64.le_refl _)⟩

end Falx
