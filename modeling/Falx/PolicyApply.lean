import Falx.HardenedWriter
import Falx.PolicyEngine
import Mathlib.Data.Rat.Init

/-! What applying a matched rule does to the maps and to the event bus. -/

namespace Falx.Policy

inductive BusEvent where
  | ipBlocked (srcIP actor reason : String) (ttl : UInt64)
  | ipUnblocked (srcIP actor : String)
  | threatAlert (srcIP threatType severity : String) (confidence : ℚ)
  deriving DecidableEq

structure Enforcer where
  engine : Engine
  blocklistV4 : BlocklistV4
  rateLimit : UInt32 → Option RateBucket
  published : List BusEvent
  totalApply : UInt64

structure ApplyEnv where
  call : CallEnv
  checkedAt : UInt64
  deriving DecidableEq

namespace Rule

def blockEntry (r : Rule) (f : Flow) : BlockEntry :=
  ⟨r.ttlSeconds, Action.drop, r.ruleId, f.threatScore, 0, Reason.aiVerdict⟩

def redirectEntry (r : Rule) : BlockEntry :=
  ⟨r.ttlSeconds, Action.redirect, r.ruleId, 0, 0, Reason.aiVerdict⟩

end Rule

def Rule.verdict (r : Rule) (f : Flow) (now : UInt64) : Option (Option BlockEntry) :=
  match r.action with
  | .block => some (some (absoluteExpiry now (r.blockEntry f)))
  | .redirect => some (some (absoluteExpiry now r.redirectEntry))
  | .allow => some none
  | .alert | .rateLimit | .unknown _ => none

namespace Enforcer

variable (net : NetLib) (ipString : NetIP → String) (actor : String)

def applyRule (env : ApplyEnv) (r : Rule) (f : Flow) (s : Enforcer) : Option GoError × Enforcer :=
  match f.srcIP with
  | none => (none, s)
  | some ip =>
    let s := { s with totalApply := s.totalApply + 1 }
    match r.action with
    | .block =>
      if (isBlocked env.checkedAt ip s.blocklistV4).isSome then (none, s)
      else
        match blockIPv4 env.call ip (r.blockEntry f) s.blocklistV4 with
        | (some err, m) =>
          (some (.wrapped ("apply block rule " ++ r.id) err), { s with blocklistV4 := m })
        | (none, m) =>
          (none, { s with
            blocklistV4 := m
            published := s.published ++ [.ipBlocked (ipString ip) actor r.reason r.ttlSeconds] })
    | .allow =>
      match unblockIPv4 env.call ip s.blocklistV4 with
      | (some _, m) => (none, { s with blocklistV4 := m })
      | (none, m) =>
        (none, { s with
          blocklistV4 := m
          published := s.published ++ [.ipUnblocked (ipString ip) actor] })
    | .redirect =>
      match blockIPv4 env.call ip r.redirectEntry s.blocklistV4 with
      | (some err, m) =>
        (some (.wrapped ("apply redirect rule " ++ r.id) err), { s with blocklistV4 := m })
      | (none, m) => (none, { s with blocklistV4 := m })
    | .alert =>
      (none, { s with published := s.published ++
        [.threatAlert (ipString ip) r.reason "medium" (f.threatScore.toNat / 100)] })
    | .rateLimit =>
      match resetRateBucket env.call ip s.rateLimit with
      | (some err, m) =>
        (some (.wrapped ("apply rate-limit rule " ++ r.id) err), { s with rateLimit := m })
      | (none, m) => (none, { s with rateLimit := m })
    | .unknown _ => (none, s)

def evaluateAndApply (p : ApplyEnv × Flow) (s : Enforcer) : Option GoError × Enforcer :=
  let (rule, engine) := s.engine.evaluate net p.2
  match rule with
  | none => (none, { s with engine })
  | some r => applyRule ipString actor p.1 r p.2 { s with engine }

def evaluateAndApplyBatch : List (ApplyEnv × Flow) → Enforcer → List (Option GoError) × Enforcer
  | [], s => ([], s)
  | p :: ps, s =>
    let (err, s) := evaluateAndApply net ipString actor p s
    let (errs, s) := evaluateAndApplyBatch ps s
    (err :: errs, s)

variable {net ipString actor} {s : Enforcer}

theorem applyRule_blocklistV4 {f : Flow} {ip : NetIP} (hsrc : f.srcIP = some ip)
    (env : ApplyEnv) (r : Rule) :
    (applyRule ipString actor env r f s).2.blocklistV4 =
      match r.action with
      | .block =>
        if (isBlocked env.checkedAt ip s.blocklistV4).isSome then s.blocklistV4
        else (blockIPv4 env.call ip (r.blockEntry f) s.blocklistV4).2
      | .allow => (unblockIPv4 env.call ip s.blocklistV4).2
      | .redirect => (blockIPv4 env.call ip r.redirectEntry s.blocklistV4).2
      | .alert | .rateLimit | .unknown _ => s.blocklistV4 := by
  cases hact : r.action with
  | block =>
    simp only [applyRule, hsrc, hact]
    by_cases hdup : (isBlocked env.checkedAt ip s.blocklistV4).isSome = true
    · rw [if_pos hdup, if_pos hdup]
    · rw [if_neg hdup, if_neg hdup]
      split <;> rename_i hcall <;> rw [hcall]
  | allow | redirect =>
    simp only [applyRule, hsrc, hact]
    split <;> rename_i hcall <;> rw [hcall]
  | rateLimit =>
    simp only [applyRule, hsrc, hact]
    split <;> rfl
  | alert | unknown text => simp only [applyRule, hsrc, hact]

theorem applyRule_engine (env : ApplyEnv) (r : Rule) (f : Flow) :
    (applyRule ipString actor env r f s).2.engine = s.engine := by
  simp only [applyRule]
  repeat' split
  all_goals rfl

theorem applyRule_entry (env : ApplyEnv) (r : Rule) (f : Flow) (k : UInt32) :
    (applyRule ipString actor env r f s).2.blocklistV4 k = s.blocklistV4 k ∨
      (∃ ip, f.srcIP = some ip ∧ ipv4ToUint32 ip = some k) ∧
        r.verdict f env.call.now = some ((applyRule ipString actor env r f s).2.blocklistV4 k) := by
  cases hsrc : f.srcIP with
  | none => exact .inl (by simp only [applyRule, hsrc])
  | some ip =>
    rw [applyRule_blocklistV4 hsrc, Rule.verdict]
    cases hact : r.action with
    | block =>
      by_cases hdup : (isBlocked env.checkedAt ip s.blocklistV4).isSome = true
      · exact .inl (by simp only [hdup, if_true])
      · simp only [hdup]
        rcases blockIPv4_apply env.call ip (r.blockEntry f) k with hsame | ⟨hkey, hnew⟩
        · exact .inl hsame
        · exact .inr ⟨⟨ip, rfl, hkey⟩, congrArg some hnew.symm⟩
    | redirect =>
      rcases blockIPv4_apply env.call ip r.redirectEntry k with hsame | ⟨hkey, hnew⟩
      · exact .inl hsame
      · exact .inr ⟨⟨ip, rfl, hkey⟩, congrArg some hnew.symm⟩
    | allow =>
      rcases unblockIPv4_apply env.call ip k with hsame | ⟨hkey, hnew⟩
      · exact .inl hsame
      · exact .inr ⟨⟨ip, rfl, hkey⟩, congrArg some hnew.symm⟩
    | alert | rateLimit | unknown text => exact .inl rfl

theorem applyRule_failed {env : ApplyEnv} {r : Rule} {f : Flow} {err : GoError} {s' : Enforcer}
    (h : applyRule ipString actor env r f s = (some err, s')) :
    s' = { s with totalApply := s.totalApply + 1 } := by
  simp only [applyRule] at h
  repeat' split at h
  all_goals cases h
  · rename_i hcall
    rw [blockIPv4_failed hcall]
  · rename_i hcall
    rw [blockIPv4_failed hcall]
  · rename_i hcall
    rw [resetRateBucket_failed hcall]

theorem evaluateAndApply_rules (p : ApplyEnv × Flow) :
    (evaluateAndApply net ipString actor p s).2.engine.rules = s.engine.rules := by
  have hrules := (s.engine.evaluate_rules net p.2).2
  simp only [evaluateAndApply]
  split
  · exact hrules
  · rw [applyRule_engine]
    exact hrules

def Enacts (net : NetLib) (rules : List Rule) (p : ApplyEnv × Flow) (k : UInt32)
    (entry : Option BlockEntry) : Prop :=
  ∃ r, rules.find? (·.matchFlow net p.2) = some r ∧
    (∃ ip, p.2.srcIP = some ip ∧ ipv4ToUint32 ip = some k) ∧
    r.verdict p.2 p.1.call.now = some entry

theorem evaluateAndApply_entry (p : ApplyEnv × Flow) (k : UInt32) :
    (evaluateAndApply net ipString actor p s).2.blocklistV4 k = s.blocklistV4 k ∨
      Enacts net s.engine.rules p k
        ((evaluateAndApply net ipString actor p s).2.blocklistV4 k) := by
  simp only [evaluateAndApply]
  split
  · exact .inl rfl
  · rename_i r hrule
    rw [Engine.evaluate_fst] at hrule
    exact (applyRule_entry p.1 r p.2 k).imp_right fun h => ⟨r, hrule, h⟩

/-- After a batch of flows every entry of the blocklist is as before it or the verdict of
the rule that comes first among those matching some flow of the batch from that address. -/
theorem evaluateAndApplyBatch_entry (ps : List (ApplyEnv × Flow)) (k : UInt32) :
    (evaluateAndApplyBatch net ipString actor ps s).2.blocklistV4 k = s.blocklistV4 k ∨
      ∃ p ∈ ps, Enacts net s.engine.rules p k
        ((evaluateAndApplyBatch net ipString actor ps s).2.blocklistV4 k) := by
  induction ps generalizing s with
  | nil => exact .inl rfl
  | cons p ps ih =>
    rw [evaluateAndApplyBatch]
    rcases ih (s := (evaluateAndApply net ipString actor p s).2) with hlast | ⟨q, hq, hlast⟩
    · rw [hlast]
      exact (evaluateAndApply_entry p k).imp_right fun h => ⟨p, .head _, h⟩
    · rw [evaluateAndApply_rules] at hlast
      exact .inr ⟨q, .tail p hq, hlast⟩

end Enforcer

end Falx.Policy
