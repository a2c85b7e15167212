import Falx.FailsafeRace

/-! `Engine.UpdateThresholds` changes the thresholds in two places: it queues a command that
the engine's loop applies to the detector, and it updates `FAILSAFE_STATE` through the map
manager, which its rate limiter or the map may refuse. -/

namespace Falx

open ReadModifyWrite (State)

/-- The bucket of one kind of operation in the map manager's rate limiter. The tokens, which
the source keeps in floating point, are exact. -/
structure MapTokenBucket where
  tokens : ℚ
  capacity : ℚ
  refillRate : ℚ
  lastRefill : Time
  dropped : Nat
  accepted : Nat
  deriving DecidableEq

def newTokenBucket (rps : Int) (now : Time) : MapTokenBucket where
  tokens := rps
  capacity := rps
  refillRate := rps / 1000000000
  lastRefill := now
  dropped := 0
  accepted := 0

namespace MapTokenBucket

def refill (now : Time) (b : MapTokenBucket) : MapTokenBucket :=
  { b with
    tokens := min (b.tokens + (now - b.lastRefill : Int) * b.refillRate) b.capacity
    lastRefill := now }

def allow (now : Time) (b : MapTokenBucket) : Bool × MapTokenBucket :=
  let b := b.refill now
  if b.tokens < 1 then (false, { b with dropped := b.dropped + 1 })
  else (true, { b with tokens := b.tokens - 1, accepted := b.accepted + 1 })

end MapTokenBucket

abbrev Thresholds := UInt64 × UInt64

def Detector.thresholds (d : Detector) : Thresholds := (d.cfg.ppsThreshold, d.cfg.bpsThreshold)

def FailsafeState.thresholds (s : FailsafeState) : Thresholds := (s.ppsThreshold, s.bpsThreshold)

def FailsafeMapCall.thresholds : FailsafeMapCall → Option Thresholds
  | setCircuitOpen _ _ => none
  | updateFailsafeThresholds pps bps => some (pps, bps)

inductive OverrideCmd where
  | forceOpen
  | forceClose
  | thresholdUpdate (pps bps : UInt64)
  deriving DecidableEq

namespace OverrideCmd

def thresholds : OverrideCmd → Option Thresholds
  | thresholdUpdate pps bps => some (pps, bps)
  | _ => none

def event (clk : Readings) : OverrideCmd → EngineEvent
  | forceOpen => .forceOpen clk
  | forceClose => .forceClose clk
  | thresholdUpdate pps bps => .thresholdUpdate pps bps

end OverrideCmd

inductive ThresholdError where
  | engineBusy
  | rateLimited
  | lookupFailed
  | updateFailed
  deriving DecidableEq

inductive CallStage where
  | idle
  | queued
  | checked
  | returned (err : Option ThresholdError)
  deriving DecidableEq

/-- A call of `SetCircuitOpen` goes to the rate limiter at once, a call of `UpdateThresholds`
after it has queued its command. -/
def FailsafeMapCall.entry : FailsafeMapCall → CallStage
  | setCircuitOpen _ _ => .idle
  | updateFailsafeThresholds _ _ => .queued

/-- `taken` is the command that the loop has received and not yet applied; `inCall` are the
calls of `UpdateThresholds` that have queued their command and not yet returned, oldest first. -/
structure ThresholdSystem (ι : Type) where
  daemon : FailsafeDaemon Detector
  overrideCh : List OverrideCmd
  taken : Option OverrideCmd
  bucket : MapTokenBucket
  map : State FailsafeState ι
  stage : ι → CallStage
  inCall : List ι

inductive ThresholdStep (ι : Type) where
  | send (i : ι)
  | force (isOpen : Bool)
  | takeOverride
  | applyOverride (clk : Readings)
  | tick (read : Option XdpStats) (clk : Readings)
  | check (i : ι) (now : Time)
  | lookup (i : ι)
  | lookupFails (i : ι)
  | update (i : ι)
  | updateFails (i : ι)
  | packet (pkt : PacketInfo) (now : UInt64)

def ThresholdStep.caller {ι : Type} : ThresholdStep ι → Option ι
  | send i | check i _ | lookup i | lookupFails i | update i | updateFails i => some i
  | _ => none

def overrideChCapacity : Nat := 8

namespace ThresholdSystem

variable {ι : Type}

def start (daemon : FailsafeDaemon Detector) (bucket : MapTokenBucket) (record : FailsafeState) :
    ThresholdSystem ι where
  daemon := daemon
  overrideCh := []
  taken := none
  bucket := bucket
  map := beforeCalls record
  stage := fun _ => .idle
  inCall := []

variable [DecidableEq ι] (calls : ι → FailsafeMapCall)

def finish (i : ι) (err : Option ThresholdError) (s : ThresholdSystem ι) : ThresholdSystem ι :=
  { s with stage := Function.update s.stage i (.returned err), inCall := s.inCall.erase i }

def mapStep (e : FailsafeStep ι) (s : ThresholdSystem ι) : Option (ThresholdSystem ι) :=
  (ReadModifyWrite.exec (failsafeMap calls) s.map e).map fun m => { s with map := m }

/-- A step of the call at the map, which it takes after its turn at the rate limiter. -/
def callStep (i : ι) (e : FailsafeStep ι) (s : ThresholdSystem ι) : Option (ThresholdSystem ι) :=
  if s.stage i = .checked then s.mapStep calls e else none

def exec (s : ThresholdSystem ι) : ThresholdStep ι → Option (ThresholdSystem ι)
  | .send i =>
    match s.stage i, (calls i).thresholds with
    | .idle, some (pps, bps) =>
      if s.overrideCh.length < overrideChCapacity then
        some { s with
          overrideCh := s.overrideCh ++ [.thresholdUpdate pps bps]
          stage := Function.update s.stage i .queued
          inCall := s.inCall ++ [i] }
      else some { s with stage := Function.update s.stage i (.returned (some .engineBusy)) }
    | _, _ => none
  | .force isOpen =>
    if s.overrideCh.length < overrideChCapacity then
      some { s with overrideCh := s.overrideCh ++ [if isOpen then .forceOpen else .forceClose] }
    else some s
  | .takeOverride =>
    match s.taken, s.overrideCh with
    | none, cmd :: rest => some { s with taken := some cmd, overrideCh := rest }
    | _, _ => none
  | .applyOverride clk =>
    s.taken.map fun cmd =>
      { s with daemon := (s.daemon.step Detector.ops (cmd.event clk)).1, taken := none }
  | .tick read clk =>
    if s.taken = none then
      some { s with daemon := (s.daemon.step Detector.ops (.tick read clk)).1 }
    else none
  | .check i now =>
    if s.stage i = (calls i).entry then
      match s.bucket.allow now with
      | (true, b) => some { s with bucket := b, stage := Function.update s.stage i .checked }
      | (false, b) => some (finish i (some .rateLimited) { s with bucket := b })
    else none
  | .lookup i => s.callStep calls i (.lookup i)
  | .lookupFails i =>
    if s.stage i = .checked ∧ s.map.phase i = .ready then some (s.finish i (some .lookupFailed))
    else none
  | .update i => (s.callStep calls i (.update i)).map (finish i none)
  | .updateFails i => (s.callStep calls i (.fail i)).map (finish i (some .updateFailed))
  | .packet pkt now => s.mapStep calls (.other (pkt, now))

variable {calls} {s s' : ThresholdSystem ι} {e : ThresholdStep ι} {i : ι}

variable {x : FailsafeStep ι}

theorem mapStep_inv (h : s.mapStep calls x = some s') :
    ∃ m, ReadModifyWrite.exec (failsafeMap calls) s.map x = some m ∧ s' = { s with map := m } := by
  obtain ⟨m, hm, rfl⟩ := Option.map_eq_some_iff.mp h
  exact ⟨m, hm, rfl⟩

theorem exec_send (h : exec calls s (.send i) = some s') :
    s.stage i = .idle ∧ ∃ pps bps, (calls i).thresholds = some (pps, bps) ∧
      ((s.overrideCh.length < overrideChCapacity ∧ s' = { s with
          overrideCh := s.overrideCh ++ [.thresholdUpdate pps bps]
          stage := Function.update s.stage i .queued
          inCall := s.inCall ++ [i] }) ∨
        s' = { s with stage := Function.update s.stage i (.returned (some .engineBusy)) }) := by
  simp only [exec] at h
  split at h
  · rename_i pps bps hsg hcall
    refine ⟨hsg, pps, bps, hcall, ?_⟩
    split at h
    · rename_i hlt
      cases h
      exact .inl ⟨hlt, rfl⟩
    · cases h
      exact .inr rfl
  · cases h

theorem exec_check {now : Time} (h : exec calls s (.check i now) = some s') :
    s.stage i = (calls i).entry ∧
      ((1 ≤ (s.bucket.refill now).tokens ∧ ∃ b,
          s' = { s with bucket := b, stage := Function.update s.stage i .checked }) ∨
        ((s.bucket.refill now).tokens < 1 ∧ ∃ b,
          s' = finish i (some .rateLimited) { s with bucket := b })) := by
  simp only [exec] at h
  split at h
  · rename_i hsg
    refine ⟨hsg, ?_⟩
    by_cases hlt : (s.bucket.refill now).tokens < 1
    · simp only [MapTokenBucket.allow, hlt, if_true, Option.some.injEq] at h
      exact .inr ⟨hlt, _, h.symm⟩
    · simp only [MapTokenBucket.allow, hlt, if_false, Option.some.injEq] at h
      exact .inl ⟨not_lt.mp hlt, _, h.symm⟩
  · cases h

theorem callStep_inv (h : s.callStep calls i x = some s') :
    s.stage i = .checked ∧ ∃ m, ReadModifyWrite.exec (failsafeMap calls) s.map x = some m ∧
      s' = { s with map := m } := by
  rw [callStep] at h
  split at h
  · rename_i hsg
    exact ⟨hsg, mapStep_inv h⟩
  · cases h

theorem callStep_finish_inv {err : Option ThresholdError}
    (h : (s.callStep calls i x).map (finish i err) = some s') :
    s.stage i = .checked ∧ ∃ m, ReadModifyWrite.exec (failsafeMap calls) s.map x = some m ∧
      s' = finish i err { s with map := m } := by
  obtain ⟨t, ht, rfl⟩ := Option.map_eq_some_iff.mp h
  obtain ⟨hsg, m, hm, rfl⟩ := callStep_inv ht
  exact ⟨hsg, m, hm, rfl⟩

theorem exec_lookupFails (h : exec calls s (.lookupFails i) = some s') :
    s.stage i = .checked ∧ s' = s.finish i (some .lookupFailed) := by
  simp only [exec] at h
  split at h
  · rename_i hsg
    cases h
    exact ⟨hsg.1, rfl⟩
  · cases h

theorem exec_takeOverride (h : exec calls s .takeOverride = some s') :
    ∃ cmd rest, s.taken = none ∧ s.overrideCh = cmd :: rest ∧
      s' = { s with taken := some cmd, overrideCh := rest } := by
  simp only [exec] at h
  split at h
  · rename_i cmd rest htk hq
    cases h
    exact ⟨cmd, rest, htk, hq, rfl⟩
  · cases h

end ThresholdSystem

end Falx
