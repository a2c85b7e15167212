import Falx.FloodDetector
import Mathlib.Data.Nat.Log

/-! The failsafe engine of falxd: the three-state circuit breaker, the recovery
schedule, the administrator's override and the polling tick. The engine only asks
for writes of `circuit_open`; what the kernel makes of them is not part of it. -/

namespace Falx

inductive CircuitState where
  | closed
  | opened
  | halfOpen
  deriving DecidableEq

structure CircuitBreaker where
  state : CircuitState
  openedAt : Time
  tripCount : Nat
  violations : Nat
  deriving DecidableEq

def newCircuitBreaker : CircuitBreaker := ⟨.closed, zeroTime, 0, 0⟩

namespace CircuitBreaker

def trip (now : Time) (cb : CircuitBreaker) : Bool × CircuitBreaker :=
  if cb.state = .opened then (false, cb)
  else (true, { state := .opened, openedAt := now, tripCount := cb.tripCount + 1, violations := 0 })

def attemptRecovery (cb : CircuitBreaker) : Bool × CircuitBreaker :=
  if cb.state ≠ .opened then (false, cb) else (true, { cb with state := .halfOpen })

def close (cb : CircuitBreaker) : Bool × CircuitBreaker :=
  if cb.state = .closed then (false, cb) else (true, { cb with state := .closed })

def reTrip (now : Time) (cb : CircuitBreaker) : Bool × CircuitBreaker :=
  if cb.state ≠ .halfOpen then (false, cb)
  else (true, { state := .opened, openedAt := now, tripCount := cb.tripCount + 1, violations := 0 })

def incrViolation (threshold : Nat) (cb : CircuitBreaker) : Bool × CircuitBreaker :=
  (threshold ≤ cb.violations + 1, { cb with violations := cb.violations + 1 })

def resetViolation (cb : CircuitBreaker) : CircuitBreaker := { cb with violations := 0 }

def resetTripCount (cb : CircuitBreaker) : CircuitBreaker := { cb with tripCount := 0 }

end CircuitBreaker

structure RecoveryConfig where
  baseCooldown : Int
  maxCooldown : Int
  backoffResetAfter : Int
  halfOpenProbeWindow : Int
  deriving DecidableEq

def defaultRecoveryConfig : RecoveryConfig where
  baseCooldown := 30000000000
  maxCooldown := 3600000000000
  backoffResetAfter := 300000000000
  halfOpenProbeWindow := 5000000000

namespace RecoveryConfig

def cooldownFor (cfg : RecoveryConfig) (tripCount : Nat) : Int :=
  if tripCount ≤ 1 then cfg.baseCooldown
  else
    let maxMult : ℚ := cfg.maxCooldown / cfg.baseCooldown
    if maxMult < 1 then cfg.baseCooldown
    else
      let maxShift := Nat.log 2 ⌊maxMult⌋₊ + 1
      let d := cfg.baseCooldown * 2 ^ min (tripCount - 1) maxShift
      if d > cfg.maxCooldown ∨ d < 0 then cfg.maxCooldown else d

def shouldAttemptRecovery (cfg : RecoveryConfig) (openedAt : Time) (tripCount : Nat)
    (now : Time) : Bool :=
  cfg.cooldownFor tripCount ≤ now - openedAt

def shouldResetBackoff (cfg : RecoveryConfig) (lastClosedAt now : Time) : Bool :=
  lastClosedAt ≠ zeroTime && cfg.backoffResetAfter ≤ now - lastClosedAt

def halfOpenExpired (cfg : RecoveryConfig) (halfOpenAt now : Time) : Bool :=
  cfg.halfOpenProbeWindow ≤ now - halfOpenAt

end RecoveryConfig

def adminOverrideCooldown : Int := 300000000000

structure AdminOverrideLatch where
  active : Bool
  expiresAt : Time
  deriving DecidableEq

namespace AdminOverrideLatch

def arm (duration : Int) (now : Time) : AdminOverrideLatch := ⟨true, now + duration⟩

def clear : AdminOverrideLatch := ⟨false, zeroTime⟩

def isActive (now : Time) (l : AdminOverrideLatch) : Bool × AdminOverrideLatch :=
  if l.active = false then (false, l)
  else if l.expiresAt < now then (false, { l with active := false })
  else (true, l)

end AdminOverrideLatch

/-- `mtime` is the modification time of the sentinel file that falxd and falx-soc
share, `none` when there is no such file. -/
def adminOverrideFileActive (mtime : Option Time) (now : Time) : Bool :=
  match mtime with
  | none => false
  | some t => now - t < adminOverrideCooldown

/-- The clock readings of one tick or override, in the order in which they are taken. -/
structure Readings where
  latchAt : Time
  fileAt : Time
  analyzeAt : Time
  recoverAt : Time
  transitionAt : Time
  markedAt : Time
  deriving DecidableEq

def Readings.instant (now : Time) : Readings := ⟨now, now, now, now, now, now⟩

structure Engine (δ : Type) where
  recovery : RecoveryConfig
  consecutiveViolations : Nat
  cb : CircuitBreaker
  detector : δ
  adminLatch : AdminOverrideLatch
  lastClosedAt : Time
  halfOpenAt : Time
  deriving DecidableEq

namespace Engine

variable {δ : Type} (D : DetectorOps δ)

def syncStateFromKernel (state : Option FailsafeState) (e : Engine δ) : Engine δ :=
  match state with
  | none => e
  | some s =>
    if s.circuitOpen = 1 then
      { e with cb := { e.cb with state := .opened, openedAt := s.openSinceNs.toInt64.toInt } }
    else e

def newEngine (recovery : RecoveryConfig) (consecutiveViolations : Nat) (detector : δ)
    (state : Option FailsafeState) : Engine δ :=
  syncStateFromKernel state
    { recovery := recovery
      consecutiveViolations := consecutiveViolations
      cb := newCircuitBreaker
      detector := detector
      adminLatch := ⟨false, zeroTime⟩
      lastClosedAt := zeroTime
      halfOpenAt := zeroTime }

def openCircuit (clk : Readings) (e : Engine δ) : Engine δ × Option Bool :=
  match e.cb.trip clk.transitionAt with
  | (false, _) => (e, none)
  | (true, cb) => ({ e with cb := cb }, some true)

def closeCircuit (clk : Readings) (e : Engine δ) : Engine δ × Option Bool :=
  match e.cb.close with
  | (false, _) => (e, none)
  | (true, cb) => ({ e with cb := cb, lastClosedAt := clk.markedAt }, some false)

def resetBackoff (clk : Readings) (e : Engine δ) : Engine δ :=
  if e.lastClosedAt ≠ zeroTime ∧ e.recovery.shouldResetBackoff e.lastClosedAt clk.recoverAt = true ∧
      0 < e.cb.tripCount then
    { e with cb := e.cb.resetTripCount }
  else e

def overrideActive (file : Option Time) (clk : Readings) (e : Engine δ) : Bool :=
  (e.adminLatch.isActive clk.latchAt).1 || adminOverrideFileActive file clk.fileAt

def detects (stats : XdpStats) (clk : Readings) (e : Engine δ) : Bool :=
  (D.analyze stats clk.analyzeAt e.detector).1.any DetectionResult.triggered

def analyzed (stats : XdpStats) (clk : Readings) (e : Engine δ) : Engine δ :=
  { e with detector := (D.analyze stats clk.analyzeAt e.detector).2 }

def tickClosed (file : Option Time) (stats : XdpStats) (clk : Readings) (e : Engine δ) :
    Engine δ × Option Bool :=
  let polled := { e with adminLatch := (e.adminLatch.isActive clk.latchAt).2 }
  let next := polled.analyzed D stats clk
  if e.overrideActive file clk then ({ next with cb := next.cb.resetViolation }, none)
  else
    let next := next.resetBackoff clk
    if e.detects D stats clk then
      let (reached, cb) := next.cb.incrViolation next.consecutiveViolations
      let next := { next with cb := cb }
      if reached then next.openCircuit clk else (next, none)
    else ({ next with cb := next.cb.resetViolation }, none)

def tickOpen (clk : Readings) (e : Engine δ) : Engine δ × Option Bool :=
  if e.recovery.shouldAttemptRecovery e.cb.openedAt e.cb.tripCount clk.recoverAt then
    match e.cb.attemptRecovery with
    | (false, _) => (e, none)
    | (true, cb) => ({ e with cb := cb, halfOpenAt := clk.markedAt }, none)
  else (e, none)

def tickHalfOpen (stats : XdpStats) (clk : Readings) (e : Engine δ) : Engine δ × Option Bool :=
  let next := e.analyzed D stats clk
  if e.detects D stats clk then
    ({ next with cb := (next.cb.reTrip clk.transitionAt).2 }, none)
  else if next.recovery.halfOpenExpired next.halfOpenAt clk.recoverAt then next.closeCircuit clk
  else (next, none)

/-- `read` is what `ReadStats` returns, `none` for an error; the second result is
the value that `SetCircuitOpen` is called with, if it is called. -/
def tick (file : Option Time) (read : Option XdpStats) (clk : Readings) (e : Engine δ) :
    Engine δ × Option Bool :=
  match read with
  | none => (e, none)
  | some stats =>
    match e.cb.state with
    | .closed => e.tickClosed D file stats clk
    | .opened => e.tickOpen clk
    | .halfOpen => e.tickHalfOpen D stats clk

def forceOpen (clk : Readings) (e : Engine δ) : Engine δ × Option Bool :=
  ({ e with adminLatch := .clear, cb := (e.cb.trip clk.transitionAt).2 }, some true)

def forceClose (clk : Readings) (e : Engine δ) : Engine δ × Option Bool :=
  ({ e with
      adminLatch := .arm adminOverrideCooldown clk.latchAt
      cb := e.cb.close.2
      lastClosedAt := clk.markedAt }, some false)

def thresholdUpdate (pps bps : UInt64) (e : Engine δ) : Engine δ :=
  { e with detector := D.updateThresholds pps bps e.detector }

section Effect

variable (file : Option Time) (stats : XdpStats) (clk : Readings) (e : Engine δ)

@[simp] theorem resetBackoff_state : (e.resetBackoff clk).cb.state = e.cb.state := by
  unfold resetBackoff
  split <;> rfl

@[simp] theorem resetBackoff_violations : (e.resetBackoff clk).cb.violations = e.cb.violations := by
  unfold resetBackoff
  split <;> rfl

@[simp] theorem resetBackoff_consecutiveViolations :
    (e.resetBackoff clk).consecutiveViolations = e.consecutiveViolations := by
  unfold resetBackoff
  split <;> rfl

@[simp] theorem resetBackoff_adminLatch : (e.resetBackoff clk).adminLatch = e.adminLatch := by
  unfold resetBackoff
  split <;> rfl

@[simp] theorem resetBackoff_detector : (e.resetBackoff clk).detector = e.detector := by
  unfold resetBackoff
  split <;> rfl

/-- What an event does to the circuit as the engine sees it: the state and the
violations it leaves and the write of `circuit_open` that it asks for. -/
structure Leaves (r : Engine δ × Option Bool) (state : CircuitState) (violations : Nat)
    (write : Option Bool) : Prop where
  state_eq : r.1.cb.state = state
  violations_eq : r.1.cb.violations = violations
  write_eq : r.2 = write

theorem openCircuit_leaves (h : e.cb.state ≠ .opened) :
    Leaves (e.openCircuit clk) .opened 0 (some true) := by
  have htrip : e.cb.trip clk.transitionAt =
      (true, ⟨.opened, clk.transitionAt, e.cb.tripCount + 1, 0⟩) := if_neg h
  simp only [openCircuit, htrip]
  exact ⟨rfl, rfl, rfl⟩

theorem closeCircuit_leaves (h : e.cb.state ≠ .closed) :
    Leaves (e.closeCircuit clk) .closed e.cb.violations (some false) := by
  have hcl : e.cb.close = (true, { e.cb with state := .closed }) := if_neg h
  simp only [closeCircuit, hcl]
  exact ⟨rfl, rfl, rfl⟩

section

variable (hs : e.cb.state = .closed)

include hs

theorem tickClosed_of_overrideActive (h : e.overrideActive file clk = true) :
    Leaves (e.tickClosed D file stats clk) .closed 0 none := by
  simp only [tickClosed, h, if_true]
  exact ⟨hs, rfl, rfl⟩

section

variable (ho : e.overrideActive file clk = false)

include ho

theorem tickClosed_of_calm
    (h : e.detects D stats clk = false) : Leaves (e.tickClosed D file stats clk) .closed 0 none := by
  simp only [tickClosed, ho, h, Bool.false_eq_true, if_false]
  refine ⟨?_, rfl, rfl⟩
  simpa [CircuitBreaker.resetViolation, analyzed] using hs

theorem tickClosed_of_violation
    (h : e.detects D stats clk = true) (hv : e.cb.violations + 1 < e.consecutiveViolations) :
    Leaves (e.tickClosed D file stats clk) .closed (e.cb.violations + 1) none := by
  have hn : ¬ e.consecutiveViolations ≤ e.cb.violations + 1 := by omega
  simp only [tickClosed, ho, h, Bool.false_eq_true, if_false, if_true,
    CircuitBreaker.incrViolation, resetBackoff_consecutiveViolations, resetBackoff_violations,
    analyzed, decide_eq_true_eq, hn]
  refine ⟨?_, rfl, rfl⟩
  simpa using hs

theorem tickClosed_of_trip
    (h : e.detects D stats clk = true) (hv : e.consecutiveViolations ≤ e.cb.violations + 1) :
    Leaves (e.tickClosed D file stats clk) .opened 0 (some true) := by
  simp only [tickClosed, ho, h, Bool.false_eq_true, if_false, if_true,
    CircuitBreaker.incrViolation, resetBackoff_consecutiveViolations, resetBackoff_violations,
    analyzed, decide_eq_true_eq, hv]
  apply openCircuit_leaves
  simp [hs]

end

end

theorem tickOpen_leaves (hs : e.cb.state = .opened) :
    Leaves (e.tickOpen clk) .opened e.cb.violations none ∨
      Leaves (e.tickOpen clk) .halfOpen e.cb.violations none := by
  have hattempt : e.cb.attemptRecovery = (true, { e.cb with state := .halfOpen }) :=
    if_neg (not_not.mpr hs)
  unfold tickOpen
  split
  · simp only [hattempt]
    exact .inr ⟨rfl, rfl, rfl⟩
  · exact .inl ⟨hs, rfl, rfl⟩

theorem tickHalfOpen_of_detects (hs : e.cb.state = .halfOpen) (h : e.detects D stats clk = true) :
    Leaves (e.tickHalfOpen D stats clk) .opened 0 none := by
  simp only [tickHalfOpen, h, if_true, analyzed, CircuitBreaker.reTrip, hs, ne_eq, not_true,
    if_false]
  exact ⟨rfl, rfl, rfl⟩

theorem tickHalfOpen_of_expired (hs : e.cb.state = .halfOpen) (h : e.detects D stats clk = false)
    (hx : e.recovery.halfOpenExpired e.halfOpenAt clk.recoverAt = true) :
    Leaves (e.tickHalfOpen D stats clk) .closed e.cb.violations (some false) := by
  simp only [tickHalfOpen, h, Bool.false_eq_true, if_false, analyzed, hx, if_true]
  apply closeCircuit_leaves
  simp [hs]

theorem tickHalfOpen_waiting_eq (h : e.detects D stats clk = false)
    (hx : e.recovery.halfOpenExpired e.halfOpenAt clk.recoverAt = false) :
    e.tickHalfOpen D stats clk = (e.analyzed D stats clk, none) := by
  simp only [tickHalfOpen, h, Bool.false_eq_true, if_false, analyzed, hx]

theorem tickHalfOpen_of_waiting (hs : e.cb.state = .halfOpen) (h : e.detects D stats clk = false)
    (hx : e.recovery.halfOpenExpired e.halfOpenAt clk.recoverAt = false) :
    Leaves (e.tickHalfOpen D stats clk) .halfOpen e.cb.violations none := by
  rw [tickHalfOpen_waiting_eq D stats clk e h hx]
  exact ⟨hs, rfl, rfl⟩

theorem tick_spec (read : Option XdpStats) :
    (e.tick D file read clk).1.consecutiveViolations = e.consecutiveViolations ∧
      ((e.tick D file read clk).1.adminLatch = e.adminLatch ∨
        (e.tick D file read clk).1.adminLatch = (e.adminLatch.isActive clk.latchAt).2) ∧
      ((e.tick D file read clk).1.detector = e.detector ∨
        ∃ stats, (e.tick D file read clk).1.detector =
          (D.analyze stats clk.analyzeAt e.detector).2) := by
  cases read with
  | none => exact ⟨rfl, .inl rfl, .inl rfl⟩
  | some stats =>
    simp only [tick]
    split
    · simp only [tickClosed, openCircuit]
      repeat' split
      all_goals exact ⟨by simp [analyzed], by simp [analyzed], .inr ⟨stats, by simp [analyzed]⟩⟩
    · simp only [tickOpen]
      repeat' split
      all_goals exact ⟨rfl, .inl rfl, .inl rfl⟩
    · simp only [tickHalfOpen, closeCircuit]
      repeat' split
      all_goals exact ⟨rfl, .inl rfl, .inr ⟨stats, rfl⟩⟩

end Effect

end Engine

structure FailsafeDaemon (δ : Type) where
  engine : Engine δ
  overrideFile : Option Time
  deriving DecidableEq

/-- What the engine's loop and its surroundings do to it; `metrics` is a call of
`Metrics`, which asks the latch, and `overrideFile` a change of the sentinel file
from outside. -/
inductive EngineEvent where
  | tick (read : Option XdpStats) (clk : Readings)
  | forceOpen (clk : Readings)
  | forceClose (clk : Readings)
  | thresholdUpdate (pps bps : UInt64)
  | overrideFile (mtime : Option Time)
  | metrics (now : Time)
  deriving DecidableEq

def EngineEvent.reads : EngineEvent → Bool
  | tick (some _) _ => true
  | _ => false

namespace FailsafeDaemon

variable {δ : Type} (D : DetectorOps δ)

def step (w : FailsafeDaemon δ) : EngineEvent → FailsafeDaemon δ × Option Bool
  | .tick read clk =>
    let r := w.engine.tick D w.overrideFile read clk
    ({ w with engine := r.1 }, r.2)
  | .forceOpen clk =>
    let r := w.engine.forceOpen clk
    ({ engine := r.1, overrideFile := none }, r.2)
  | .forceClose clk =>
    let r := w.engine.forceClose clk
    ({ engine := r.1, overrideFile := some clk.fileAt }, r.2)
  | .thresholdUpdate pps bps => ({ w with engine := w.engine.thresholdUpdate D pps bps }, none)
  | .overrideFile mtime => ({ w with overrideFile := mtime }, none)
  | .metrics now =>
    ({ w with engine := { w.engine with adminLatch := (w.engine.adminLatch.isActive now).2 } }, none)

def start (recovery : RecoveryConfig) (consecutiveViolations : Nat) (detector : δ)
    (state : Option FailsafeState) (file : Option Time) : FailsafeDaemon δ :=
  ⟨.newEngine recovery consecutiveViolations detector state, file⟩

def run (evs : List EngineEvent) (w : FailsafeDaemon δ) : FailsafeDaemon δ :=
  evs.foldl (fun w ev => (w.step D ev).1) w

theorem run_append (evs more : List EngineEvent) (w : FailsafeDaemon δ) :
    w.run D (evs ++ more) = (w.run D evs).run D more := List.foldl_append

theorem step_consecutiveViolations (w : FailsafeDaemon δ) (ev : EngineEvent) :
    (w.step D ev).1.engine.consecutiveViolations = w.engine.consecutiveViolations := by
  cases ev with
  | tick read clk => exact (w.engine.tick_spec D w.overrideFile clk read).1
  | _ => rfl

theorem run_consecutiveViolations (evs : List EngineEvent) (w : FailsafeDaemon δ) :
    (w.run D evs).engine.consecutiveViolations = w.engine.consecutiveViolations := by
  induction evs generalizing w with
  | nil => rfl
  | cons ev evs ih => exact (ih (w.step D ev).1).trans (w.step_consecutiveViolations D ev)

end FailsafeDaemon

end Falx
