import Falx.CircuitAgreement
import Falx.CooldownSchedule
import Falx.Hysteresis

/-! The cooldown of an engine that is started on an open circuit. It takes `open_since_ns`
for Unix time. `SetCircuitOpen` writes Unix time there, but the XDP program writes the time
since the boot. -/

namespace Falx

inductive CircuitWriter where
  | packet (pkt : PacketInfo)
  | setCircuitOpen (isOpen : Bool)
  | updateThresholds (pps bps : UInt64)

/-- A write at an instant of Unix time, in nanoseconds; the clock of the kernel counts them
from `boot`. -/
def CircuitWriter.write (boot instant : Time) : CircuitWriter → FailsafeState → FailsafeState
  | packet pkt => .after pkt (UInt64.ofNat (instant - boot).toNat)
  | setCircuitOpen isOpen => Falx.setCircuitOpen isOpen (UInt64.ofNat instant.toNat)
  | updateThresholds pps bps => updateFailsafeThresholds pps bps

inductive Stamp where
  | kernel
  | controlPlane
  deriving DecidableEq

/-- The record of the circuit breaker, with the instant at which `circuit_open` was last set
and with who last wrote the time in `open_since_ns`. -/
structure CircuitHistory where
  state : FailsafeState
  openedAt : Time
  stamp : Stamp

namespace CircuitHistory

def opens (s s' : FailsafeState) : Bool := s.circuitOpen = 0 && s'.circuitOpen ≠ 0

def next (boot : Time) (h : CircuitHistory) (w : Time × CircuitWriter) : CircuitHistory :=
  let s := w.2.write boot w.1 h.state
  { state := s
    openedAt := if opens h.state s then w.1 else h.openedAt
    stamp :=
      match w.2 with
      | .packet _ => if opens h.state s then .kernel else h.stamp
      | .setCircuitOpen true => .controlPlane
      | _ => h.stamp }

def run (boot : Time) (ws : List (Time × CircuitWriter)) (h : CircuitHistory) : CircuitHistory :=
  ws.foldl (next boot) h

/-- While the circuit is open and the control plane has written the time, the time is that of
the opening or a later one. -/
structure Sound (last : Time) (h : CircuitHistory) : Prop where
  opened : h.state.circuitOpen ≠ 0 → h.openedAt ≤ last
  stamped : h.state.circuitOpen ≠ 0 → h.stamp = .controlPlane →
    h.openedAt ≤ h.state.openSinceNs.toInt64.toInt

end CircuitHistory

theorem toInt_ofNat_toNat {t : Int} (hnn : 0 ≤ t) (hlt : t < 2 ^ 63) :
    (UInt64.ofNat t.toNat).toInt64.toInt = t := by
  have hcast : (UInt64.ofNat t.toNat).toInt64.toInt = (t.toNat : Int).bmod (2 ^ 64) :=
    BitVec.toInt_ofNat t.toNat
  rw [hcast, Int.toNat_of_nonneg hnn]
  exact Int.bmod_eq_of_le (by omega) (by omega)

theorem FailsafeState.after_of_open {s : FailsafeState} (h : s.circuitOpen ≠ 0)
    (pkt : PacketInfo) (ktime : UInt64) :
    (s.after pkt ktime).circuitOpen = s.circuitOpen ∧
      (s.after pkt ktime).openSinceNs = s.openSinceNs := by
  have hcnt : (s.countPacket pkt.pktLen ktime).circuitOpen = s.circuitOpen ∧
      (s.countPacket pkt.pktLen ktime).openSinceNs = s.openSinceNs := by
    rw [countPacket]
    split
    · exact ⟨rfl, rfl⟩
    · exact ⟨rfl, rfl⟩
  rw [after, trip, if_neg fun hboth => h (hcnt.1 ▸ hboth.1)]
  exact hcnt

namespace CircuitHistory

variable {boot last : Time} {h : CircuitHistory} {w : Time × CircuitWriter}

theorem openedAt_next (hop : opens h.state (h.next boot w).state = true) :
    (h.next boot w).openedAt = w.1 :=
  if_pos hop

theorem Sound.next_of_closed (hopen : h.state.circuitOpen = 0) (hrg : 0 ≤ w.1 ∧ w.1 < 2 ^ 63) :
    (h.next boot w).Sound w.1 := by
  have hop : (h.next boot w).state.circuitOpen ≠ 0 →
      opens h.state (h.next boot w).state = true := fun hne => by
    simpa [opens, hopen] using hne
  refine ⟨fun hne => (openedAt_next (hop hne)).le, fun hne hcp => ?_⟩
  rw [openedAt_next (hop hne)]
  obtain ⟨instant, writer⟩ := w
  cases writer with
  | packet pkt =>
    have hkernel : (h.next boot (instant, .packet pkt)).stamp = .kernel := if_pos (hop hne)
    rw [hkernel] at hcp
    cases hcp
  | setCircuitOpen isOpen =>
    cases isOpen with
    | true => exact (toInt_ofNat_toNat hrg.1 hrg.2).ge
    | false => exact absurd rfl hne
  | updateThresholds pps bps => exact absurd hopen hne

theorem Sound.next_of_open (hs : h.Sound last) (hopen : h.state.circuitOpen ≠ 0)
    (hlast : last ≤ w.1) (hrg : 0 ≤ w.1 ∧ w.1 < 2 ^ 63) : (h.next boot w).Sound w.1 := by
  obtain ⟨instant, writer⟩ := w
  obtain ⟨hop, hstamped⟩ := hs
  have hold : h.openedAt ≤ last := hop hopen
  have hopens : ∀ s, opens h.state s = false := fun s => by simp [opens, hopen]
  have hkept : (h.next boot (instant, writer)).openedAt = h.openedAt := by
    rw [CircuitHistory.next, hopens]
    rfl
  refine ⟨fun _ => by rw [hkept]; exact hold.trans hlast, fun hne hcp => ?_⟩
  rw [hkept]
  cases writer with
  | packet pkt =>
    have hsame := (h.state.after_of_open hopen pkt (UInt64.ofNat (instant - boot).toNat)).2
    have hsp : (h.next boot (instant, .packet pkt)).stamp = h.stamp := by
      rw [CircuitHistory.next, hopens]
      rfl
    rw [hsp] at hcp
    show h.openedAt ≤ (h.state.after pkt _).openSinceNs.toInt64.toInt
    rw [hsame]
    exact hstamped hopen hcp
  | setCircuitOpen isOpen =>
    cases isOpen with
    | true =>
      have hsp := toInt_ofNat_toNat hrg.1 hrg.2
      exact (hold.trans hlast).trans hsp.ge
    | false => exact absurd rfl hne
  | updateThresholds pps bps => exact hstamped hopen hcp

theorem Sound.next (hs : h.Sound last) (hlast : last ≤ w.1) (hrg : 0 ≤ w.1 ∧ w.1 < 2 ^ 63) :
    (h.next boot w).Sound w.1 := by
  by_cases hopen : h.state.circuitOpen = 0
  · exact Sound.next_of_closed hopen hrg
  · exact hs.next_of_open hopen hlast hrg

theorem Sound.run {ws : List (Time × CircuitWriter)} (hs : h.Sound last)
    (hclk : (last :: ws.map Prod.fst).Pairwise (· ≤ ·))
    (hrg : ∀ w ∈ ws, 0 ≤ w.1 ∧ w.1 < 2 ^ 63) : ∃ t, (h.run boot ws).Sound t := by
  induction ws generalizing h last with
  | nil => exact ⟨last, hs⟩
  | cons w ws ih =>
    obtain ⟨hfst, hrest⟩ := List.pairwise_cons.mp hclk
    obtain ⟨hw, hws⟩ := List.forall_mem_cons.mp hrg
    exact ih (hs.next (hfst w.1 (by simp)) hw) hrest hws

end CircuitHistory

section Engine

variable {δ : Type} (D : DetectorOps δ)

namespace Engine

variable (file : Option Time) (stats : XdpStats) (clk : Readings) (e : Engine δ)

structure Reopens (clk : Readings) (e e' : Engine δ) : Prop where
  recovery : e'.recovery = e.recovery
  openedAt : e'.cb.openedAt = e.cb.openedAt ∨ e'.cb.openedAt = clk.transitionAt

variable {clk} in
theorem Reopens.trans {e e' e'' : Engine δ} (h : Reopens clk e e') (h' : Reopens clk e' e'') :
    Reopens clk e e'' := by
  refine ⟨h'.recovery.trans h.recovery, ?_⟩
  rcases h'.openedAt with heq | hnow
  · rw [heq]
    exact h.openedAt
  · exact .inr hnow

theorem trip_openedAt (now : Time) (cb : CircuitBreaker) :
    (cb.trip now).2.openedAt = cb.openedAt ∨ (cb.trip now).2.openedAt = now := by
  rw [CircuitBreaker.trip]
  split
  · exact .inl rfl
  · exact .inr rfl

theorem openCircuit_reopens : Reopens clk e (e.openCircuit clk).1 := by
  have htrip := trip_openedAt clk.transitionAt e.cb
  rw [openCircuit]
  split
  · exact ⟨rfl, .inl rfl⟩
  · rename_i cb heq
    rw [heq] at htrip
    exact ⟨rfl, htrip⟩

theorem resetBackoff_reopens : Reopens clk e (e.resetBackoff clk) := by
  rw [resetBackoff]
  split
  · exact ⟨rfl, .inl rfl⟩
  · exact ⟨rfl, .inl rfl⟩

theorem tickClosed_reopens : Reopens clk e (e.tickClosed D file stats clk).1 := by
  have hpolled : Reopens clk e (Engine.analyzed D stats clk
      { e with adminLatch := (e.adminLatch.isActive clk.latchAt).2 }) := ⟨rfl, .inl rfl⟩
  refine hpolled.trans ?_
  simp only [tickClosed]
  split
  · exact ⟨rfl, .inl rfl⟩
  · refine (resetBackoff_reopens clk _).trans ?_
    split
    · split
      · refine Reopens.trans ?_ (openCircuit_reopens clk _)
        exact ⟨rfl, .inl rfl⟩
      · exact ⟨rfl, .inl rfl⟩
    · exact ⟨rfl, .inl rfl⟩

theorem tickOpen_reopens : Reopens clk e (e.tickOpen clk).1 := by
  simp only [tickOpen, CircuitBreaker.attemptRecovery]
  split
  · split
    · exact ⟨rfl, .inl rfl⟩
    · rename_i heq
      split at heq
      · cases heq
      · cases heq
        exact ⟨rfl, .inl rfl⟩
  · exact ⟨rfl, .inl rfl⟩

theorem closeCircuit_reopens : Reopens clk e (e.closeCircuit clk).1 := by
  simp only [closeCircuit, CircuitBreaker.close]
  split
  · exact ⟨rfl, .inl rfl⟩
  · rename_i heq
    split at heq
    · cases heq
    · cases heq
      exact ⟨rfl, .inl rfl⟩

theorem tickHalfOpen_reopens : Reopens clk e (e.tickHalfOpen D stats clk).1 := by
  have hanalyzed : Reopens clk e (e.analyzed D stats clk) := ⟨rfl, .inl rfl⟩
  refine hanalyzed.trans ?_
  simp only [tickHalfOpen]
  split
  · refine ⟨rfl, ?_⟩
    simp only [CircuitBreaker.reTrip]
    split
    · exact .inl rfl
    · exact .inr rfl
  · split
    · exact closeCircuit_reopens clk _
    · exact ⟨rfl, .inl rfl⟩

theorem tick_reopens (read : Option XdpStats) : Reopens clk e (e.tick D file read clk).1 := by
  cases read with
  | none => exact ⟨rfl, .inl rfl⟩
  | some stats =>
    simp only [tick]
    split
    · exact tickClosed_reopens D file stats clk e
    · exact tickOpen_reopens clk e
    · exact tickHalfOpen_reopens D stats clk e

theorem tickClosed_state (hst : e.cb.state = .closed) :
    (e.tickClosed D file stats clk).1.cb.state = .closed ∨
      (e.tickClosed D file stats clk).1.cb.state = .opened := by
  cases hover : e.overrideActive file clk with
  | true => exact .inl (e.tickClosed_of_overrideActive D file stats clk hst hover).state_eq
  | false =>
    cases hdet : e.detects D stats clk with
    | false => exact .inl (e.tickClosed_of_calm D file stats clk hst hover hdet).state_eq
    | true =>
      by_cases hv : e.consecutiveViolations ≤ e.cb.violations + 1
      · exact .inr (e.tickClosed_of_trip D file stats clk hst hover hdet hv).state_eq
      · exact .inl (e.tickClosed_of_violation D file stats clk hst hover hdet
          (not_le.mp hv)).state_eq

theorem tick_enters_halfOpen {file : Option Time} {read : Option XdpStats} {clk : Readings}
    {e : Engine δ} (hpre : e.cb.state ≠ .halfOpen)
    (haf : (e.tick D file read clk).1.cb.state = .halfOpen) :
    e.recovery.cooldownFor e.cb.tripCount ≤ clk.recoverAt - e.cb.openedAt := by
  cases read with
  | none => exact absurd haf hpre
  | some stats =>
    cases hst : e.cb.state with
    | halfOpen => exact absurd hst hpre
    | opened =>
      simp only [tick, hst, tickOpen] at haf
      split at haf
      · rename_i hover
        simpa [RecoveryConfig.shouldAttemptRecovery] using hover
      · exact absurd haf hpre
    | closed =>
      simp only [tick, hst] at haf
      have hshut := tickClosed_state D file stats clk e hst
      rw [haf] at hshut
      rcases hshut with h | h
      · cases h
      · cases h

end Engine

namespace FailsafeDaemon

structure OpenedSince (t₀ : Time) (recovery : RecoveryConfig) (w : FailsafeDaemon δ) : Prop where
  recovery_eq : w.engine.recovery = recovery
  openedAt_le : t₀ ≤ w.engine.cb.openedAt

variable {D} {t₀ : Time} {recovery : RecoveryConfig} {w : FailsafeDaemon δ} {ev : EngineEvent}

section

variable (h : OpenedSince t₀ recovery w)

include h

theorem OpenedSince.reopens {e : Engine δ} {file : Option Time}
    (clk : Readings) (hreopens : Engine.Reopens clk w.engine e)
    (hclk : t₀ ≤ clk.transitionAt) : OpenedSince t₀ recovery ⟨e, file⟩ := by
  refine ⟨hreopens.recovery.trans h.recovery_eq, ?_⟩
  rcases hreopens.openedAt with heq | heq
  · exact heq ▸ h.openedAt_le
  · exact heq ▸ hclk

theorem OpenedSince.step (hlt : ∀ t ∈ ev.readings, t₀ ≤ t) :
    OpenedSince t₀ recovery (w.step D ev).1 := by
  cases ev with
  | tick read clk =>
    exact h.reopens clk (w.engine.tick_reopens D w.overrideFile clk read)
      (hlt _ (by simp [EngineEvent.readings]))
  | forceOpen clk =>
    refine h.reopens clk ⟨rfl, ?_⟩ (hlt _ (by simp [EngineEvent.readings]))
    exact Engine.trip_openedAt clk.transitionAt w.engine.cb
  | forceClose clk =>
    refine h.reopens clk ⟨rfl, .inl ?_⟩ (hlt _ (by simp [EngineEvent.readings]))
    simp only [Engine.forceClose, CircuitBreaker.close]
    split
    · rfl
    · rfl
  | thresholdUpdate pps bps | overrideFile mtime
  | metrics now => exact ⟨h.recovery_eq, h.openedAt_le⟩

theorem OpenedSince.run {evs : List EngineEvent}
    (hlt : ∀ ev ∈ evs, ∀ t ∈ ev.readings, t₀ ≤ t) : OpenedSince t₀ recovery (w.run D evs) := by
  induction evs generalizing w with
  | nil => exact h
  | cons ev evs ih =>
    obtain ⟨hfst, hrest⟩ := List.forall_mem_cons.mp hlt
    exact ih (h.step hfst) hrest

end

theorem step_enters_halfOpen (hpre : w.engine.cb.state ≠ .halfOpen)
    (haf : (w.step D ev).1.engine.cb.state = .halfOpen) :
    ∃ read clk, ev = .tick read clk ∧
      w.engine.recovery.cooldownFor w.engine.cb.tripCount ≤
        clk.recoverAt - w.engine.cb.openedAt := by
  cases ev with
  | tick read clk => exact ⟨read, clk, rfl, Engine.tick_enters_halfOpen D hpre haf⟩
  | forceOpen clk =>
    simp only [step, Engine.forceOpen, CircuitBreaker.trip] at haf
    split at haf
    · exact absurd haf hpre
    · cases haf
  | forceClose clk =>
    simp only [step, Engine.forceClose, CircuitBreaker.close] at haf
    split at haf
    · exact absurd haf hpre
    · cases haf
  | thresholdUpdate pps bps | overrideFile mtime | metrics now => exact absurd haf hpre

theorem OpenedSince.enters_halfOpen (h : OpenedSince t₀ recovery w)
    (hlt : ∀ t ∈ ev.readings, t₀ ≤ t) (hpre : w.engine.cb.state ≠ .halfOpen)
    (haf : (w.step D ev).1.engine.cb.state = .halfOpen) :
    ∃ read clk, ev = .tick read clk ∧ recovery.baseCooldown ≤ clk.recoverAt - t₀ := by
  obtain ⟨read, clk, rfl, hover⟩ := step_enters_halfOpen hpre haf
  refine ⟨read, clk, rfl, ?_⟩
  rw [h.recovery_eq] at hover
  by_cases hpos : 0 < recovery.baseCooldown
  · calc recovery.baseCooldown ≤ recovery.cooldownFor w.engine.cb.tripCount :=
          recovery.baseCooldown_le_cooldownFor hpos _
      _ ≤ clk.recoverAt - w.engine.cb.openedAt := hover
      _ ≤ clk.recoverAt - t₀ := Int.sub_le_sub_left h.openedAt_le _
  · have hnow : t₀ ≤ clk.recoverAt := hlt _ (by simp [EngineEvent.readings])
    exact (not_lt.mp hpos).trans (Int.sub_nonneg.mpr hnow)

end FailsafeDaemon

end Engine

/-- An engine that is started on a circuit whose opening time the control plane has written
stays out of HALF-OPEN until the base cooldown has passed since the opening. -/
theorem restart_waits_out_cooldown {δ : Type} {D : DetectorOps δ} {recovery : RecoveryConfig}
    {violations : Nat} {detector : δ} {file : Option Time} {boot : Time} {h₀ h : CircuitHistory}
    {ws : List (Time × CircuitWriter)} {evs : List EngineEvent} {ev : EngineEvent}
    {w : FailsafeDaemon δ} (hclosed : h₀.state.circuitOpen = 0)
    (hclock : (ws.map Prod.fst).Pairwise (· ≤ ·)) (hrange : ∀ w ∈ ws, 0 ≤ w.1 ∧ w.1 < 2 ^ 63)
    (hh : h = h₀.run boot ws) (hopen : h.state.circuitOpen = 1) (hstamp : h.stamp = .controlPlane)
    (hw : w = (FailsafeDaemon.start recovery violations detector (some h.state) file).run D evs)
    (hlater : ∀ e ∈ ev :: evs, ∀ t ∈ e.readings, h.openedAt ≤ t)
    (hbefore : w.engine.cb.state ≠ .halfOpen)
    (hafter : (w.step D ev).1.engine.cb.state = .halfOpen) :
    ∃ read clk, ev = .tick read clk ∧ recovery.baseCooldown ≤ clk.recoverAt - h.openedAt := by
  have hsd : ∃ t, h.Sound t := by
    rw [hh]
    cases ws with
    | nil => exact ⟨0, fun hne => absurd hclosed hne, fun hne => absurd hclosed hne⟩
    | cons w ws =>
      have hst : h₀.Sound w.1 := ⟨fun hne => absurd hclosed hne, fun hne => absurd hclosed hne⟩
      refine hst.run (List.pairwise_cons.mpr ⟨fun t ht => ?_, hclock⟩) hrange
      rcases List.mem_cons.mp ht with rfl | ht
      · exact le_refl _
      · exact (List.pairwise_cons.mp hclock).1 t ht
  obtain ⟨t, hsd⟩ := hsd
  have hne : h.state.circuitOpen ≠ 0 := by
    rw [hopen]
    decide
  have hst : FailsafeDaemon.OpenedSince h.openedAt recovery
      (FailsafeDaemon.start recovery violations detector (some h.state) file) := by
    rw [FailsafeDaemon.start, Engine.newEngine, Engine.syncStateFromKernel]
    simp only [hopen, if_true]
    exact ⟨rfl, hsd.stamped hne hstamp⟩
  obtain ⟨hev, hevs⟩ := List.forall_mem_cons.mp hlater
  have hrun : FailsafeDaemon.OpenedSince h.openedAt recovery w := by
    rw [hw]
    exact hst.run hevs
  exact hrun.enters_halfOpen hev hbefore hafter

def bootedAt : Time := 1700000000000000000

def beforeOpening : CircuitHistory := ⟨tightCircuit, 0, .kernel⟩

def openedByControl : CircuitHistory :=
  beforeOpening.run bootedAt [(bootedAt + 3600000000000, .setCircuitOpen true)]

def openedByKernel : CircuitHistory :=
  beforeOpening.run bootedAt [(bootedAt + 3600000000000, .packet { pktLen := 64 }),
    (bootedAt + 3600000000001, .packet { pktLen := 64 })]

def restartedOn (h : CircuitHistory) : FailsafeDaemon Detector :=
  FailsafeDaemon.start defaultRecoveryConfig 3 (newDetector defaultDetectorConfig) (some h.state) none

def tickAt (now : Time) : EngineEvent := .tick (some (dropStats 0)) (.instant now)

theorem restart_waits_out_cooldown_control :
    ∃ read clk, tickAt (bootedAt + 3630000000000) = .tick read clk ∧
      defaultRecoveryConfig.baseCooldown ≤ clk.recoverAt - openedByControl.openedAt := by
  have hshut : beforeOpening.state.circuitOpen = 0 := rfl
  have hh : openedByControl =
      beforeOpening.run bootedAt [(bootedAt + 3600000000000, .setCircuitOpen true)] := rfl
  have hw : (restartedOn openedByControl).run Detector.ops [tickAt (bootedAt + 3601000000000)] =
      (FailsafeDaemon.start defaultRecoveryConfig 3 (newDetector defaultDetectorConfig)
        (some openedByControl.state) none).run Detector.ops [tickAt (bootedAt + 3601000000000)] := rfl
  exact restart_waits_out_cooldown hshut (by decide) (by decide) hh (by decide) (by decide) hw
    (by decide) (by decide +kernel) (by decide +kernel)

/-- A second after the kernel has opened the circuit, the restarted engine is in HALF-OPEN. -/
theorem restart_probes_at_once :
    openedByKernel.state.circuitOpen = 1 ∧
      openedByKernel.openedAt = bootedAt + 3600000000001 ∧
      (restartedOn openedByKernel).engine.cb.state = .opened ∧
      ((restartedOn openedByKernel).run Detector.ops
        [tickAt (bootedAt + 3601000000001)]).engine.cb.state = .halfOpen ∧
      defaultRecoveryConfig.baseCooldown = 30000000000 := by
  refine ⟨by decide, by decide, by decide, by decide +kernel, rfl⟩

end Falx
