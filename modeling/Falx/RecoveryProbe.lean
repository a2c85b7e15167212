import Falx.CircuitBreaker
import Falx.FailsafeEngine
import Mathlib.Data.List.Induction

/-! The probe of the HALF-OPEN state. While the kernel drops everything, the probe
judges the rates since the previous sample, but also two ratios of counters that
have been running since the program was loaded; whether it can succeed depends on
those. -/

namespace Falx

open Detector

def EngineEvent.isForce : EngineEvent → Bool
  | forceOpen _ => true
  | forceClose _ => true
  | _ => false

namespace FailsafeDaemon

def expires (w : FailsafeDaemon Detector) (clk : Readings) : Bool :=
  w.engine.recovery.halfOpenExpired w.engine.halfOpenAt clk.recoverAt

def TickAfter (evs pre : List EngineEvent) (stats : XdpStats) (clk : Readings) : Prop :=
  ∃ post, evs = pre ++ .tick (some stats) clk :: post

def Probing (w : FailsafeDaemon Detector) (pre : List EngineEvent) : Prop :=
  ∀ p, p <+: pre → (w.run ops p).engine.cb.state = .halfOpen

def BeforeWindow (w : FailsafeDaemon Detector) (pre : List EngineEvent) : Prop :=
  ∀ stats clk, .tick (some stats) clk ∈ pre → w.expires clk = false

/-- Every tick of the HALF-OPEN period finds calm traffic. -/
def CalmProbe (w : FailsafeDaemon Detector) (evs : List EngineEvent) : Prop :=
  ∀ pre stats clk, TickAfter evs pre stats clk → w.Probing pre →
    (w.run ops pre).engine.detector.Calm stats clk.analyzeAt

/-- The engine does not re-trip and closes at the first tick at or after the window. -/
def Recovers (w : FailsafeDaemon Detector) (evs : List EngineEvent) : Prop :=
  ∀ pre stats clk, TickAfter evs pre stats clk → w.BeforeWindow pre →
    (w.run ops (pre ++ [.tick (some stats) clk])).engine.cb.state =
      if w.expires clk = true then .closed else .halfOpen

/-- The counters read after `pre` are the first that the detector sees, or their
lifetime ratios are within the thresholds. -/
def SampleWithin (w : FailsafeDaemon Detector) (pre : List EngineEvent) (stats : XdpStats) : Prop :=
  (w.engine.detector.sampleCount = 0 ∧ ∀ ev ∈ pre, ev.reads = false) ∨
    LifetimeWithin w.engine.detector.cfg stats

/-- So it is at every tick up to the first at or after the window. -/
def LifetimeRatiosWithin (w : FailsafeDaemon Detector) (evs : List EngineEvent) : Prop :=
  ∀ pre stats clk, TickAfter evs pre stats clk → w.BeforeWindow pre → w.SampleWithin pre stats

variable {w w' : FailsafeDaemon Detector} {stats : XdpStats} {clk : Readings}
  {pre : List EngineEvent} {ev : EngineEvent}

theorem detects_iff (hcalm : w.engine.detector.Calm stats clk.analyzeAt) :
    w.engine.detects ops stats clk = false ↔
      w.engine.detector.sampleCount = 0 ∨ LifetimeWithin w.engine.detector.cfg stats := by
  rw [← Bool.not_eq_true, Engine.detects]
  exact hcalm.analyze_iff.not.trans (by rw [not_and_or, not_not, not_not])

theorem tick_recovers_iff (hs : w.engine.cb.state = .halfOpen)
    (hcalm : w.engine.detector.Calm stats clk.analyzeAt) :
    ((w.step ops (.tick (some stats) clk)).1.engine.cb.state =
        if w.expires clk = true then .closed else .halfOpen) ↔
      w.engine.detector.sampleCount = 0 ∨ LifetimeWithin w.engine.detector.cfg stats := by
  rw [← detects_iff hcalm]
  simp only [step, Engine.tick, hs]
  constructor
  · intro hst
    by_contra hd
    rw [Bool.not_eq_false] at hd
    rw [(w.engine.tickHalfOpen_of_detects ops stats clk hs hd).state_eq] at hst
    split at hst <;> cases hst
  · intro hd
    by_cases hx : w.expires clk = true
    · rw [if_pos hx]
      exact (w.engine.tickHalfOpen_of_expired ops stats clk hs hd hx).state_eq
    · rw [if_neg hx]
      rw [Bool.not_eq_true] at hx
      exact (w.engine.tickHalfOpen_of_waiting ops stats clk hs hd hx).state_eq

structure Probed (w w' : FailsafeDaemon Detector) (pre : List EngineEvent) : Prop where
  state : w'.engine.cb.state = .halfOpen
  expires : w'.expires = w.expires
  lifetime : LifetimeWithin w'.engine.detector.cfg = LifetimeWithin w.engine.detector.cfg
  first : w'.engine.detector.sampleCount = 0 ↔
    w.engine.detector.sampleCount = 0 ∧ ∀ ev ∈ pre, ev.reads = false

theorem Probed.start (hs : w.engine.cb.state = .halfOpen) : Probed w w [] :=
  ⟨hs, rfl, rfl, by simp⟩

section

variable (h : Probed w w' pre)

include h

theorem Probed.inert {w'' : FailsafeDaemon Detector} (hr : ev.reads = false)
    (hst : w''.engine.cb.state = w'.engine.cb.state) (hx : w''.expires = w'.expires)
    (hlife : LifetimeWithin w''.engine.detector.cfg = LifetimeWithin w'.engine.detector.cfg)
    (hcnt : w''.engine.detector.sampleCount = w'.engine.detector.sampleCount) :
    Probed w w'' (pre ++ [ev]) := by
  refine ⟨hst.trans h.state, hx.trans h.expires, hlife.trans h.lifetime, ?_⟩
  rw [hcnt, h.first]
  simp only [List.forall_mem_append, List.forall_mem_singleton, hr, and_true]

theorem Probed.tick (hd : w'.engine.detects ops stats clk = false) (hx : w.expires clk = false) :
    Probed w (w'.step ops (.tick (some stats) clk)).1 (pre ++ [.tick (some stats) clk]) := by
  have hx' : w'.expires clk = false := by
    rw [h.expires]
    exact hx
  have hstep : (w'.step ops (.tick (some stats) clk)).1 =
      { w' with engine := w'.engine.analyzed ops stats clk } := by
    simp only [step, Engine.tick, h.state, Engine.tickHalfOpen_waiting_eq ops stats clk w'.engine hd hx']
  rw [hstep]
  have hdet : (w'.engine.analyzed ops stats clk).detector =
      (w'.engine.detector.sampled stats clk.analyzeAt).updateEMA
        (w'.engine.detector.buildSample stats clk.analyzeAt) := analyze_snd _ _ _
  refine ⟨h.state, h.expires, ?_, ?_⟩
  · rw [← h.lifetime, hdet, updateEMA_cfg]
    rfl
  · rw [hdet, updateEMA_sampleCount]
    simp [sampled, EngineEvent.reads]

theorem Probed.step (hforce : ev.isForce = false)
    (htick : ∀ stats clk, ev = .tick (some stats) clk →
      w'.engine.detects ops stats clk = false ∧ w.expires clk = false) :
    Probed w (w'.step ops ev).1 (pre ++ [ev]) := by
  cases ev with
  | tick read clk =>
    cases read with
    | none => exact h.inert rfl rfl rfl rfl rfl
    | some stats =>
      obtain ⟨hd, hx⟩ := htick stats clk rfl
      exact h.tick hd hx
  | forceOpen clk | forceClose clk => cases hforce
  | thresholdUpdate pps bps | overrideFile mtime | metrics now => exact h.inert rfl rfl rfl rfl rfl

theorem Probed.sampleWithin_iff (stats : XdpStats) :
    w.SampleWithin pre stats ↔
      w'.engine.detector.sampleCount = 0 ∨ LifetimeWithin w'.engine.detector.cfg stats := by
  rw [h.first, h.lifetime]
  rfl

end

section Period

variable {w : FailsafeDaemon Detector} {evs : List EngineEvent}

variable {pre p : List EngineEvent} {stats : XdpStats} {clk : Readings}

theorem probed_run (hs : w.engine.cb.state = .halfOpen) (hforce : ∀ ev ∈ evs, ev.isForce = false)
    (hcalm : w.CalmProbe evs) {post : List EngineEvent} (hsp : evs = pre ++ post)
    (hpre : w.BeforeWindow pre)
    (hin : ∀ p stats clk, TickAfter pre p stats clk → w.SampleWithin p stats) :
    Probed w (w.run ops pre) pre ∧ w.Probing pre := by
  induction pre using List.reverseRecOn generalizing post with
  | nil =>
    refine ⟨.start hs, fun p hp => ?_⟩
    rw [List.prefix_nil.mp hp]
    exact hs
  | append_singleton pre ev ih =>
    rw [List.append_assoc] at hsp
    obtain ⟨hprobed, hprb⟩ := ih hsp
      (fun stats clk hmem => hpre stats clk (List.mem_append_left _ hmem))
      (fun p stats clk ⟨q, hq⟩ => hin p stats clk ⟨q ++ [ev], by simp [hq]⟩)
    have hnext : Probed w (w.run ops (pre ++ [ev])) (pre ++ [ev]) := by
      rw [run_append]
      refine hprobed.step (hforce ev (by simp [hsp])) ?_
      rintro stats clk rfl
      have hat : TickAfter evs pre stats clk := ⟨post, hsp⟩
      refine ⟨(detects_iff (hcalm pre stats clk hat hprb)).mpr ?_, hpre stats clk (by simp)⟩
      exact (hprobed.sampleWithin_iff stats).mp (hin pre stats clk ⟨[], rfl⟩)
    refine ⟨hnext, fun p hp => ?_⟩
    rcases List.prefix_concat_iff.mp hp with rfl | hp
    · exact hnext.state
    · exact hprb p hp

theorem TickAfter.trans {stats' : XdpStats} {clk' : Readings} (h : TickAfter evs pre stats clk)
    (h' : TickAfter pre p stats' clk') : TickAfter evs p stats' clk' := by
  obtain ⟨post, rfl⟩ := h
  obtain ⟨q, rfl⟩ := h'
  exact ⟨q ++ .tick (some stats) clk :: post, by simp⟩

theorem BeforeWindow.of_tickAfter (h : w.BeforeWindow pre) (hp : TickAfter pre p stats clk) :
    w.BeforeWindow p := by
  obtain ⟨q, rfl⟩ := hp
  exact fun stats' clk' hmem => h stats' clk' (List.mem_append_left _ hmem)

section

variable (hs : w.engine.cb.state = .halfOpen)
  (hforce : ∀ ev ∈ evs, ev.isForce = false)
  (hcalm : w.CalmProbe evs)

include hs hforce hcalm

theorem recovers_tick_iff (hat : TickAfter evs pre stats clk) (hpre : w.BeforeWindow pre)
    (hin : ∀ p stats clk, TickAfter pre p stats clk → w.SampleWithin p stats) :
    ((w.run ops (pre ++ [.tick (some stats) clk])).engine.cb.state =
        if w.expires clk = true then .closed else .halfOpen) ↔ w.SampleWithin pre stats := by
  obtain ⟨post, hsp⟩ := hat
  obtain ⟨hprobed, hprb⟩ := probed_run hs hforce hcalm hsp hpre hin
  rw [hprobed.sampleWithin_iff, run_append, ← hprobed.expires]
  exact tick_recovers_iff hprobed.state (hcalm pre stats clk ⟨post, hsp⟩ hprb)

theorem Recovers.sampleWithin (hrec : w.Recovers evs)
    (n : Nat) : ∀ pre stats clk, pre.length = n → TickAfter evs pre stats clk →
      w.BeforeWindow pre → w.SampleWithin pre stats := by
  induction n using Nat.strongRecOn with
  | ind n ih =>
    intro pre stats clk hlen hat hpre
    refine (recovers_tick_iff hs hforce hcalm hat hpre ?_).mp (hrec pre stats clk hat hpre)
    intro p stats' clk' hp
    have hsh : p.length < n := by
      obtain ⟨q, rfl⟩ := hp
      simp only [List.length_append, List.length_cons] at hlen
      omega
    exact ih p.length hsh p stats' clk' rfl (hat.trans hp) (hpre.of_tickAfter hp)

end

end Period

end FailsafeDaemon

open FailsafeDaemon

/-- A HALF-OPEN period of calm traffic ends in Closed, at the first tick at or after
the probe window and with no re-trip, exactly when at each of its ticks the lifetime
ratios of drops and of parse errors are within their thresholds. -/
theorem probe_recovers_iff {w : FailsafeDaemon Detector} {evs : List EngineEvent}
    (hs : w.engine.cb.state = .halfOpen) (hforce : ∀ ev ∈ evs, ev.isForce = false)
    (hcalm : w.CalmProbe evs) : w.Recovers evs ↔ w.LifetimeRatiosWithin evs := by
  constructor
  · intro hrec pre stats clk hat hpre
    exact hrec.sampleWithin hs hforce hcalm pre.length pre stats clk rfl hat hpre
  · intro hin pre stats clk hat hpre
    refine (recovers_tick_iff hs hforce hcalm hat hpre ?_).mpr (hin pre stats clk hat hpre)
    intro p stats' clk' hp
    exact hin p stats' clk' (hat.trans hp) (hpre.of_tickAfter hp)

def probeStart : FailsafeDaemon Detector :=
  (start defaultRecoveryConfig 3 (newDetector defaultDetectorConfig) (some openCircuit) none).run
    ops [.tick (some (dropStats 0)) (.instant 30000000000)]

theorem probe_recovers_iff_dropStats :
    (probeStart.Recovers [.tick (some (dropStats 0)) (.instant 31000000000),
        .tick (some (dropStats 0)) (.instant 36000000000)] ↔
      probeStart.LifetimeRatiosWithin [.tick (some (dropStats 0)) (.instant 31000000000),
        .tick (some (dropStats 0)) (.instant 36000000000)]) ∧
    (probeStart.run ops [.tick (some (dropStats 0)) (.instant 31000000000),
      .tick (some (dropStats 0)) (.instant 36000000000)]).engine.cb.state = .closed := by
  refine ⟨probe_recovers_iff (by decide +kernel) (by decide) ?_, by decide +kernel⟩
  rintro pre stats clk ⟨post, h⟩ -
  rcases pre with _ | ⟨a, _ | ⟨b, pre⟩⟩
  · simp only [List.nil_append, List.cons.injEq, EngineEvent.tick.injEq, Option.some.injEq] at h
    obtain ⟨⟨rfl, rfl⟩, -⟩ := h
    decide +kernel
  · simp only [List.cons_append, List.nil_append, List.cons.injEq, EngineEvent.tick.injEq,
      Option.some.injEq] at h
    obtain ⟨rfl, ⟨rfl, rfl⟩, -⟩ := h
    decide +kernel
  · simp at h

def Kernel.readStats (st : Kernel) : Option XdpStats :=
  match st.xdpStats, st.mappedXdpStats with
  | some cold, some hot => some (Falx.readStats [cold] [hot])
  | _, _ => none

def floodKernel : Kernel :=
  runPackets (List.replicate 3 (.instant 1, icmpFrame 10 0 0 2)) openKernel

def floodStats : XdpStats where
  rxPackets := 3
  rxBytes := 102
  dropped := 3
  rateLimited := 0
  passed := 0
  redirected := 0
  failsafeDrops := 3
  parseErrors := 0
  mapErrors := 0
  coolingBans := 0
  synFloodBans := 0
  lastResetNs := 0

/-- Three packets meet an open circuit, and after them there is no traffic at all.
Each was counted twice as a drop, the ratio stays at 2, and the probe fails. -/
theorem probe_retrips_without_traffic :
    (floodKernel.readStats = some floodStats ∧
      floodKernel.failsafeState.map FailsafeState.circuitOpen = some 1) ∧
    probeStart.engine.cb.state = .halfOpen ∧
    probeStart.engine.detector.Calm floodStats 31000000000 ∧
    (probeStart.run ops [.tick (some floodStats) (.instant 31000000000)]).engine.detector.Calm
      floodStats 36000000000 ∧
    probeStart.expires (.instant 36000000000) = true ∧
    (probeStart.run ops [.tick (some floodStats) (.instant 31000000000),
      .tick (some floodStats) (.instant 36000000000)]).engine.cb.state = .opened := by
  refine ⟨⟨?_, ?_⟩, ?_, ?_, ?_, ?_, ?_⟩ <;> decide +kernel

end Falx
