import Falx.Enforcement
import Falx.FailsafeEngine
import Falx.KeyAgreement

/-! The engine's copy of the circuit and the kernel's. The engine writes
`circuit_open` when it changes state and never reads it again after its start; the
XDP program and the handlers of falx-soc write it too. -/

namespace Falx

section Packet

variable (x : Kernel)

theorem checkSynCounter_failsafeState (src : UInt32) (flags : UInt8) (now : UInt64) :
    (checkSynCounter src flags now x).2.failsafeState = x.failsafeState := by
  simp only [checkSynCounter]
  repeat' split
  all_goals rfl

theorem checkRateLimit_failsafeState (src : UInt32) (cfg : FalxMapConfig) (now : UInt64) :
    (checkRateLimit src cfg now x).2.failsafeState = x.failsafeState := by
  simp only [checkRateLimit, chargeBucket]
  repeat' split
  all_goals rfl

theorem checkSynFlood_failsafeState (src : UInt32) (charge now : UInt64) :
    (checkSynFlood src charge now x).2.failsafeState = x.failsafeState := by
  simp only [checkSynFlood, chargeBucket]
  repeat' split
  all_goals rfl

theorem statsFree_failsafeState (fs : Option FailsafeState) :
    StatsFree (fun x => x.failsafeState = fs) :=
  ⟨fun _ _ h => h, fun _ _ h => h⟩

def FailsafeState.after (pkt : PacketInfo) (now : UInt64) (s : FailsafeState) : FailsafeState :=
  (s.countPacket pkt.pktLen now).trip now

theorem checkFailsafe_failsafeState (pkt : PacketInfo) (now : UInt64) :
    (checkFailsafe pkt now x).2.failsafeState = x.failsafeState.map (.after pkt now) := by
  simp only [checkFailsafe]
  split
  · next h => rw [h]; rfl
  · next s h =>
    rw [h]
    split <;> rfl

theorem laterStages_keep (fs : Option FailsafeState) (cfg : FalxMapConfig) (pkt : PacketInfo)
    (clk : Clock) (frame : Frame) :
    Stage.Triple (fun x => x.failsafeState = fs)
      ((blocklistStage pkt clk frame).andThen (limiterStages cfg pkt clk frame))
      (fun x => x.failsafeState = fs) (fun x => x.failsafeState = fs) := by
  have hfs := statsFree_failsafeState fs
  refine (Stage.Triple.of_respects (blocklistStage_respects hfs.blind pkt clk frame)
    fun _ h => h).andThen (Stage.Triple.andThen (J := fun x => x.failsafeState = fs) ?_
      (Stage.Triple.andThen (J := fun x => x.failsafeState = fs) ?_ ?_))
  · refine Stage.Triple.checked (fun _ y => hfs.mapped y _) (fun _ x hx => ?_) fun _ _ hx => hx
    have hy := (checkSynCounter_failsafeState x pkt.srcIp pkt.tcpFlags clk.synCounter).trans hx
    exact ⟨fun _ => hy, fun _ _ => hy⟩
  · refine Stage.Triple.checked (fun _ y => hfs.stat y _) (fun _ x hx => ?_) fun _ _ hx => hx
    have hy := (checkRateLimit_failsafeState x pkt.srcIp cfg clk.rateLimit).trans hx
    exact ⟨fun _ => hy, fun _ _ => hy⟩
  · refine Stage.Triple.checked (fun _ y => hfs.stat y _) (fun _ x hx => ?_) fun _ _ hx => hx
    have hy := (checkSynFlood_failsafeState x pkt.srcIp clk.rateLimit clk.synFlood).trans hx
    exact ⟨fun _ => hy, fun _ _ => hy⟩

theorem failsafeStage_counts (fs : Option FailsafeState) {cfg : FalxMapConfig}
    (hcfg : cfg.failsafeEnabled ≠ 0) (pkt : PacketInfo) (clk : Clock) (frame : Frame) :
    Stage.Triple (fun x => x.failsafeState = fs) (failsafeStage cfg pkt clk frame)
      (fun x => x.failsafeState = fs.map (.after pkt clk.failsafe))
      (fun x => x.failsafeState = fs.map (.after pkt clk.failsafe)) := by
  refine Stage.Triple.guarded ?_ fun x _ hoff => absurd hcfg hoff
  refine Stage.Triple.onDecision (Stage.Triple.mapVerdict ?_ _) ?_
  · rintro x ⟨hx, -⟩
    have hy := checkFailsafe_failsafeState x pkt clk.failsafe
    rw [hx] at hy
    exact ⟨fun _ => hy, fun _ _ => hy⟩
  · intro v x hx
    simp only [countIfDropped]
    split
    · exact hx
    · exact hx

theorem processPacket_failsafeState (clk : Clock) (frame : Frame) (st : Kernel) :
    (processPacket clk frame st).2.failsafeState = st.failsafeState ∨
      ∃ pkt, parsePacket frame = some pkt ∧ pkt.Screened ∧ st.readConfig.failsafeEnabled ≠ 0 ∧
        (processPacket clk frame st).2.failsafeState =
          st.failsafeState.map (.after pkt clk.failsafe) := by
  by_cases hcfg : st.readConfig.failsafeEnabled ≠ 0
  · by_cases hp : ∃ pkt, parsePacket frame = some pkt ∧ pkt.Screened
    · obtain ⟨pkt, hp, hs⟩ := hp
      have htriple := (failsafeStage_counts st.failsafeState hcfg pkt clk frame).andThen
        (laterStages_keep _ st.readConfig pkt clk frame)
      exact .inr ⟨pkt, hp, hs, hcfg, processPacket_post_of_screened
        (statsFree_failsafeState _) (statsFree_failsafeState _) hp hs htriple rfl⟩
    · exact .inl (processPacket_post (statsFree_failsafeState _) (statsFree_failsafeState _)
        (fun _ h => h) (fun pkt hp' hs => absurd ⟨pkt, hp', hs⟩ hp) rfl)
  · refine .inl (processPacket_post (statsFree_failsafeState _) (statsFree_failsafeState _)
      (fun _ h => h) (fun pkt _ _ => ?_) rfl)
    refine Stage.Triple.andThen ?_ (laterStages_keep _ st.readConfig pkt clk frame)
    exact Stage.Triple.guarded (fun x hx => absurd hx.2 hcfg) fun x hx _ => hx

end Packet

variable {δ : Type} (D : DetectorOps δ)

namespace Engine

/-- An event that met the circuit in `state` leaves it on the same side of Closed and
asks for no write, or it asks for the write that goes with the state it leaves. -/
def Announces (state : CircuitState) (r : Engine δ × Option Bool) : Prop :=
  (r.2 = none ∧ (r.1.cb.state = .closed ↔ state = .closed)) ∨
    (r.2 = some true ∧ r.1.cb.state ≠ .closed) ∨
    (r.2 = some false ∧ r.1.cb.state = .closed)

section Announces

variable {r : Engine δ × Option Bool} {state state' : CircuitState} {violations : Nat}

theorem Leaves.announces_none (h : Leaves r state' violations none)
    (hside : state' = .closed ↔ state = .closed) : Announces state r :=
  Or.inl ⟨h.write_eq, h.state_eq ▸ hside⟩

end Announces

section Ticks

variable (e : Engine δ) (stats : XdpStats) (clk : Readings)

theorem tickClosed_announces (file : Option Time) (hs : e.cb.state = .closed) :
    Announces .closed (e.tickClosed D file stats clk) := by
  by_cases ho : e.overrideActive file clk = true
  · exact (e.tickClosed_of_overrideActive D _ stats clk hs ho).announces_none Iff.rfl
  rw [Bool.not_eq_true] at ho
  by_cases hd : e.detects D stats clk = true
  · by_cases hv : e.consecutiveViolations ≤ e.cb.violations + 1
    · have hl := e.tickClosed_of_trip D _ stats clk hs ho hd hv
      exact .inr (.inl ⟨hl.write_eq, hl.state_eq ▸ by decide⟩)
    · exact (e.tickClosed_of_violation D _ stats clk hs ho hd (by omega)).announces_none Iff.rfl
  · rw [Bool.not_eq_true] at hd
    exact (e.tickClosed_of_calm D _ stats clk hs ho hd).announces_none Iff.rfl

theorem tickOpen_announces (hs : e.cb.state = .opened) : Announces .opened (e.tickOpen clk) := by
  rcases e.tickOpen_leaves clk hs with hl | hl
  · exact hl.announces_none Iff.rfl
  · exact hl.announces_none (by decide)

theorem tickHalfOpen_announces (hs : e.cb.state = .halfOpen) :
    Announces .halfOpen (e.tickHalfOpen D stats clk) := by
  by_cases hd : e.detects D stats clk = true
  · exact (e.tickHalfOpen_of_detects D stats clk hs hd).announces_none (by decide)
  rw [Bool.not_eq_true] at hd
  by_cases hx : e.recovery.halfOpenExpired e.halfOpenAt clk.recoverAt = true
  · have hl := e.tickHalfOpen_of_expired D stats clk hs hd hx
    exact .inr (.inr ⟨hl.write_eq, hl.state_eq⟩)
  · rw [Bool.not_eq_true] at hx
    exact (e.tickHalfOpen_of_waiting D stats clk hs hd hx).announces_none Iff.rfl

theorem tick_announces (file : Option Time) (read : Option XdpStats) :
    Announces e.cb.state (e.tick D file read clk) := by
  cases read with
  | none => exact .inl ⟨rfl, Iff.rfl⟩
  | some stats =>
    cases hs : e.cb.state with
    | closed => simpa only [tick, hs] using e.tickClosed_announces D stats clk file hs
    | opened => simpa only [tick, hs] using e.tickOpen_announces clk hs
    | halfOpen => simpa only [tick, hs] using e.tickHalfOpen_announces D stats clk hs

end Ticks

end Engine

theorem FailsafeDaemon.step_announces (w : FailsafeDaemon δ) (ev : EngineEvent) :
    Engine.Announces w.engine.cb.state ((w.step D ev).1.engine, (w.step D ev).2) := by
  cases ev with
  | tick read clk => exact w.engine.tick_announces D clk w.overrideFile read
  | forceOpen clk =>
    refine .inr (.inl ⟨rfl, ?_⟩)
    simp only [step, Engine.forceOpen, CircuitBreaker.trip]
    split
    · next ho => simp [ho]
    · exact fun hc => by cases hc
  | forceClose clk =>
    refine .inr (.inr ⟨rfl, ?_⟩)
    simp only [step, Engine.forceClose, CircuitBreaker.close]
    split
    · next hc => exact hc
    · rfl
  | thresholdUpdate pps bps | overrideFile mtime | metrics now => exact .inl ⟨rfl, Iff.rfl⟩

def CircuitState.flag : CircuitState → UInt8
  | closed => 0
  | opened => 1
  | halfOpen => 1

variable {state : CircuitState} {s : FailsafeState}

theorem CircuitState.flag_of_ne (h : state ≠ .closed) : state.flag = 1 := by
  cases state with
  | closed => exact absurd rfl h
  | opened | halfOpen => rfl

theorem CircuitState.flag_of_iff {isOpen : Bool} (h : isOpen = true ↔ state ≠ .closed) :
    state.flag = if isOpen = true then 1 else 0 := by
  by_cases hs : state = .closed
  · rw [if_neg fun ho => h.mp ho hs, hs]
    rfl
  · rw [if_pos (h.mpr hs), flag_of_ne hs]

theorem CircuitState.flag_congr {state' : CircuitState} (h : state' = .closed ↔ state = .closed) :
    state'.flag = state.flag := by
  by_cases hs : state = .closed
  · rw [h.mpr hs, hs]
  · rw [flag_of_ne hs, flag_of_ne fun hs' => hs (h.mp hs')]

/-- falxd, the kernel and the call of `SetCircuitOpen` that the engine is in, if it
is in one. -/
structure CircuitSystem (δ : Type) where
  daemon : FailsafeDaemon δ
  kernel : Kernel
  pending : Option Bool

inductive CircuitEvent where
  | engine (ev : EngineEvent)
  | write (nowNano : UInt64)
  | packet (clk : Clock) (frame : Frame)
  | updateThresholds (pps bps : UInt64)
  | socForceOpen (nowNano : UInt64)
  | socForceClose (nowNano : UInt64) (mtime : Time)
  deriving DecidableEq

namespace CircuitSystem

def setCircuitOpen (isOpen : Bool) (nowNano : UInt64) (s : CircuitSystem δ) : CircuitSystem δ :=
  { s with kernel := { s.kernel with
      failsafeState := s.kernel.failsafeState.map (Falx.setCircuitOpen isOpen nowNano) } }

def step (s : CircuitSystem δ) : CircuitEvent → CircuitSystem δ
  | .engine ev =>
    -- the loop takes up nothing new before the map call has returned
    match s.pending with
    | some _ => s
    | none =>
      let r := s.daemon.step D ev
      { s with daemon := r.1, pending := r.2 }
  | .write nowNano =>
    match s.pending with
    | some isOpen => { s.setCircuitOpen isOpen nowNano with pending := none }
    | none => s
  | .packet clk frame => { s with kernel := (processPacket clk frame s.kernel).2 }
  | .updateThresholds pps bps =>
    { s with kernel := { s.kernel with
        failsafeState := s.kernel.failsafeState.map (updateFailsafeThresholds pps bps) } }
  | .socForceOpen nowNano =>
    { s.setCircuitOpen true nowNano with daemon := { s.daemon with overrideFile := none } }
  | .socForceClose nowNano mtime =>
    { s.setCircuitOpen false nowNano with daemon := { s.daemon with overrideFile := some mtime } }

def run (evs : List CircuitEvent) (s : CircuitSystem δ) : CircuitSystem δ :=
  evs.foldl (step D) s

def engineState (s : CircuitSystem δ) : CircuitState := s.daemon.engine.cb.state

def circuitOpen (s : CircuitSystem δ) : Option UInt8 :=
  s.kernel.failsafeState.map FailsafeState.circuitOpen

def Agrees (s : CircuitSystem δ) : Prop := s.circuitOpen = some s.engineState.flag

end CircuitSystem

def FailsafeState.Exceeds (pktLen : UInt32) (now : UInt64) (s : FailsafeState) : Prop :=
  s.ppsThreshold < (s.countPacket pktLen now).currentPps ∨
    s.bpsThreshold < (s.countPacket pktLen now).currentBps

instance (pktLen : UInt32) (now : UInt64) (s : FailsafeState) : Decidable (s.Exceeds pktLen now) :=
  inferInstanceAs (Decidable (_ ∨ _))

instance (pkt : PacketInfo) : Decidable pkt.Screened := inferInstanceAs (Decidable (¬ _))

def Kernel.exceeded (clk : Clock) (frame : Frame) (st : Kernel) : Bool :=
  match parsePacket frame, st.failsafeState with
  | some pkt, some s =>
    decide (pkt.Screened ∧ st.readConfig.failsafeEnabled ≠ 0 ∧ s.Exceeds pkt.pktLen clk.failsafe)
  | _, _ => false

theorem FailsafeState.after_circuitOpen_of_closed (h : s.circuitOpen = 0) (pkt : PacketInfo)
    (now : UInt64) :
    (s.after pkt now).circuitOpen = if s.Exceeds pkt.pktLen now then 1 else 0 := by
  have hcnt := s.circuitOpen_countPacket pkt.pktLen now
  have hpps : (s.countPacket pkt.pktLen now).ppsThreshold = s.ppsThreshold := by
    rw [countPacket_eq]
  have hbps : (s.countPacket pkt.pktLen now).bpsThreshold = s.bpsThreshold := by
    rw [countPacket_eq]
  simp only [after, trip, hcnt, h, hpps, hbps, true_and]
  by_cases hx : s.Exceeds pkt.pktLen now
  · have hx' := hx
    rw [FailsafeState.Exceeds] at hx'
    rw [if_pos hx, if_pos hx']
  · have hx' := hx
    rw [FailsafeState.Exceeds] at hx'
    rw [if_neg hx, if_neg hx']
    exact hcnt.trans h

theorem FailsafeState.after_circuitOpen_of_open (h : s.circuitOpen = 1) (pkt : PacketInfo)
    (now : UInt64) : (s.after pkt now).circuitOpen = 1 := by
  have hcnt := s.circuitOpen_countPacket pkt.pktLen now
  have hne : ¬ (s.countPacket pkt.pktLen now).circuitOpen = 0 := by
    rw [hcnt, h]
    decide
  rw [after, trip, if_neg fun hc => hne hc.1, hcnt, h]

namespace CircuitSystem

variable {D}

/-- The engine's writes apart, nothing changes the flag that the engine does not
know of: no packet opens a circuit that the engine has Closed, and falx-soc opens it
only when the engine has it open, and closes it only when the engine has it Closed.
While the engine is in a call of `SetCircuitOpen` there is no condition. -/
def Undisturbed (s : CircuitSystem δ) : CircuitEvent → Prop
  | .packet clk frame =>
    s.pending = none → s.engineState = .closed → s.kernel.exceeded clk frame = false
  | .socForceOpen _ => s.pending = none → s.engineState ≠ .closed
  | .socForceClose _ _ => s.pending = none → s.engineState = .closed
  | _ => True

structure Coherent (s : CircuitSystem δ) : Prop where
  mapped : ∃ fs, s.kernel.failsafeState = some fs
  idle : s.pending = none → s.Agrees
  busy : ∀ isOpen, s.pending = some isOpen → (isOpen = true ↔ s.engineState ≠ .closed)

variable {s : CircuitSystem δ} {fs : FailsafeState}

theorem Coherent.packet (h : Coherent s) (clk : Clock) (frame : Frame)
    (hev : s.Undisturbed (.packet clk frame)) : Coherent (s.step D (.packet clk frame)) := by
  obtain ⟨fs, hfs⟩ := h.mapped
  rcases processPacket_failsafeState clk frame s.kernel with hk | ⟨pkt, hp, hscr, hcfg, hk⟩
  · refine ⟨⟨fs, hk.trans hfs⟩, fun hidle => ?_, h.busy⟩
    exact (congrArg (Option.map FailsafeState.circuitOpen) hk).trans (h.idle hidle)
  · rw [hfs, Option.map_some] at hk
    refine ⟨⟨_, hk⟩, fun hidle => ?_, h.busy⟩
    have hflag : fs.circuitOpen = s.engineState.flag := by
      have hag := h.idle hidle
      rw [Agrees, circuitOpen, hfs] at hag
      exact Option.some.inj hag
    refine (congrArg (Option.map FailsafeState.circuitOpen) hk).trans (congrArg some ?_)
    change (fs.after pkt clk.failsafe).circuitOpen = s.engineState.flag
    by_cases hs : s.engineState = .closed
    · have hq := hev hidle hs
      simp only [Kernel.exceeded, hp, hfs, decide_eq_false_iff_not] at hq
      have hno : ¬ fs.Exceeds pkt.pktLen clk.failsafe := fun hx => hq ⟨hscr, hcfg, hx⟩
      rw [hs] at hflag ⊢
      rw [FailsafeState.after_circuitOpen_of_closed hflag, if_neg hno]
      rfl
    · rw [CircuitState.flag_of_ne hs] at hflag ⊢
      exact FailsafeState.after_circuitOpen_of_open hflag pkt clk.failsafe

theorem circuitOpen_setCircuitOpen (hfs : s.kernel.failsafeState = some fs) (isOpen : Bool)
    (nowNano : UInt64) :
    (s.setCircuitOpen isOpen nowNano).circuitOpen = some (if isOpen = true then 1 else 0) := by
  simp only [circuitOpen, setCircuitOpen, hfs, Option.map_some, Falx.setCircuitOpen]
  split <;> rfl

section

variable (h : Coherent s)

include h

theorem Coherent.setCircuitOpen {isOpen : Bool}
    {nowNano : UInt64} (hev : s.pending = none → (isOpen = true ↔ s.engineState ≠ .closed))
    (file : Option Time) : Coherent { s.setCircuitOpen isOpen nowNano with
      daemon := { s.daemon with overrideFile := file } } := by
  obtain ⟨fs, hfs⟩ := h.mapped
  have hflag := circuitOpen_setCircuitOpen hfs isOpen nowNano
  refine ⟨⟨Falx.setCircuitOpen isOpen nowNano fs, ?_⟩, fun hidle => ?_, h.busy⟩
  · simp only [CircuitSystem.setCircuitOpen, hfs, Option.map_some]
  · exact hflag.trans (congrArg some (CircuitState.flag_of_iff (hev hidle)).symm)

theorem Coherent.engine (ev : EngineEvent) : Coherent (s.step D (.engine ev)) := by
  cases hp : s.pending with
  | some isOpen => simpa only [CircuitSystem.step, hp] using h
  | none =>
    have hag := h.idle hp
    simp only [CircuitSystem.step, hp]
    rcases s.daemon.step_announces D ev with ⟨hw, hs⟩ | ⟨hw, hs⟩ | ⟨hw, hs⟩
    · refine ⟨h.mapped, fun _ => ?_, fun b hb => absurd (hw.symm.trans hb) ?_⟩
      · exact hag.trans (congrArg some (CircuitState.flag_congr hs).symm)
      · exact (Option.some_ne_none b).symm
    · refine ⟨h.mapped, fun hn => absurd (hw.symm.trans hn) (Option.some_ne_none _), ?_⟩
      intro b hb
      obtain rfl : true = b := Option.some.inj (hw.symm.trans hb)
      exact iff_of_true rfl hs
    · refine ⟨h.mapped, fun hn => absurd (hw.symm.trans hn) (Option.some_ne_none _), ?_⟩
      intro b hb
      obtain rfl : false = b := Option.some.inj (hw.symm.trans hb)
      exact iff_of_false Bool.false_ne_true (not_not.mpr hs)

theorem Coherent.write (nowNano : UInt64) :
    Coherent (s.step D (.write nowNano)) := by
  cases hp : s.pending with
  | none => simpa only [CircuitSystem.step, hp] using h
  | some isOpen =>
    obtain ⟨fs, hfs⟩ := h.mapped
    have hside := h.busy isOpen hp
    have hflag := circuitOpen_setCircuitOpen hfs isOpen nowNano
    simp only [CircuitSystem.step, hp]
    refine ⟨⟨Falx.setCircuitOpen isOpen nowNano fs, ?_⟩, fun _ => ?_, fun b hb => by cases hb⟩
    · simp only [CircuitSystem.setCircuitOpen, hfs, Option.map_some]
    · exact hflag.trans (congrArg some (CircuitState.flag_of_iff hside).symm)

theorem Coherent.step {ev : CircuitEvent} (hev : s.Undisturbed ev) :
    Coherent (s.step D ev) := by
  cases ev with
  | engine ev => exact h.engine ev
  | write nowNano => exact h.write nowNano
  | packet clk frame => exact h.packet clk frame hev
  | updateThresholds pps bps =>
    obtain ⟨fs, hfs⟩ := h.mapped
    refine ⟨⟨updateFailsafeThresholds pps bps fs, ?_⟩, fun hidle => ?_, h.busy⟩
    · simp only [CircuitSystem.step, hfs, Option.map_some]
    · have hag := h.idle hidle
      rw [Agrees, circuitOpen, hfs] at hag
      simp only [Agrees, circuitOpen, CircuitSystem.step, hfs, Option.map_some]
      exact hag
  | socForceOpen nowNano =>
    exact h.setCircuitOpen (fun hidle => iff_of_true rfl (hev hidle)) none
  | socForceClose nowNano mtime =>
    exact h.setCircuitOpen
      (fun hidle => iff_of_false Bool.false_ne_true (not_not.mpr (hev hidle))) (some mtime)

end

variable (D)

def UndisturbedRun (s : CircuitSystem δ) : List CircuitEvent → Prop
  | [] => True
  | ev :: evs => s.Undisturbed ev ∧ UndisturbedRun (s.step D ev) evs

variable {D}

theorem Coherent.run (h : Coherent s) {evs : List CircuitEvent} (hrun : s.UndisturbedRun D evs) :
    Coherent (s.run D evs) := by
  induction evs generalizing s with
  | nil => exact h
  | cons ev evs ih => exact ih (h.step hrun.1) hrun.2

def start (recovery : RecoveryConfig) (consecutiveViolations : Nat) (detector : δ)
    (file : Option Time) (kernel : Kernel) : CircuitSystem δ :=
  ⟨.start recovery consecutiveViolations detector kernel.failsafeState file, kernel, none⟩

theorem start_coherent (recovery : RecoveryConfig) (N : Nat) (detector : δ) (file : Option Time)
    {kernel : Kernel} (hfs : kernel.failsafeState = some fs)
    (hflag : fs.circuitOpen = 0 ∨ fs.circuitOpen = 1) :
    Coherent (start recovery N detector file kernel) := by
  refine ⟨⟨fs, hfs⟩, fun _ => ?_, fun b hb => by cases hb⟩
  have hopen : (start recovery N detector file kernel).circuitOpen = some fs.circuitOpen :=
    congrArg (Option.map FailsafeState.circuitOpen) hfs
  refine hopen.trans (congrArg some ?_)
  simp only [engineState, start, FailsafeDaemon.start, Engine.newEngine, hfs,
    Engine.syncStateFromKernel]
  rcases hflag with h | h
  · rw [h, if_neg (by decide)]
    rfl
  · rw [h, if_pos rfl]
    rfl

end CircuitSystem

open FailsafeState CircuitSystem

def tightCircuit : FailsafeState where
  circuitOpen := 0
  currentPps := 0
  currentBps := 0
  openSinceNs := 0
  ppsThreshold := 1
  bpsThreshold := 1000000
  windowStartNs := 0

def tightKernel : Kernel :=
  { Kernel.boot (fun k => [k.toNat]) (limits 10 1) with failsafeState := some tightCircuit }

def tightSystem : CircuitSystem Detector :=
  start defaultRecoveryConfig 3 (newDetector defaultDetectorConfig) none tightKernel

def idleTick (now : Time) : CircuitEvent :=
  .engine (.tick (some ⟨0, 0, 0, 0, 0, 0, 0, 0, 0, 0, 0, 0⟩) (.instant now))

def forceOpenAt (now : Time) : CircuitEvent :=
  .engine (.forceOpen (.instant now))

end Falx
