import Falx.FailsafeEngine

/-! When the detector may open the circuit. The violation counter, the latch and
the state change in different functions; over a whole run the counter is the
number of violating ticks since the last tick that was not one, all of them in the
present Closed period. -/

namespace Falx

variable {δ : Type} (D : DetectorOps δ)

namespace EngineEvent

def readings : EngineEvent → List Time
  | tick _ clk | forceOpen clk | forceClose clk =>
    [clk.latchAt, clk.fileAt, clk.analyzeAt, clk.recoverAt, clk.transitionAt, clk.markedAt]
  | metrics now => [now]
  | _ => []

def isForceOpen : EngineEvent → Bool
  | forceOpen _ => true
  | _ => false

end EngineEvent

namespace FailsafeDaemon

def Violates (w : FailsafeDaemon δ) : EngineEvent → Prop
  | .tick (some stats) clk =>
    w.engine.cb.state = .closed ∧ w.engine.overrideActive w.overrideFile clk = false ∧
      w.engine.detects D stats clk = true
  | _ => False

def trace (w : FailsafeDaemon δ) : List EngineEvent → List (FailsafeDaemon δ × EngineEvent)
  | [] => []
  | ev :: evs => (w, ev) :: trace (w.step D ev).1 evs

theorem trace_append (evs more : List EngineEvent) (w : FailsafeDaemon δ) :
    w.trace D (evs ++ more) = w.trace D evs ++ (w.run D evs).trace D more := by
  induction evs generalizing w with
  | nil => rfl
  | cons ev evs ih => simp only [List.cons_append, trace, ih, run, List.foldl_cons]

/-- The trace ends in a stretch of the Closed state whose ticks, failed reads apart,
are `n` violations. -/
def Streak (tr : List (FailsafeDaemon δ × EngineEvent)) (n : Nat) : Prop :=
  ∃ pre mid, tr = pre ++ mid ∧ (∀ p ∈ mid, p.1.engine.cb.state = .closed) ∧
    (mid.filter fun p => p.2.reads).length = n ∧
    ∀ p ∈ mid, p.2.reads = true → p.1.Violates D p.2

variable {D}

theorem Streak.zero (tr : List (FailsafeDaemon δ × EngineEvent)) : Streak D tr 0 :=
  ⟨tr, [], (List.append_nil tr).symm, by simp, rfl, by simp⟩

variable {tr : List (FailsafeDaemon δ × EngineEvent)} {w : FailsafeDaemon δ} {ev : EngineEvent}
  {read : Option XdpStats} {clk : Readings} {c now : Time} {rest : List Time}
  {l : AdminOverrideLatch}

theorem Streak.concat {n : Nat} (h : Streak D tr n) (hs : w.engine.cb.state = .closed)
    (hv : ev.reads = true → w.Violates D ev) :
    Streak D (tr ++ [(w, ev)]) (n + if ev.reads then 1 else 0) := by
  obtain ⟨pre, mid, rfl, hshut, hcnt, hviol⟩ := h
  refine ⟨pre, mid ++ [(w, ev)], List.append_assoc .., ?_, ?_, ?_⟩
  · intro p hp
    rcases List.mem_append.mp hp with hp | hp
    · exact hshut p hp
    · rw [List.mem_singleton.mp hp]
      exact hs
  · rw [List.filter_append, List.length_append, hcnt]
    by_cases hr : ev.reads = true <;> simp [hr]
  · intro p hp hr
    rcases List.mem_append.mp hp with hp | hp
    · exact hviol p hp hr
    · rw [List.mem_singleton.mp hp] at hr ⊢
      exact hv hr

variable (D)

/-- The counter counts: outside Closed it is zero, in Closed it is the length of the
streak that the trace ends in, and it has not reached the required number. -/
structure Counted (w : FailsafeDaemon δ) (tr : List (FailsafeDaemon δ × EngineEvent)) : Prop where
  below : w.engine.cb.violations < w.engine.consecutiveViolations
  idle : w.engine.cb.state ≠ .closed → w.engine.cb.violations = 0
  streak : w.engine.cb.state = .closed → Streak D tr w.engine.cb.violations

variable {D}

theorem Counted.of_zero (hN : 1 ≤ w.engine.consecutiveViolations) (h : w.engine.cb.violations = 0) :
    Counted D w tr := by
  refine ⟨by omega, fun _ => h, fun _ => ?_⟩
  rw [h]
  exact Streak.zero tr

theorem Counted.inert {w' : FailsafeDaemon δ} (h : Counted D w tr) (hr : ev.reads = false)
    (hN : w'.engine.consecutiveViolations = w.engine.consecutiveViolations)
    (hs : w'.engine.cb.state = w.engine.cb.state)
    (hv : w'.engine.cb.violations = w.engine.cb.violations) : Counted D w' (tr ++ [(w, ev)]) := by
  refine ⟨by rw [hv, hN]; exact h.below, fun hs' => ?_, fun hs' => ?_⟩
  · rw [hv]
    exact h.idle (hs ▸ hs')
  · rw [hs] at hs'
    have hnext : Streak D (tr ++ [(w, ev)]) _ :=
      (h.streak hs').concat hs' (fun ht => by simp [hr] at ht)
    rw [hv]
    simpa [hr] using hnext

theorem Counted.tickClosed (h : Counted D w tr) (hs : w.engine.cb.state = .closed)
    (stats : XdpStats) (clk : Readings) :
    Counted D (w.step D (.tick (some stats) clk)).1 (tr ++ [(w, .tick (some stats) clk)]) := by
  have hN := w.step_consecutiveViolations D (.tick (some stats) clk)
  have hstep : (w.step D (.tick (some stats) clk)).1.engine =
      (w.engine.tickClosed D w.overrideFile stats clk).1 := by simp only [step, Engine.tick, hs]
  have hpos : 1 ≤ (w.step D (.tick (some stats) clk)).1.engine.consecutiveViolations := by
    have := h.below
    omega
  by_cases ho : w.engine.overrideActive w.overrideFile clk = true
  · refine .of_zero hpos ?_
    rw [hstep]
    exact (w.engine.tickClosed_of_overrideActive D _ stats clk hs ho).violations_eq
  rw [Bool.not_eq_true] at ho
  by_cases hd : w.engine.detects D stats clk = true
  · by_cases hv : w.engine.consecutiveViolations ≤ w.engine.cb.violations + 1
    · refine .of_zero hpos ?_
      rw [hstep]
      exact (w.engine.tickClosed_of_trip D _ stats clk hs ho hd hv).violations_eq
    · have hlvs := w.engine.tickClosed_of_violation D _ stats clk hs ho hd (by omega)
      refine ⟨?_, fun hne => absurd (hstep ▸ hlvs.state_eq) hne, fun _ => ?_⟩
      · rw [hN, hstep, hlvs.violations_eq]
        omega
      · rw [hstep, hlvs.violations_eq]
        exact (h.streak hs).concat hs (fun _ => ⟨hs, ho, hd⟩)
  · rw [Bool.not_eq_true] at hd
    refine .of_zero hpos ?_
    rw [hstep]
    exact (w.engine.tickClosed_of_calm D _ stats clk hs ho hd).violations_eq

theorem tick_violations_of_ne_closed (hs : w.engine.cb.state ≠ .closed)
    (hv : w.engine.cb.violations = 0) (stats : XdpStats) (clk : Readings) :
    (w.step D (.tick (some stats) clk)).1.engine.cb.violations = 0 := by
  cases hst : w.engine.cb.state with
  | closed => exact absurd hst hs
  | opened =>
    simp only [step, Engine.tick, hst]
    rcases w.engine.tickOpen_leaves clk hst with hl | hl <;> rw [hl.violations_eq, hv]
  | halfOpen =>
    simp only [step, Engine.tick, hst]
    by_cases hd : w.engine.detects D stats clk = true
    · exact (w.engine.tickHalfOpen_of_detects D stats clk hst hd).violations_eq
    rw [Bool.not_eq_true] at hd
    by_cases hx : w.engine.recovery.halfOpenExpired w.engine.halfOpenAt clk.recoverAt = true
    · rw [(w.engine.tickHalfOpen_of_expired D stats clk hst hd hx).violations_eq, hv]
    · rw [Bool.not_eq_true] at hx
      rw [(w.engine.tickHalfOpen_of_waiting D stats clk hst hd hx).violations_eq, hv]

theorem Counted.step (h : Counted D w tr) (ev : EngineEvent) :
    Counted D (w.step D ev).1 (tr ++ [(w, ev)]) := by
  have hpos : 1 ≤ w.engine.consecutiveViolations := by
    have := h.below
    omega
  cases ev with
  | tick read clk =>
    cases read with
    | none => exact h.inert rfl rfl rfl rfl
    | some stats =>
      by_cases hs : w.engine.cb.state = .closed
      · exact h.tickClosed hs stats clk
      · refine .of_zero ?_ (tick_violations_of_ne_closed hs (h.idle hs) stats clk)
        rw [step_consecutiveViolations]
        exact hpos
  | forceOpen clk =>
    refine .of_zero hpos ?_
    simp only [FailsafeDaemon.step, Engine.forceOpen, CircuitBreaker.trip]
    split
    · next ho => exact h.idle (by simp [ho])
    · rfl
  | forceClose clk =>
    by_cases hs : w.engine.cb.state = .closed
    · have hcl : w.engine.cb.close.2 = w.engine.cb := by simp [CircuitBreaker.close, hs]
      refine h.inert rfl rfl ?_ ?_ <;> simp only [FailsafeDaemon.step, Engine.forceClose, hcl]
    · refine .of_zero hpos ?_
      have hcl : w.engine.cb.close.2.violations = w.engine.cb.violations := by
        simp [CircuitBreaker.close, hs]
      simp only [FailsafeDaemon.step, Engine.forceClose, hcl]
      exact h.idle hs
  | thresholdUpdate pps bps | overrideFile mtime | metrics now => exact h.inert rfl rfl rfl rfl

theorem Counted.run (h : Counted D w tr) (evs : List EngineEvent) :
    Counted D (w.run D evs) (tr ++ w.trace D evs) := by
  induction evs generalizing w tr with
  | nil => simpa [run, trace] using h
  | cons ev evs ih =>
    have hnext := ih (h.step ev)
    simpa only [run, List.foldl_cons, trace, List.append_assoc,
      List.singleton_append] using hnext

theorem tick_trips (hshut : w.engine.cb.state = .closed)
    (hop : (w.step D (.tick read clk)).1.engine.cb.state = .opened) :
    w.Violates D (.tick read clk) ∧ w.engine.consecutiveViolations ≤ w.engine.cb.violations + 1 ∧
      EngineEvent.reads (.tick read clk) = true := by
  have hne : CircuitState.closed ≠ .opened := by decide
  cases read with
  | none => exact absurd (hshut.symm.trans hop) hne
  | some stats =>
    simp only [step, Engine.tick, hshut] at hop
    by_cases ho : w.engine.overrideActive w.overrideFile clk = true
    · have hlvs := w.engine.tickClosed_of_overrideActive D _ stats clk hshut ho
      exact absurd (hlvs.state_eq.symm.trans hop) hne
    rw [Bool.not_eq_true] at ho
    by_cases hd : w.engine.detects D stats clk = true
    · refine ⟨⟨hshut, ho, hd⟩, ?_, rfl⟩
      by_contra hv
      have hlvs := w.engine.tickClosed_of_violation D _ stats clk hshut ho hd (by omega)
      exact absurd (hlvs.state_eq.symm.trans hop) hne
    · rw [Bool.not_eq_true] at hd
      have hlvs := w.engine.tickClosed_of_calm D _ stats clk hshut ho hd
      exact absurd (hlvs.state_eq.symm.trans hop) hne

/-- A latch armed at `c` or later that is not disarmed before its time: of the
readings still to come, `rest`, all are past its end once it is. -/
structure Held (c : Time) (rest : List Time) (l : AdminOverrideLatch) : Prop where
  window : c + adminOverrideCooldown ≤ l.expiresAt
  later : ∀ t ∈ rest, c ≤ t
  armed : l.active = true ∨ ∀ t ∈ rest, l.expiresAt < t

theorem Held.mono {rest' : List Time} (h : Held c rest l) (hsub : ∀ t ∈ rest', t ∈ rest) :
    Held c rest' l :=
  ⟨h.window, fun t ht => h.later t (hsub t ht), h.armed.imp_right fun ha t ht => ha t (hsub t ht)⟩

theorem Held.isActive (h : Held c rest l) (hnow : ∀ t ∈ rest, now ≤ t) :
    Held c rest (l.isActive now).2 := by
  unfold AdminOverrideLatch.isActive
  split
  · exact h
  · split
    · next hlt => exact ⟨h.window, h.later, .inr fun t ht => lt_of_lt_of_le hlt (hnow t ht)⟩
    · exact h

theorem Held.not_active (h : Held c rest l) (hmem : now ∈ rest) (ha : (l.isActive now).1 = false) :
    c + adminOverrideCooldown < now := by
  have hlt : l.expiresAt < now := by
    rcases h.armed with hact | hpast
    · by_contra hge
      simp [AdminOverrideLatch.isActive, hact, hge] at ha
    · exact hpast now hmem
  exact lt_of_le_of_lt h.window hlt

theorem Held.step (h : Held c (ev.readings ++ rest) w.engine.adminLatch)
    (hsort : (ev.readings ++ rest).Pairwise (· ≤ ·)) (hev : ev.isForceOpen = false) :
    Held c rest (w.step D ev).1.engine.adminLatch := by
  have hrest := h.mono fun t ht => List.mem_append_right ev.readings ht
  have hle := (List.pairwise_append.mp hsort).2.2
  cases ev with
  | tick read clk =>
    rcases (w.engine.tick_spec D w.overrideFile clk read).2.1 with hl | hl
    · simpa only [step, hl] using hrest
    · simp only [step, hl]
      exact hrest.isActive (hle clk.latchAt (by simp [EngineEvent.readings]))
  | forceOpen clk => cases hev
  | forceClose clk =>
    have hc : c ≤ clk.latchAt := h.later _ (by simp [EngineEvent.readings])
    exact ⟨by simpa [step, Engine.forceClose, AdminOverrideLatch.arm] using hc,
      hrest.later, .inl rfl⟩
  | thresholdUpdate pps bps | overrideFile mtime => exact hrest
  | metrics now => exact hrest.isActive (hle now (by simp [EngineEvent.readings]))

theorem Held.run {evs : List EngineEvent}
    (h : Held c (evs.flatMap EngineEvent.readings ++ rest) w.engine.adminLatch)
    (hsort : (evs.flatMap EngineEvent.readings ++ rest).Pairwise (· ≤ ·))
    (hev : ∀ ev ∈ evs, ev.isForceOpen = false) : Held c rest (w.run D evs).engine.adminLatch := by
  induction evs generalizing w with
  | nil => simpa [run] using h
  | cons ev evs ih =>
    rw [List.flatMap_cons, List.append_assoc] at h hsort
    have hnext := h.step (D := D) hsort (hev ev (.head _))
    exact ih hnext (List.pairwise_append.mp hsort).2.1 fun e he => hev e (.tail _ he)

theorem Held.of_forceClose
    (hsort : (EngineEvent.readings (.forceClose clk) ++ rest).Pairwise (· ≤ ·)) :
    Held clk.latchAt rest (w.step D (.forceClose clk)).1.engine.adminLatch :=
  ⟨le_refl _, (List.pairwise_append.mp hsort).2.2 clk.latchAt (by simp [EngineEvent.readings]),
    Or.inl rfl⟩

theorem forceClose_holds {before after : List EngineEvent} {c : Readings}
    (haf : ∀ ev ∈ after, ev.isForceOpen = false)
    (hsort : ((before ++ .forceClose c :: after ++ [EngineEvent.tick read clk]).flatMap
      EngineEvent.readings).Pairwise (· ≤ ·))
    (hviol : (w.run D (before ++ .forceClose c :: after)).Violates D (.tick read clk)) :
    c.latchAt + adminOverrideCooldown < clk.transitionAt := by
  rw [List.append_assoc, List.flatMap_append, List.cons_append, List.flatMap_cons,
    List.flatMap_append] at hsort
  have hfrom := (List.pairwise_append.mp hsort).2.1
  have harmed : Held c.latchAt _ ((w.run D before).step D (.forceClose c)).1.engine.adminLatch :=
    .of_forceClose hfrom
  have hend := (List.pairwise_append.mp hfrom).2.1
  have hheld := harmed.run (D := D) hend haf
  rw [run_append] at hviol
  cases read with
  | none => exact hviol.elim
  | some stats =>
    have hoff := (Bool.or_eq_false_iff.mp hviol.2.1).1
    have hla := hheld.not_active (by simp [EngineEvent.readings]) hoff
    have htick := (List.pairwise_append.mp hend).2.1
    have hle : clk.latchAt ≤ clk.transitionAt := by
      simp only [List.flatMap_cons, List.flatMap_nil, List.append_nil, EngineEvent.readings,
        List.pairwise_cons] at htick
      exact htick.1 _ (by simp)
    exact lt_of_lt_of_le hla hle

theorem start_violations (recovery : RecoveryConfig) (N : Nat) (detector : δ)
    (fs : Option FailsafeState) (file : Option Time) :
    (start recovery N detector fs file).engine.cb.violations = 0 ∧
      (start recovery N detector fs file).engine.consecutiveViolations = N := by
  cases fs with
  | none => exact ⟨rfl, rfl⟩
  | some s =>
    simp only [start, Engine.newEngine, Engine.syncStateFromKernel]
    split <;> exact ⟨rfl, rfl⟩

end FailsafeDaemon

open FailsafeDaemon FailsafeDaemon

/-- A tick that takes the circuit from Closed to Open is the last of as many
violations as the configuration asks for, with no other successfully read tick among
them and no other state since the first of them; and it comes more than
`adminOverrideCooldown` after every ForceClose that no ForceOpen has followed. -/
theorem tick_trips_after_streak (D : DetectorOps δ) (recovery : RecoveryConfig) (N : Nat)
    (hN : 1 ≤ N) (detector : δ) (fs : Option FailsafeState) (file : Option Time)
    (evs : List EngineEvent) (read : Option XdpStats) (clk : Readings)
    (hclosed : ((start recovery N detector fs file).run D evs).engine.cb.state = .closed)
    (hopened : (((start recovery N detector fs file).run D evs).step D
      (.tick read clk)).1.engine.cb.state = .opened) :
    Streak D ((start recovery N detector fs file).trace D (evs ++ [.tick read clk])) N ∧
      ((start recovery N detector fs file).run D evs).Violates D (.tick read clk) ∧
      ∀ before c after, evs = before ++ .forceClose c :: after →
        (∀ ev ∈ after, ev.isForceOpen = false) →
        ((evs ++ [EngineEvent.tick read clk]).flatMap EngineEvent.readings).Pairwise (· ≤ ·) →
        c.latchAt + adminOverrideCooldown < clk.transitionAt := by
  obtain ⟨hzero, hcfg⟩ := start_violations recovery N detector fs file
  have hst : Counted D (start recovery N detector fs file) [] :=
    .of_zero (by rw [hcfg]; exact hN) hzero
  have hcnt := hst.run evs
  obtain ⟨hviol, hrc, hreads⟩ := tick_trips hclosed hopened
  refine ⟨?_, hviol, ?_⟩
  · have hbe := hcnt.below
    rw [run_consecutiveViolations, hcfg] at hbe hrc
    have hlast := (hcnt.streak hclosed).concat hclosed fun _ => hviol
    rw [hreads, if_pos rfl, List.nil_append, ← Nat.le_antisymm hrc hbe] at hlast
    rw [trace_append]
    exact hlast
  · rintro before c after rfl haf hsort
    exact forceClose_holds haf hsort hviol

def overrideThenFlood : List EngineEvent :=
  [.forceClose (.instant 0), .overrideFile none, .tick (some (dropStats 950)) (.instant 200000000),
    .tick none (.instant 400000000), .tick (some (dropStats 950)) (.instant 300200000000)]

theorem tick_trips_after_streak_two :
    Streak Detector.ops
        ((start defaultRecoveryConfig 2 (newDetector defaultDetectorConfig) none none).trace
          Detector.ops
          (overrideThenFlood ++ [.tick (some (dropStats 950)) (.instant 300400000000)])) 2 ∧
      ((start defaultRecoveryConfig 2 (newDetector defaultDetectorConfig) none none).run
        Detector.ops overrideThenFlood).Violates Detector.ops
          (.tick (some (dropStats 950)) (.instant 300400000000)) ∧
      (0 : Int) + adminOverrideCooldown < 300400000000 := by
  have h := tick_trips_after_streak Detector.ops defaultRecoveryConfig 2 (by omega)
    (newDetector defaultDetectorConfig) none none overrideThenFlood (some (dropStats 950))
    (.instant 300400000000) (by decide +kernel) (by decide +kernel)
  exact ⟨h.1, h.2.1, h.2.2 [] (.instant 0) _ rfl (by decide) (by decide)⟩

end Falx
