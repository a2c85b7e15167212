import Falx.ThresholdUpdate
import Mathlib.Data.Finset.Insert

/-! When the detector and `FAILSAFE_STATE` end up with the same thresholds. A command that is
queued will reach the detector, so the call that queued it must also reach the map, and the
calls must reach it in the order of their commands. -/

namespace Falx

open Option List Function
open ReadModifyWrite (State)

namespace ThresholdSystem

variable {ι : Type} [DecidableEq ι] (calls : ι → FailsafeMapCall)

def pending (s : ThresholdSystem ι) : List OverrideCmd := s.taken.toList ++ s.overrideCh

def detectorGoal (s : ThresholdSystem ι) : Thresholds :=
  (s.pending.filterMap OverrideCmd.thresholds).getLastD s.daemon.engine.detector.thresholds

/-- The thresholds in `FAILSAFE_STATE` once the calls under way have updated it in turn. -/
def recordGoal (s : ThresholdSystem ι) : Thresholds :=
  (s.inCall.filterMap fun i => (calls i).thresholds).getLastD s.map.record.thresholds

/-- A call that has queued its command is not refused by the rate limiter or the map, and
updates the record after the calls that queued theirs before it, while no `SetCircuitOpen`
holds a copy of the record. -/
def Orderly (s : ThresholdSystem ι) : ThresholdStep ι → Prop
  | .check i now => (calls i).thresholds ≠ none → 1 ≤ (s.bucket.refill now).tokens
  | .lookupFails i | .updateFails i => (calls i).thresholds = none
  | .update i => (calls i).thresholds ≠ none → s.inCall.head? = some i ∧
      ∀ j, (calls j).thresholds = none → (s.map.phase j).isHolding = false
  | _ => True

instance [Fintype ι] (s : ThresholdSystem ι) : (e : ThresholdStep ι) → Decidable (Orderly calls s e)
  | .check i now => inferInstanceAs
      (Decidable ((calls i).thresholds ≠ none → 1 ≤ (s.bucket.refill now).tokens))
  | .lookupFails i | .updateFails i => inferInstanceAs (Decidable ((calls i).thresholds = none))
  | .update i => inferInstanceAs (Decidable ((calls i).thresholds ≠ none →
      s.inCall.head? = some i ∧
        ∀ j, (calls j).thresholds = none → (s.map.phase j).isHolding = false))
  | .send _ | .force _ | .takeOverride | .applyOverride _ | .tick _ _ | .lookup _ | .packet _ _ =>
    isTrue trivial

/-- A `SetCircuitOpen` that holds a copy of the record holds its thresholds. -/
structure Tracked (s : ThresholdSystem ι) : Prop where
  inCall : ∀ i ∈ s.inCall, (calls i).thresholds ≠ none
  fresh : ∀ j copy, s.map.phase j = .holding copy → (calls j).thresholds = none →
    copy.thresholds = s.map.record.thresholds

variable {calls} {s s' : ThresholdSystem ι} {e : ThresholdStep ι} {i : ι}

theorem tick_thresholds (w : FailsafeDaemon Detector) (read : Option XdpStats) (clk : Readings) :
    (w.step Detector.ops (.tick read clk)).1.engine.detector.thresholds =
      w.engine.detector.thresholds := by
  have hcfg : (w.step Detector.ops (.tick read clk)).1.engine.detector.cfg =
      w.engine.detector.cfg := by
    rcases (w.engine.tick_spec Detector.ops w.overrideFile clk read).2.2 with hsame | ⟨stats, hnext⟩
    · exact congrArg Detector.cfg hsame
    · have hanalyze := w.engine.detector.analyze_snd stats clk.analyzeAt
      exact (congrArg Detector.cfg (hnext.trans hanalyze)).trans (Detector.updateEMA_cfg _ _)
  rw [Detector.thresholds, hcfg, Detector.thresholds]

theorem event_thresholds (w : FailsafeDaemon Detector) (cmd : OverrideCmd) (clk : Readings) :
    (w.step Detector.ops (cmd.event clk)).1.engine.detector.thresholds =
      cmd.thresholds.getD w.engine.detector.thresholds := by
  cases cmd <;> rfl

theorem modify_thresholds_eq (c : FailsafeMapCall) (s : FailsafeState) :
    (c.modify s).thresholds = c.thresholds.getD s.thresholds := by
  cases c with
  | setCircuitOpen isOpen nowNano => cases isOpen <;> rfl
  | updateFailsafeThresholds pps bps => rfl

def written (calls : ι → FailsafeMapCall) : FailsafeStep ι → Option Thresholds
  | .update i => (calls i).thresholds
  | _ => none

variable {x : FailsafeStep ι} {m : State FailsafeState ι}

theorem Tracked.record_thresholds (h : Tracked calls s)
    (hx : ReadModifyWrite.exec (failsafeMap calls) s.map x = some m) :
    m.record.thresholds = (written calls x).getD s.map.record.thresholds := by
  cases x with
  | lookup i => exact congrArg FailsafeState.thresholds (ReadModifyWrite.exec_lookup hx).1
  | fail i => exact congrArg FailsafeState.thresholds (ReadModifyWrite.exec_fail hx).1
  | other p =>
    rw [(ReadModifyWrite.exec_other hx).1]
    exact Prod.ext_iff.mpr (s.map.record.after_thresholds p.1 p.2)
  | update i =>
    obtain ⟨copy, hph, hrec, -⟩ := ReadModifyWrite.exec_update hx
    have hmod := modify_thresholds_eq (calls i) copy
    rw [hrec, written]
    cases hcall : (calls i).thresholds with
    | none =>
      rw [hcall] at hmod
      exact hmod.trans (h.fresh i copy hph hcall)
    | some thr =>
      rw [hcall] at hmod
      exact hmod

/-- What a step does to the map and the calls under way: nothing, a step of a map call that
writes no thresholds, or the update of the call that queued its command first. -/
inductive MapEffect (calls : ι → FailsafeMapCall) (s s' : ThresholdSystem ι) : Prop where
  | none (hmap : s'.map = s.map) (hcalls : s'.inCall = s.inCall)
  | kept (x : FailsafeStep ι) (hx : ReadModifyWrite.exec (failsafeMap calls) s.map x = some s'.map)
      (hw : written calls x = Option.none) (hcalls : s'.inCall = s.inCall)
  | updated (i : ι) (hx : ReadModifyWrite.exec (failsafeMap calls) s.map (.update i) = some s'.map)
      (hcall : (calls i).thresholds ≠ Option.none) (hcalls : s.inCall = i :: s'.inCall)
      (hfree : ∀ j, (calls j).thresholds = Option.none → (s.map.phase j).isHolding = false)

theorem Tracked.inCall_finish (h : Tracked calls s) (hcall : (calls i).thresholds = none) :
    s.inCall.erase i = s.inCall :=
  erase_of_not_mem fun hi => h.inCall i hi hcall

theorem Tracked.mapEffect (h : Tracked calls s) (ho : Orderly calls s e) (hsend : ∀ i, e ≠ .send i)
    (he : exec calls s e = some s') : s'.detectorGoal = s.detectorGoal ∧ MapEffect calls s s' := by
  cases e with
  | send i => exact absurd rfl (hsend i)
  | force isOpen =>
    simp only [exec] at he
    split at he <;> cases he <;> refine ⟨?_, .none rfl rfl⟩
    · cases isOpen <;> simp [detectorGoal, pending, OverrideCmd.thresholds]
    · rfl
  | takeOverride =>
    obtain ⟨cmd, rest, htk, hq, rfl⟩ := exec_takeOverride he
    exact ⟨by simp [detectorGoal, pending, htk, hq], .none rfl rfl⟩
  | applyOverride clk =>
    obtain ⟨cmd, htk, rfl⟩ := Option.map_eq_some_iff.mp he
    refine ⟨?_, .none rfl rfl⟩
    simp only [detectorGoal, pending, htk, event_thresholds]
    cases hcmd : cmd.thresholds with
    | none => simp [hcmd]
    | some thr =>
      simp only [toList_some, toList_none, nil_append, cons_append,
        filterMap_cons_some hcmd, getLastD_cons, getD_some]
  | tick read clk =>
    simp only [exec] at he
    split at he
    · cases he
      exact ⟨by simp only [detectorGoal, pending, tick_thresholds], .none rfl rfl⟩
    · cases he
  | check i now =>
    obtain ⟨-, ⟨-, b, rfl⟩ | ⟨hlt, b, rfl⟩⟩ := exec_check he
    · exact ⟨rfl, .none rfl rfl⟩
    · refine ⟨rfl, .none rfl (h.inCall_finish ?_)⟩
      by_contra hcall
      exact absurd hlt (not_lt.mpr (ho hcall))
  | lookup i =>
    obtain ⟨-, m, hm, rfl⟩ := callStep_inv he
    exact ⟨rfl, .kept _ hm rfl rfl⟩
  | lookupFails i =>
    obtain ⟨-, rfl⟩ := exec_lookupFails he
    exact ⟨rfl, .none rfl (h.inCall_finish ho)⟩
  | update i =>
    obtain ⟨-, m, hm, rfl⟩ := callStep_finish_inv he
    refine ⟨rfl, ?_⟩
    by_cases hcall : (calls i).thresholds = none
    · exact .kept _ hm hcall (h.inCall_finish hcall)
    · obtain ⟨hhead, hfree⟩ := ho hcall
      obtain ⟨rest, hrest⟩ := List.head?_eq_some_iff.mp hhead
      refine .updated i hm hcall ?_ hfree
      simp only [finish, hrest, erase_cons_head]
  | updateFails i =>
    obtain ⟨-, m, hm, rfl⟩ := callStep_finish_inv he
    exact ⟨rfl, .kept _ hm rfl (h.inCall_finish ho)⟩
  | packet pkt now =>
    obtain ⟨m, hm, rfl⟩ := mapStep_inv he
    exact ⟨rfl, .kept _ hm rfl rfl⟩

theorem Tracked.fresh_exec (h : Tracked calls s)
    (hx : ReadModifyWrite.exec (failsafeMap calls) s.map x = some m)
    (hfree : written calls x ≠ none →
      ∀ j, (calls j).thresholds = none → (s.map.phase j).isHolding = false)
    (j : ι) (copy : FailsafeState) (hj : m.phase j = .holding copy)
    (hcall : (calls j).thresholds = none) : copy.thresholds = m.record.thresholds := by
  rw [h.record_thresholds hx]
  rcases ReadModifyWrite.exec_holding hx hj with ⟨hheld, -⟩ | ⟨rfl, rfl⟩
  · cases hw : written calls x with
    | none => exact h.fresh j copy hheld hcall
    | some thr =>
      have hidle := hfree (by simp [hw]) j hcall
      rw [hheld] at hidle
      cases hidle
  · rfl

omit [DecidableEq ι] in
theorem Tracked.start (daemon : FailsafeDaemon Detector) (bucket : MapTokenBucket)
    (record : FailsafeState) :
    Tracked calls (ThresholdSystem.start daemon bucket record : ThresholdSystem ι) where
  inCall i hi := by cases hi
  fresh j copy hj := by cases hj

theorem Tracked.exec (h : Tracked calls s) (ho : Orderly calls s e)
    (he : exec calls s e = some s') : Tracked calls s' := by
  by_cases hsend : ∃ i, e = .send i
  · obtain ⟨i, rfl⟩ := hsend
    obtain ⟨-, pps, bps, hcall, ⟨-, rfl⟩ | rfl⟩ := exec_send he
    · refine ⟨fun j hj => ?_, h.fresh⟩
      rcases mem_append.mp hj with hold | hnew
      · exact h.inCall j hold
      · rw [mem_singleton.mp hnew, hcall]
        exact some_ne_none _
    · exact ⟨h.inCall, h.fresh⟩
  · cases (h.mapEffect ho (fun i hi => hsend ⟨i, hi⟩) he).2 with
    | none hmap hcs =>
      refine ⟨hcs ▸ h.inCall, ?_⟩
      rw [hmap]
      exact h.fresh
    | kept x hx hw hcs =>
      exact ⟨hcs ▸ h.inCall, h.fresh_exec hx fun hne => absurd hw hne⟩
    | updated i hx hcall hcs hfree =>
      refine ⟨fun j hj => h.inCall j ?_, h.fresh_exec hx fun _ => hfree⟩
      rw [hcs]
      exact .tail i hj

theorem MapEffect.recordGoal (h : Tracked calls s) (heff : MapEffect calls s s') :
    s'.recordGoal calls = s.recordGoal calls := by
  cases heff with
  | none hmap hcs => rw [ThresholdSystem.recordGoal, ThresholdSystem.recordGoal, hmap, hcs]
  | kept x hx hw hcs =>
    have hrec := h.record_thresholds hx
    rw [hw, getD_none] at hrec
    rw [ThresholdSystem.recordGoal, ThresholdSystem.recordGoal, hrec, hcs]
  | updated i hx hcall hcs hfree =>
    obtain ⟨thr, hthr⟩ := ne_none_iff_exists'.mp hcall
    have hrec := h.record_thresholds hx
    rw [written, hthr, getD_some] at hrec
    simp only [ThresholdSystem.recordGoal, hcs, filterMap_cons, hthr, getLastD_cons, hrec]

theorem goals_send (he : exec calls s (.send i) = some s') :
    s'.detectorGoal = s'.recordGoal calls ∨ (s'.detectorGoal = s.detectorGoal ∧
      s'.recordGoal calls = s.recordGoal calls ∧ s'.inCall = s.inCall) := by
  obtain ⟨-, pps, bps, hcall, ⟨-, rfl⟩ | rfl⟩ := exec_send he
  · left
    simp only [detectorGoal, recordGoal, pending, ← append_assoc, filterMap_append,
      filterMap_cons, filterMap_nil, OverrideCmd.thresholds, hcall,
      getLastD_concat]
  · exact .inr ⟨rfl, rfl, rfl⟩

def Converges (calls : ι → FailsafeMapCall) (s : ThresholdSystem ι) : Prop :=
  s.detectorGoal = s.recordGoal calls

theorem Converges.exec (hs : Converges calls s) (h : Tracked calls s) (ho : Orderly calls s e)
    (he : exec calls s e = some s') : Converges calls s' := by
  by_cases hsend : ∃ i, e = .send i
  · obtain ⟨i, rfl⟩ := hsend
    rcases goals_send he with hconv | ⟨hdetector, hrec, -⟩
    · exact hconv
    · exact hdetector.trans (hs.trans hrec.symm)
  · obtain ⟨hgoal, heff⟩ := h.mapEffect ho (fun i hi => hsend ⟨i, hi⟩) he
    exact hgoal.trans (hs.trans (heff.recordGoal h).symm)

theorem exec_inCall_nil (h : Tracked calls s) (ho : Orderly calls s e) (hnil : s.inCall = [])
    (he : exec calls s e = some s') : Converges calls s' ∨ s'.inCall = [] := by
  by_cases hsend : ∃ i, e = .send i
  · obtain ⟨i, rfl⟩ := hsend
    rcases goals_send he with hconv | ⟨-, -, hsame⟩
    · exact .inl hconv
    · exact .inr (hsame.trans hnil)
  · cases (h.mapEffect ho (fun i hi => hsend ⟨i, hi⟩) he).2 with
    | none hmap hcs | kept x hx hw hcs => exact .inr (hcs.trans hnil)
    | updated i hx hcall hcs hfree =>
      rw [hnil] at hcs
      cases hcs

section Refused

def withStage (i : ι) (x : CallStage) (s : ThresholdSystem ι) : ThresholdSystem ι :=
  { s with stage := update s.stage i x }

theorem withStage_self : s.withStage i (s.stage i) = s := by
  simp only [withStage, update_eq_self]

theorem finish_withStage {j : ι} (hne : j ≠ i) (x : CallStage) (err : Option ThresholdError) :
    (s.withStage i x).finish j err = (s.finish j err).withStage i x := by
  simp only [withStage, finish, update_comm hne.symm]

theorem mapStep_withStage (x : CallStage) (y : FailsafeStep ι) :
    (s.withStage i x).mapStep calls y = (s.mapStep calls y).map (withStage i x) := by
  simp only [mapStep, withStage, Option.map_map]
  rfl

theorem callStep_withStage {j : ι} (hne : j ≠ i) (x : CallStage) (y : FailsafeStep ι) :
    (s.withStage i x).callStep calls j y = (s.callStep calls j y).map (withStage i x) := by
  have hsame : (s.withStage i x).stage j = s.stage j := update_of_ne hne _ _
  by_cases hsg : s.stage j = .checked <;>
    simp [callStep, hsame, hsg, mapStep_withStage]

theorem exec_withStage (hne : e.caller ≠ some i) (x : CallStage) :
    exec calls (s.withStage i x) e = (exec calls s e).map (withStage i x) := by
  have ho : ∀ j, e.caller = some j → j ≠ i := fun j hj h => hne (h ▸ hj)
  cases e with
  | send j =>
    have hji := ho j rfl
    simp only [exec, withStage, update_of_ne hji]
    split
    · by_cases hlt : s.overrideCh.length < overrideChCapacity <;>
        simp [withStage, update_comm hji.symm, hlt]
    · rfl
  | force isOpen =>
    by_cases hlt : s.overrideCh.length < overrideChCapacity <;> simp [exec, withStage, hlt]
  | takeOverride =>
    simp only [exec, withStage]
    split <;> rfl
  | applyOverride clk =>
    simp only [exec, withStage, Option.map_map]
    rfl
  | tick read clk =>
    by_cases htk : s.taken = none <;> simp [exec, withStage, htk]
  | check j now =>
    have hji := ho j rfl
    simp only [exec, withStage, update_of_ne hji]
    by_cases hsg : s.stage j = (calls j).entry
    · rw [if_pos hsg, if_pos hsg]
      split <;> simp [withStage, finish, update_comm hji.symm]
    · rw [if_neg hsg, if_neg hsg]
      rfl
  | lookup j => exact callStep_withStage (ho j rfl) x _
  | lookupFails j =>
    have hji := ho j rfl
    have hsame : (s.withStage i x).stage j = s.stage j := update_of_ne hji _ _
    have hph : (s.withStage i x).map = s.map := rfl
    by_cases hready : s.stage j = .checked ∧ s.map.phase j = .ready <;>
      simp [exec, hsame, hph, hready, finish_withStage hji]
  | update j | updateFails j =>
    simp only [exec, callStep_withStage (ho j rfl), Option.map_map]
    congr 1
    funext s
    exact finish_withStage (ho j rfl) x _
  | packet pkt now => exact mapStep_withStage x _

theorem exec_stage_of_ne (hne : e.caller ≠ some i) (he : exec calls s e = some s') :
    s'.stage i = s.stage i := by
  have hsame : exec calls (s.withStage i (s.stage i)) e =
      (exec calls s e).map (withStage i (s.stage i)) := exec_withStage hne _
  rw [withStage_self, he, map_some, Option.some.injEq] at hsame
  rw [hsame]
  exact update_self ..

def Accepted (i : ι) (s : ThresholdSystem ι) : Prop :=
  s.stage i = .queued ∨ s.stage i = .checked ∨ s.stage i = .returned none

def Outside (i : ι) (s : ThresholdSystem ι) : Prop :=
  s.stage i = .idle ∨ s.stage i = .returned (some .engineBusy)

theorem Accepted.exec (h : Accepted i s) (hcall : (calls i).thresholds ≠ none)
    (ho : Orderly calls s e) (he : exec calls s e = some s') : Accepted i s' := by
  by_cases hof : e.caller = some i
  · cases e with
    | send j =>
      cases hof
      obtain ⟨hidle, -⟩ := exec_send he
      rw [Accepted, hidle] at h
      simp at h
    | check j now =>
      cases hof
      obtain ⟨-, ⟨-, b, rfl⟩ | ⟨hlt, -⟩⟩ := exec_check he
      · exact .inr (.inl (update_self ..))
      · exact absurd hlt (not_lt.mpr (ho hcall))
    | lookup j =>
      obtain ⟨-, m, -, rfl⟩ := callStep_inv he
      exact h
    | lookupFails j =>
      cases hof
      exact absurd ho hcall
    | update j =>
      cases hof
      obtain ⟨-, m, -, rfl⟩ := callStep_finish_inv he
      exact .inr (.inr (update_self ..))
    | updateFails j =>
      cases hof
      exact absurd ho hcall
    | force isOpen | takeOverride | applyOverride clk | tick read clk | packet pkt now => cases hof
  · rw [Accepted, exec_stage_of_ne hof he]
    exact h

theorem entry_of_thresholds {c : FailsafeMapCall} (h : c.thresholds ≠ none) : c.entry = .queued := by
  cases c with
  | setCircuitOpen isOpen nowNano => exact absurd rfl h
  | updateFailsafeThresholds pps bps => rfl

theorem Outside.exec_own (h : Outside i s) (hcall : (calls i).thresholds ≠ none)
    (hof : e.caller = some i) (he : exec calls s e = some s') :
    Accepted i s' ∨ s' = s.withStage i (.returned (some .engineBusy)) := by
  have hq : s.stage i ≠ .queued := by rcases h with h | h <;> simp [h]
  have hchk : s.stage i ≠ .checked := by rcases h with h | h <;> simp [h]
  cases e with
  | send j =>
    cases hof
    obtain ⟨-, pps, bps, -, ⟨-, rfl⟩ | rfl⟩ := exec_send he
    · exact .inl (.inl (update_self ..))
    · exact .inr rfl
  | check j now =>
    cases hof
    exact absurd ((exec_check he).1.trans (entry_of_thresholds hcall)) hq
  | lookup j =>
    cases hof
    exact absurd (callStep_inv he).1 hchk
  | lookupFails j =>
    cases hof
    exact absurd (exec_lookupFails he).1 hchk
  | update j | updateFails j =>
    cases hof
    exact absurd (callStep_finish_inv he).1 hchk
  | force isOpen | takeOverride | applyOverride clk | tick read clk | packet pkt now => cases hof

variable {es : List (ThresholdStep ι)}

theorem run_without (hcall : (calls i).thresholds ≠ none) (hout : Outside i s)
    (hord : StepRun.Along (exec calls) (Orderly calls) s es)
    (hrun : StepRun.run (exec calls) s es = some s') {err : ThresholdError}
    (herr : s'.stage i = .returned (some err)) (x : CallStage) :
    StepRun.run (exec calls) (s.withStage i x) (es.filter fun e => e.caller ≠ some i) =
      some (s'.withStage i x) := by
  induction es generalizing s with
  | nil =>
    cases hrun
    rfl
  | cons e es ih =>
    obtain ⟨t, ht, hrest⟩ := StepRun.run_cons_inv hrun
    have haf := hord.cons_inv ht
    by_cases hof : e.caller = some i
    · rw [filter_cons_of_neg (by simpa using hof)]
      rcases hout.exec_own hcall hof ht with hacc | rfl
      · have hend : Accepted i s' := haf.invariant
          (fun _ _ _ h ho he => h.exec hcall ho he) hacc hrest
        rw [Accepted, herr] at hend
        simp at hend
      · have hbusy : Outside i (s.withStage i (.returned (some .engineBusy))) :=
          Or.inr (update_self ..)
        have hih := ih hbusy haf hrest
        simpa only [withStage, update_idem] using hih
    · rw [filter_cons_of_pos (by simpa using hof), StepRun.run, exec_withStage hof, ht]
      refine ih ?_ haf hrest
      rw [Outside, exec_stage_of_ne hof ht]
      exact hout

end Refused

section Consistency

def Drained (s : ThresholdSystem ι) : Prop :=
  s.overrideCh = [] ∧ s.taken = none ∧ s.inCall = []

instance (s : ThresholdSystem ι) : Decidable s.Drained := inferInstanceAs (Decidable (_ ∧ _ ∧ _))

/-- Once all is applied the detector has the thresholds of the record, and a call that returned
an error might as well not have been made. -/
structure ThresholdsConsistent (calls : ι → FailsafeMapCall) (s₀ : ThresholdSystem ι)
    (es : List (ThresholdStep ι)) : Prop where
  agree : ∀ s, StepRun.run (exec calls) s₀ es = some s → s.Drained →
    s.daemon.engine.detector.thresholds = s.map.record.thresholds
  refused : ∀ s i err, StepRun.run (exec calls) s₀ es = some s →
    (calls i).thresholds ≠ none → s.stage i = .returned (some err) →
    StepRun.run (exec calls) s₀ (es.filter fun e => e.caller ≠ some i) = some (s.withStage i .idle)

variable {es : List (ThresholdStep ι)}

omit [DecidableEq ι] in
theorem Converges.agree (h : Converges calls s) (hd : s.Drained) :
    s.daemon.engine.detector.thresholds = s.map.record.thresholds := by
  obtain ⟨hqueue, htaken, hcalls⟩ := hd
  simpa [Converges, detectorGoal, recordGoal, pending, hqueue, htaken, hcalls] using h

theorem converges_run (hs : Converges calls s) (h : Tracked calls s)
    (hord : StepRun.Along (exec calls) (Orderly calls) s es)
    (hrun : StepRun.run (exec calls) s es = some s') : Converges calls s' :=
  (hord.invariant (I := fun s => Tracked calls s ∧ Converges calls s)
    (fun _ _ _ hs ho he => ⟨hs.1.exec ho he, hs.2.exec hs.1 ho he⟩) ⟨h, hs⟩ hrun).2

theorem converges_of_update (hcall : (calls i).thresholds ≠ none) (hnil : s.inCall = [])
    (h : Tracked calls s) (hord : StepRun.Along (exec calls) (Orderly calls) s es)
    (hmem : .update i ∈ es) (hrun : StepRun.run (exec calls) s es = some s') :
    Converges calls s' := by
  obtain ⟨pre, post, rfl⟩ := append_of_mem hmem
  obtain ⟨u, hu, hrest⟩ := StepRun.run_append_inv hrun
  obtain ⟨hpre, hpost⟩ := hord.append_inv hu
  have hinv : Tracked calls u ∧ (Converges calls u ∨ u.inCall = []) := by
    refine hpre.invariant (I := fun u => Tracked calls u ∧ (Converges calls u ∨ u.inCall = []))
      (fun s e s' hs ho he => ⟨hs.1.exec ho he, ?_⟩) ⟨h, .inr hnil⟩ hu
    rcases hs.2 with hconv | hnil
    · exact .inl (hconv.exec hs.1 ho he)
    · exact exec_inCall_nil hs.1 ho hnil he
  have hconv : Converges calls u := by
    refine hinv.2.resolve_right fun hnil => ?_
    have hhead := (hpost.1 hcall).1
    rw [hnil] at hhead
    cases hhead
  exact converges_run hconv hinv.1 hpost hrest

theorem thresholds_consistent {daemon : FailsafeDaemon Detector} {bucket : MapTokenBucket}
    {record : FailsafeState}
    (horderly : StepRun.Along (exec calls) (Orderly calls) (start daemon bucket record) es)
    (hagree : daemon.engine.detector.thresholds = record.thresholds ∨
      ∃ i, .update i ∈ es ∧ (calls i).thresholds ≠ none) :
    ThresholdsConsistent calls (start daemon bucket record) es := by
  have htracked : Tracked calls (start daemon bucket record) := Tracked.start daemon bucket record
  constructor
  · intro s hrun hd
    rcases hagree with hsame | ⟨i, hmem, hcall⟩
    · have hconv : Converges calls (start daemon bucket record) := hsame
      exact (converges_run hconv htracked horderly hrun).agree hd
    · exact (converges_of_update hcall rfl htracked horderly hmem hrun).agree hd
  · intro s i err hrun hcall herr
    have hout : Outside i (start daemon bucket record) := Or.inl rfl
    have hidle : (start daemon bucket record).withStage i .idle = start daemon bucket record :=
      withStage_self
    have hwithout := run_without hcall hout horderly hrun herr .idle
    rwa [hidle] at hwithout

end Consistency

def tightDaemon : FailsafeDaemon Detector :=
  .start defaultRecoveryConfig 3
    (newDetector { defaultDetectorConfig with ppsThreshold := 1, bpsThreshold := 1000000 }) none none

inductive SampleCall where
  | first
  | second
  | third
  | circuit
  deriving DecidableEq

instance : Fintype SampleCall :=
  ⟨{.first, .second, .third, .circuit}, fun c => by cases c <;> decide⟩

def sampleCalls : SampleCall → FailsafeMapCall
  | .first => .updateFailsafeThresholds 5 5000000
  | .second => .updateFailsafeThresholds 7 7000000
  | .third => .updateFailsafeThresholds 9 9000000
  | .circuit => .setCircuitOpen true 1700000000000000000

def applyAll (n : Nat) : List (ThresholdStep (SampleCall)) :=
  (List.replicate n [.takeOverride, .applyOverride (.instant 5)]).flatten

def sampleRun : List (ThresholdStep (SampleCall)) :=
  ([.send .first, .send .second, .check .second 1, .check .first 2, .lookup .second,
    .lookup .first, .packet { pktLen := 64 } 3, .update .first, .update .second] :
      List (ThresholdStep SampleCall)) ++
    List.replicate 6 (ThresholdStep.force true) ++ [ThresholdStep.send .third] ++ applyAll 8 ++
    ([.check .circuit 6, .lookup .circuit, .tick none (.instant 7), .update .circuit] :
      List (ThresholdStep SampleCall))

theorem thresholds_consistent_sample :
    (StepRun.run (exec sampleCalls) (start tightDaemon (newTokenBucket 10 0) tightCircuit)
      sampleRun).any (fun s => s.Drained) = true ∧
    ThresholdsConsistent sampleCalls (start tightDaemon (newTokenBucket 10 0) tightCircuit)
      sampleRun :=
  ⟨by decide +kernel, thresholds_consistent (by decide +kernel) (.inl rfl)⟩

/-- A call that is rate limited returns an error and changes the detector all the same, and of
two calls that both return nil one can be the last for the detector and the other for the map. -/
theorem thresholds_diverge :
    (StepRun.run (exec sampleCalls)
      (start tightDaemon { newTokenBucket 10 0 with tokens := 0, accepted := 10 } tightCircuit)
      ([.send .first, .check .first 0] ++ applyAll 1)).any (fun s => s.Drained ∧
        s.stage .first = .returned (some .rateLimited) ∧
        s.daemon.engine.detector.thresholds = (5, 5000000) ∧
        s.map.record.thresholds = (1, 1000000)) = true ∧
    (StepRun.run (exec sampleCalls) (start tightDaemon (newTokenBucket 10 0) tightCircuit)
      ([.send .first, .send .second, .check .first 1, .check .second 1, .lookup .second,
        .update .second, .lookup .first, .update .first] ++ applyAll 2)).any (fun s => s.Drained ∧
        s.stage .first = .returned none ∧ s.stage .second = .returned none ∧
        s.daemon.engine.detector.thresholds = (7, 7000000) ∧
        s.map.record.thresholds = (5, 5000000)) = true := by
  refine ⟨by decide +kernel, by decide +kernel⟩

end ThresholdSystem

end Falx
