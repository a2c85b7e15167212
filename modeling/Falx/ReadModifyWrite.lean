import Falx.StepRun
import Mathlib.Data.Fintype.Defs
import Mathlib.Logic.Function.Basic

/-! Calls that look up a shared record, change their copy and write the whole copy back,
among other writers that change the record in place. A write is lost when it falls between
the lookup and the update of a call. -/

namespace ReadModifyWrite

open Function

variable {σ ι ε τ : Type}

inductive Phase (σ : Type) where
  | ready
  | holding (copy : σ)
  | done
  deriving DecidableEq

def Phase.isHolding : Phase σ → Bool
  | holding _ => true
  | _ => false

/-- A call that fails after its lookup writes nothing. -/
inductive Step (ι ε : Type) where
  | lookup (i : ι)
  | update (i : ι)
  | fail (i : ι)
  | other (e : ε)
  deriving DecidableEq

structure State (σ ι : Type) where
  record : σ
  phase : ι → Phase σ

structure System (σ ι ε : Type) where
  modify : ι → σ → σ
  other : ε → σ → σ

variable [DecidableEq ι]

def exec (sys : System σ ι ε) (s : State σ ι) : Step ι ε → Option (State σ ι)
  | .lookup i =>
    match s.phase i with
    | .ready => some { s with phase := update s.phase i (.holding s.record) }
    | _ => none
  | .update i =>
    match s.phase i with
    | .holding copy => some ⟨sys.modify i copy, update s.phase i .done⟩
    | _ => none
  | .fail i =>
    match s.phase i with
    | .holding _ => some { s with phase := update s.phase i .done }
    | _ => none
  | .other e => some { s with record := sys.other e s.record }

abbrev run (sys : System σ ι ε) : State σ ι → List (Step ι ε) → Option (State σ ι) :=
  StepRun.run (exec sys)

def Idle (s : State σ ι) : Prop := ∀ j, (s.phase j).isHolding = false

/-- As far as `view` shows: a call writes only while no other call holds a copy, and the other
writers change the record only while none does. -/
def Isolated (sys : System σ ι ε) (view : σ → τ) (s : State σ ι) : Step ι ε → Prop
  | .update i => ∀ j, j ≠ i → (s.phase j).isHolding = false
  | .other e => view (sys.other e s.record) ≠ view s.record → Idle s
  | _ => True

abbrev IsolatedRun (sys : System σ ι ε) (view : σ → τ) : State σ ι → List (Step ι ε) → Prop :=
  StepRun.Along (exec sys) (Isolated sys view)

section Decidable

variable [Fintype ι] [DecidableEq τ] (sys : System σ ι ε) (view : σ → τ)

instance (s : State σ ι) : Decidable (Idle s) :=
  inferInstanceAs (Decidable (∀ j, (s.phase j).isHolding = false))

instance (s : State σ ι) : (e : Step ι ε) → Decidable (Isolated sys view s e)
  | .update i => inferInstanceAs (Decidable (∀ j, j ≠ i → (s.phase j).isHolding = false))
  | .other x => inferInstanceAs (Decidable (view (sys.other x s.record) ≠ view s.record → Idle s))
  | .lookup _ => isTrue trivial
  | .fail _ => isTrue trivial

end Decidable

variable {sys : System σ ι ε} {view : σ → τ} {s s' t : State σ ι} {e : Step ι ε}
  {es es' : List (Step ι ε)} {i j : ι}

section Exec

theorem exec_lookup (h : exec sys s (.lookup i) = some s') :
    s'.record = s.record ∧ s'.phase = update s.phase i (.holding s.record) := by
  rw [exec] at h
  split at h
  · cases h
    exact ⟨rfl, rfl⟩
  · cases h

theorem exec_update (h : exec sys s (.update i) = some s') :
    ∃ copy, s.phase i = .holding copy ∧ s'.record = sys.modify i copy ∧
      s'.phase = update s.phase i .done := by
  rw [exec] at h
  split at h
  · rename_i copy hph
    cases h
    exact ⟨copy, hph, rfl, rfl⟩
  · cases h

theorem exec_fail (h : exec sys s (.fail i) = some s') :
    s'.record = s.record ∧ s'.phase = update s.phase i .done := by
  rw [exec] at h
  split at h
  · cases h
    exact ⟨rfl, rfl⟩
  · cases h

theorem exec_other {x : ε} (h : exec sys s (.other x) = some s') :
    s'.record = sys.other x s.record ∧ s'.phase = s.phase := by
  cases h
  exact ⟨rfl, rfl⟩

theorem exec_holding {copy : σ} (h : exec sys s e = some s') (hj : s'.phase j = .holding copy) :
    (s.phase j = .holding copy ∧ e ≠ .update j) ∨ (e = .lookup j ∧ copy = s.record) := by
  cases e with
  | lookup i =>
    rw [(exec_lookup h).2] at hj
    by_cases hij : j = i
    · rw [hij, update_self] at hj
      cases hj
      exact .inr ⟨by rw [hij], rfl⟩
    · rw [update_of_ne hij] at hj
      exact .inl ⟨hj, nofun⟩
  | update i =>
    obtain ⟨held, -, -, hph⟩ := exec_update h
    rw [hph] at hj
    by_cases hij : j = i
    · rw [hij, update_self] at hj
      cases hj
    · rw [update_of_ne hij] at hj
      exact .inl ⟨hj, fun heq => hij (Step.update.inj heq).symm⟩
  | fail i =>
    rw [(exec_fail h).2] at hj
    by_cases hij : j = i
    · rw [hij, update_self] at hj
      cases hj
    · rw [update_of_ne hij] at hj
      exact .inl ⟨hj, nofun⟩
  | other x =>
    rw [(exec_other h).2] at hj
    exact .inl ⟨hj, nofun⟩

theorem exec_isHolding (h : exec sys s e = some s') (hj : (s'.phase j).isHolding = true) :
    (s.phase j).isHolding = true ∨ e = .lookup j := by
  cases hph : s'.phase j with
  | ready | done =>
    rw [hph] at hj
    cases hj
  | holding copy =>
    rcases exec_holding h hph with ⟨hheld, -⟩ | ⟨rfl, -⟩
    · rw [hheld]
      exact .inl rfl
    · exact .inr rfl

end Exec

theorem lookup_mem_of_isHolding (h : run sys s es = some s') (hidle : (s.phase j).isHolding = false)
    (hj : (s'.phase j).isHolding = true) : .lookup j ∈ es := by
  induction es generalizing s with
  | nil =>
    cases h
    rw [hidle] at hj
    cases hj
  | cons e es ih =>
    obtain ⟨t, ht, hrest⟩ := StepRun.run_cons_inv h
    cases hph : (t.phase j).isHolding with
    | false => exact .tail e (ih hrest hph)
    | true =>
      rcases exec_isHolding ht hph with hheld | rfl
      · rw [hidle] at hheld
        cases hheld
      · exact List.mem_cons_self

/-- What the calls hold is what the record holds, as far as `view` shows. -/
def Fresh (view : σ → τ) (s : State σ ι) : Prop :=
  ∀ i copy, s.phase i = .holding copy → view copy = view s.record

theorem Fresh.exec (hs : Fresh view s) (hiso : Isolated sys view s e)
    (h : exec sys s e = some s') : Fresh view s' := by
  intro j copy hj
  rcases exec_holding h hj with ⟨hheld, hne⟩ | ⟨rfl, rfl⟩
  · cases e with
    | lookup i =>
      rw [(exec_lookup h).1]
      exact hs j copy hheld
    | update i =>
      have hfree := hiso j fun hij => hne (by rw [hij])
      rw [hheld] at hfree
      cases hfree
    | fail i =>
      rw [(exec_fail h).1]
      exact hs j copy hheld
    | other x =>
      rw [(exec_other h).1]
      by_cases hsame : view (sys.other x s.record) = view s.record
      · exact (hs j copy hheld).trans hsame.symm
      · have hfree := hiso hsame j
        rw [hheld] at hfree
        cases hfree
  · rw [(exec_lookup h).1]

theorem Fresh.run (hs : Fresh view s) (hiso : IsolatedRun sys view s es)
    (h : run sys s es = some s') : Fresh view s' :=
  hiso.invariant (fun _ _ _ hs hiso h => hs.exec hiso h) hs h

theorem idle_of_update (hiso : Isolated sys view s (.update i))
    (h : exec sys s (.update i) = some s') : Idle s' := by
  obtain ⟨copy, -, -, hph⟩ := exec_update h
  intro j
  rw [hph]
  by_cases hij : j = i
  · simp [hij, Phase.isHolding]
  · rw [update_of_ne hij]
    exact hiso j hij

end ReadModifyWrite
