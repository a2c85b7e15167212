import Mathlib.Data.List.Basic
import Mathlib.Data.List.Induction
import Mathlib.Logic.Function.Basic

/-! Calls that write to a shared store, read a snapshot of it and publish the snapshot,
as three steps that interleave with those of other calls. What is published last need
not be what was read last. -/

namespace SnapshotPublish

open Function

inductive Phase (V : Type) where
  | ready
  | written
  | loaded (v : V)
  | done

inductive CallStep (ι : Type) where
  | write (i : ι)
  | read (i : ι)
  | publish (i : ι)
  deriving DecidableEq

section LastPublisher

variable {ι : Type} {es : List (CallStep ι)} {i : ι}

def lastPublisher (es : List (CallStep ι)) : Option ι :=
  (es.filterMap fun
    | .publish i => some i
    | _ => none).getLast?

theorem lastPublisher_concat (es : List (CallStep ι)) (e : CallStep ι) :
    lastPublisher (es ++ [e]) =
      match e with
      | .publish i => some i
      | _ => lastPublisher es := by
  cases e <;> simp [lastPublisher]

theorem lastPublisher_eq_none : lastPublisher es = none ↔ ∀ i, .publish i ∉ es := by
  induction es using List.reverseRecOn with
  | nil => simp [lastPublisher]
  | append_singleton es e ih =>
    rw [lastPublisher_concat]
    cases e with
    | write j | read j => simp [ih]
    | publish j => exact iff_of_false (by simp) fun h => h j (by simp)

theorem mem_of_lastPublisher (h : lastPublisher es = some i) : .publish i ∈ es := by
  induction es using List.reverseRecOn with
  | nil => simp [lastPublisher] at h
  | append_singleton es e ih =>
    rw [lastPublisher_concat] at h
    cases e with
    | write j | read j => exact List.mem_append_left _ (ih h)
    | publish j =>
      cases h
      simp

theorem lastPublisher_append (es es' : List (CallStep ι)) :
    lastPublisher (es ++ es') = (lastPublisher es').or (lastPublisher es) := by
  simp [lastPublisher, List.getLast?_append]

/-- The call that publishes last has read its snapshot after the last write. -/
def FreshLast (es : List (CallStep ι)) : Prop :=
  ∀ i, lastPublisher es = some i →
    ∃ pre post, es = pre ++ .read i :: post ∧ ∀ j, .write j ∉ post

end LastPublisher

structure State (σ V ι : Type) where
  db : σ
  active : V
  phase : ι → Phase V

/-- What the calls write, unless the write fails, and what a snapshot shows. -/
structure System (σ V ι : Type) where
  write : ι → σ → Option σ
  view : σ → V

variable {σ V ι : Type} [DecidableEq ι]

def exec (sys : System σ V ι) (s : State σ V ι) : CallStep ι → Option (State σ V ι)
  | .write i =>
    match s.phase i, sys.write i s.db with
    | .ready, some db => some { s with db, phase := update s.phase i .written }
    | _, _ => none
  | .read i =>
    match s.phase i with
    | .written => some { s with phase := update s.phase i (.loaded (sys.view s.db)) }
    | _ => none
  | .publish i =>
    match s.phase i with
    | .loaded v => some { s with active := v, phase := update s.phase i .done }
    | _ => none

def run (sys : System σ V ι) (s : State σ V ι) : List (CallStep ι) → Option (State σ V ι)
  | [] => some s
  | e :: es => (exec sys s e).bind fun s => run sys s es

variable {sys : System σ V ι} {s s' : State σ V ι} {e : CallStep ι} {es : List (CallStep ι)}
  {i : ι} {v : V}

theorem run_append (es es' : List (CallStep ι)) :
    run sys s (es ++ es') = (run sys s es).bind fun s => run sys s es' := by
  induction es generalizing s with
  | nil => rfl
  | cons e es ih =>
    rw [List.cons_append, run, run]
    cases exec sys s e with
    | none => rfl
    | some t => exact ih

theorem run_concat (h : run sys s (es ++ [e]) = some s') :
    ∃ t, run sys s es = some t ∧ exec sys t e = some s' := by
  rw [run_append] at h
  obtain ⟨t, ht, h⟩ := Option.bind_eq_some_iff.mp h
  obtain ⟨u, hu, h⟩ := Option.bind_eq_some_iff.mp h
  cases h
  exact ⟨t, ht, hu⟩

section Exec

theorem exec_write (h : exec sys s (.write i) = some s') :
    s.phase i = .ready ∧ ∃ db, sys.write i s.db = some db ∧
      s' = { s with db, phase := update s.phase i .written } := by
  rw [exec] at h
  split at h
  · rename_i db hph hdb
    exact ⟨hph, db, hdb, (Option.some.inj h).symm⟩
  · cases h

theorem exec_read (h : exec sys s (.read i) = some s') :
    s.phase i = .written ∧
      s' = { s with phase := update s.phase i (.loaded (sys.view s.db)) } := by
  rw [exec] at h
  split at h
  · rename_i hph
    exact ⟨hph, (Option.some.inj h).symm⟩
  · cases h

theorem exec_publish (h : exec sys s (.publish i) = some s') :
    ∃ v, s.phase i = .loaded v ∧
      s' = { s with active := v, phase := update s.phase i .done } := by
  rw [exec] at h
  split at h
  · rename_i v hph
    exact ⟨v, hph, (Option.some.inj h).symm⟩
  · cases h

theorem exec_done (h : exec sys s e = some s') (i : ι) :
    s'.phase i = .done ↔ s.phase i = .done ∨ e = .publish i := by
  cases e with
  | write j =>
    obtain ⟨hph, db, -, rfl⟩ := exec_write h
    by_cases hij : i = j
    · subst hij
      simp [hph]
    · simp [hij]
  | read j =>
    obtain ⟨hph, rfl⟩ := exec_read h
    by_cases hij : i = j
    · subst hij
      simp [hph]
    · simp [hij]
  | publish j =>
    obtain ⟨v, hph, rfl⟩ := exec_publish h
    by_cases hij : i = j
    · subst hij
      simp
    · simp [hij, Ne.symm hij]

end Exec

theorem run_done (h : run sys s es = some s') (i : ι) :
    s'.phase i = .done ↔ s.phase i = .done ∨ .publish i ∈ es := by
  induction es using List.reverseRecOn generalizing s' with
  | nil =>
    cases h
    simp
  | append_singleton es e ih =>
    obtain ⟨t, ht, he⟩ := run_concat h
    rw [exec_done he, ih ht, List.mem_append, List.mem_singleton, or_assoc, eq_comm (a := e)]

theorem run_of_loaded (hw : ∀ j, .write j ∉ es) (hi : s.phase i = .loaded v)
    (h : run sys s es = some s') :
    s'.db = s.db ∧ (s'.phase i = .loaded v ∨ s'.phase i = .done) ∧
      (lastPublisher es = some i → s'.active = v) := by
  induction es using List.reverseRecOn generalizing s' with
  | nil =>
    cases h
    exact ⟨rfl, .inl hi, by simp [lastPublisher]⟩
  | append_singleton es e ih =>
    obtain ⟨t, ht, he⟩ := run_concat h
    obtain ⟨hdb, hph, hact⟩ := ih (fun j hj => hw j (List.mem_append_left _ hj)) ht
    rw [lastPublisher_concat]
    cases e with
    | write j => exact absurd (List.mem_append_right es (.head _)) (hw j)
    | read j =>
      obtain ⟨hj, rfl⟩ := exec_read he
      have hij : i ≠ j := by
        rintro rfl
        rcases hph with hph | hph <;> simp [hph] at hj
      simp only [update_of_ne hij]
      exact ⟨hdb, hph, hact⟩
    | publish j =>
      obtain ⟨w, hj, rfl⟩ := exec_publish he
      by_cases hij : i = j
      · subst hij
        rcases hph with hph | hph
        · rw [hph] at hj
          cases hj
          exact ⟨hdb, .inr (update_self _ _ _), fun _ => rfl⟩
        · rw [hph] at hj
          cases hj
      · simp only [update_of_ne hij]
        exact ⟨hdb, hph, fun h => absurd (Option.some.inj h).symm hij⟩

theorem active_eq_view (hfr : FreshLast es) (hlast : lastPublisher es = some i)
    (h : run sys s es = some s') : s'.active = sys.view s'.db := by
  obtain ⟨pre, post, rfl, hw⟩ := hfr i hlast
  rw [run_append] at h
  obtain ⟨t, ht, h⟩ := Option.bind_eq_some_iff.mp h
  obtain ⟨u, hu, h⟩ := Option.bind_eq_some_iff.mp h
  obtain ⟨hph, rfl⟩ := exec_read hu
  have hpost : lastPublisher post = some i := by
    have hsp := hlast
    rw [← List.singleton_append, ← List.append_assoc, lastPublisher_append] at hsp
    cases hp : lastPublisher post with
    | some j =>
      rw [hp] at hsp
      simpa using hsp
    | none =>
      rw [hp, lastPublisher_concat] at hsp
      have hmem : .publish i ∈ pre := mem_of_lastPublisher (by simpa using hsp)
      have hdone := (run_done ht i).mpr (.inr hmem)
      rw [hph] at hdone
      cases hdone
  obtain ⟨hdb, -, hact⟩ := run_of_loaded hw (update_self _ _ _) h
  rw [hact hpost, hdb]

end SnapshotPublish
