import Falx.PolicyEngine
import Falx.SnapshotPublish

/-! Concurrent calls of the policy engine. The database serialises the statements, but
between the query of `loadRules` and the assignment of its result other calls may write,
query and publish. -/

namespace Falx.Policy

open RankedQuery SnapshotPublish

inductive Call where
  | createRule (env : DbEnv) (r : Rule) (createdBy : String)
  | updateRule (env : DbEnv) (r : Rule)
  | deleteRule (env : DbEnv) (id : String)
  | reload (env : DbEnv)

namespace Call

def exec : Call → Table → Except String Table
  | createRule env r createdBy, t => t.execInsert env r createdBy
  | updateRule env r, t => t.execUpdate env r
  | deleteRule env id, t => t.execDelete env id
  | reload _, t => .ok t

def loadErr : Call → Option String
  | createRule env _ _ => env.loadErr
  | updateRule env _ => env.loadErr
  | deleteRule env _ => env.loadErr
  | reload env => env.loadErr

def start : Call → Phase (List Rule)
  | reload _ => .written
  | _ => .ready

def apply (q : EnabledRules) (e : Engine) : Call → Option String × Engine
  | createRule env r createdBy => e.createRule q env r createdBy
  | updateRule env r => e.updateRule q env r
  | deleteRule env id => e.deleteRule q env id
  | reload env => e.reload q env

def events {ι : Type} (i : ι) : Call → List (CallStep ι)
  | reload _ => [.read i, .publish i]
  | _ => [.write i, .read i, .publish i]

end Call

section System

variable {ι : Type} [DecidableEq ι]

def engineSystem (q : EnabledRules) (calls : ι → Call) : System Table (List Rule) ι where
  write i t := ((calls i).exec t).toOption
  view t := q.select t.rows

def engineState (calls : ι → Call) (t : Table) (rules : List Rule) : State Table (List Rule) ι where
  db := t
  active := rules
  phase i := (calls i).start

variable {q : EnabledRules} {calls : ι → Call} {t : Table} {rules : List Rule}
  {es : List (CallStep ι)} {s : State Table (List Rule) ι}

theorem Call.apply_eq (c : Call) (e : Engine) :
    c.apply q e = e.thenLoad q c.loadErr (c.exec e.db) := by
  cases c <;> rfl

theorem run_events {i : ι} {e e' : Engine} {phase : ι → Phase (List Rule)}
    (h : (calls i).apply q e = (none, e')) (hi : phase i = (calls i).start) :
    run (engineSystem q calls) ⟨e.db, e.rules, phase⟩ ((calls i).events i) =
      some ⟨e'.db, e'.rules, Function.update phase i .done⟩ := by
  rw [Call.apply_eq] at h
  cases hexec : (calls i).exec e.db with
  | error err =>
    rw [hexec] at h
    cases h
  | ok db =>
    rw [hexec, Engine.thenLoad] at h
    cases hload : (calls i).loadErr with
    | some err =>
      rw [hload] at h
      cases h
    | none =>
      rw [hload] at h
      cases h
      cases hc : calls i with
      | reload env =>
        rw [hc] at hi hexec
        cases hexec
        simp [Call.events, run, SnapshotPublish.exec, hi, Call.start, engineSystem]
      | createRule | updateRule | deleteRule =>
        rw [hc] at hi hexec
        simp [Call.events, run, SnapshotPublish.exec, hi, Call.start, engineSystem, hc, hexec,
          Except.toOption]

/-- After any interleaving in which the call that publishes last has read its snapshot
after the last statement, the active rules are the enabled rules of the database in
order. -/
theorem active_answers (q : EnabledRules) (calls : ι → Call)
    (hstart : Answers Rule.enabled (fun a b => before a b = true) t.rows rules)
    (hrun : run (engineSystem q calls) (engineState calls t rules) es = some s)
    (hdone : ∀ i, s.phase i = .done) (hfresh : FreshLast es) :
    Answers Rule.enabled (fun a b => before a b = true) s.db.rows s.active := by
  cases hlast : lastPublisher es with
  | some i =>
    rw [active_eq_view hfresh hlast hrun]
    exact q.answers s.db.rows
  | none =>
    have hnil : es = [] := by
      cases es with
      | nil => rfl
      | cons e es =>
        have hnone : ∀ i : ι, False := by
          intro i
          have hnot : (engineState calls t rules).phase i ≠ .done := by
            simp only [engineState]
            cases calls i <;> simp [Call.start]
          rcases (run_done hrun i).mp (hdone i) with h | h
          · exact hnot h
          · exact lastPublisher_eq_none.mp hlast i h
        cases e with
        | write i | read i | publish i => exact (hnone i).elim
    subst hnil
    cases hrun
    exact hstart

end System

def twoCreates : Bool → Call
  | false => .createRule quietEnv sshRule "admin"
  | true => .createRule { quietEnv with newId := "rule_02" } sshRule "admin"

def staleSchedule : List (CallStep Bool) :=
  [.write false, .read false, .write true, .read true, .publish true, .publish false]

theorem active_misses_created :
    ∃ s, run (engineSystem EnabledRules.stable twoCreates) (engineState twoCreates .empty [])
        staleSchedule = some s ∧ (∀ i, s.phase i = .done) ∧
      ¬ Answers Rule.enabled (fun a b => before a b = true) s.db.rows s.active := by
  refine ⟨_, rfl, ?_, fun h => ?_⟩
  · intro i
    cases i <;> rfl
  · have hone := h.perm.length_eq.symm.trans (EnabledRules.stable.answers [_]).perm.length_eq
    exact absurd hone (by decide)

def freshSchedule : List (CallStep Bool) :=
  [.write false, .write true, .read true, .read false, .publish true, .publish false]

theorem active_answers_freshSchedule :
    ∃ s, run (engineSystem EnabledRules.stable twoCreates) (engineState twoCreates .empty [])
        freshSchedule = some s ∧
      Answers Rule.enabled (fun a b => before a b = true) s.db.rows s.active := by
  have hrun : ∃ s, run (engineSystem EnabledRules.stable twoCreates)
      (engineState twoCreates .empty []) freshSchedule = some s := ⟨_, rfl⟩
  obtain ⟨s, hs⟩ := hrun
  refine ⟨s, hs, active_answers _ _ ⟨List.Perm.nil, List.Pairwise.nil⟩ hs ?_ ?_⟩
  · intro i
    refine (run_done hs i).mpr (.inr ?_)
    cases i <;> decide
  · intro i hi
    cases hi
    exact ⟨[.write false, .write true, .read true], [.publish true, .publish false], rfl, by simp⟩

end Falx.Policy
