import Falx.PolicyRule
import Falx.RankedQuery

/-! The policy engine: a table of rules, a cached list of the enabled ones in order of
priority, and the calls that change the one and reload the other. -/

namespace Falx.Policy

open RankedQuery

structure Table where
  rows : List Rule
  unique : (rows.map Rule.id).Nodup

namespace Table

def empty : Table := ⟨[], List.nodup_nil⟩

def insert (t : Table) (r : Rule) : Option Table :=
  if h : r.id ∈ t.rows.map Rule.id then none
  else some ⟨r :: t.rows, List.nodup_cons.mpr ⟨h, t.unique⟩⟩

def modify (t : Table) (id : String) (f : Rule → Rule) (hf : ∀ r, (f r).id = r.id) : Table where
  rows := t.rows.map fun r => if r.id = id then f r else r
  unique := by
    have hid : Rule.id ∘ (fun r => if r.id = id then f r else r) = Rule.id := by
      funext r
      by_cases h : r.id = id
      · simp [h, hf]
      · simp [h]
    rw [List.map_map, hid]
    exact t.unique

def delete (t : Table) (id : String) : Table where
  rows := t.rows.filter fun r => r.id ≠ id
  unique := t.unique.sublist ((List.filter_sublist).map _)

def has (t : Table) (id : String) : Bool := t.rows.any fun r => r.id = id

end Table

/-- `ORDER BY priority DESC, created_at ASC` lets `a` come before `b`. -/
def before (a b : Rule) : Bool :=
  b.priority < a.priority || (a.priority == b.priority && a.createdAt ≤ b.createdAt)

/-- The query of `loadRules`; SQL leaves the order of ties open. -/
abbrev EnabledRules := Selection Rule.enabled fun a b => before a b = true

def EnabledRules.stable : EnabledRules :=
  Selection.ofMergeSort Rule.enabled before
    (fun a b c hab hbc => by
      simp only [before, Bool.or_eq_true, Bool.and_eq_true, decide_eq_true_eq, beq_iff_eq] at *
      omega)
    (fun a b => by
      simp only [before, Bool.or_eq_true, Bool.and_eq_true, decide_eq_true_eq, beq_iff_eq]
      omega)

/-- What a call meets: the clock, the random id, and the errors of its statement and of
the query of `loadRules`, if any. -/
structure DbEnv where
  now : Int
  newId : String
  execErr : Option String
  loadErr : Option String
  deriving DecidableEq

namespace Table

def execInsert (t : Table) (env : DbEnv) (r : Rule) (createdBy : String) : Except String Table :=
  match r.validate with
  | some err => .error err
  | none =>
    -- the statement does not name `hit_count`, whose default is 0
    let r := { r with id := env.newId, createdBy := createdBy, createdAt := env.now,
                      updatedAt := env.now, hitCount := 0 }
    match env.execErr, t.insert r with
    | some err, _ => .error ("DB insert rule: " ++ err)
    | none, none => .error "DB insert rule: UNIQUE constraint failed: rules.id"
    | none, some t => .ok t

def assign (now : Int) (r row : Rule) : Rule :=
  { row with
    name := r.name
    description := r.description
    priority := r.priority
    enabled := r.enabled
    action := r.action
    conditions := r.conditions
    condLogic := r.condLogic
    ttlSeconds := r.ttlSeconds
    ruleId := r.ruleId
    reason := r.reason
    updatedAt := now }

def execUpdate (t : Table) (env : DbEnv) (r : Rule) : Except String Table :=
  match r.validate with
  | some err => .error err
  | none =>
    match env.execErr with
    | some err => .error err
    | none =>
      if t.has r.id = false then .error ("rule not found: " ++ r.id)
      else .ok (t.modify r.id (assign env.now r) fun _ => rfl)

def execDelete (t : Table) (env : DbEnv) (id : String) : Except String Table :=
  match env.execErr with
  | some err => .error err
  | none => if t.has id = false then .error ("rule not found: " ++ id) else .ok (t.delete id)

end Table

structure Engine where
  db : Table
  rules : List Rule
  totalEvals : UInt64 := 0
  totalHits : UInt64 := 0

namespace Engine

variable (q : EnabledRules)

def start : Engine := { db := .empty, rules := [] }

def loadRules (loadErr : Option String) (e : Engine) : Option String × Engine :=
  match loadErr with
  | some err => (some err, e)
  | none => (none, { e with rules := q.select e.db.rows })

def thenLoad (loadErr : Option String) (e : Engine) : Except String Table → Option String × Engine
  | .error err => (some err, e)
  | .ok db => loadRules q loadErr { e with db }

def createRule (env : DbEnv) (r : Rule) (createdBy : String) (e : Engine) :
    Option String × Engine :=
  thenLoad q env.loadErr e (e.db.execInsert env r createdBy)

def updateRule (env : DbEnv) (r : Rule) (e : Engine) : Option String × Engine :=
  thenLoad q env.loadErr e (e.db.execUpdate env r)

def deleteRule (env : DbEnv) (id : String) (e : Engine) : Option String × Engine :=
  thenLoad q env.loadErr e (e.db.execDelete env id)

def reload (env : DbEnv) (e : Engine) : Option String × Engine := loadRules q env.loadErr e

def getRule (id : String) (e : Engine) : Except String Rule :=
  match e.rules.find? fun r => r.id = id with
  | some r => .ok r
  | none => .error ("rule not found: " ++ id)

def evaluate (net : NetLib) (f : Flow) (e : Engine) : Option Rule × Engine :=
  let e := { e with totalEvals := e.totalEvals + 1 }
  match e.rules.find? fun r => r.matchFlow net f with
  | some r => (some r, { e with totalHits := e.totalHits + 1 })
  | none => (none, e)

/-- Runs on its own some time after `Evaluate` has returned. -/
def recordHit (id : String) (e : Engine) : Engine :=
  { e with db := e.db.modify id (fun r => { r with hitCount := r.hitCount + 1 }) fun _ => rfl }

end Engine

/-- What can happen to an engine between two evaluations; only calls that returned no
error are steps. -/
inductive Engine.Step (q : EnabledRules) (net : NetLib) : Engine → Engine → Prop where
  | createRule {e e' env r by_} : e.createRule q env r by_ = (none, e') → Step q net e e'
  | updateRule {e e' env r} : e.updateRule q env r = (none, e') → Step q net e e'
  | deleteRule {e e' env id} : e.deleteRule q env id = (none, e') → Step q net e e'
  | reload {e e' env} : e.reload q env = (none, e') → Step q net e e'
  | evaluate {e} (f : Flow) : Step q net e (e.evaluate net f).2
  | recordHit {e} (id : String) : Step q net e (e.recordHit id)

abbrev Engine.Reachable (q : EnabledRules) (net : NetLib) :=
  Relation.ReflTransGen (Engine.Step q net) Engine.start

def Rule.Matches (net : NetLib) (r : Rule) (f : Flow) : Prop :=
  r.conditions ≠ [] ∧
    match r.condLogic with
    | .unset | .and => ∀ c ∈ r.conditions, matchCondition net c f = true
    | .or => ∃ c ∈ r.conditions, matchCondition net c f = true
    | .unknown _ => False

section Match

variable {net : NetLib} {f : Flow}

theorem matchLoop_and (cs : List Condition) :
    matchLoop net f .and cs = true ↔ ∀ c ∈ cs, matchCondition net c f = true := by
  induction cs with
  | nil => simp [matchLoop]
  | cons c cs ih => cases hc : matchCondition net c f <;> simp [matchLoop, hc, ih]

theorem matchLoop_or (cs : List Condition) :
    matchLoop net f .or cs = true ↔ ∃ c ∈ cs, matchCondition net c f = true := by
  induction cs with
  | nil => simp [matchLoop]
  | cons c cs ih => cases hc : matchCondition net c f <;> simp [matchLoop, hc, ih]

theorem matchLoop_unknown (text : String) (cs : List Condition) :
    matchLoop net f (.unknown text) cs = false := by
  induction cs with
  | nil => rfl
  | cons c cs ih => simp [matchLoop, ih]

theorem Rule.matchFlow_iff {r : Rule} :
    r.matchFlow net f = true ↔ r.enabled = true ∧ r.Matches net f := by
  rw [matchFlow, Matches]
  by_cases hskip : r.enabled = false ∨ r.conditions = []
  · rw [if_pos hskip]
    rcases hskip with hskip | hskip <;> simp [hskip]
  · obtain ⟨hon, hconds⟩ := not_or.mp hskip
    simp only [hon, hconds, ne_eq, not_false_eq_true, true_and]
    cases hlogic : r.condLogic with
    | unset | and => simpa using matchLoop_and r.conditions
    | or => simpa using matchLoop_or r.conditions
    | unknown text => simp [matchLoop_unknown]

end Match

namespace Table

variable {t t' : Table} {env : DbEnv}

theorem valid_of_execInsert {r : Rule} {createdBy : String}
    (h : t.execInsert env r createdBy = .ok t') (hva : ∀ row ∈ t.rows, row.validate = none) :
    ∀ row ∈ t'.rows, row.validate = none := by
  rw [execInsert] at h
  cases hv : r.validate with
  | some err => simp [hv] at h
  | none =>
    simp only [hv] at h
    split at h
    · cases h
    · cases h
    · rename_i db hexec hdb
      cases h
      rw [insert] at hdb
      split_ifs at hdb
      cases hdb
      intro row hrow
      rcases List.mem_cons.mp hrow with rfl | hrow
      · exact hv
      · exact hva row hrow

theorem valid_of_execUpdate {r : Rule} (h : t.execUpdate env r = .ok t')
    (hva : ∀ row ∈ t.rows, row.validate = none) : ∀ row ∈ t'.rows, row.validate = none := by
  rw [execUpdate] at h
  cases hv : r.validate with
  | some err => simp [hv] at h
  | none =>
    cases hexec : env.execErr with
    | some err => simp [hv, hexec] at h
    | none =>
      simp only [hv, hexec] at h
      split_ifs at h
      cases h
      intro row hrow
      obtain ⟨old, hold, rfl⟩ := List.mem_map.mp hrow
      by_cases hid : old.id = r.id
      · rw [if_pos hid]
        exact hv
      · rw [if_neg hid]
        exact hva old hold

theorem valid_of_execDelete {id : String} (h : t.execDelete env id = .ok t')
    (hva : ∀ row ∈ t.rows, row.validate = none) : ∀ row ∈ t'.rows, row.validate = none := by
  rw [execDelete] at h
  cases hexec : env.execErr with
  | some err => simp [hexec] at h
  | none =>
    simp only [hexec] at h
    split_ifs at h
    cases h
    exact fun row hrow => hva row (List.mem_filter.mp hrow).1

end Table

/-- A rule without its hit counter, which `recordHit` changes behind the cache. -/
def Rule.forgetHits (r : Rule) : Rule := { r with hitCount := 0 }

/-- The cache answers the query on a table that is the database up to hit counters. -/
structure Engine.Coherent (e : Engine) : Prop where
  cached : ∃ rows, Answers Rule.enabled (fun a b => before a b = true) rows e.rules ∧
    rows.map Rule.forgetHits = e.db.rows.map Rule.forgetHits
  valid : ∀ row ∈ e.db.rows, row.validate = none

namespace Engine

variable {q : EnabledRules} {net : NetLib} {e e' : Engine}

theorem coherent_of_loadRules {loadErr : Option String} (h : e.loadRules q loadErr = (none, e'))
    (hva : ∀ row ∈ e.db.rows, row.validate = none) : e'.Coherent := by
  cases loadErr with
  | some err => cases h
  | none =>
    cases h
    exact ⟨⟨e.db.rows, q.answers _, rfl⟩, hva⟩

theorem coherent_of_thenLoad {loadErr : Option String} {result : Except String Table}
    (h : e.thenLoad q loadErr result = (none, e'))
    (hva : ∀ db, result = .ok db → ∀ row ∈ db.rows, row.validate = none) : e'.Coherent := by
  cases result with
  | error err => cases h
  | ok db => exact coherent_of_loadRules h (hva db rfl)

theorem evaluate_rules (net : NetLib) (e : Engine) (f : Flow) :
    (e.evaluate net f).2.db = e.db ∧ (e.evaluate net f).2.rules = e.rules := by
  rw [evaluate]
  split <;> exact ⟨rfl, rfl⟩

theorem coherent_recordHit (h : e.Coherent) (id : String) : (e.recordHit id).Coherent := by
  obtain ⟨rows, hans, hrows⟩ := h.cached
  refine ⟨⟨rows, hans, ?_⟩, fun row hrow => ?_⟩
  · rw [hrows, recordHit, Table.modify, List.map_map]
    refine List.map_congr_left fun r _ => ?_
    by_cases hid : r.id = id <;> simp [Rule.forgetHits, hid]
  · obtain ⟨old, hold, rfl⟩ := List.mem_map.mp hrow
    have hva := h.valid old hold
    by_cases hid : old.id = id
    · rw [if_pos hid]
      exact hva
    · rw [if_neg hid]
      exact hva

theorem Step.coherent (hstep : Step q net e e') (h : e.Coherent) : e'.Coherent := by
  cases hstep with
  | createRule hcall =>
    exact coherent_of_thenLoad hcall fun _ hdb => Table.valid_of_execInsert hdb h.valid
  | updateRule hcall =>
    exact coherent_of_thenLoad hcall fun _ hdb => Table.valid_of_execUpdate hdb h.valid
  | deleteRule hcall =>
    exact coherent_of_thenLoad hcall fun _ hdb => Table.valid_of_execDelete hdb h.valid
  | reload hcall => exact coherent_of_loadRules hcall h.valid
  | evaluate f =>
    obtain ⟨hdb, hrules⟩ := evaluate_rules net e f
    refine ⟨?_, ?_⟩
    · rw [hdb, hrules]
      exact h.cached
    · rw [hdb]
      exact h.valid
  | recordHit id => exact coherent_recordHit h id

theorem Reachable.coherent (h : Reachable q net e) : e.Coherent := by
  induction h with
  | refl => exact ⟨⟨[], ⟨List.Perm.nil, List.Pairwise.nil⟩, rfl⟩, by simp [start, Table.empty]⟩
  | tail _ hstep ih => exact hstep.coherent ih

theorem evaluate_fst (f : Flow) :
    (e.evaluate net f).1 = e.rules.find? fun r => r.matchFlow net f := by
  simp only [evaluate]
  split
  · rename_i r hr
    exact hr.symm
  · rename_i hr
    exact hr.symm

end Engine

section ForgetHits

variable {r r' : Rule}

theorem Rule.congr_of_forgetHits {α : Type} (h : r.forgetHits = r'.forgetHits) (g : Rule → α)
    (hg : ∀ r, g r.forgetHits = g r) : g r = g r' := by
  rw [← hg r, h, hg r']

theorem Rule.matchFlow_congr (h : r.forgetHits = r'.forgetHits) (net : NetLib) (f : Flow) :
    r.matchFlow net f = r'.matchFlow net f :=
  congr_of_forgetHits h (matchFlow net · f) fun _ => rfl

theorem exists_of_map_forgetHits {rows rows' : List Rule}
    (h : rows.map Rule.forgetHits = rows'.map Rule.forgetHits) (hr : r ∈ rows) :
    ∃ r' ∈ rows', r'.forgetHits = r.forgetHits := by
  have hmem : r.forgetHits ∈ rows'.map Rule.forgetHits := h ▸ List.mem_map_of_mem hr
  exact List.mem_map.mp hmem

theorem exists_matchFlow {net : NetLib} {f : Flow} {rows rows' : List Rule}
    (h : rows.map Rule.forgetHits = rows'.map Rule.forgetHits) {row : Rule} (hrow : row ∈ rows')
    (hon : row.enabled = true) (hmat : row.Matches net f) :
    ∃ r ∈ rows, r.forgetHits = row.forgetHits ∧ r.enabled = true ∧ r.matchFlow net f = true := by
  obtain ⟨r, hmem, heq⟩ := exists_of_map_forgetHits h.symm hrow
  have hma : r.matchFlow net f = true := by
    rw [Rule.matchFlow_congr heq, Rule.matchFlow_iff]
    exact ⟨hon, hmat⟩
  exact ⟨r, hmem, heq, (Rule.matchFlow_iff.mp hma).1, hma⟩

end ForgetHits

/-- `Evaluate` finds an enabled matching rule that no other enabled matching rule
outranks, and finds one whenever there is one. -/
theorem evaluate_best {q : EnabledRules} {net : NetLib} {e : Engine}
    (h : Engine.Reachable q net e) (f : Flow) :
    (∀ r, (e.evaluate net f).1 = some r →
      ∃ row ∈ e.db.rows, row.forgetHits = r.forgetHits ∧ row.enabled = true ∧ row.Matches net f ∧
        ∀ row' ∈ e.db.rows, row'.enabled = true → row'.Matches net f →
          ¬ (row.priority < row'.priority ∨
            row'.priority = row.priority ∧ row'.createdAt < row.createdAt)) ∧
      ((e.evaluate net f).1 = none ↔
        ∀ row ∈ e.db.rows, row.enabled = true → ¬ row.Matches net f) := by
  obtain ⟨rows, hans, hrows⟩ := h.coherent.cached
  rw [Engine.evaluate_fst]
  refine ⟨fun r hr => ?_, ?_⟩
  · obtain ⟨hmem, -, hma, hbest⟩ := hans.find?_eq_some hr
    obtain ⟨row, hrow, heq⟩ := exists_of_map_forgetHits hrows hmem
    have hpriority : row.priority = r.priority := Rule.congr_of_forgetHits heq _ (fun _ => rfl)
    have hnew : row.createdAt = r.createdAt := Rule.congr_of_forgetHits heq _ (fun _ => rfl)
    rw [← Rule.matchFlow_congr heq] at hma
    obtain ⟨hon, hmat⟩ := Rule.matchFlow_iff.mp hma
    refine ⟨row, hrow, heq, hon, hmat, fun row' hrow' hon' hmat' => ?_⟩
    obtain ⟨r', hmem', heq', hcopy, hma'⟩ := exists_matchFlow hrows hrow' hon' hmat'
    have hpriority' : r'.priority = row'.priority := Rule.congr_of_forgetHits heq' _ (fun _ => rfl)
    have hnew' : r'.createdAt = row'.createdAt := Rule.congr_of_forgetHits heq' _ (fun _ => rfl)
    rcases hbest r' hmem' hcopy hma' with rfl | hpre
    · omega
    · simp only [before, Bool.or_eq_true, Bool.and_eq_true, decide_eq_true_eq, beq_iff_eq] at hpre
      omega
  · rw [hans.find?_eq_none]
    constructor
    · intro hnone row hrow hon hmat
      obtain ⟨r, hmem, -, hcopy, hma⟩ := exists_matchFlow hrows hrow hon hmat
      exact absurd hma (by simp [hnone r hmem hcopy])
    · intro hnone r hmem hon
      obtain ⟨row, hrow, heq⟩ := exists_of_map_forgetHits hrows hmem
      have hon' : row.enabled = true := (Rule.congr_of_forgetHits heq _ (fun _ => rfl)).trans hon
      rw [← Rule.matchFlow_congr heq, Bool.eq_false_iff, ne_eq, Rule.matchFlow_iff]
      exact fun hma => hnone row hrow hon' hma.2

def sshRule : Rule where
  id := ""
  name := "block-ssh"
  description := ""
  priority := 100
  enabled := true
  action := .block
  conditions := [⟨.dstPort, .eq, "22"⟩]
  condLogic := .unset
  ttlSeconds := 0
  ruleId := 1
  reason := ""
  createdBy := ""
  createdAt := 0
  updatedAt := 0
  hitCount := 0

def quietEnv : DbEnv := ⟨5, "rule_01", none, none⟩

def flowTo (port : UInt16) : Flow := ⟨none, none, 0, port, 6, 0, 0, 0⟩

def sshEngine : Engine :=
  (Engine.start.createRule EnabledRules.stable quietEnv sshRule "admin").2

theorem sshEngine_reachable : Engine.Reachable EnabledRules.stable noNet sshEngine :=
  .single (@Engine.Step.createRule _ _ _ _ quietEnv sshRule "admin" rfl)

theorem evaluate_best_sshEngine :
    (∃ r, (sshEngine.evaluate noNet (flowTo 22)).1 = some r ∧
        ∃ row ∈ sshEngine.db.rows, row.forgetHits = r.forgetHits) ∧
      (sshEngine.evaluate noNet (flowTo 80)).1 = none := by
  have hrc := sshEngine_reachable
  refine ⟨?_, ?_⟩
  · cases hr : (sshEngine.evaluate noNet (flowTo 22)).1 with
    | none =>
      have hnone := (evaluate_best hrc (flowTo 22)).2.mp hr _ List.mem_cons_self rfl
      exact absurd (Rule.matchFlow_iff.mp (by decide +kernel)).2 hnone
    | some r =>
      obtain ⟨row, hrow, heq, -⟩ := (evaluate_best hrc (flowTo 22)).1 r hr
      exact ⟨r, rfl, row, hrow, heq⟩
  · refine (evaluate_best hrc (flowTo 80)).2.mpr fun row hrow _ hmat => ?_
    obtain rfl := List.mem_singleton.mp hrow
    exact absurd (hmat.2 _ List.mem_cons_self) (by decide)

end Falx.Policy
