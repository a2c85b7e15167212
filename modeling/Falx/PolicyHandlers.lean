import Falx.PolicyEngine
import Mathlib.Data.List.Nodup

/-! The handlers that read and change one rule by its id. They look the rule up in the
engine's cache, which holds enabled rules only. -/

namespace Falx.Policy

open RankedQuery

inductive Response where
  | rule (status : Nat) (r : Rule)
  | message (status : Nat) (text : String)
  | apiError (status : Nat) (code message : String)
  deriving DecidableEq

def Response.status : Response → Nat
  | rule status _ => status
  | message status _ => status
  | apiError status _ _ => status

namespace Handler

variable (q : EnabledRules)

def createRule (env : DbEnv) (req : Except String Rule) (actorID : String) (e : Engine) :
    Response × Engine :=
  match req with
  | .error err => (.apiError 400 "invalid_json" err, e)
  | .ok req =>
    let rule := { req with
      priority := if req.priority = 0 then 100 else req.priority
      ruleId := if req.ruleId = 0 then 1 else req.ruleId }
    match e.createRule q env rule actorID with
    | (some err, e) => (.apiError 400 "create_rule_failed" err, e)
    | (none, e) =>
      (.rule 201 { rule with id := env.newId, createdBy := actorID, createdAt := env.now,
                             updatedAt := env.now }, e)

def getRule (id : String) (e : Engine) : Response :=
  match e.getRule id with
  | .error err => .apiError 404 "rule_not_found" err
  | .ok rule => .rule 200 rule

def updateRule (env : DbEnv) (id : String) (req : Except String Rule) (e : Engine) :
    Response × Engine :=
  match e.getRule id with
  | .error err => (.apiError 404 "rule_not_found" err, e)
  | .ok existing =>
    match req with
    | .error err => (.apiError 400 "invalid_json" err, e)
    | .ok req =>
      let req := { req with
        id := existing.id
        createdBy := existing.createdBy
        createdAt := existing.createdAt
        hitCount := existing.hitCount }
      match e.updateRule q env req with
      | (some err, e) => (.apiError 400 "update_rule_failed" err, e)
      | (none, e) => (.rule 200 { req with updatedAt := env.now }, e)

def deleteRule (env : DbEnv) (id : String) (e : Engine) : Response × Engine :=
  match e.deleteRule q env id with
  | (some err, e) => (.apiError 404 "delete_rule_failed" err, e)
  | (none, e) => (.message 200 "rule deleted", e)

def setRuleEnabled (env : DbEnv) (id : String) (enabled : Bool) (e : Engine) : Response × Engine :=
  match e.getRule id with
  | .error err => (.apiError 404 "rule_not_found" err, e)
  | .ok rule =>
    match e.updateRule q env { rule with enabled, updatedAt := env.now } with
    | (some err, e) => (.apiError 500 "update_failed" err, e)
    | (none, e) => (.message 200 ("rule " ++ if enabled then "enabled" else "disabled"), e)

def enableRule (env : DbEnv) (id : String) (e : Engine) : Response × Engine :=
  setRuleEnabled q env id true e

def disableRule (env : DbEnv) (id : String) (e : Engine) : Response × Engine :=
  setRuleEnabled q env id false e

end Handler

/-- The rule is stored as it was but for the time of its last update, and it is among
the rules that `Evaluate` goes through. -/
structure Restored (row : Rule) (e : Engine) : Prop where
  stored : ∃ row' ∈ e.db.rows, { row' with updatedAt := row.updatedAt } = row
  active : ∃ r ∈ e.rules, { r with updatedAt := row.updatedAt }.forgetHits = row.forgetHits

section Lookup

variable {q : EnabledRules} {e : Engine} {row r : Rule} {env : DbEnv}

theorem Table.eq_of_id_eq {t : Table} {row row' : Rule} (h : row ∈ t.rows) (h' : row' ∈ t.rows)
    (hid : row.id = row'.id) : row = row' :=
  List.inj_on_of_nodup_map t.unique h h' hid

theorem getRule_eq_ok {id : String} (h : e.getRule id = .ok r) : r ∈ e.rules ∧ r.id = id := by
  rw [Engine.getRule] at h
  split at h
  · rename_i r' hr
    cases h
    exact ⟨List.mem_of_find?_eq_some hr, by simpa using List.find?_some hr⟩
  · cases h

theorem getRule_of_mem {id : String} (h : r ∈ e.rules) (hid : r.id = id) :
    ∃ r', e.getRule id = .ok r' := by
  rw [Engine.getRule]
  split
  · exact ⟨_, rfl⟩
  · rename_i hnone
    have hr := List.find?_eq_none.mp hnone r h
    simp [hid] at hr

theorem Engine.Coherent.getRule (h : e.Coherent) (hrow : row ∈ e.db.rows)
    (hon : row.enabled = true) : ∃ r, e.getRule row.id = .ok r ∧ r.forgetHits = row.forgetHits := by
  obtain ⟨rows, hans, hrows⟩ := h.cached
  obtain ⟨r₀, hmem₀, heq₀⟩ := exists_of_map_forgetHits hrows.symm hrow
  have hid₀ : r₀.id = row.id := Rule.congr_of_forgetHits heq₀ _ fun _ => rfl
  have hon₀ : r₀.enabled = row.enabled := Rule.congr_of_forgetHits heq₀ _ fun _ => rfl
  obtain ⟨r, hr⟩ := getRule_of_mem (hans.mem_iff.mpr ⟨hmem₀, hon₀.trans hon⟩) hid₀
  obtain ⟨hmem, hid⟩ := getRule_eq_ok hr
  obtain ⟨row', hrow', heq⟩ := exists_of_map_forgetHits hrows (hans.mem_iff.mp hmem).1
  have hid' : row'.id = r.id := Rule.congr_of_forgetHits heq _ fun _ => rfl
  obtain rfl := Table.eq_of_id_eq hrow' hrow (hid'.trans hid)
  exact ⟨r, hr, heq.symm⟩

theorem getRule_of_disabled (hrules : e.rules = q.select e.db.rows) (hrow : row ∈ e.db.rows)
    (hdis : row.enabled = false) : e.getRule row.id = .error ("rule not found: " ++ row.id) := by
  cases hr : e.getRule row.id with
  | error err =>
    rw [Engine.getRule] at hr
    split at hr
    · cases hr
    · exact hr.symm
  | ok r =>
    obtain ⟨hmem, hid⟩ := getRule_eq_ok hr
    rw [hrules] at hmem
    obtain ⟨hmem, hon⟩ := (q.answers e.db.rows).mem_iff.mp hmem
    obtain rfl := Table.eq_of_id_eq hmem hrow hid
    simp [hdis] at hon

theorem assign_cached (h : r.forgetHits = row.forgetHits) (now u y : Int) (b x : Bool) :
    Table.assign now { r with enabled := b, updatedAt := u } { row with enabled := x, updatedAt := y } =
      { row with enabled := b, updatedAt := now } := by
  simp only [Rule.forgetHits, Rule.mk.injEq] at h
  simp only [Table.assign, Rule.mk.injEq]
  simp [h]

theorem setRuleEnabled_of_execErr {err : String} (hexec : env.execErr = some err) (id : String)
    (b : Bool) : (Handler.setRuleEnabled q env id b e).2 = e := by
  rw [Handler.setRuleEnabled]
  split
  · rfl
  · rename_i r hr
    cases hv : r.validate with
    | none =>
      have hv' : { r with enabled := b, updatedAt := env.now }.validate = none := hv
      simp only [Engine.updateRule, Table.execUpdate, hv', hexec, Engine.thenLoad]
    | some msg =>
      have hv' : { r with enabled := b, updatedAt := env.now }.validate = some msg := hv
      simp only [Engine.updateRule, Table.execUpdate, hv', Engine.thenLoad]

theorem setRuleEnabled_of_exec (hexec : env.execErr = none) (hget : e.getRule row.id = .ok r)
    (heq : r.forgetHits = row.forgetHits) (hva : row.validate = none) {x : Bool} {y : Int}
    (hrow : { row with enabled := x, updatedAt := y } ∈ e.db.rows) (b : Bool) :
    ∃ t : Table, { row with enabled := b, updatedAt := env.now } ∈ t.rows ∧
      Handler.setRuleEnabled q env row.id b e =
        match env.loadErr with
        | some err => (.apiError 500 "update_failed" err, { e with db := t })
        | none =>
          (.message 200 ("rule " ++ if b then "enabled" else "disabled"),
            { e with db := t, rules := q.select t.rows }) := by
  let r' : Rule := { r with enabled := b, updatedAt := env.now }
  have hid : r'.id = row.id := Rule.congr_of_forgetHits heq Rule.id fun _ => rfl
  have hv : r'.validate = none :=
    (Rule.congr_of_forgetHits heq Rule.validate fun _ => rfl).trans hva
  have hhas : ¬ e.db.has r'.id = false := by
    simp only [Table.has, Bool.not_eq_false, List.any_eq_true, decide_eq_true_eq]
    exact ⟨_, hrow, hid.symm⟩
  refine ⟨e.db.modify r'.id (Table.assign env.now r') fun _ => rfl, ?_, ?_⟩
  · refine List.mem_map.mpr ⟨_, hrow, ?_⟩
    rw [if_pos hid.symm]
    exact assign_cached heq env.now env.now y b x
  · have hcall : e.updateRule q env r' = Engine.loadRules q env.loadErr
        { e with db := e.db.modify r'.id (Table.assign env.now r') fun _ => rfl } := by
      simp only [Engine.updateRule, Table.execUpdate, hv, hexec, if_neg hhas, Engine.thenLoad]
    simp only [Handler.setRuleEnabled, hget]
    rw [hcall]
    cases env.loadErr with
    | none | some err => rfl

end Lookup

section RoundTrip

variable {q : EnabledRules} {e : Engine} {row r : Rule} {env : DbEnv}

theorem not_restored {y : Int} (hrow : { row with enabled := false, updatedAt := y } ∈ e.db.rows)
    (hon : row.enabled = true) : ¬ Restored row e := by
  rintro ⟨⟨row', hrow', heq⟩, -⟩
  have hid : row'.id = row.id := by simpa using congrArg Rule.id heq
  have hsame : row'.enabled = row.enabled := by simpa using congrArg Rule.enabled heq
  obtain rfl := Table.eq_of_id_eq hrow' hrow hid
  simp [hon] at hsame

theorem forgetHits_updatedAt (h : r.forgetHits = row.forgetHits) :
    { r with updatedAt := row.updatedAt }.forgetHits = row.forgetHits := by
  have hupd : r.updatedAt = row.updatedAt := Rule.congr_of_forgetHits h Rule.updatedAt fun _ => rfl
  rw [← h, ← hupd]

theorem restored_of_enableRule (hexec : env.execErr = none) (hget : e.getRule row.id = .ok r)
    (heq : r.forgetHits = row.forgetHits) (hva : row.validate = none)
    (hon : row.enabled = true) {x : Bool} {y : Int}
    (hrow : { row with enabled := x, updatedAt := y } ∈ e.db.rows) :
    Restored row (Handler.enableRule q env row.id e).2 := by
  obtain ⟨t, ht, haf⟩ := setRuleEnabled_of_exec (q := q) hexec hget heq hva hrow true
  have hback : { { row with enabled := true, updatedAt := env.now } with
      updatedAt := row.updatedAt } = row := by rw [← hon]
  rw [Handler.enableRule, haf]
  cases hload : env.loadErr with
  | some err =>
    exact ⟨⟨_, ht, hback⟩, r, (getRule_eq_ok hget).1, forgetHits_updatedAt heq⟩
  | none =>
    refine ⟨⟨_, ht, hback⟩, _, (q.answers t.rows).mem_iff.mpr ⟨ht, rfl⟩, ?_⟩
    rw [hback]

theorem restored_self (hget : e.getRule row.id = .ok r) (heq : r.forgetHits = row.forgetHits)
    (hrow : row ∈ e.db.rows) : Restored row e :=
  ⟨⟨row, hrow, rfl⟩, r, (getRule_eq_ok hget).1, forgetHits_updatedAt heq⟩

theorem setRuleEnabled_of_not_found {id err : String} (hget : e.getRule id = .error err)
    (b : Bool) : Handler.setRuleEnabled q env id b e = (.apiError 404 "rule_not_found" err, e) := by
  rw [Handler.setRuleEnabled, hget]

theorem getRule_status_iff {id : String} :
    (Handler.getRule id e).status ≠ 404 ↔ ∃ r, e.getRule id = .ok r := by
  rw [Handler.getRule]
  cases e.getRule id with
  | error err | ok r => simp [Response.status]

theorem updateRule_status_iff {id : String} (req : Except String Rule) :
    (Handler.updateRule q env id req e).1.status ≠ 404 ↔ ∃ r, e.getRule id = .ok r := by
  rw [Handler.updateRule]
  cases e.getRule id with
  | error err => simp [Response.status]
  | ok r =>
    cases req with
    | error err => simp [Response.status]
    | ok req =>
      simp only [Except.ok.injEq, exists_eq', iff_true]
      split <;> simp [Response.status]

end RoundTrip

/-- Disabling and enabling a rule brings it back, and it can be read and updated in
between, exactly when the disabling did not go through: its statement failed, or its
query for the reload did. -/
theorem disable_enable_iff (q : EnabledRules) {e : Engine} (h : e.Coherent) {row : Rule}
    (hrow : row ∈ e.db.rows) (henabled : row.enabled = true) (env₁ env₂ : DbEnv) :
    (Restored row (Handler.enableRule q env₂ row.id (Handler.disableRule q env₁ row.id e).2).2 ↔
        env₁.execErr ≠ none ∨ env₁.loadErr ≠ none ∧ env₂.execErr = none) ∧
      ((Handler.getRule row.id (Handler.disableRule q env₁ row.id e).2).status ≠ 404 ↔
        env₁.execErr ≠ none ∨ env₁.loadErr ≠ none) ∧
      ∀ req, (Handler.updateRule q env₂ row.id req
          (Handler.disableRule q env₁ row.id e).2).1.status ≠ 404 ↔
        env₁.execErr ≠ none ∨ env₁.loadErr ≠ none := by
  obtain ⟨r, hget, heq⟩ := h.getRule hrow henabled
  have hva := h.valid row hrow
  simp only [getRule_status_iff, updateRule_status_iff]
  cases hexec : env₁.execErr with
  | some err =>
    rw [Handler.disableRule, setRuleEnabled_of_execErr hexec]
    refine ⟨iff_of_true ?_ (by simp), iff_of_true ⟨r, hget⟩ (by simp),
      fun _ => iff_of_true ⟨r, hget⟩ (by simp)⟩
    cases hexec₂ : env₂.execErr with
    | some err₂ =>
      rw [Handler.enableRule, setRuleEnabled_of_execErr hexec₂]
      exact restored_self hget heq hrow
    | none =>
      exact restored_of_enableRule (x := row.enabled) (y := row.updatedAt) hexec₂ hget heq hva
        henabled hrow
  | none =>
    obtain ⟨t, ht, haf⟩ := setRuleEnabled_of_exec (q := q) (x := row.enabled)
      (y := row.updatedAt) hexec hget heq hva hrow false
    rw [Handler.disableRule, haf]
    cases hload : env₁.loadErr with
    | some err =>
      have hget₁ : Engine.getRule row.id { e with db := t } = .ok r := hget
      refine ⟨?_, iff_of_true ⟨r, hget₁⟩ (by simp), fun _ => iff_of_true ⟨r, hget₁⟩ (by simp)⟩
      cases hexec₂ : env₂.execErr with
      | some err₂ =>
        rw [Handler.enableRule, setRuleEnabled_of_execErr hexec₂]
        exact iff_of_false (not_restored ht henabled) (by simp)
      | none =>
        exact iff_of_true (restored_of_enableRule hexec₂ hget₁ heq hva henabled ht) (by simp)
    | none =>
      have hget₁ := getRule_of_disabled (q := q)
        (e := { e with db := t, rules := q.select t.rows }) rfl ht rfl
      have hnone : ¬ ∃ r, Engine.getRule row.id { e with db := t, rules := q.select t.rows } =
          .ok r := by simp [hget₁]
      rw [Handler.enableRule, setRuleEnabled_of_not_found hget₁]
      exact ⟨iff_of_false (not_restored ht henabled) (by simp), iff_of_false hnone (by simp),
        fun _ => iff_of_false hnone (by simp)⟩

def sshRow : Rule := { sshRule with id := "rule_01", createdBy := "admin", createdAt := 5, updatedAt := 5 }

/-- The second call answers 404 and the rule stays disabled. -/
theorem enableRule_not_found :
    sshRow ∈ sshEngine.db.rows ∧ sshRow.enabled = true ∧
      (Handler.disableRule EnabledRules.stable quietEnv "rule_01" sshEngine).1 =
        .message 200 "rule disabled" ∧
      (Handler.enableRule EnabledRules.stable quietEnv "rule_01"
        (Handler.disableRule EnabledRules.stable quietEnv "rule_01" sshEngine).2).1 =
          .apiError 404 "rule_not_found" "rule not found: rule_01" ∧
      ¬ Restored sshRow (Handler.enableRule EnabledRules.stable quietEnv "rule_01"
        (Handler.disableRule EnabledRules.stable quietEnv "rule_01" sshEngine).2).2 := by
  have hrow : sshRow ∈ sshEngine.db.rows := List.mem_cons_self
  have hcoh := sshEngine_reachable.coherent
  obtain ⟨r, hget, heq⟩ := hcoh.getRule hrow rfl
  obtain ⟨t, ht, haf⟩ := setRuleEnabled_of_exec (q := EnabledRules.stable) (x := true) (y := 5)
    (show quietEnv.execErr = none from rfl) hget heq (hcoh.valid _ hrow) hrow false
  have hget₁ := getRule_of_disabled (q := EnabledRules.stable)
    (e := { sshEngine with db := t, rules := EnabledRules.stable.select t.rows }) rfl ht rfl
  have hdis : Handler.disableRule EnabledRules.stable quietEnv "rule_01" sshEngine =
      (.message 200 "rule disabled",
        { sshEngine with db := t, rules := EnabledRules.stable.select t.rows }) := haf
  have henable : Handler.enableRule EnabledRules.stable quietEnv "rule_01"
      { sshEngine with db := t, rules := EnabledRules.stable.select t.rows } =
      (.apiError 404 "rule_not_found" "rule not found: rule_01",
        { sshEngine with db := t, rules := EnabledRules.stable.select t.rows }) :=
    setRuleEnabled_of_not_found hget₁ true
  rw [hdis, henable]
  exact ⟨hrow, rfl, rfl, rfl, not_restored ht rfl⟩

theorem disable_enable_failedLoad :
    Restored sshRow (Handler.enableRule EnabledRules.stable quietEnv sshRow.id
      (Handler.disableRule EnabledRules.stable { quietEnv with loadErr := some "disk I/O error" }
        sshRow.id sshEngine).2).2 :=
  (disable_enable_iff EnabledRules.stable sshEngine_reachable.coherent
    (show sshRow ∈ sshEngine.db.rows from List.mem_cons_self) rfl _ _).1.mpr (.inr ⟨by simp, rfl⟩)

end Falx.Policy
