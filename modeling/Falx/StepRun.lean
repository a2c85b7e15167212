import Mathlib.Data.List.Basic

/-! Runs of a system whose steps are not enabled in every state, and invariants of such runs
under a condition on each step and the state it is taken in. -/

namespace StepRun

variable {σ ε : Type}

def run (exec : σ → ε → Option σ) (s : σ) : List ε → Option σ
  | [] => some s
  | e :: es => (exec s e).bind fun s => run exec s es

/-- `P` holds of every step that is taken, in the state it is taken in. -/
def Along (exec : σ → ε → Option σ) (P : σ → ε → Prop) (s : σ) : List ε → Prop
  | [] => True
  | e :: es => P s e ∧ (exec s e).elim True fun s => Along exec P s es

instance decidableAlong (exec : σ → ε → Option σ) (P : σ → ε → Prop) [∀ s e, Decidable (P s e)]
    (s : σ) : (es : List ε) → Decidable (Along exec P s es)
  | [] => isTrue trivial
  | e :: es =>
    have : Decidable ((exec s e).elim True fun s => Along exec P s es) :=
      match exec s e with
      | none => isTrue trivial
      | some s => decidableAlong exec P s es
    inferInstanceAs (Decidable (_ ∧ _))

variable {exec : σ → ε → Option σ} {P : σ → ε → Prop} {Q : ε → Prop} {I : σ → Prop}
  {s s' t : σ} {e : ε} {es es' : List ε}

theorem run_append : run exec s (es ++ es') = (run exec s es).bind fun s => run exec s es' := by
  induction es generalizing s with
  | nil => rfl
  | cons e es ih =>
    rw [List.cons_append, run, run]
    cases exec s e with
    | none => rfl
    | some t => exact ih

theorem run_append_inv (h : run exec s (es ++ es') = some s') :
    ∃ t, run exec s es = some t ∧ run exec t es' = some s' := by
  rw [run_append] at h
  exact Option.bind_eq_some_iff.mp h

theorem run_cons_inv (h : run exec s (e :: es) = some s') :
    ∃ t, exec s e = some t ∧ run exec t es = some s' :=
  Option.bind_eq_some_iff.mp h

theorem run_invariant (hstep : ∀ s e s', I s → Q e → exec s e = some s' → I s')
    (hes : ∀ e ∈ es, Q e) (hs : I s) (h : run exec s es = some s') : I s' := by
  induction es generalizing s with
  | nil =>
    cases h
    exact hs
  | cons e es ih =>
    obtain ⟨t, ht, hrest⟩ := run_cons_inv h
    obtain ⟨he, hes⟩ := List.forall_mem_cons.mp hes
    exact ih hes (hstep s e t hs he ht) hrest

theorem Along.cons_inv (h : Along exec P s (e :: es)) (he : exec s e = some t) :
    Along exec P t es := by
  have hrest := h.2
  rw [he] at hrest
  exact hrest

theorem Along.append_inv (h : Along exec P s (es ++ es')) (hrun : run exec s es = some t) :
    Along exec P s es ∧ Along exec P t es' := by
  induction es generalizing s with
  | nil =>
    cases hrun
    exact ⟨trivial, h⟩
  | cons e es ih =>
    obtain ⟨u, hu, hrest⟩ := run_cons_inv hrun
    obtain ⟨hpre, hpost⟩ := ih (h.cons_inv hu) hrest
    refine ⟨⟨h.1, ?_⟩, hpost⟩
    rw [hu]
    exact hpre

theorem Along.invariant (hstep : ∀ s e s', I s → P s e → exec s e = some s' → I s')
    (hrun : Along exec P s es) (hs : I s) (h : run exec s es = some s') : I s' := by
  induction es generalizing s with
  | nil =>
    cases h
    exact hs
  | cons e es ih =>
    obtain ⟨t, ht, hrest⟩ := run_cons_inv h
    exact ih (hrun.cons_inv ht) (hstep s e t hs hrun.1 ht) hrest

end StepRun
