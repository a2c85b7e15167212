import Mathlib.Data.List.Basic
import Mathlib.Data.List.Induction
import Mathlib.Data.List.Triplewise
import Mathlib.Logic.Function.Basic

/-! Calls to a shared state, each a tree of atomic operations. A call runs alone, or step
by step among the steps of other calls. The log of an interleaving is at once a history of
the shared state and, for every call, a path through its tree. -/

namespace Interleave

open List

inductive Prog (Op : Type) (Res : Op → Type) (α : Type) where
  | ret (a : α)
  | call (op : Op) (k : Res op → Prog Op Res α)

variable {Op : Type} {Res : Op → Type} {α β : Type}

namespace Prog

def bind : Prog Op Res α → (α → Prog Op Res β) → Prog Op Res β
  | ret a, f => f a
  | call op k, f => call op fun r => (k r).bind f

instance : Monad (Prog Op Res) where
  pure := ret
  bind := bind

def result : Prog Op Res α → Option α
  | ret a => some a
  | call _ _ => none

theorem result_eq_some {p : Prog Op Res α} {a : α} (h : p.result = some a) : p = ret a := by
  cases p with
  | ret b =>
    cases h
    rfl
  | call op k => cases h

inductive Path : Prog Op Res α → List (Sigma Res) → Prog Op Res α → Prop where
  | nil (p : Prog Op Res α) : Path p [] p
  | cons {op : Op} {k : Res op → Prog Op Res α} {r : Res op} {h : List (Sigma Res)}
      {q : Prog Op Res α} (hpath : Path (k r) h q) : Path (call op k) (⟨op, r⟩ :: h) q

/-- Whatever the results are, each operation is performed only after a history that `guar`
allows, and the value returned fits the history. -/
def Spec (guar : List (Sigma Res) → Op → Prop) (post : List (Sigma Res) → α → Prop) :
    Prog Op Res α → List (Sigma Res) → Prop
  | ret a, h => post h a
  | call op k, h => guar h op ∧ ∀ r, (k r).Spec guar post (h ++ [⟨op, r⟩])

section Path

variable {p q t : Prog Op Res α} {h h' : List (Sigma Res)} {op : Op} {r : Res op}
  {guar : List (Sigma Res) → Op → Prop} {post : List (Sigma Res) → α → Prop}

variable {k : Res op → Prog Op Res α} {f : α → Prog Op Res β}

theorem Path.snoc (hpath : Path p h (call op k)) (r : Res op) : Path p (h ++ [⟨op, r⟩]) (k r) := by
  generalize hq : call op k = q at hpath
  induction hpath with
  | nil p =>
    subst hq
    exact .cons (.nil _)
  | cons hpath ih => exact .cons (ih hq)

theorem Path.append_inv (hpath : Path p (h ++ h') q) : ∃ t, Path p h t ∧ Path t h' q := by
  induction h generalizing p with
  | nil => exact ⟨p, .nil p, hpath⟩
  | cons e h ih =>
    cases hpath with
    | cons hpath =>
      obtain ⟨t, ht, hq⟩ := ih hpath
      exact ⟨t, .cons ht, hq⟩

theorem Path.cons_inv (hpath : Path p (⟨op, r⟩ :: h) q) : ∃ k, p = call op k ∧ Path (k r) h q := by
  cases hpath with
  | cons hpath => exact ⟨_, rfl, hpath⟩

theorem Spec.call (hop : guar h op) (hk : ∀ r, (k r).Spec guar post (h ++ [⟨op, r⟩])) :
    (Prog.call op k).Spec guar post h :=
  ⟨hop, hk⟩

theorem Spec.mono {guar' : List (Sigma Res) → Op → Prop} {post' : List (Sigma Res) → α → Prop}
    (hspec : p.Spec guar post h) (hguar : ∀ t op, guar (h ++ t) op → guar' (h ++ t) op)
    (hpost : ∀ t a, post (h ++ t) a → post' (h ++ t) a) : p.Spec guar' post' h := by
  induction p generalizing h with
  | ret a => simpa [Spec] using hpost [] a (by simpa [Spec] using hspec)
  | call op k ih =>
    refine ⟨by simpa using hguar [] op (by simpa using hspec.1), fun r => ?_⟩
    refine ih r (hspec.2 r) (fun t op ht => ?_) fun t a ht => ?_
    · simpa using hguar (⟨_, r⟩ :: t) op (by simpa using ht)
    · simpa using hpost (⟨_, r⟩ :: t) a (by simpa using ht)

theorem Spec.bind {post : List (Sigma Res) → β → Prop}
    (hspec : p.Spec guar (fun h a => (f a).Spec guar post h) h) : (p >>= f).Spec guar post h := by
  induction p generalizing h with
  | ret a => exact hspec
  | call op k ih => exact ⟨hspec.1, fun r => ih r (hspec.2 r)⟩

theorem Spec.andThen {post' : List (Sigma Res) → β → Prop} (hspec : p.Spec guar post h)
    (hf : ∀ t a, post (h ++ t) a → (f a).Spec guar post' (h ++ t)) : (p >>= f).Spec guar post' h :=
  Spec.bind (hspec.mono (fun _ _ hg => hg) hf)

theorem Spec.map {f : α → β} {post : List (Sigma Res) → β → Prop}
    (hspec : p.Spec guar (fun h a => post h (f a)) h) : (f <$> p).Spec guar post h :=
  Spec.bind hspec

theorem Spec.path (hspec : p.Spec guar post h) (hpath : Path p h' q) :
    q.Spec guar post (h ++ h') := by
  induction hpath generalizing h with
  | nil p => simpa using hspec
  | cons hpath ih => simpa using ih (hspec.2 _)

theorem Spec.guarantee (hspec : p.Spec guar post []) (hpath : Path p (h ++ ⟨op, r⟩ :: h') q) :
    guar h op := by
  obtain ⟨t, ht, hq⟩ := hpath.append_inv
  obtain ⟨k, rfl, -⟩ := hq.cons_inv
  exact (hspec.path ht).1

theorem Spec.returns {a : α} (hspec : p.Spec guar post []) (hpath : Path p h (Prog.ret a)) :
    post h a := by
  simpa [Spec] using hspec.path hpath

end Path

end Prog

variable {σ Env ι : Type} (sem : Env → (op : Op) → σ → Res op × σ)

def exec : Prog Op Res α → List Env → σ → Option (α × σ)
  | .ret a, [], s => some (a, s)
  | .ret _, _ :: _, _ => none
  | .call _ _, [], _ => none
  | .call op k, e :: es, s => exec (k (sem e op s).1) es (sem e op s).2

/-- The weakest precondition of a call that runs alone under admissible environments. -/
def wp (adm : Env → Prop) (post : α → σ → Prop) : Prog Op Res α → σ → Prop
  | .ret a, s => post a s
  | .call op k, s => ∀ e, adm e → wp adm post (k (sem e op s).1) (sem e op s).2

section Wp

variable {sem : Env → (op : Op) → σ → Res op × σ} {adm : Env → Prop} {p : Prog Op Res α} {s : σ}

theorem wp_mono {post post' : α → σ → Prop} (h : wp sem adm post p s)
    (himp : ∀ a t, post a t → post' a t) : wp sem adm post' p s := by
  induction p generalizing s with
  | ret a => exact himp a s h
  | call op k ih => exact fun e he => ih _ (h e he)

theorem wp_bind {f : α → Prog Op Res β} {post : β → σ → Prop}
    (h : wp sem adm (fun a t => wp sem adm post (f a) t) p s) : wp sem adm post (p >>= f) s := by
  induction p generalizing s with
  | ret a => exact h
  | call op k ih => exact fun e he => ih _ (h e he)

theorem exec_map {f : α → β} {es : List Env} {t : σ} {b : β}
    (h : exec sem (f <$> p) es s = some (b, t)) : ∃ a, exec sem p es s = some (a, t) ∧ f a = b := by
  induction p generalizing es s with
  | ret a =>
    cases es with
    | nil =>
      cases h
      exact ⟨a, rfl, rfl⟩
    | cons e es => cases h
  | call op k ih =>
    cases es with
    | nil => cases h
    | cons e es => exact ih _ h

end Wp

variable {p : Prog Op Res α} {es : List Env} {s t : σ} {a : α}

theorem exec_of_wp {sem : Env → (op : Op) → σ → Res op × σ} {adm : Env → Prop} {post : α → σ → Prop}
    (hwp : wp sem adm post p s) (hadm : ∀ e ∈ es, adm e) (h : exec sem p es s = some (a, t)) :
    post a t := by
  induction p generalizing es s with
  | ret b =>
    cases es with
    | nil =>
      cases h
      exact hwp
    | cons e es => cases h
  | call op k ih =>
    cases es with
    | nil => cases h
    | cons e es =>
      exact ih _ (hwp e (hadm e (.head _)))
        (fun e' he' => hadm e' (.tail _ he')) h

theorem exec_ret {sem : Env → (op : Op) → σ → Res op × σ} {b : α}
    (h : exec sem (.ret a : Prog Op Res α) es s = some (b, t)) : a = b ∧ s = t := by
  cases es with
  | nil =>
    cases h
    exact ⟨rfl, rfl⟩
  | cons e es => cases h

theorem exec_call {sem : Env → (op : Op) → σ → Res op × σ} {op : Op} {k : Res op → Prog Op Res α}
    (h : exec sem (.call op k) es s = some (a, t)) :
    ∃ e es', es = e :: es' ∧ exec sem (k (sem e op s).1) es' (sem e op s).2 = some (a, t) := by
  cases es with
  | nil => cases h
  | cons e es => exact ⟨e, es, rfl, h⟩

theorem exec_invariant {sem : Env → (op : Op) → σ → Res op × σ} {inv : σ → Prop}
    (hstep : ∀ e ∈ es, ∀ op s, inv s → inv (sem e op s).2) (hs : inv s)
    (h : exec sem p es s = some (a, t)) : inv t := by
  have hwp : wp sem (· ∈ es) (fun _ t => inv t) p s := by
    clear h
    induction p generalizing s with
    | ret a => exact hs
    | call op k ih => exact fun e he => ih _ (hstep e he op s hs)
  exact exec_of_wp hwp (fun _ he => he) h

structure Record (Req Env Reply σ : Type) where
  req : Req
  envs : List Env
  pre : σ
  reply : Reply
  post : σ

inductive Sequence {Req Reply : Type} (serve : Req → Prog Op Res Reply) :
    σ → List (Record Req Env Reply σ) → σ → Prop where
  | nil (s : σ) : Sequence serve s [] s
  | cons {r : Record Req Env Reply σ} {rs : List (Record Req Env Reply σ)} {u : σ}
      (hexec : exec sem (serve r.req) r.envs r.pre = some (r.reply, r.post))
      (hrest : Sequence serve r.post rs u) : Sequence serve r.pre (r :: rs) u

def runCalls {Req Reply : Type} (serve : Req → Prog Op Res Reply) (s : σ) :
    List (Req × List Env) → Option (List (Record Req Env Reply σ) × σ)
  | [] => some ([], s)
  | (req, envs) :: calls =>
    match exec sem (serve req) envs s with
    | none => none
    | some (reply, t) =>
      (runCalls serve t calls).map fun (rs, u) => (⟨req, envs, s, reply, t⟩ :: rs, u)

section Sequence

variable {sem : Env → (op : Op) → σ → Res op × σ} {Req Reply : Type}
  {serve : Req → Prog Op Res Reply} {s u : σ} {r : Record Req Env Reply σ}
  {rs : List (Record Req Env Reply σ)}

theorem Sequence.cons_inv (h : Sequence sem serve s (r :: rs) u) :
    r.pre = s ∧ exec sem (serve r.req) r.envs r.pre = some (r.reply, r.post) ∧
      Sequence sem serve r.post rs u := by
  cases h with
  | cons hexec hrest => exact ⟨rfl, hexec, hrest⟩

theorem runCalls_sequence {calls : List (Req × List Env)}
    (h : runCalls sem serve s calls = some (rs, u)) : Sequence sem serve s rs u := by
  induction calls generalizing s rs with
  | nil =>
    cases h
    exact .nil _
  | cons call calls ih =>
    obtain ⟨req, envs⟩ := call
    rw [runCalls] at h
    split at h
    · cases h
    · rename_i reply t hexec
      obtain ⟨⟨rest, u'⟩, hrest, heq⟩ := Option.map_eq_some_iff.mp h
      cases heq
      exact .cons (r := ⟨req, envs, s, reply, t⟩) hexec (ih hrest)

theorem Sequence.invariant {inv : σ → Prop} (h : Sequence sem serve s rs u) (hs : inv s)
    (hstep : ∀ r ∈ rs, exec sem (serve r.req) r.envs r.pre = some (r.reply, r.post) →
      inv r.pre → inv r.post) :
    inv u ∧ ∀ r ∈ rs, exec sem (serve r.req) r.envs r.pre = some (r.reply, r.post) ∧ inv r.pre := by
  induction h with
  | nil s => exact ⟨hs, by simp⟩
  | @cons r rs u hexec hrest ih =>
    obtain ⟨hu, hmem⟩ := ih (hstep r (.head _) hexec hs) fun r' hr' =>
      hstep r' (.tail _ hr')
    refine ⟨hu, fun r' hr' => ?_⟩
    rcases mem_cons.mp hr' with rfl | hr'
    · exact ⟨hexec, hs⟩
    · exact hmem r' hr'

end Sequence

section Lists

variable {γ : Type}

theorem split_cases {a b c d : List γ} {x y : γ} (h : a ++ x :: b = c ++ y :: d) :
    (a = c ∧ x = y ∧ b = d) ∨ (∃ t, c = a ++ x :: t ∧ b = t ++ y :: d) ∨
      ∃ t, a = c ++ y :: t ∧ d = t ++ x :: b := by
  rcases append_eq_append_iff.mp h with ⟨t, hc, hb⟩ | ⟨t, ha, hd⟩
  · cases t with
    | nil =>
      obtain ⟨hxy, hbd⟩ := List.cons.inj hb
      exact .inl ⟨by simpa using hc.symm, hxy, hbd⟩
    | cons z t =>
      obtain ⟨rfl, hrest⟩ := List.cons.inj hb
      exact .inr (.inl ⟨t, hc, hrest⟩)
  · cases t with
    | nil =>
      obtain ⟨hyx, hdb⟩ := List.cons.inj hd
      exact .inl ⟨by simpa using ha, hyx.symm, hdb.symm⟩
    | cons z t =>
      obtain ⟨rfl, hrest⟩ := List.cons.inj hd
      exact .inr (.inr ⟨t, ha, hrest⟩)

/-- Along a list, each step may use what holds after all shorter parts. -/
theorem fold_induction {P : List γ → Prop} {l : List γ} (hnil : P [])
    (hstep : ∀ pre x post, l = pre ++ x :: post → (∀ p q, pre = p ++ q → P p) → P (pre ++ [x]))
    {pre post : List γ} (h : l = pre ++ post) : P pre := by
  have hall : ∀ p q, pre = p ++ q → P p := by
    induction pre using List.reverseRecOn generalizing post with
    | nil =>
      intro p q hpq
      rw [(append_eq_nil_iff.mp hpq.symm).1]
      exact hnil
    | append_singleton pre x ih =>
      have hsp : l = pre ++ x :: post := by simpa using h
      intro p q hpq
      rcases eq_nil_or_concat q with rfl | ⟨q, y, rfl⟩
      · rw [append_nil] at hpq
        rw [← hpq]
        exact hstep pre x post hsp (ih hsp)
      · rw [concat_eq_append, ← append_assoc] at hpq
        exact ih hsp p q (append_inj' hpq rfl).1
  exact hall pre [] (by simp)

/-- Whether a relation holds of all triples of a list, in order. -/
instance decidableTriplewise {P : γ → γ → γ → Prop} [∀ a b c, Decidable (P a b c)] :
    (l : List γ) → Decidable (l.Triplewise P)
  | [] => .isTrue .nil
  | a :: l =>
    have : Decidable (l.Triplewise P) := decidableTriplewise l
    decidable_of_iff (l.Pairwise (P a) ∧ l.Triplewise P) List.triplewise_cons.symm

end Lists

structure Entry (ι Env : Type) (Res : Op → Type) where
  caller : ι
  env : Env
  event : Sigma Res

structure Config (σ ι Env : Type) (Res : Op → Type) (α : Type) where
  state : σ
  calls : ι → Prog Op Res α
  log : List (Entry ι Env Res)

def start (s : σ) (calls : ι → Prog Op Res α) : Config σ ι Env Res α := ⟨s, calls, []⟩

def replay (s : σ) (log : List (Entry ι Env Res)) : σ :=
  log.foldl (fun s en => (sem en.env en.event.1 s).2) s

section Replay

variable {sem : Env → (op : Op) → σ → Res op × σ} {s : σ} {log log' : List (Entry ι Env Res)}

theorem replay_append : replay sem s (log ++ log') = replay sem (replay sem s log) log' :=
  foldl_append

theorem replay_cons (en : Entry ι Env Res) :
    replay sem s (en :: log) = replay sem (sem en.env en.event.1 s).2 log :=
  rfl

theorem replay_concat (en : Entry ι Env Res) :
    replay sem s (log ++ [en]) = (sem en.env en.event.1 (replay sem s log)).2 := by
  rw [replay_append]
  rfl

theorem replay_invariant {inv : σ → Prop} (hs : inv s)
    (hstep : ∀ en ∈ log, ∀ s, inv s → inv (sem en.env en.event.1 s).2) :
    inv (replay sem s log) := by
  induction log generalizing s with
  | nil => exact hs
  | cons en log ih =>
    exact ih (hstep en (.head _) s hs) fun en' hen' => hstep en' (.tail _ hen')

end Replay

variable [DecidableEq ι]

def step (c : Config σ ι Env Res α) (i : ι) (e : Env) : Option (Config σ ι Env Res α) :=
  match c.calls i with
  | .ret _ => none
  | .call op k =>
    let r := sem e op c.state
    some ⟨r.2, Function.update c.calls i (k r.1), c.log ++ [⟨i, e, ⟨op, r.1⟩⟩]⟩

def run (c : Config σ ι Env Res α) : List (ι × Env) → Option (Config σ ι Env Res α)
  | [] => some c
  | (i, e) :: sched => (step sem c i e).bind fun c => run c sched

def events (i : ι) (log : List (Entry ι Env Res)) : List (Sigma Res) :=
  (log.filter (·.caller = i)).map (·.event)

/-- The log is a history of the state, and for each call the path it has taken. -/
structure Interleaving (s : σ) (calls : ι → Prog Op Res α) (c : Config σ ι Env Res α) : Prop where
  state : c.state = replay sem s c.log
  result : ∀ pre en post, c.log = pre ++ en :: post →
    en.event.2 = (sem en.env en.event.1 (replay sem s pre)).1
  path : ∀ i, (calls i).Path (events i c.log) (c.calls i)

section Interleaving

variable {sem : Env → (op : Op) → σ → Res op × σ} {s : σ} {calls : ι → Prog Op Res α}
  {c c' : Config σ ι Env Res α} {i : ι} {e : Env} {en : Entry ι Env Res}
  {log pre post : List (Entry ι Env Res)} {ev : Sigma Res}

theorem events_append (i : ι) (log log' : List (Entry ι Env Res)) :
    events i (log ++ log') = events i log ++ events i log' := by
  simp [events]

theorem events_cons_self (en : Entry ι Env Res) (log : List (Entry ι Env Res)) :
    events en.caller (en :: log) = en.event :: events en.caller log := by
  simp [events]

theorem mem_events (h : ev ∈ events i log) :
    ∃ pre en post, log = pre ++ en :: post ∧ en.caller = i ∧ en.event = ev := by
  obtain ⟨en, hen, rfl⟩ := mem_map.mp h
  obtain ⟨hmem, hby⟩ := mem_filter.mp hen
  obtain ⟨pre, post, rfl⟩ := append_of_mem hmem
  exact ⟨pre, en, post, rfl, by simpa using hby, rfl⟩

theorem step_cases (h : step sem c i e = some c') :
    ∃ op k, c.calls i = .call op k ∧ c' = ⟨(sem e op c.state).2,
      Function.update c.calls i (k (sem e op c.state).1),
      c.log ++ [⟨i, e, ⟨op, (sem e op c.state).1⟩⟩]⟩ := by
  rw [step] at h
  split at h
  · cases h
  · rename_i op k hcall
    exact ⟨op, k, hcall, (Option.some.inj h).symm⟩

theorem Interleaving.refl (s : σ) (calls : ι → Prog Op Res α) :
    Interleaving sem s calls (start s calls) where
  state := rfl
  result := by
    intro pre en post h
    exact absurd h (by simp [start])
  path i := .nil _

theorem Interleaving.step (hc : Interleaving sem s calls c) (h : step sem c i e = some c') :
    Interleaving sem s calls c' := by
  obtain ⟨op, k, hcall, rfl⟩ := step_cases h
  refine ⟨?_, fun pre en post hsp => ?_, fun j => ?_⟩
  · rw [replay_concat, ← hc.state]
  · rcases eq_nil_or_concat post with rfl | ⟨post, en', rfl⟩
    · obtain ⟨hpre, hen⟩ := append_inj' hsp rfl
      cases hen
      rw [← hpre, ← hc.state]
    · rw [concat_eq_append, ← cons_append, ← append_assoc] at hsp
      exact hc.result pre en post (append_inj' hsp rfl).1
  · rw [events_append]
    by_cases hij : j = i
    · subst hij
      have hpath := hc.path j
      rw [hcall] at hpath
      simpa [events] using hpath.snoc _
    · simpa [events, Ne.symm hij, Function.update_of_ne hij] using hc.path j

variable {sched : List (ι × Env)} {p : Prog Op Res α} {es : List Env} {t : σ} {a : α}

theorem Interleaving.run (hc : Interleaving sem s calls c) (h : run sem c sched = some c') :
    Interleaving sem s calls c' := by
  induction sched generalizing c with
  | nil =>
    cases h
    exact hc
  | cons x sched ih =>
    obtain ⟨c₁, hstep, h⟩ := Option.bind_eq_some_iff.mp h
    exact ih (hc.step hstep) h

theorem run_interleaving (h : Interleave.run sem (start s calls) sched = some c) :
    Interleaving sem s calls c :=
  (Interleaving.refl s calls).run h

section

variable (hc : Interleaving sem s calls c)

include hc

theorem Interleaving.answer {op : Op} {r : Res op}
    (hsp : c.log = pre ++ en :: post) (hen : en.event = ⟨op, r⟩) :
    (sem en.env op (replay sem s pre)).1 = r := by
  obtain ⟨i, e, ev⟩ := en
  subst hen
  exact (hc.result _ _ _ hsp).symm

theorem Interleaving.answered {op : Op} {r : Res op}
    (hsp : c.log = log ++ post) (h : ⟨op, r⟩ ∈ events i log) :
    ∃ pre en mid, log = pre ++ en :: mid ∧ en.caller = i ∧ en.event = ⟨op, r⟩ ∧
      (sem en.env op (replay sem s pre)).1 = r := by
  obtain ⟨pre, en, mid, rfl, hby, hen⟩ := mem_events h
  have hlog : c.log = pre ++ en :: (mid ++ post) := by simpa using hsp
  exact ⟨pre, en, mid, rfl, hby, hen, hc.answer hlog hen⟩

theorem Interleaving.answered_log {op : Op} {r : Res op}
    (h : ⟨op, r⟩ ∈ events i c.log) : ∃ pre en mid, c.log = pre ++ en :: mid ∧ en.caller = i ∧
      en.event = ⟨op, r⟩ ∧ (sem en.env op (replay sem s pre)).1 = r :=
  hc.answered (append_nil c.log).symm h

end

theorem Interleaving.continues {q : Prog Op Res α} {c : Config σ Unit Env Res α}
    (hc : Interleaving sem s (fun _ => p) c) (hq : c.calls () = q)
    (h : exec sem q es c.state = some (a, t)) :
    ∃ c' : Config σ Unit Env Res α, Interleaving sem s (fun _ => p) c' ∧ c'.calls () = .ret a ∧
      c'.state = t ∧ c'.log.map (·.env) = c.log.map (·.env) ++ es := by
  induction es generalizing c q with
  | nil =>
    cases q with
    | ret b =>
      cases h
      exact ⟨c, hc, hq, rfl, by simp⟩
    | call op k => cases h
  | cons e es ih =>
    cases q with
    | ret b => cases h
    | call op k =>
      have hstep : Interleave.step sem c () e = some ⟨(sem e op c.state).2,
          Function.update c.calls () (k (sem e op c.state).1),
          c.log ++ [⟨(), e, ⟨op, (sem e op c.state).1⟩⟩]⟩ := by rw [Interleave.step, hq]
      obtain ⟨c', hc', hret, hst, henvs⟩ := ih (hc.step hstep) (by simp) h
      exact ⟨c', hc', hret, hst, by simpa using henvs⟩

theorem exec_interleaving (h : exec sem p es s = some (a, t)) :
    ∃ c : Config σ Unit Env Res α, Interleaving sem s (fun _ => p) c ∧ c.calls () = .ret a ∧
      c.state = t ∧ c.log.map (·.env) = es := by
  simpa [start] using (Interleaving.refl s fun _ : Unit => p).continues rfl h

variable {guar : List (Sigma Res) → Op → Prop} {ret : List (Sigma Res) → α → Prop}

/-- An operation of call `i` comes after a history of `i` that its specification allows. -/
theorem Interleaving.guarantee (hc : Interleaving sem s calls c)
    (hspec : (calls en.caller).Spec guar ret []) (hsp : c.log = pre ++ en :: post) :
    guar (events en.caller pre) en.event.1 := by
  have hpath := hc.path en.caller
  rw [hsp, events_append, events_cons_self] at hpath
  exact hspec.guarantee hpath

theorem Interleaving.returns (hc : Interleaving sem s calls c) (hspec : (calls i).Spec guar ret [])
    (hret : c.calls i = .ret a) : ret (events i c.log) a := by
  have hpath := hc.path i
  rw [hret] at hpath
  exact hspec.returns hpath

end Interleaving

end Interleave
