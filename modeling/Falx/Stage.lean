import Mathlib.Logic.Function.Basic

/-! Pipelines of stages. A stage either decides with a verdict or hands the
state on to the next stage, possibly changed. A guarded stage is skipped in the
states that fail its condition. -/

def Stage (σ ν : Type) := σ → Option ν × σ

namespace Stage

variable {σ ν μ : Type} {Q : σ → Bool → σ → Prop}

def andThen (s t : Stage σ ν) : Stage σ ν := fun x =>
  match s x with
  | (some v, y) => (some v, y)
  | (none, y) => t y

def guarded (p : σ → Prop) [DecidablePred p] (s : Stage σ ν) : Stage σ ν := fun x =>
  if p x then s x else (none, x)

def mapVerdict (g : ν → μ) (s : Stage σ ν) : Stage σ μ := fun x => ((s x).1.map g, (s x).2)

def onDecision (f : ν → σ → σ) (s : Stage σ ν) : Stage σ ν := fun x =>
  match s x with
  | (some v, y) => (some v, f v y)
  | (none, y) => (none, y)

variable {s t : Stage σ ν} {x : σ} {p : σ → Prop} {f : ν → σ → σ}

theorem andThen_of_some {v : ν} (h : (s x).1 = some v) : s.andThen t x = s x := by
  have hs : s x = (some v, (s x).2) := Prod.ext h rfl
  rw [andThen, hs]

theorem andThen_of_none (h : (s x).1 = none) : s.andThen t x = t (s x).2 := by
  have hs : s x = (none, (s x).2) := Prod.ext h rfl
  rw [andThen, hs]

theorem onDecision_fst (f : ν → σ → σ) (s : Stage σ ν) (x : σ) :
    (s.onDecision f x).1 = (s x).1 := by
  simp only [onDecision]
  split <;> rename_i h <;> simp [h]

/-- The stage relates every state it is given, and whether it decides there, to
the state it leaves. -/
def Respects (Q : σ → Bool → σ → Prop) (s : Stage σ ν) : Prop :=
  ∀ x, Q x (s x).1.isSome (s x).2

theorem Respects.andThen (htr : ∀ x y z b, Q x false y → Q y b z → Q x b z) (hs : Respects Q s)
    (ht : Respects Q t) : Respects Q (s.andThen t) := by
  intro x
  have hx := hs x
  cases h : (s x).1 with
  | some v => rw [andThen_of_some h]; exact hx
  | none =>
    rw [h] at hx
    rw [andThen_of_none h]
    exact htr _ _ _ _ hx (ht _)

theorem Respects.guarded (hrefl : ∀ x, Q x false x) [DecidablePred p]
    (hs : ∀ x, p x → Q x (s x).1.isSome (s x).2) : Respects Q (s.guarded p) := by
  intro x
  by_cases hp : p x
  · rw [Stage.guarded, if_pos hp]; exact hs x hp
  · rw [Stage.guarded, if_neg hp]; exact hrefl x

theorem Respects.mapVerdict (hs : Respects Q s) (g : ν → μ) : Respects Q (s.mapVerdict g) := by
  intro x
  simpa only [Stage.mapVerdict, Option.isSome_map] using hs x

theorem Respects.onDecision (hs : Respects Q s) (hf : ∀ v x b y, Q x b y → Q x b (f v y)) :
    Respects Q (s.onDecision f) := by
  intro x
  have hx := hs x
  simp only [Stage.onDecision]
  split <;> rename_i h <;> rw [h] at hx
  · exact hf _ _ _ _ hx
  · exact hx

/-- From a state in `I` the stage hands on a state in `J` or decides in `K`. -/
def Triple (I : σ → Prop) (s : Stage σ ν) (J K : σ → Prop) : Prop :=
  ∀ x, I x → ((s x).1 = none → J (s x).2) ∧ (∀ v, (s x).1 = some v → K (s x).2)

variable {I J K L : σ → Prop}

theorem Triple.post (h : Triple I s J J) (hx : I x) : J (s x).2 := by
  obtain ⟨hnone, hsome⟩ := h x hx
  cases hv : (s x).1 with
  | none => exact hnone hv
  | some v => exact hsome v hv

theorem Triple.of_respects (h : Respects (fun x _ y => I x → I y) s) (hK : ∀ x, I x → K x) :
    Triple I s I K := by
  intro x hx
  exact ⟨fun _ => h x hx, fun _ _ => hK _ (h x hx)⟩

theorem Triple.andThen (hs : Triple I s J K) (ht : Triple J t L K) :
    Triple I (s.andThen t) L K := by
  intro x hx
  obtain ⟨hnone, hsome⟩ := hs x hx
  cases hv : (s x).1 with
  | some v =>
    rw [andThen_of_some hv]
    exact ⟨fun h => absurd (hv.symm.trans h) (Option.some_ne_none v), fun _ _ => hsome v hv⟩
  | none =>
    rw [andThen_of_none hv]
    exact ht _ (hnone hv)

theorem Triple.guarded [DecidablePred p] (hs : Triple (fun x => I x ∧ p x) s J K)
    (hskip : ∀ x, I x → ¬ p x → J x) : Triple I (s.guarded p) J K := by
  intro x hx
  by_cases hp : p x
  · rw [Stage.guarded, if_pos hp]
    exact hs x ⟨hx, hp⟩
  · rw [Stage.guarded, if_neg hp]
    exact ⟨fun _ => hskip x hx hp, fun v hv => absurd hv.symm (Option.some_ne_none v)⟩

theorem Triple.mapVerdict (hs : Triple I s J K) (g : ν → μ) : Triple I (s.mapVerdict g) J K := by
  intro x hx
  obtain ⟨hnone, hsome⟩ := hs x hx
  refine ⟨fun h => hnone (Option.map_eq_none_iff.mp h), ?_⟩
  intro v hv
  obtain ⟨w, hw, -⟩ := Option.map_eq_some_iff.mp hv
  exact hsome w hw

theorem Triple.onDecision (hs : Triple I s J K) (hf : ∀ v x, K x → K (f v x)) :
    Triple I (s.onDecision f) J K := by
  intro x hx
  obtain ⟨hnone, hsome⟩ := hs x hx
  simp only [Stage.onDecision]
  split <;> rename_i h <;> rw [h] at hnone hsome
  · exact ⟨fun hv => absurd hv (Option.some_ne_none _), fun _ _ => hf _ _ (hsome _ rfl)⟩
  · exact ⟨fun _ => hnone rfl, fun v hv => absurd hv.symm (Option.some_ne_none v)⟩

theorem Triple.checked {q : Prop} [Decidable q] {c : Stage σ μ} {g : μ → ν}
    (hf : ∀ v x, K x → K (f v x)) (h : q → Triple I c J K) (hskip : ¬ q → ∀ x, I x → J x) :
    Triple I (((c.mapVerdict g).onDecision f).guarded fun _ => q) J K := by
  refine Triple.guarded ?_ fun x hx hq => hskip hq x hx
  intro x hx
  exact ((h hx.2).mapVerdict g).onDecision hf x hx.1

def Verdicts (P : σ → ν → Prop) (s : Stage σ ν) : Prop := ∀ x v, (s x).1 = some v → P x v

variable {P : σ → ν → Prop}

theorem Verdicts.andThen (hs : Verdicts P s) (ht : Verdicts P t)
    (hback : ∀ x v, P (s x).2 v → P x v) : Verdicts P (s.andThen t) := by
  intro x v h
  cases hv : (s x).1 with
  | some w =>
    rw [andThen_of_some hv] at h
    exact hs x v h
  | none =>
    rw [andThen_of_none hv] at h
    exact hback x v (ht _ v h)

theorem Verdicts.guarded [DecidablePred p] (hs : Verdicts P s) : Verdicts P (s.guarded p) := by
  intro x v h
  by_cases hp : p x
  · rw [Stage.guarded, if_pos hp] at h
    exact hs x v h
  · rw [Stage.guarded, if_neg hp] at h
    cases h

theorem Verdicts.onDecision (hs : Verdicts P s) : Verdicts P (s.onDecision f) := by
  intro x v h
  rw [onDecision_fst] at h
  exact hs x v h

theorem Verdicts.mapVerdict {R : σ → μ → Prop} {g : ν → μ}
    (hs : Verdicts (fun x v => R x (g v)) s) : Verdicts R (s.mapVerdict g) := by
  intro x v h
  obtain ⟨w, hw, rfl⟩ := Option.map_eq_some_iff.mp h
  exact hs x w hw

/-- Handing on relates the states by `U`; a decision relates them and the verdict by `D`. -/
def Ends (U : σ → σ → Prop) (D : σ → ν → σ → Prop) (x : σ) : Option ν × σ → Prop
  | (none, y) => U x y
  | (some v, y) => D x v y

def Outcomes (U : σ → σ → Prop) (D : σ → ν → σ → Prop) (s : Stage σ ν) : Prop :=
  ∀ x, Ends U D x (s x)

section Outcomes

variable {U : σ → σ → Prop} {D D' : σ → ν → σ → Prop}

theorem Outcomes.andThen {s t : Stage σ ν} (hs : Outcomes U D s) (ht : Outcomes U D' t)
    (htr : ∀ x y z, U x y → U y z → U x z) (hback : ∀ x y v z, U x y → D' y v z → D x v z) :
    Outcomes U D (s.andThen t) := by
  intro x
  have hx := hs x
  simp only [Stage.andThen]
  split <;> rename_i h <;> rw [h] at hx
  · exact hx
  · rename_i y
    have hy := ht y
    rcases ht' : t y with ⟨_ | v, z⟩ <;> rw [ht'] at hy
    · exact htr _ _ _ hx hy
    · exact hback _ _ _ _ hx hy

theorem Outcomes.guarded {p : σ → Prop} [DecidablePred p] {s : Stage σ ν} (hrefl : ∀ x, U x x)
    (hs : ∀ x, p x → Ends U D x (s x)) : Outcomes U D (s.guarded p) := by
  intro x
  by_cases hp : p x
  · rw [Stage.guarded, if_pos hp]
    exact hs x hp
  · rw [Stage.guarded, if_neg hp]
    exact hrefl x

theorem Outcomes.mapVerdict {E : σ → μ → σ → Prop} {s : Stage σ ν} {g : ν → μ}
    (hs : Outcomes U D s) (hg : ∀ x v y, D x v y → E x (g v) y) :
    Outcomes U E (s.mapVerdict g) := by
  intro x
  have hx := hs x
  rw [Stage.mapVerdict]
  rcases h : s x with ⟨_ | v, y⟩ <;> rw [h] at hx
  · exact hx
  · exact hg _ _ _ hx

theorem Outcomes.onDecision {f : ν → σ → σ} {s : Stage σ ν} (hs : Outcomes U D s)
    (hf : ∀ x v y, D x v y → D' x v (f v y)) : Outcomes U D' (s.onDecision f) := by
  intro x
  have hx := hs x
  rw [Stage.onDecision]
  rcases h : s x with ⟨_ | v, y⟩ <;> rw [h] at hx
  · exact hx
  · exact hf _ _ _ hx

end Outcomes

end Stage
