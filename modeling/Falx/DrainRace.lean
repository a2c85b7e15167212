import Falx.Unsubscribe

/-! `Unsubscribe` empties the channel in a loop that looks at its length and then receives. A
consumer may take the last event in between. -/

namespace Falx

namespace EventBus

def PublishPhase.target : PublishPhase → Option Nat
  | .checked _ k _ => some k
  | _ => none

def Step.publishes : Step → Bool
  | .spawn | .publish _ _ _ _ | .snapshot _ | .check _ | .send _ | .countDrop _ | .finish _ => true
  | _ => false

namespace System

variable {s s' : System} {e : Step} {c k : Nat} {sub : Subscriber}

def Blocked (c k : Nat) (s : System) : Prop :=
  s.unsubscribes[c]? = some (k, .draining) ∧
    ∃ sub, s.subs[k]? = some sub ∧ sub.ch.buffer = [] ∧ sub.ch.closed = false

/-- No publisher can put an event into the channel, however many steps publishers take. -/
def Unfed (k : Nat) (s : System) : Prop :=
  ∀ es s', (∀ e ∈ es, Step.publishes e = true) → StepRun.run exec s es = some s' →
    s'.subs[k]?.map (·.ch.passed) = s.subs[k]?.map (·.ch.passed)

def OneCall (k : Nat) (s : System) (e : Step) : Prop :=
  e = .unsubscribe k → ∀ x ∈ s.unsubscribes, x.1 ≠ k

/-- While the call is about to receive, a consumer takes an event only if another is there. -/
def Spares (k : Nat) (s : System) (e : Step) : Prop :=
  e = .receive k → (k, .draining) ∈ s.unsubscribes →
    ∀ sub ∈ s.subs[k]?, 2 ≤ sub.ch.buffer.length

instance (k : Nat) (s : System) (e : Step) : Decidable (OneCall k s e) :=
  inferInstanceAs (Decidable (_ → _))

instance (k : Nat) (s : System) (e : Step) : Decidable (Spares k s e) :=
  inferInstanceAs (Decidable (_ → _ → _))

theorem Acts.buffer (h : Acts s e s') (hj : s.subs[k]? = some sub) (he : e ≠ .receive k)
    (hc : ∀ c, e = .unsubscribeStep c → s.unsubscribes[c]? ≠ some (k, .draining)) :
    ∃ sub', s'.subs[k]? = some sub' ∧ (sub.ch.buffer ≠ [] → sub'.ch.buffer ≠ []) := by
  have hsame : ∃ sub', s.subs[k]? = some sub' ∧ (sub.ch.buffer ≠ [] → sub'.ch.buffer ≠ []) :=
    ⟨sub, hj, id⟩
  have hset : ∀ {j : Nat} {old new : Subscriber}, s.subs[j]? = some old →
      (k = j → old.ch.buffer ≠ [] → new.ch.buffer ≠ []) →
      ∃ sub', (s.subs.set j new)[k]? = some sub' ∧ (sub.ch.buffer ≠ [] → sub'.ch.buffer ≠ []) := by
    intro j old new hold hnew
    by_cases hjk : j = k
    · subst hjk
      cases hold.symm.trans hj
      exact ⟨new, List.getElem?_set_self (List.getElem?_eq_some_iff.mp hj).1, hnew rfl⟩
    · exact ⟨sub, (List.getElem?_set_ne hjk).trans hj, id⟩
  cases h with
  | subscribe =>
    have hlt : k < s.subs.length := (List.getElem?_eq_some_iff.mp hj).1
    exact ⟨sub, (List.getElem?_append_left hlt).trans hj, id⟩
  | deliver hp hsub hch => exact hset hsub fun _ hne => GoChannel.buffer_trySend hne hch
  | receive hsub => exact hset hsub fun hkj => absurd (congrArg Step.receive hkj.symm) he
  | giveUp hsub | mark hd hsub => exact hset hsub fun _ => id
  | drain hd hsub hch => exact hset hsub fun hkj => absurd (hkj ▸ hd) (hc _ rfl)
  | close hd hsub hch => exact hset hsub fun _ hne => (GoChannel.buffer_close hch).symm ▸ hne
  | spawn | publish hp | snapshot hp | refuse hp | count hp | finish hp
  | skip hp hsub hshut | check hp hsub hopen | unsubscribe hk
  | remove hd hsub | test hd hsub => exact hsame

structure Fed (k : Nat) (s : System) : Prop where
  once : ∀ (c d : Nat) (x y : UnsubscribePhase), s.unsubscribes[c]? = some (k, x) →
    s.unsubscribes[d]? = some (k, y) → c = d
  fed : ∀ c : Nat, s.unsubscribes[c]? = some (k, .draining) →
    ∃ sub, s.subs[k]? = some sub ∧ sub.ch.buffer ≠ []

theorem Fed.newBus (k : Nat) : Fed k newBus where
  once c d x y h := by cases h
  fed c h := by cases h

theorem Acts.calls (h : Acts s e s') {x : Nat × UnsubscribePhase}
    (hx : s'.unsubscribes[c]? = some x) :
    (∃ phase, s.unsubscribes[c]? = some (x.1, phase)) ∨
      e = .unsubscribe x.1 ∧ x.2 = .marking ∧ c = s.unsubscribes.length := by
  have hset : ∀ {d j : Nat} {old new : UnsubscribePhase}, s.unsubscribes[d]? = some (j, old) →
      (s.unsubscribes.set d (j, new))[c]? = some x →
      ∃ phase, s.unsubscribes[c]? = some (x.1, phase) := by
    intro d j old new hold hnew
    by_cases hdc : d = c
    · subst hdc
      rw [List.getElem?_set_self (List.getElem?_eq_some_iff.mp hold).1] at hnew
      cases hnew
      exact ⟨old, hold⟩
    · rw [List.getElem?_set_ne hdc] at hnew
      exact ⟨x.2, hnew⟩
  cases h with
  | unsubscribe hk =>
    rw [List.getElem?_append] at hx
    split at hx
    · exact .inl ⟨x.2, hx⟩
    · rename_i hge
      have hlt : c - s.unsubscribes.length < 1 := (List.getElem?_eq_some_iff.mp hx).1
      cases List.mem_singleton.mp (List.mem_of_getElem? hx)
      exact .inr ⟨rfl, rfl, by omega⟩
  | mark hd hsub | remove hd hsub | test hd hsub
  | drain hd hsub hch | close hd hsub hch => exact .inl (hset hd hx)
  | spawn | subscribe | publish hp | snapshot hp | refuse hp | count hp | finish hp =>
    exact .inl ⟨x.2, hx⟩
  | skip hp hsub hshut | check hp hsub hopen | deliver hp hsub hch
  | receive hsub | giveUp hsub => exact .inl ⟨x.2, hx⟩

theorem Fed.once_acts (hs : Fed k s) (he : OneCall k s e) (h : Acts s e s') {d : Nat}
    {x y : UnsubscribePhase} (hc : s'.unsubscribes[c]? = some (k, x))
    (hd : s'.unsubscribes[d]? = some (k, y)) : c = d := by
  have hnew : e = .unsubscribe k → ∀ {b phase}, s.unsubscribes[b]? ≠ some (k, phase) :=
    fun hek _ _ hb => he hek _ (List.mem_of_getElem? hb) rfl
  rcases h.calls hc with ⟨x', hc'⟩ | ⟨hek, -, rfl⟩ <;>
    rcases h.calls hd with ⟨y', hd'⟩ | ⟨hek', -, rfl⟩
  · exact hs.once c d x' y' hc' hd'
  · exact absurd hc' (hnew hek')
  · exact absurd hd' (hnew hek)
  · rfl

theorem Fed.fed_acts (hs : Fed k s) (hsp : Spares k s e) (h : Acts s e s')
    (hc : s'.unsubscribes[c]? = some (k, .draining)) :
    ∃ sub, s'.subs[k]? = some sub ∧ sub.ch.buffer ≠ [] := by
  by_cases hown : e = .unsubscribeStep c
  · -- only the test of the length leads to the receive
    subst hown
    cases h with
    | @test _ j sub hd hsub =>
      rw [call_setCall hd] at hc
      split at hc
      · rename_i hlen
        cases hc
        exact ⟨sub, hsub, List.ne_nil_of_length_pos hlen⟩
      · cases hc
    | mark hd hsub | remove hd hsub
    | drain hd hsub hch | close hd hsub hch => cases (call_setCall hd).symm.trans hc
  · have hpre : s.unsubscribes[c]? = some (k, .draining) := by
      rcases h.calls hc with ⟨phase, hc'⟩ | ⟨-, hph, -⟩
      · cases (h.call_of_ne hown hc').symm.trans hc
        exact hc'
      · cases hph
    obtain ⟨sub, hsub, hne⟩ := hs.fed c hpre
    by_cases hreceive : e = .receive k
    · subst hreceive
      have hlen := hsp rfl (List.mem_of_getElem? hpre) sub hsub
      cases h with
      | receive hsub' =>
        cases hsub.symm.trans hsub'
        exact ⟨_, List.getElem?_set_self (List.getElem?_eq_some_iff.mp hsub).1,
          GoChannel.buffer_receive_ne hlen⟩
    · obtain ⟨sub', hsub', hkept⟩ := h.buffer hsub hreceive fun d hd hdraining => by
        have hdc := hs.once d c _ _ hdraining hpre
        exact hown (hdc ▸ hd)
      exact ⟨sub', hsub', hkept hne⟩

theorem Fed.run {es : List Step} (hs : Fed k s)
    (hes : StepRun.Along exec (fun s e => OneCall k s e ∧ Spares k s e) s es)
    (h : StepRun.run exec s es = some s') : Fed k s' := by
  refine hes.invariant (fun s e s' hs he h => ?_) hs h
  have hacts := Acts.of_exec h
  exact ⟨fun _ _ _ _ => hs.once_acts he.1 hacts, fun _ => hs.fed_acts he.2 hacts⟩

theorem unsubscribe_not_stuck {es : List Step}
    (hes : StepRun.Along exec (fun s e => OneCall k s e ∧ Spares k s e) newBus es)
    (hrun : StepRun.run exec newBus es = some s) : ¬ (Blocked c k s ∧ Unfed k s) := by
  rintro ⟨⟨hc, sub, hsub, hnil, -⟩, -⟩
  obtain ⟨sub', hsub', hne⟩ := ((Fed.newBus k).run hes hrun).fed c hc
  cases hsub.symm.trans hsub'
  exact hne hnil

def drainEvent (id : String) : Event := ⟨id, "auth.login", zeroTime, "info", "", "", "", "", []⟩

def publishTo (id : String) : List Step :=
  [.publish 0 (drainEvent id) "" zeroTime, .snapshot 0, .check 0, .send 0, .finish 0]

def untilDrain (ids : List String) : List Step :=
  [.subscribe "a" 2 ["auth.login"], .spawn] ++ ids.flatMap publishTo ++
    [.unsubscribe 0, .unsubscribeStep 0, .unsubscribeStep 0, .unsubscribeStep 0, .receive 0]

theorem unsubscribe_not_stuck_two : ∃ s,
    StepRun.run exec newBus (untilDrain ["x", "y"]) = some s ∧
      s.unsubscribes = [(0, .draining)] ∧ ¬ (Blocked 0 0 s ∧ Unfed 0 s) := by
  have hany : (StepRun.run exec newBus (untilDrain ["x", "y"])).any (fun s =>
      decide (s.unsubscribes = [(0, .draining)])) = true := by decide +kernel
  obtain ⟨s, hrun, hs⟩ := Option.any_eq_true _ _ |>.mp hany
  exact ⟨s, hrun, of_decide_eq_true hs, unsubscribe_not_stuck (by decide +kernel) hrun⟩

structure Sealed (k : Nat) (sub : Subscriber) (s : System) : Prop where
  listed : s.subs[k]? = some sub
  marked : sub.closed = true
  past : ∀ q ∈ s.publishers, q.phase.target ≠ some k

theorem target_setPhase {p n : Nat} {phase : PublishPhase}
    (hs : ∀ q ∈ s.publishers, q.phase.target ≠ some k) (hph : phase.target ≠ some k) :
    ∀ q ∈ (s.setPhase p n phase).publishers, q.phase.target ≠ some k := by
  intro q hq
  rcases List.mem_or_eq_of_mem_set hq with hmem | rfl
  · exact hs q hmem
  · exact hph

theorem Sealed.acts (hs : Sealed k sub s) (he : e.publishes = true) (h : Acts s e s') :
    Sealed k sub s' := by
  have hph : ∀ {p n : Nat} {phase : PublishPhase}, phase.target ≠ some k →
      Sealed k sub (s.setPhase p n phase) :=
    fun hph => ⟨hs.listed, hs.marked, target_setPhase hs.past hph⟩
  have hnone : (none : Option Nat) ≠ some k := nofun
  cases h with
  | spawn =>
    refine ⟨hs.listed, hs.marked, fun q hq => ?_⟩
    rcases List.mem_append.mp hq with hmem | hmem
    · exact hs.past q hmem
    · cases List.mem_singleton.mp hmem
      exact hnone
  | publish hp | refuse hp | finish hp => exact hph hnone
  | snapshot hp | count hp => exact ⟨hs.listed, hs.marked, target_setPhase hs.past hnone⟩
  | skip hp hsub hshut => exact hph hnone
  | @check p n j pub rest sub' hp hsub hopen =>
    refine hph fun hj => ?_
    cases hj
    cases hsub.symm.trans hs.listed
    exact Bool.false_ne_true (hopen.symm.trans hs.marked)
  | @deliver p n j pub rest sub' ch hp hsub hch =>
    have hne : j ≠ k := fun hjk => hs.past _ (List.mem_of_getElem? hp) (congrArg some hjk)
    exact ⟨(List.getElem?_set_ne hne).trans hs.listed, hs.marked, target_setPhase hs.past hnone⟩
  | subscribe | receive hsub | giveUp hsub | unsubscribe hk
  | mark hd hsub | remove hd hsub | test hd hsub | drain hd hsub hch | close hd hsub hch => cases he

theorem Sealed.unfed (hs : Sealed k sub s) : Unfed k s := by
  intro es s' hes hrun
  have hend : Sealed k sub s' :=
    StepRun.run_invariant (fun _ _ _ hs he h => hs.acts he (Acts.of_exec h)) hes hs hrun
  rw [hend.listed, hs.listed]

/-- The consumer takes the only event between the test of the length and the receive. -/
theorem unsubscribe_stuck : ∃ s,
    StepRun.run exec newBus (untilDrain ["x"]) = some s ∧
      StepRun.Along exec (OneCall 0) newBus (untilDrain ["x"]) ∧ Blocked 0 0 s ∧ Unfed 0 s := by
  have hany : (StepRun.run exec newBus (untilDrain ["x"])).any (fun s =>
      decide (s.unsubscribes[0]? = some (0, .draining) ∧
        ∀ q ∈ s.publishers, q.phase.target ≠ some 0) &&
      s.subs[0]?.any fun sub =>
        decide (sub.ch.buffer = [] ∧ sub.ch.closed = false ∧ sub.closed = true)) = true := by
    decide +kernel
  obtain ⟨s, hrun, hs⟩ := Option.any_eq_true _ _ |>.mp hany
  obtain ⟨hcs, hsubs⟩ := Bool.and_eq_true_iff.mp hs
  obtain ⟨hc, hpast⟩ := of_decide_eq_true hcs
  obtain ⟨sub, hsub, hch⟩ := Option.any_eq_true _ _ |>.mp hsubs
  obtain ⟨hnil, hopen, hmarked⟩ := of_decide_eq_true hch
  have hsealed : Sealed 0 sub s := ⟨hsub, hmarked, hpast⟩
  exact ⟨s, hrun, by decide +kernel, ⟨hc, sub, hsub, hnil, hopen⟩, hsealed.unfed⟩

end System

end EventBus

end Falx
