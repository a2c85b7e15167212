import Falx.EventBus

/-! No event of the bus is lost without being counted, as long as nobody unsubscribes and every
subscriber names its topics once. -/

namespace Falx

open List

namespace EventBus

def Step.Regular : Step → Prop
  | .subscribe _ _ topics => topics.Nodup
  | .unsubscribe _ | .unsubscribeStep _ => False
  | _ => True

instance : (e : Step) → Decidable e.Regular
  | .subscribe _ _ topics => inferInstanceAs (Decidable topics.Nodup)
  | .unsubscribe _ | .unsubscribeStep _ => isFalse not_false
  | .spawn | .publish _ _ _ _ | .snapshot _ | .check _ | .send _ | .countDrop _ | .finish _
  | .receive _ | .giveUp _ => isTrue trivial

def Publisher.outstanding (p : Publisher) : Nat :=
  match p.phase with
  | .idle | .started _ => 0
  | .sending _ subs => subs.length
  | .checked _ _ subs | .dropping _ subs => subs.length + 1

namespace System

def pairs (s : System) : Nat := (s.log.map fun e => e.2.length).sum

def received (s : System) : Nat := (s.subs.map fun sub => sub.ch.taken.length).sum

def buffered (s : System) : Nat := (s.subs.map fun sub => sub.ch.buffer.length).sum

def carried (s : System) : Nat := (s.subs.map fun sub => sub.ch.passed.length).sum

def outstanding (s : System) : Nat := (s.publishers.map Publisher.outstanding).sum

theorem carried_eq (s : System) : s.carried = s.received + s.buffered := by
  rw [carried, received, buffered]
  induction s.subs with
  | nil => rfl
  | cons sub subs ih =>
    have hlen : sub.ch.passed.length = sub.ch.taken.length + sub.ch.buffer.length :=
      length_append
    simp only [map_cons, sum_cons, ih, hlen]
    omega

section Lists

variable {α β : Type} {l : List α} {k : Nat} {a b : α}

theorem sum_map_set (f : α → Nat) (h : l[k]? = some a) :
    ((l.set k b).map f).sum + f a = (l.map f).sum + f b := by
  induction l generalizing k with
  | nil => cases h
  | cons x l ih =>
    cases k with
    | zero =>
      cases h
      simp only [set_cons_zero, map_cons, sum_cons]
      omega
    | succ k =>
      have hrest := ih h
      simp only [set_cons_succ, map_cons, sum_cons]
      omega

theorem map_set_eq {f : α → β} (h : l[k]? = some a) (hf : f b = f a) :
    (l.set k b).map f = l.map f := by
  induction l generalizing k with
  | nil => rfl
  | cons x l ih =>
    cases k with
    | zero =>
      cases h
      rw [set_cons_zero, map_cons, map_cons, hf]
    | succ k => rw [set_cons_succ, map_cons, map_cons, ih h]

end Lists

variable {s s' : System} {topic : Topic}

theorem registered_congr (h : s'.subs.map Subscriber.topics = s.subs.map Subscriber.topics) :
    s'.registered topic = s.registered topic := by
  have hlen : s'.subs.length = s.subs.length := by
    have := congrArg List.length h
    simpa only [length_map] using this
  have hany : ∀ (t : System) (k : Nat),
      (t.subs[k]?.any fun sub => decide (topic ∈ Subscriber.topics sub)) =
        (t.subs.map Subscriber.topics)[k]?.any fun topics => decide (topic ∈ topics) := by
    intro t k
    rw [List.getElem?_map, Option.any_map]
  simp only [registered, hlen, hany, h]

theorem registered_subscribe (id : String) (bufSize : Nat) (topics : List Topic) (s : System) :
    (s.subscribe id bufSize topics).registered topic =
      if topic ∈ topics then s.registered topic ++ [s.subs.length] else s.registered topic := by
  have hold : (List.range s.subs.length).filter (fun k =>
      (s.subs ++ [⟨id, topics, .make bufSize, false⟩])[k]?.any fun sub =>
        decide (topic ∈ sub.topics)) = s.registered topic := by
    refine filter_congr fun k hk => ?_
    rw [List.getElem?_append_left (mem_range.mp hk)]
  simp only [registered, subscribe, length_append, length_singleton, range_succ,
    filter_append, hold]
  by_cases ht : topic ∈ topics <;> simp [ht]

/-- The lists of the topics are those who named them, nobody is marked closed, and every pair of
an event and a subscriber is in a channel, counted as a drop or still in a publisher's hands. -/
structure Conserved (s : System) : Prop where
  registered : ∀ topic, s.subscribers topic = s.registered topic
  closed : ∀ sub ∈ s.subs, sub.closed = false
  balance : s.pairs = s.carried + s.dropped + s.outstanding

theorem Conserved.newBus : Conserved newBus where
  registered _ := rfl
  closed sub h := by cases h
  balance := rfl

variable {k p n m : Nat} {sub : Subscriber} {phase phase' : PublishPhase}
  {ch : GoChannel Publication} {pub : Publication} {rest : List Nat}

theorem Conserved.not_closed (hs : Conserved s) (hsub : s.subs[k]? = some sub) :
    ¬ sub.closed = true := by
  rw [hs.closed sub (mem_of_getElem? hsub)]
  exact Bool.false_ne_true

theorem outstanding_setPhase (h : s.publishers[p]? = some ⟨n, phase⟩) :
    (s.setPhase p m phase').outstanding + Publisher.outstanding ⟨n, phase⟩ =
      s.outstanding + Publisher.outstanding ⟨m, phase'⟩ :=
  sum_map_set Publisher.outstanding h

theorem Conserved.setPhase (hs : Conserved s) (h : s.publishers[p]? = some ⟨n, phase⟩)
    (heq : Publisher.outstanding ⟨n, phase⟩ = Publisher.outstanding ⟨m, phase'⟩) :
    Conserved (s.setPhase p m phase') := by
  refine ⟨hs.registered, hs.closed, ?_⟩
  have hbal := hs.balance
  have hout : (s.setPhase p m phase').outstanding + Publisher.outstanding ⟨n, phase⟩ =
      s.outstanding + Publisher.outstanding ⟨m, phase'⟩ := outstanding_setPhase h
  show s.pairs = s.carried + s.dropped + (s.setPhase p m phase').outstanding
  omega

theorem registered_setCh (h : s.subs[k]? = some sub) (ch : GoChannel Publication) :
    (s.setCh k sub ch).registered topic = s.registered topic :=
  registered_congr (map_set_eq h rfl)

theorem carried_setCh (h : s.subs[k]? = some sub) (ch : GoChannel Publication) :
    (s.setCh k sub ch).carried + sub.ch.passed.length = s.carried + ch.passed.length :=
  sum_map_set (fun sub => sub.ch.passed.length) h

section

variable (hs : Conserved s)

include hs

theorem Conserved.closed_setCh (h : s.subs[k]? = some sub)
    (ch : GoChannel Publication) : ∀ sub' ∈ (s.setCh k sub ch).subs, sub'.closed = false := by
  intro sub' hmem
  rcases mem_or_eq_of_mem_set hmem with hmem | rfl
  · exact hs.closed sub' hmem
  · exact hs.closed sub (mem_of_getElem? h)

theorem Conserved.setCh (h : s.subs[k]? = some sub)
    (hch : ch.passed = sub.ch.passed) : Conserved (s.setCh k sub ch) := by
  refine ⟨fun t => (hs.registered t).trans (registered_setCh h ch).symm, hs.closed_setCh h ch, ?_⟩
  have hcar := carried_setCh h ch
  have hbal := hs.balance
  rw [hch] at hcar
  show s.pairs = (s.setCh k sub ch).carried + s.dropped + s.outstanding
  omega

theorem Conserved.subscribe (id : String) (bufSize : Nat)
    {topics : List Topic} (hnd : topics.Nodup) : Conserved (s.subscribe id bufSize topics) := by
  refine ⟨fun t => ?_, fun sub hmem => ?_, ?_⟩
  · rw [registered_subscribe, ← hs.registered t, subscribers_subscribe, hnd.count]
    split
    · rfl
    · exact append_nil _
  · rcases mem_append.mp hmem with hmem | hmem
    · exact hs.closed sub hmem
    · rw [mem_singleton.mp hmem]
  · have hcar : (s.subscribe id bufSize topics).carried = s.carried := by
      simp [carried, System.subscribe]
    rw [hcar]
    exact hs.balance

theorem Conserved.snapshot (h : s.publishers[p]? = some ⟨n, .started pub⟩) :
    Conserved { s.setPhase p n (.sending pub (s.subscribers pub.event.topic)) with
      log := s.log ++ [(pub, s.registered pub.event.topic)] } := by
  refine ⟨hs.registered, hs.closed, ?_⟩
  have hout : (s.setPhase p n (.sending pub (s.subscribers pub.event.topic))).outstanding + 0 =
      s.outstanding + (s.subscribers pub.event.topic).length := outstanding_setPhase h
  have hpairs : (s.log ++ [(pub, s.registered pub.event.topic)]).map (fun e => e.2.length) =
      s.log.map (fun e => e.2.length) ++ [(s.registered pub.event.topic).length] := by simp
  have hbal := hs.balance
  have hregistered := congrArg List.length (hs.registered pub.event.topic)
  rw [pairs] at hbal
  show (((s.log ++ [(pub, s.registered pub.event.topic)]).map fun e => e.2.length).sum) =
    s.carried + s.dropped +
      (s.setPhase p n (.sending pub (s.subscribers pub.event.topic))).outstanding
  rw [hpairs, sum_append, sum_singleton]
  omega

theorem Conserved.delivered (h : s.publishers[p]? = some ⟨n, .checked pub k rest⟩)
    (hsub : s.subs[k]? = some sub) (hch : sub.ch.trySend pub = some ch) :
    Conserved ((s.setCh k sub ch).setPhase p n (.sending pub rest)) := by
  refine ⟨fun t => (hs.registered t).trans (registered_setCh hsub ch).symm,
    hs.closed_setCh hsub ch, ?_⟩
  have hcar := carried_setCh hsub ch
  have hout : ((s.setCh k sub ch).setPhase p n (.sending pub rest)).outstanding +
      (rest.length + 1) = s.outstanding + rest.length := outstanding_setPhase h
  have hbal := hs.balance
  rw [GoChannel.passed_trySend hch, length_append, length_singleton] at hcar
  show s.pairs = (s.setCh k sub ch).carried + s.dropped +
    ((s.setCh k sub ch).setPhase p n (.sending pub rest)).outstanding
  omega

theorem Conserved.counted (h : s.publishers[p]? = some ⟨n, .dropping pub rest⟩) :
    Conserved { s.setPhase p n (.sending pub rest) with dropped := s.dropped + 1 } := by
  refine ⟨hs.registered, hs.closed, ?_⟩
  have hout : (s.setPhase p n (.sending pub rest)).outstanding + (rest.length + 1) =
      s.outstanding + rest.length := outstanding_setPhase h
  have hbal := hs.balance
  show s.pairs = s.carried + (s.dropped + 1) + (s.setPhase p n (.sending pub rest)).outstanding
  omega

theorem Conserved.acts {e : Step} (he : e.Regular) (h : Acts s e s') : Conserved s' := by
  cases h with
  | spawn =>
    refine ⟨hs.registered, hs.closed, ?_⟩
    have hout : outstanding { s with publishers := s.publishers ++ [⟨0, .idle⟩] } =
        s.outstanding := by simp [outstanding, Publisher.outstanding]
    exact hs.balance.trans (by rw [hout]; rfl)
  | subscribe => exact hs.subscribe _ _ he
  | publish hp => exact hs.setPhase hp rfl
  | snapshot hp => exact hs.snapshot hp
  | skip hp hsub hshut => exact absurd hshut (hs.not_closed hsub)
  | check hp hsub hopen => exact hs.setPhase hp rfl
  | deliver hp hsub hch => exact hs.delivered hp hsub hch
  | refuse hp => exact hs.setPhase hp rfl
  | count hp => exact hs.counted hp
  | finish hp => exact hs.setPhase hp rfl
  | receive hsub => exact hs.setCh hsub GoChannel.passed_receive
  | giveUp hsub => exact hs.setCh hsub GoChannel.passed_giveUp
  | unsubscribe hk | mark hc hsub | remove hc hsub | test hc hsub
  | drain hc hsub hch | close hc hsub hch => exact absurd he not_false

end

end System

end EventBus

end Falx
