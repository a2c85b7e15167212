import Falx.FloodDetector
import Falx.GoChannel
import Falx.StepRun
import Mathlib.Data.List.Count
import Mathlib.Logic.Function.Iterate

/-! The event bus of the control plane. Publishers, subscribers and consumers take their steps
in any order: a publisher copies the list of its topic under the lock and then tries every
subscriber on it, one after another, without the lock. It looks whether the subscriber is
marked closed in one step and sends in the next. -/

namespace Falx

namespace EventBus

abbrev Topic := String

structure Event where
  id : String
  topic : Topic
  timestamp : Time
  severity : String
  title : String
  message : String
  source : String
  actorId : String
  metadata : List (String × String)
  deriving DecidableEq

/-- What `Publish` makes of an event that has no ID or no timestamp. -/
def Event.stamp (newId : String) (now : Time) (ev : Event) : Event :=
  { ev with
    id := if ev.id = "" then newId else ev.id
    timestamp := if ev.timestamp = zeroTime then now else ev.timestamp }

structure Publication where
  publisher : Nat
  call : Nat
  event : Event
  deriving DecidableEq

structure Subscriber where
  id : String
  topics : List Topic
  ch : GoChannel Publication
  closed : Bool

inductive PublishPhase where
  | idle
  | started (pub : Publication)
  | sending (pub : Publication) (subs : List Nat)
  | checked (pub : Publication) (k : Nat) (subs : List Nat)
  | dropping (pub : Publication) (subs : List Nat)
  deriving DecidableEq

structure Publisher where
  calls : Nat
  phase : PublishPhase
  deriving DecidableEq

inductive UnsubscribePhase where
  | marking
  | removing
  | checking
  | draining
  | closing
  | done
  deriving DecidableEq

/-- Subscribers are referred to by their place among all that were made. The log has every
publication with the subscribers that had its topic when the publisher took its copy. -/
structure System where
  subs : List Subscriber
  subscribers : Topic → List Nat
  dropped : Nat
  publishers : List Publisher
  unsubscribes : List (Nat × UnsubscribePhase)
  log : List (Publication × List Nat)

inductive Step where
  | spawn
  | subscribe (id : String) (bufSize : Nat) (topics : List Topic)
  | publish (p : Nat) (ev : Event) (newId : String) (now : Time)
  | snapshot (p : Nat)
  | check (p : Nat)
  | send (p : Nat)
  | countDrop (p : Nat)
  | finish (p : Nat)
  | receive (k : Nat)
  | giveUp (k : Nat)
  | unsubscribe (k : Nat)
  | unsubscribeStep (c : Nat)
  deriving DecidableEq

namespace System

def newBus : System := ⟨[], fun _ => [], 0, [], [], []⟩

def registered (topic : Topic) (s : System) : List Nat :=
  (List.range s.subs.length).filter fun k => s.subs[k]?.any fun sub => decide (topic ∈ sub.topics)

def setPhase (p : Nat) (calls : Nat) (phase : PublishPhase) (s : System) : System :=
  { s with publishers := s.publishers.set p ⟨calls, phase⟩ }

def setCh (k : Nat) (sub : Subscriber) (ch : GoChannel Publication) (s : System) : System :=
  { s with subs := s.subs.set k { sub with ch := ch } }

def subscribe (id : String) (bufSize : Nat) (topics : List Topic) (s : System) : System :=
  let sub := s.subs.length
  { s with
    subs := s.subs ++ [⟨id, topics, .make bufSize, false⟩]
    subscribers := topics.foldl (fun m t => Function.update m t (m t ++ [sub])) s.subscribers }

def remove (sub : Subscriber) (s : System) : Topic → List Nat :=
  sub.topics.foldl
    (fun m t => Function.update m t
      ((m t).eraseP fun j => s.subs[j]?.any fun other => other.id == sub.id))
    s.subscribers

def check (p calls : Nat) (pub : Publication) (k : Nat) (rest : List Nat) (s : System) :
    Option System :=
  s.subs[k]?.map fun sub =>
    if sub.closed then s.setPhase p calls (.sending pub rest)
    else s.setPhase p calls (.checked pub k rest)

def sendTo (p calls : Nat) (pub : Publication) (k : Nat) (rest : List Nat) (s : System) :
    Option System :=
  s.subs[k]?.map fun sub =>
    match sub.ch.trySend pub with
    | some ch => (s.setCh k sub ch).setPhase p calls (.sending pub rest)
    | none => s.setPhase p calls (.dropping pub rest)

def setCall (c k : Nat) (phase : UnsubscribePhase) (s : System) : System :=
  { s with unsubscribes := s.unsubscribes.set c (k, phase) }

def mark (k : Nat) (sub : Subscriber) (s : System) : System :=
  { s with subs := s.subs.set k { sub with closed := true } }

/-- A receive that finds the channel empty waits: the step is not enabled. -/
def unsubscribeStep (c k : Nat) (sub : Subscriber) (phase : UnsubscribePhase) (s : System) :
    Option System :=
  match phase with
  | .marking => some ((s.mark k sub).setCall c k .removing)
  | .removing => some (setCall c k .checking { s with subscribers := s.remove sub })
  | .checking => some (s.setCall c k (if 0 < sub.ch.buffer.length then .draining else .closing))
  | .draining => sub.ch.discard.map fun ch => (s.setCh k sub ch).setCall c k .checking
  | .closing => sub.ch.close.map fun ch => (s.setCh k sub ch).setCall c k .done
  | .done => none

def exec (s : System) : Step → Option System
  | .spawn => some { s with publishers := s.publishers ++ [⟨0, .idle⟩] }
  | .subscribe id bufSize topics => some (s.subscribe id bufSize topics)
  | .publish p ev newId now =>
    match s.publishers[p]? with
    | some ⟨n, .idle⟩ => some (s.setPhase p (n + 1) (.started ⟨p, n, ev.stamp newId now⟩))
    | _ => none
  | .snapshot p =>
    match s.publishers[p]? with
    | some ⟨n, .started pub⟩ =>
      some { s.setPhase p n (.sending pub (s.subscribers pub.event.topic)) with
        log := s.log ++ [(pub, s.registered pub.event.topic)] }
    | _ => none
  | .check p =>
    match s.publishers[p]? with
    | some ⟨n, .sending pub (k :: rest)⟩ => s.check p n pub k rest
    | _ => none
  | .send p =>
    match s.publishers[p]? with
    | some ⟨n, .checked pub k rest⟩ => s.sendTo p n pub k rest
    | _ => none
  | .countDrop p =>
    match s.publishers[p]? with
    | some ⟨n, .dropping pub rest⟩ =>
      some { s.setPhase p n (.sending pub rest) with dropped := s.dropped + 1 }
    | _ => none
  | .finish p =>
    match s.publishers[p]? with
    | some ⟨n, .sending _ []⟩ => some (s.setPhase p n .idle)
    | _ => none
  | .receive k => s.subs[k]?.map fun sub => s.setCh k sub sub.ch.receive
  | .giveUp k => s.subs[k]?.map fun sub => s.setCh k sub sub.ch.giveUp
  | .unsubscribe k =>
    s.subs[k]?.map fun _ => { s with unsubscribes := s.unsubscribes ++ [(k, .marking)] }
  | .unsubscribeStep c =>
    match s.unsubscribes[c]? with
    | none => none
    | some (k, phase) => s.subs[k]?.bind fun sub => s.unsubscribeStep c k sub phase

section Lists

variable {α τ : Type}

theorem foldl_update_iterate [DecidableEq τ] (f : List α → List α) (topics : List τ)
    (m : τ → List α) (u : τ) :
    topics.foldl (fun m t => Function.update m t (f (m t))) m u = f^[topics.count u] (m u) := by
  induction topics generalizing m with
  | nil => rfl
  | cons t topics ih =>
    rw [List.foldl_cons, ih, List.count_cons]
    by_cases hu : t = u
    · subst hu
      rw [Function.update_self, beq_self_eq_true, if_pos rfl, Function.iterate_succ_apply]
    · rw [Function.update_of_ne (Ne.symm hu), if_neg (by simpa using hu), Nat.add_zero]

theorem iterate_append (a : α) (n : Nat) (l : List α) :
    (fun l => l ++ [a])^[n] l = l ++ List.replicate n a := by
  induction n generalizing l with
  | zero => exact (List.append_nil l).symm
  | succ n ih => rw [Function.iterate_succ_apply, ih, List.append_assoc, List.replicate_succ]; rfl

end Lists

theorem subscribers_subscribe (id : String) (bufSize : Nat) (topics : List Topic) (s : System)
    (t : Topic) : (s.subscribe id bufSize topics).subscribers t =
      s.subscribers t ++ List.replicate (topics.count t) s.subs.length := by
  rw [← iterate_append]
  exact foldl_update_iterate (fun l => l ++ [s.subs.length]) topics s.subscribers t

inductive Acts (s : System) : Step → System → Prop
  | spawn : Acts s .spawn { s with publishers := s.publishers ++ [⟨0, .idle⟩] }
  | subscribe {id bufSize topics} :
    Acts s (.subscribe id bufSize topics) (s.subscribe id bufSize topics)
  | publish {p n : Nat} {ev newId now} (hp : s.publishers[p]? = some ⟨n, .idle⟩) :
    Acts s (.publish p ev newId now)
      (s.setPhase p (n + 1) (.started ⟨p, n, ev.stamp newId now⟩))
  | snapshot {p n : Nat} {pub} (hp : s.publishers[p]? = some ⟨n, .started pub⟩) :
    Acts s (.snapshot p) { s.setPhase p n (.sending pub (s.subscribers pub.event.topic)) with
      log := s.log ++ [(pub, s.registered pub.event.topic)] }
  | skip {p n k : Nat} {pub rest sub}
    (hp : s.publishers[p]? = some ⟨n, .sending pub (k :: rest)⟩) (hsub : s.subs[k]? = some sub)
    (hclosed : sub.closed = true) : Acts s (.check p) (s.setPhase p n (.sending pub rest))
  | check {p n k : Nat} {pub rest sub}
    (hp : s.publishers[p]? = some ⟨n, .sending pub (k :: rest)⟩) (hsub : s.subs[k]? = some sub)
    (hopen : sub.closed = false) : Acts s (.check p) (s.setPhase p n (.checked pub k rest))
  | deliver {p n k : Nat} {pub rest sub ch} (hp : s.publishers[p]? = some ⟨n, .checked pub k rest⟩)
    (hsub : s.subs[k]? = some sub) (hch : sub.ch.trySend pub = some ch) :
    Acts s (.send p) ((s.setCh k sub ch).setPhase p n (.sending pub rest))
  | refuse {p n k : Nat} {pub rest} (hp : s.publishers[p]? = some ⟨n, .checked pub k rest⟩) :
    Acts s (.send p) (s.setPhase p n (.dropping pub rest))
  | count {p n : Nat} {pub rest} (hp : s.publishers[p]? = some ⟨n, .dropping pub rest⟩) :
    Acts s (.countDrop p) { s.setPhase p n (.sending pub rest) with dropped := s.dropped + 1 }
  | finish {p n : Nat} {pub} (hp : s.publishers[p]? = some ⟨n, .sending pub []⟩) :
    Acts s (.finish p) (s.setPhase p n .idle)
  | receive {k : Nat} {sub} (hsub : s.subs[k]? = some sub) :
    Acts s (.receive k) (s.setCh k sub sub.ch.receive)
  | giveUp {k : Nat} {sub} (hsub : s.subs[k]? = some sub) :
    Acts s (.giveUp k) (s.setCh k sub sub.ch.giveUp)
  | unsubscribe {k : Nat} (hk : k < s.subs.length) :
    Acts s (.unsubscribe k) { s with unsubscribes := s.unsubscribes ++ [(k, .marking)] }
  | mark {c k : Nat} {sub} (hc : s.unsubscribes[c]? = some (k, .marking))
    (hsub : s.subs[k]? = some sub) :
    Acts s (.unsubscribeStep c) ((s.mark k sub).setCall c k .removing)
  | remove {c k : Nat} {sub} (hc : s.unsubscribes[c]? = some (k, .removing))
    (hsub : s.subs[k]? = some sub) :
    Acts s (.unsubscribeStep c) (setCall c k .checking { s with subscribers := s.remove sub })
  | test {c k : Nat} {sub} (hc : s.unsubscribes[c]? = some (k, .checking))
    (hsub : s.subs[k]? = some sub) :
    Acts s (.unsubscribeStep c)
      (s.setCall c k (if 0 < sub.ch.buffer.length then .draining else .closing))
  | drain {c k : Nat} {sub ch}
    (hc : s.unsubscribes[c]? = some (k, .draining)) (hsub : s.subs[k]? = some sub)
    (hch : sub.ch.discard = some ch) :
    Acts s (.unsubscribeStep c) ((s.setCh k sub ch).setCall c k .checking)
  | close {c k : Nat} {sub ch}
    (hc : s.unsubscribes[c]? = some (k, .closing)) (hsub : s.subs[k]? = some sub)
    (hch : sub.ch.close = some ch) :
    Acts s (.unsubscribeStep c) ((s.setCh k sub ch).setCall c k .done)

section Acts

variable {s s' : System} {e : Step} {p n k c : Nat} {pub : Publication} {rest : List Nat}

theorem Acts.of_check (hp : s.publishers[p]? = some ⟨n, .sending pub (k :: rest)⟩)
    (h : s.check p n pub k rest = some s') : Acts s (.check p) s' := by
  obtain ⟨sub, hsub, rfl⟩ := Option.map_eq_some_iff.mp h
  split
  · exact .skip hp hsub ‹_›
  · exact .check hp hsub (Bool.eq_false_of_not_eq_true ‹_›)

theorem Acts.of_sendTo (hp : s.publishers[p]? = some ⟨n, .checked pub k rest⟩)
    (h : s.sendTo p n pub k rest = some s') : Acts s (.send p) s' := by
  obtain ⟨sub, hsub, rfl⟩ := Option.map_eq_some_iff.mp h
  cases hch : sub.ch.trySend pub with
  | none => exact .refuse hp
  | some ch => exact .deliver hp hsub hch

theorem Acts.of_unsubscribeStep {sub : Subscriber} {phase : UnsubscribePhase}
    (hc : s.unsubscribes[c]? = some (k, phase)) (hsub : s.subs[k]? = some sub)
    (h : s.unsubscribeStep c k sub phase = some s') : Acts s (.unsubscribeStep c) s' := by
  cases phase with
  | marking =>
    cases h
    exact .mark hc hsub
  | removing =>
    cases h
    exact .remove hc hsub
  | checking =>
    cases h
    exact .test hc hsub
  | draining =>
    obtain ⟨ch, hch, rfl⟩ := Option.map_eq_some_iff.mp h
    exact .drain hc hsub hch
  | closing =>
    obtain ⟨ch, hch, rfl⟩ := Option.map_eq_some_iff.mp h
    exact .close hc hsub hch
  | done => cases h

theorem Acts.of_exec (h : exec s e = some s') : Acts s e s' := by
  cases e with
  | spawn =>
    cases h
    exact .spawn
  | subscribe id bufSize topics =>
    cases h
    exact .subscribe
  | publish p ev newId now | snapshot p | countDrop p | finish p =>
    simp only [exec] at h
    split at h
    · cases h
      constructor
      assumption
    · cases h
  | check p =>
    simp only [exec] at h
    split at h
    · exact .of_check ‹_› h
    · cases h
  | send p =>
    simp only [exec] at h
    split at h
    · exact .of_sendTo ‹_› h
    · cases h
  | receive k =>
    obtain ⟨sub, hsub, rfl⟩ := Option.map_eq_some_iff.mp h
    exact .receive hsub
  | giveUp k =>
    obtain ⟨sub, hsub, rfl⟩ := Option.map_eq_some_iff.mp h
    exact .giveUp hsub
  | unsubscribe k =>
    obtain ⟨sub, hsub, rfl⟩ := Option.map_eq_some_iff.mp h
    exact .unsubscribe (List.getElem?_eq_some_iff.mp hsub).1
  | unsubscribeStep c =>
    simp only [exec] at h
    split at h
    · cases h
    · obtain ⟨sub, hsub, hstep⟩ := Option.bind_eq_some_iff.mp h
      exact .of_unsubscribeStep ‹_› hsub hstep

end Acts

end System

end EventBus

end Falx
