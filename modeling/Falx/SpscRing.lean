import Falx.RingIndex
import Mathlib.Logic.Function.Basic

/-! The lock-free ring between one producer and one consumer. `Push` and `Pop` are
taken apart into their atomic loads and stores and their slot accesses, and the
steps of the two sides interleave in any order. -/

namespace Falx

open List RingIndex

def ringCapacity : UInt64 := 16384

def ringMask : UInt64 := ringCapacity - 1

structure SPSCRing (α : Type) where
  head : UInt64
  tail : UInt64
  dropped : UInt64
  slots : UInt64 → α

def newSPSCRing {α : Type} (zero : α) : SPSCRing α := ⟨0, 0, 0, fun _ => zero⟩

/-- Where the producer is in `Push`; `full` has found no room and is about to count it. -/
inductive Producer (α : Type) where
  | idle
  | headLoaded (m : α) (head : UInt64)
  | full
  | free (m : α) (head : UInt64)
  | written (m : α) (head : UInt64)
  deriving DecidableEq

inductive Consumer (α : Type) where
  | idle
  | tailLoaded (tail : UInt64)
  | ready (tail : UInt64)
  | slotRead (m : α) (tail : UInt64)
  deriving DecidableEq

/-- The ring with its two sides, the values of the calls of `Push` and `Pop` that
returned true, in order, and the number of those of `Push` that returned false. -/
structure RingRun (α : Type) where
  ring : SPSCRing α
  producer : Producer α
  consumer : Consumer α
  pushed : List α
  popped : List α
  rejected : Nat

inductive RingEvent (α : Type) where
  | push (m : α)
  | producer
  | pop
  | consumer
  deriving DecidableEq

namespace RingRun

variable {α : Type}

def new (zero : α) : RingRun α := ⟨newSPSCRing zero, .idle, .idle, [], [], 0⟩

def beginPush (m : α) (s : RingRun α) : RingRun α :=
  match s.producer with
  | .idle => { s with producer := .headLoaded m s.ring.head }
  | _ => s

def stepProducer (s : RingRun α) : RingRun α :=
  match s.producer with
  | .idle => s
  | .headLoaded m head =>
    if head - s.ring.tail ≥ ringCapacity then { s with producer := .full }
    else { s with producer := .free m head }
  | .full =>
    { s with
      ring := { s.ring with dropped := s.ring.dropped + 1 }
      producer := .idle
      rejected := s.rejected + 1 }
  | .free m head =>
    { s with
      ring := { s.ring with slots := Function.update s.ring.slots (head &&& ringMask) m }
      producer := .written m head }
  | .written m head =>
    { s with
      ring := { s.ring with head := head + 1 }
      producer := .idle
      pushed := s.pushed ++ [m] }

def beginPop (s : RingRun α) : RingRun α :=
  match s.consumer with
  | .idle => { s with consumer := .tailLoaded s.ring.tail }
  | _ => s

def stepConsumer (s : RingRun α) : RingRun α :=
  match s.consumer with
  | .idle => s
  | .tailLoaded tail =>
    if s.ring.head = tail then { s with consumer := .idle }
    else { s with consumer := .ready tail }
  | .ready tail => { s with consumer := .slotRead (s.ring.slots (tail &&& ringMask)) tail }
  | .slotRead m tail =>
    { s with
      ring := { s.ring with tail := tail + 1 }
      consumer := .idle
      popped := s.popped ++ [m] }

def step (s : RingRun α) : RingEvent α → RingRun α
  | .push m => s.beginPush m
  | .producer => s.stepProducer
  | .pop => s.beginPop
  | .consumer => s.stepConsumer

def run (evs : List (RingEvent α)) (s : RingRun α) : RingRun α := evs.foldl step s

def writes (s : RingRun α) : Option UInt64 :=
  match s.producer with
  | .free _ head => some (head &&& ringMask)
  | _ => none

def ProducerOk (s : RingRun α) : Prop :=
  match s.producer with
  | .idle => True
  | .headLoaded _ head => head = s.ring.head
  | .full => True
  | .free _ head => head = s.ring.head ∧ s.pushed.length < s.popped.length + 2 ^ 14
  | .written m head => (head = s.ring.head ∧ s.pushed.length < s.popped.length + 2 ^ 14) ∧
      s.ring.slots (slot ringMask s.pushed.length) = m

def ConsumerOk (s : RingRun α) : Prop :=
  match s.consumer with
  | .idle => True
  | .tailLoaded tail => tail = s.ring.tail
  | .ready tail => tail = s.ring.tail ∧ s.popped.length < s.pushed.length
  | .slotRead m tail => tail = s.ring.tail ∧ s.pushed[s.popped.length]? = some m

/-- The indices count the calls, the values in flight are the last ones pushed, in
their slots, and each side's copy of an index is still good. -/
structure Sound (s : RingRun α) : Prop where
  head : s.ring.head = UInt64.ofNat s.pushed.length
  tail : s.ring.tail = UInt64.ofNat s.popped.length
  dropped : s.ring.dropped = UInt64.ofNat s.rejected
  fifo : s.popped <+: s.pushed
  window : s.pushed.length ≤ s.popped.length + 2 ^ 14
  stored : ∀ i, s.popped.length ≤ i → i < s.pushed.length →
    s.pushed[i]? = some (s.ring.slots (slot ringMask i))
  producer : s.ProducerOk
  consumer : s.ConsumerOk

theorem new_sound (zero : α) : Sound (new zero) :=
  ⟨rfl, rfl, rfl, prefix_rfl, by simp [new], by simp [new], trivial, trivial⟩

variable {i : Nat} {s : RingRun α}

theorem slot_ne_of_inFlight {j : Nat} (hlt : i < j) (hrd : j < i + 2 ^ 14) :
    slot ringMask i ≠ slot ringMask j :=
  RingIndex.slot_ne (by omega) (by decide) hlt hrd

theorem toNat_ringCapacity : ringCapacity.toNat = 2 ^ 14 := rfl

section Producer

variable {s : RingRun α}

theorem Sound.inFlight (h : Sound s) : s.popped.length ≤ s.pushed.length := h.fifo.length_le

theorem Sound.beginPush (h : Sound s) (m : α) : Sound (s.beginPush m) := by
  unfold RingRun.beginPush
  split
  · exact ⟨h.head, h.tail, h.dropped, h.fifo, h.window, h.stored, rfl, h.consumer⟩
  · exact h

variable {m : α} {head : UInt64}

section

variable (h : Sound s)

include h

theorem Sound.loadTail (hp : s.producer = .headLoaded m head) :
    Sound s.stepProducer := by
  have hhead : head = s.ring.head := by simpa only [ProducerOk, hp] using h.producer
  simp only [stepProducer, hp]
  split
  · exact ⟨h.head, h.tail, h.dropped, h.fifo, h.window, h.stored, trivial, h.consumer⟩
  · next hroom =>
    refine ⟨h.head, h.tail, h.dropped, h.fifo, h.window, h.stored, ⟨hhead, ?_⟩, h.consumer⟩
    have hle := h.inFlight
    have hwin := h.window
    rw [hhead, h.head, h.tail, ge_iff_le, UInt64.le_iff_toNat_le, toNat_ringCapacity,
      toNat_ofNat_sub hle (by omega)] at hroom
    simp only
    omega

theorem Sound.countDrop (hp : s.producer = .full) : Sound s.stepProducer := by
  simp only [stepProducer, hp]
  refine ⟨h.head, h.tail, ?_, h.fifo, h.window, h.stored, trivial, h.consumer⟩
  rw [h.dropped, ofNat_succ]

theorem Sound.writeSlot (hp : s.producer = .free m head) : Sound s.stepProducer := by
  have hfree : head = s.ring.head ∧ s.pushed.length < s.popped.length + 2 ^ 14 := by
    simpa only [ProducerOk, hp] using h.producer
  have hslot : head &&& ringMask = slot ringMask s.pushed.length := by
    rw [hfree.1, h.head]
    rfl
  simp only [stepProducer, hp, hslot]
  refine ⟨h.head, h.tail, h.dropped, h.fifo, h.window, fun i hi hlt => ?_,
    ⟨hfree, Function.update_self ..⟩, h.consumer⟩
  have hne : slot ringMask i ≠ slot ringMask s.pushed.length :=
    slot_ne_of_inFlight hlt (Nat.lt_of_lt_of_le hfree.2 (Nat.add_le_add_right hi _))
  exact (h.stored i hi hlt).trans (congrArg some (Function.update_of_ne hne ..).symm)

theorem Sound.storeHead (hp : s.producer = .written m head) :
    Sound s.stepProducer := by
  obtain ⟨⟨hhead, hroom⟩, hslot⟩ : (head = s.ring.head ∧
      s.pushed.length < s.popped.length + 2 ^ 14) ∧
        s.ring.slots (slot ringMask s.pushed.length) = m := by
    simpa only [ProducerOk, hp] using h.producer
  simp only [stepProducer, hp]
  refine ⟨?_, h.tail, h.dropped, h.fifo.trans (prefix_append _ _), ?_, ?_, trivial, ?_⟩
  · rw [hhead, h.head, length_append, length_singleton, ofNat_succ]
  · rw [length_append, length_singleton]
    exact hroom
  · intro i hi hlt
    rw [length_append, length_singleton] at hlt
    rcases Nat.lt_or_ge i s.pushed.length with hold | hnew
    · rw [List.getElem?_append_left hold]
      exact h.stored i hi hold
    · obtain rfl : i = s.pushed.length := by omega
      rw [hslot, List.getElem?_concat_length]
  · have hc := h.consumer
    unfold ConsumerOk at hc ⊢
    simp only
    split at hc
    · trivial
    · exact hc
    · rw [length_append]
      exact ⟨hc.1, by omega⟩
    · refine ⟨hc.1, ?_⟩
      rw [List.getElem?_append_left (List.getElem?_eq_some_iff.mp hc.2).1]
      exact hc.2

theorem Sound.stepProducer : Sound s.stepProducer := by
  cases hp : s.producer with
  | idle => simpa only [RingRun.stepProducer, hp] using h
  | headLoaded m head => exact h.loadTail hp
  | full => exact h.countDrop hp
  | free m head => exact h.writeSlot hp
  | written m head => exact h.storeHead hp

end

end Producer

section Consumer

variable {s : RingRun α}

section

variable (h : Sound s)

include h

theorem Sound.beginPop : Sound s.beginPop := by
  unfold RingRun.beginPop
  split
  · exact ⟨h.head, h.tail, h.dropped, h.fifo, h.window, h.stored, h.producer, rfl⟩
  · exact h

variable {tail : UInt64}

theorem Sound.loadHead (hc : s.consumer = .tailLoaded tail) :
    Sound s.stepConsumer := by
  have htail : tail = s.ring.tail := by simpa only [ConsumerOk, hc] using h.consumer
  simp only [stepConsumer, hc]
  split
  · exact ⟨h.head, h.tail, h.dropped, h.fifo, h.window, h.stored, h.producer, trivial⟩
  · next hne =>
    refine ⟨h.head, h.tail, h.dropped, h.fifo, h.window, h.stored, h.producer, htail, ?_⟩
    have hle := h.inFlight
    have hwin := h.window
    rw [htail, h.head, h.tail, ofNat_eq_iff hle (by omega)] at hne
    exact Nat.lt_of_le_of_ne hle (Ne.symm hne)

theorem Sound.readSlot (hc : s.consumer = .ready tail) :
    Sound s.stepConsumer := by
  obtain ⟨htail, hlt⟩ : tail = s.ring.tail ∧ s.popped.length < s.pushed.length := by
    simpa only [ConsumerOk, hc] using h.consumer
  have hslot : tail &&& ringMask = slot ringMask s.popped.length := by
    rw [htail, h.tail]
    rfl
  simp only [stepConsumer, hc, hslot]
  exact ⟨h.head, h.tail, h.dropped, h.fifo, h.window, h.stored, h.producer, htail,
    h.stored _ (le_refl _) hlt⟩

theorem Sound.storeTail {m : α} (hc : s.consumer = .slotRead m tail) :
    Sound s.stepConsumer := by
  obtain ⟨htail, hm⟩ : tail = s.ring.tail ∧ s.pushed[s.popped.length]? = some m := by
    simpa only [ConsumerOk, hc] using h.consumer
  have hlen : (s.popped ++ [m]).length = s.popped.length + 1 := by simp
  simp only [stepConsumer, hc]
  refine ⟨h.head, ?_, h.dropped, ?_, ?_, ?_, ?_, trivial⟩
  · rw [htail, h.tail, hlen, ofNat_succ]
  · obtain ⟨rest, hrest⟩ := h.fifo
    rw [← hrest, List.getElem?_append_right (le_refl _), Nat.sub_self] at hm
    obtain ⟨tl, rfl⟩ : ∃ tl, rest = m :: tl := by
      cases rest with
      | nil => cases hm
      | cons x tl => exact ⟨tl, by rw [Option.some.inj hm]⟩
    exact ⟨tl, by rw [← hrest, append_assoc, singleton_append]⟩
  · have hwin := h.window
    simp only
    omega
  · intro i hi hlt
    rw [hlen] at hi
    exact h.stored i (Nat.le_of_succ_le hi) hlt
  · have hp := h.producer
    unfold ProducerOk at hp ⊢
    simp only [hlen]
    split at hp
    · trivial
    · exact hp
    · trivial
    · exact ⟨hp.1, by omega⟩
    · exact ⟨⟨hp.1.1, by omega⟩, hp.2⟩

theorem Sound.stepConsumer : Sound s.stepConsumer := by
  cases hc : s.consumer with
  | idle => simpa only [RingRun.stepConsumer, hc] using h
  | tailLoaded tail => exact h.loadHead hc
  | ready tail => exact h.readSlot hc
  | slotRead m tail => exact h.storeTail hc

end

end Consumer

theorem Sound.step (h : Sound s) (ev : RingEvent α) : Sound (s.step ev) := by
  cases ev with
  | push m => exact h.beginPush m
  | producer => exact h.stepProducer
  | pop => exact h.beginPop
  | consumer => exact h.stepConsumer

theorem Sound.run (h : Sound s) (evs : List (RingEvent α)) : Sound (s.run evs) := by
  induction evs generalizing s with
  | nil => exact h
  | cons ev evs ih => exact ih (h.step ev)

theorem Sound.writes_ne (h : Sound s) {target : UInt64} (hw : s.writes = some target)
    (hi : s.popped.length ≤ i) (hlt : i < s.pushed.length) : slot ringMask i ≠ target := by
  have hp := h.producer
  unfold writes at hw
  unfold ProducerOk at hp
  split at hw
  · next m head hfree =>
    rw [hfree] at hp
    obtain rfl : head &&& ringMask = target := Option.some.inj hw
    rw [hp.1, h.head]
    exact slot_ne_of_inFlight hlt (Nat.lt_of_lt_of_le hp.2 (Nat.add_le_add_right hi _))
  · cases hw

end RingRun

open RingRun

/-- Whatever the interleaving, what has been popped is a prefix of what has been
pushed, at most a ringful is in flight, the slot of a value in flight is not written,
and the drop counter is the number of rejected calls modulo 2^64. -/
theorem spscRing_fifo {α : Type} (zero : α) (evs : List (RingEvent α)) :
    ((new zero).run evs).popped <+: ((new zero).run evs).pushed ∧
      ((new zero).run evs).pushed.length ≤
        ((new zero).run evs).popped.length + ringCapacity.toNat ∧
      (∀ target, ((new zero).run evs).writes = some target →
        ∀ i, ((new zero).run evs).popped.length ≤ i → i < ((new zero).run evs).pushed.length →
          UInt64.ofNat i &&& ringMask ≠ target) ∧
      ((new zero).run evs).ring.dropped.toNat = ((new zero).run evs).rejected % 2 ^ 64 := by
  have h := (new_sound zero).run evs
  refine ⟨h.fifo, h.window, fun target hw i hi hlt => h.writes_ne hw hi hlt, ?_⟩
  rw [h.dropped, UInt64.toNat_ofNat']

namespace RingRun

variable {α : Type}

structure Filled (s : RingRun α) (n : Nat) : Prop where
  producer : s.producer = .idle
  head : s.ring.head = UInt64.ofNat n
  tail : s.ring.tail = 0

variable {s : RingRun α} {n : Nat}

theorem Filled.sub_toNat (h : Filled s n) (hn : n ≤ 2 ^ 14) :
    (s.ring.head - s.ring.tail).toNat = n := by
  rw [h.head, h.tail, UInt64.sub_zero, UInt64.toNat_ofNat']
  omega

theorem Filled.push (h : Filled s n) (hn : n < 2 ^ 14) (m : α) :
    Filled (s.run [.push m, .producer, .producer, .producer]) (n + 1) ∧
      (s.run [.push m, .producer, .producer, .producer]).rejected = s.rejected := by
  have hroom : ¬ ringCapacity ≤ s.ring.head - s.ring.tail := by
    rw [UInt64.le_iff_toNat_le, h.sub_toNat (Nat.le_of_lt hn), toNat_ringCapacity]
    omega
  simp only [run, foldl_cons, foldl_nil, step, beginPush, h.producer, stepProducer,
    ge_iff_le, hroom, if_false]
  exact ⟨⟨rfl, by rw [h.head, ofNat_succ], h.tail⟩, trivial⟩

theorem Filled.reject (h : Filled s (2 ^ 14)) (m : α) :
    Filled (s.run [.push m, .producer, .producer]) (2 ^ 14) ∧
      (s.run [.push m, .producer, .producer]).rejected = s.rejected + 1 := by
  have hfull : ringCapacity ≤ s.ring.head - s.ring.tail := by
    rw [UInt64.le_iff_toNat_le, h.sub_toNat (le_refl _), toNat_ringCapacity]
  simp only [run, foldl_cons, foldl_nil, step, beginPush, h.producer, stepProducer,
    ge_iff_le, hfull, if_true]
  exact ⟨⟨rfl, h.head, h.tail⟩, trivial⟩

theorem exists_filled (zero : α) (hn : n ≤ 2 ^ 14) :
    ∃ evs, Filled ((new zero).run evs) n ∧ ((new zero).run evs).rejected = 0 := by
  induction n with
  | zero => exact ⟨[], ⟨rfl, rfl, rfl⟩, rfl⟩
  | succ n ih =>
    obtain ⟨evs, hfilled, hrej⟩ := ih (by omega)
    obtain ⟨hnext, hkeep⟩ := hfilled.push (by omega) zero
    refine ⟨evs ++ [.push zero, .producer, .producer, .producer], ?_⟩
    rw [run, foldl_append]
    exact ⟨hnext, hkeep.trans hrej⟩

theorem exists_rejected (zero : α) (n : Nat) :
    ∃ evs, Filled ((new zero).run evs) (2 ^ 14) ∧ ((new zero).run evs).rejected = n := by
  induction n with
  | zero => exact exists_filled zero (le_refl _)
  | succ n ih =>
    obtain ⟨evs, hfilled, hrej⟩ := ih
    obtain ⟨hnext, hcnt⟩ := hfilled.reject zero
    refine ⟨evs ++ [.push zero, .producer, .producer], ?_⟩
    rw [run, foldl_append]
    exact ⟨hnext, hcnt.trans (congrArg (· + 1) hrej)⟩

end RingRun

/-- The counter has 64 bits: after 2^64 rejected calls it is back at zero. -/
theorem spscRing_dropped_wraps :
    ∃ evs : List (RingEvent Unit), ((new ()).run evs).rejected = 2 ^ 64 ∧
      ((new ()).run evs).ring.dropped = 0 := by
  obtain ⟨evs, -, hrej⟩ := exists_rejected () (2 ^ 64)
  refine ⟨evs, hrej, ?_⟩
  rw [((new_sound ()).run evs).dropped, hrej]
  rfl

end Falx
