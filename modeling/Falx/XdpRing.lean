import Falx.SharedRing

/-! The four rings that an AF_XDP socket shares with the kernel. User space produces on FILL
and TX and consumes from RX and COMPLETION; on the other side of each ring the kernel follows
the same protocol. -/

namespace Falx

namespace AfXdp

open SharedRing

structure XdpDesc where
  addr : UInt64
  len : UInt32
  options : UInt32
  deriving DecidableEq

def fillProduce (frames : List UInt64) : ProduceCall UInt64 := .started frames

def txProduce (descs : List XdpDesc) : ProduceCall XdpDesc := .started descs

def completionConsume (out : Nat) : ConsumeCall UInt64 := .started out

def rxConsume (descs : Nat) : ConsumeCall XdpDesc := .started descs

structure XdpRingRun (δ : Type) where
  ring : SlotRing δ
  producer : ProduceCall δ
  consumer : ConsumeCall δ
  produced : List δ
  consumed : List δ

inductive XdpRingEvent (δ : Type) where
  | produce (descs : List δ)
  | producer
  | consume (out : Nat)
  | consumer
  deriving DecidableEq

namespace XdpRingRun

variable {δ : Type}

def new (ring : SlotRing δ) : XdpRingRun δ := ⟨ring, .idle, .idle, [], []⟩

def step (s : XdpRingRun δ) : XdpRingEvent δ → XdpRingRun δ
  | .produce descs =>
    match s.producer with
    | .idle | .returned _ _ => { s with producer := .started descs }
    | _ => s
  | .producer =>
    let (ring, producer) := s.ring.produceStep s.producer
    { s with
      ring := ring
      producer := producer
      produced := s.produced ++ SlotRing.publishes s.producer }
  | .consume out =>
    match s.consumer with
    | .idle | .returned _ => { s with consumer := .started out }
    | _ => s
  | .consumer =>
    let (ring, consumer) := s.ring.consumeStep s.consumer
    { s with
      ring := ring
      consumer := consumer
      consumed := s.consumed ++ SlotRing.takes s.consumer }

def run (evs : List (XdpRingEvent δ)) (s : XdpRingRun δ) : XdpRingRun δ := evs.foldl step s

/-- What has been produced is what has been consumed and what is in the ring. -/
structure Sound (s : XdpRingRun δ) : Prop where
  ring : s.ring.Sound s.producer s.consumer
  produced : s.produced = s.consumed ++ s.ring.contents

theorem Sound.new {ring : SlotRing δ} (hnil : ring.producer = ring.consumer) : Sound (new ring) := by
  have hused : ring.used = 0 := by
    rw [SlotRing.used, hnil, UInt32.sub_self]
    rfl
  refine ⟨⟨?_, trivial, trivial⟩, ?_⟩
  · show ring.used ≤ 2 ^ ring.order
    rw [hused]
    exact Nat.zero_le _
  · show [] = [] ++ ring.contents
    rw [SlotRing.contents, hused]
    rfl

theorem Sound.step {s : XdpRingRun δ} (h : Sound s) (ev : XdpRingEvent δ) : Sound (s.step ev) := by
  cases ev with
  | produce descs =>
    simp only [XdpRingRun.step]
    split
    · exact ⟨⟨h.ring.used_le, trivial, h.ring.consumer⟩, h.produced⟩
    · exact ⟨⟨h.ring.used_le, trivial, h.ring.consumer⟩, h.produced⟩
    · exact h
  | producer =>
    obtain ⟨hring, hcts⟩ := h.ring.produce
    refine ⟨hring, ?_⟩
    show s.produced ++ SlotRing.publishes s.producer =
      s.consumed ++ (s.ring.produceStep s.producer).1.contents
    rw [hcts, ← List.append_assoc, h.produced]
  | consume out =>
    simp only [XdpRingRun.step]
    split
    · exact ⟨⟨h.ring.used_le, h.ring.producer, trivial⟩, h.produced⟩
    · exact ⟨⟨h.ring.used_le, h.ring.producer, trivial⟩, h.produced⟩
    · exact h
  | consumer =>
    obtain ⟨hring, hcts⟩ := h.ring.consume
    refine ⟨hring, ?_⟩
    show s.produced =
      (s.consumed ++ SlotRing.takes s.consumer) ++ (s.ring.consumeStep s.consumer).1.contents
    rw [List.append_assoc, ← hcts, h.produced]

theorem Sound.run {s : XdpRingRun δ} (h : Sound s) (evs : List (XdpRingEvent δ)) :
    Sound (s.run evs) := by
  induction evs generalizing s with
  | nil => exact h
  | cons ev evs ih => exact ih (h.step ev)

/-- At most a ringful lies between the two indices, the slot that is written next is not one
of a descriptor that waits to be consumed, and what has been consumed is the beginning of what
has been produced. -/
structure Protocol (s : XdpRingRun δ) : Prop where
  window : s.ring.producer - s.ring.consumer ≤ s.ring.size
  fresh : ∀ target, s.ring.writes s.producer = some target →
    ∀ i < (s.ring.producer - s.ring.consumer).toNat,
      (s.ring.consumer + UInt32.ofNat i) &&& s.ring.mask ≠ target
  fifo : s.consumed <+: s.produced

/-- The indices begin at any value, so they wrap at any time. -/
theorem xdpRing_protocol {ring : SlotRing δ} (hempty : ring.producer = ring.consumer)
    (evs : List (XdpRingEvent δ)) : Protocol ((new ring).run evs) := by
  have h := (Sound.new hempty).run evs
  refine ⟨?_, fun target hw i hi => h.ring.writes_ne hw hi, ?_⟩
  · rw [UInt32.le_iff_toNat_le, SlotRing.toNat_size]
    exact h.ring.used_le
  · rw [h.produced]
    exact List.prefix_append _ _

def aboutToWrap : SlotRing UInt64 := ⟨1, by decide, 0xFFFFFFFF, 0xFFFFFFFF, fun _ => 0⟩

def wrapping : List (XdpRingEvent UInt64) :=
  [.produce [10, 20, 30], .producer, .producer, .producer, .producer, .consume 1, .consumer,
    .producer, .producer, .consumer, .consumer, .consumer, .consume 1, .consumer, .consumer,
    .consumer, .consumer, .consumer]

theorem xdpRing_protocol_wrapping :
    aboutToWrap.producer = aboutToWrap.consumer ∧
      ((new aboutToWrap).run wrapping).produced = [10, 20] ∧
      ((new aboutToWrap).run wrapping).consumed = [10] ∧
      ((new aboutToWrap).run wrapping).ring.consumer = 0 ∧
      Protocol ((new aboutToWrap).run wrapping) :=
  ⟨rfl, by decide +kernel, by decide +kernel, by decide +kernel, xdpRing_protocol rfl wrapping⟩

end XdpRingRun

end AfXdp

end Falx
