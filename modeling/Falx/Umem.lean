import Falx.FrameMeta
import Falx.XdpRing

/-! The memory that packets are received in, its pool of free frames, and what the receive loop
does with a descriptor from the kernel. -/

namespace Falx

namespace AfXdp

def frameHeadroom : UInt64 := 256

inductive UmemError where
  | numFrames (n : UInt32)
  | frameSize (n : UInt32)
  deriving DecidableEq

def UmemError.message : UmemError → String
  | .numFrames n => "numFrames must be a power of 2, got " ++ toString n
  | .frameSize n => "frameSize must be 2048 or 4096, got " ++ toString n

structure Umem where
  mem : List UInt8
  frameSize : UInt32
  numFrames : UInt32
  freeFrames : List UInt64

def frameOffsets (numFrames frameSize : UInt32) : List UInt64 :=
  (List.range numFrames.toNat).map fun i => UInt64.ofNat i * frameSize.toUInt64

def newUMEM (numFrames frameSize : UInt32) : Except UmemError Umem :=
  if numFrames = 0 ∨ numFrames &&& (numFrames - 1) ≠ 0 then .error (.numFrames numFrames)
  else if frameSize ≠ 2048 ∧ frameSize ≠ 4096 then .error (.frameSize frameSize)
  else .ok
    { mem := List.replicate (numFrames.toNat * frameSize.toNat) 0
      frameSize := frameSize
      numFrames := numFrames
      freeFrames := frameOffsets numFrames frameSize }

namespace Umem

/-- A slice outside of the memory panics. -/
def slice (u : Umem) (start stop : UInt64) : Option (List UInt8) :=
  if start ≤ stop ∧ stop.toNat ≤ u.mem.length then
    some ((u.mem.take stop.toNat).drop start.toNat)
  else none

def frameAt (u : Umem) (offset : UInt64) : Option (List UInt8) :=
  u.slice (offset + frameHeadroom) (offset + u.frameSize.toUInt64)

def allocFrame (u : Umem) : Option (UInt64 × Umem) :=
  match u.freeFrames with
  | [] => none
  | desc :: rest => some (desc, { u with freeFrames := rest })

theorem allocFrame_eq_some {u u' : Umem} {frame : UInt64} (h : u.allocFrame = some (frame, u')) :
    ∃ rest, u.freeFrames = frame :: rest ∧ u' = { u with freeFrames := rest } := by
  unfold allocFrame at h
  split at h
  · cases h
  · rename_i desc rest hfree
    cases h
    exact ⟨rest, hfree, rfl⟩

theorem allocFrame_eq_none {u : Umem} (h : u.allocFrame = none) : u.freeFrames = [] := by
  unfold allocFrame at h
  split at h
  · assumption
  · cases h

def freeFrame (offset : UInt64) (u : Umem) : Umem :=
  if u.freeFrames.length < u.numFrames.toNat then
    { u with freeFrames := u.freeFrames ++ [offset] }
  else u

def chunk (u : Umem) (addr : UInt64) : Nat := addr.toNat / u.frameSize.toNat

/-- What the kernel may deliver: the packet lies within one frame of the memory. -/
structure Delivers (u : Umem) (desc : XdpDesc) : Prop where
  addr : desc.addr.toNat < u.mem.length
  len : desc.addr.toNat % u.frameSize.toNat + desc.len.toNat ≤ u.frameSize.toNat

def packet (u : Umem) (desc : XdpDesc) : List UInt8 :=
  (u.mem.drop desc.addr.toNat).take desc.len.toNat

end Umem

structure RxState where
  rxPackets : UInt64
  rxBytes : UInt64
  parseErrors : UInt64
  metaChannelSize : Nat
  metaCh : List PacketMeta
  toRefill : List UInt64
  deriving DecidableEq

namespace RxState

def refill (addr : UInt64) (s : RxState) : RxState := { s with toRefill := s.toRefill ++ [addr] }

def parseError (s : RxState) : RxState := { s with parseErrors := s.parseErrors + 1 }

/-- A send that finds the channel full drops the metadata. -/
def sendMeta (m : PacketMeta) (s : RxState) : RxState :=
  if s.metaCh.length < s.metaChannelSize then { s with metaCh := s.metaCh ++ [m] } else s

/-- The body of the receive loop: the bytes that go to `ParseFrame`, if any do. A panic has no
result. -/
def receive (u : Umem) (desc : XdpDesc) (s : RxState) : Option (Option (List UInt8) × RxState) :=
  (u.frameAt desc.addr).map fun frameBytes =>
    if UInt32.ofNat frameBytes.length < desc.len then (none, s.parseError.refill desc.addr)
    else
      let pktBytes := frameBytes.take desc.len.toNat
      let s := { s with rxPackets := s.rxPackets + 1, rxBytes := s.rxBytes + desc.len.toUInt64 }
      match parseFrame pktBytes desc.addr with
      | .error _ => (some pktBytes, s.parseError.refill desc.addr)
      | .ok m => (some pktBytes, (s.sendMeta m).refill desc.addr)

end RxState

namespace Umem

/-- Only the packet goes to `ParseFrame`, and the address that goes back to the FILL ring is in
the frame of the packet. -/
structure Access (u : Umem) (desc : XdpDesc) (s : RxState) : Prop where
  result : ∃ r, s.receive u desc = some r
  bytes : ∀ b s', s.receive u desc = some (some b, s') → b = u.packet desc
  refill : ∀ b s', s.receive u desc = some (b, s') →
    ∃ addr, s'.toRefill = s.toRefill ++ [addr] ∧ u.chunk addr = u.chunk desc.addr

/-- A frame's worth of memory follows the address, and the packet is empty or too long for what
is read of it. -/
def Spared (u : Umem) (desc : XdpDesc) : Prop :=
  desc.addr.toNat + u.frameSize.toNat ≤ u.mem.length ∧
    (desc.len = 0 ∨ u.frameSize.toNat < desc.len.toNat + 256)

instance (u : Umem) (desc : XdpDesc) : Decidable (u.Spared desc) :=
  inferInstanceAs (Decidable (_ ∧ _))

variable {u : Umem} {numFrames frameSize : UInt32} {desc : XdpDesc}

structure Made (u : Umem) : Prop where
  frameSize : u.frameSize = 2048 ∨ u.frameSize = 4096
  length : u.mem.length = u.numFrames.toNat * u.frameSize.toNat
  numFrames : u.numFrames ≠ 0

theorem made_newUMEM (h : newUMEM numFrames frameSize = .ok u) : Made u := by
  unfold newUMEM at h
  split at h
  · cases h
  · rename_i hnum
    split at h
    · cases h
    · rename_i hsize
      cases h
      refine ⟨?_, List.length_replicate, fun hzero => hnum (.inl hzero)⟩
      by_cases h2 : frameSize = 2048
      · exact .inl h2
      · exact .inr (Classical.byContradiction fun h4 => hsize ⟨h2, h4⟩)

theorem freeFrames_newUMEM (h : newUMEM numFrames frameSize = .ok u) :
    u.numFrames = numFrames ∧ u.freeFrames = frameOffsets u.numFrames u.frameSize := by
  unfold newUMEM at h
  split at h
  · cases h
  · split at h
    · cases h
    · cases h
      exact ⟨rfl, rfl⟩

theorem Made.toNat_frameSize (h : Made u) :
    u.frameSize.toNat = 2048 ∨ u.frameSize.toNat = 4096 := by
  rcases h.frameSize with hs | hs
  · exact .inl (by rw [hs]; rfl)
  · exact .inr (by rw [hs]; rfl)

theorem Made.length_lt (h : Made u) : u.mem.length < 2 ^ 44 := by
  have hnum := u.numFrames.toNat_lt
  rw [h.length]
  rcases h.toNat_frameSize with hs | hs <;> rw [hs] <;> omega

theorem Made.frameAt (h : Made u) {addr : UInt64}
    (hfits : addr.toNat + u.frameSize.toNat ≤ u.mem.length) :
    u.frameAt addr = some ((u.mem.take (addr.toNat + u.frameSize.toNat)).drop (addr.toNat + 256)) := by
  have hlen := h.length_lt
  have hsize := h.toNat_frameSize
  have hst : (addr + frameHeadroom).toNat = addr.toNat + 256 := by
    rw [UInt64.toNat_add, show frameHeadroom.toNat = 256 from rfl]
    omega
  have hstop : (addr + u.frameSize.toUInt64).toNat = addr.toNat + u.frameSize.toNat := by
    rw [UInt64.toNat_add, UInt32.toNat_toUInt64]
    omega
  have hrg : addr + frameHeadroom ≤ addr + u.frameSize.toUInt64 ∧
      (addr + u.frameSize.toUInt64).toNat ≤ u.mem.length := by
    rw [UInt64.le_iff_toNat_le, hst, hstop]
    omega
  rw [Umem.frameAt, slice, if_pos hrg, hst, hstop]

theorem bytes_receive {s s' : RxState} {frameBytes b : List UInt8}
    (hfm : u.frameAt desc.addr = some frameBytes) (h : s.receive u desc = some (some b, s')) :
    desc.len ≤ UInt32.ofNat frameBytes.length ∧ b = frameBytes.take desc.len.toNat := by
  rw [RxState.receive, hfm, Option.map_some] at h
  split at h
  · cases h
  · rename_i hle
    refine ⟨UInt32.not_lt.mp hle, ?_⟩
    dsimp only at h
    split at h
    · cases h
      rfl
    · cases h
      rfl

theorem refill_receive {s s' : RxState} {b : Option (List UInt8)}
    (h : s.receive u desc = some (b, s')) : s'.toRefill = s.toRefill ++ [desc.addr] := by
  obtain ⟨frameBytes, -, h⟩ := Option.map_eq_some_iff.mp h
  split at h
  · cases h
    rfl
  · dsimp only at h
    split at h
    · cases h
      rfl
    · cases h
      unfold RxState.sendMeta
      split <;> rfl

def twoFrames (mem : List UInt8) : Umem := ⟨mem, 2048, 2, [0, 2048]⟩

def numbered : List UInt8 := (List.range 4096).map fun i => UInt8.ofNat (i / 256)

theorem length_numbered : numbered.length = 4096 := by
  rw [numbered, List.length_map, List.length_range]

def noPackets : RxState := ⟨0, 0, 0, 8192, [], []⟩

end Umem

end AfXdp

end Falx
