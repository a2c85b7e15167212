import Falx.Packet

/-! The silent redirect: a frame of a marked source is rewritten in place and
sent back out towards the active honeypot. The destination is replaced and the
checksum field cleared before the header is summed. `none` is the error of the
source, on which the caller drops the frame. -/

namespace Falx

open Frame Words

namespace Frame

def store (f : Frame) (p : Nat) : List UInt8 → Frame
  | [] => f
  | b :: bs => store (f.set p b) (p + 1) bs

end Frame

/-- The loop of `compute_ip_checksum`: at most `n` more words, from word `i`
on, with the bounds check repeated for each word. -/
def sumIpWords (f : Frame) (ipOffset words : Nat) : Nat → Nat → UInt32 → Option UInt32
  | 0, _, sum => some sum
  | n + 1, i, sum =>
    if words ≤ i then some sum
    else
      match ptrAt f (ipOffset + i * 2) 2 with
      | none => none
      | some p => sumIpWords f ipOffset words n (i + 1) (sum + (swap16 (f.u16 p)).toUInt32)

def foldCarry (sum : UInt32) : UInt32 := (sum &&& (0xFFFF : UInt32)) + (sum >>> (16 : UInt32))

def computeIpChecksum (f : Frame) (ipOffset ihl : Nat) : Option UInt16 := do
  let sum ← sumIpWords f ipOffset (ihl / 2) 30 0 0
  some (~~~ (foldCarry (foldCarry sum)).toUInt16)

def updateL4Checksum (oldCheck : UInt16) (oldIp newIp : UInt32) (oldPort newPort : UInt16) :
    UInt16 :=
  let csum := (~~~ oldCheck).toUInt32
  let csum := csum - (oldIp >>> 16)
  let csum := csum - (oldIp &&& 0xFFFF)
  let csum := csum + (newIp >>> 16)
  let csum := csum + (newIp &&& 0xFFFF)
  let csum := csum - (swap16 oldPort).toUInt32
  let csum := csum + (swap16 newPort).toUInt32
  ~~~ (foldCarry (foldCarry csum)).toUInt16

/-- The rewrite of a TCP or UDP header of `size` bytes at `l4Offset`, whose
checksum field lies `checkOffset` bytes into it. -/
def rewriteDestPort (target : HoneypotTarget) (oldDst : UInt32) (l4Offset size checkOffset : Nat)
    (f : Frame) : Option Frame := do
  let l4 ← ptrAt f l4Offset size
  let oldPort := f.u16 (l4 + 2)
  let newPort := swap16 target.dstPort
  let f := f.store (l4 + 2) (bytes16 newPort)
  let check := updateL4Checksum (f.u16 (l4 + checkOffset)) oldDst target.dstIp oldPort newPort
  some (f.store (l4 + checkOffset) (bytes16 check))

def rewritePort (target : HoneypotTarget) (oldDst : UInt32) (ipOffset ihl : Nat) (f : Frame) :
    Option Frame :=
  if target.dstPort = 0 then some f
  else if f.u8 (ipOffset + 9) = Proto.tcp then
    rewriteDestPort target oldDst (ipOffset + ihl) tcpHdrSize 16 f
  else if f.u8 (ipOffset + 9) = Proto.udp then
    rewriteDestPort target oldDst (ipOffset + ihl) udpHdrSize 6 f
  else some f

def rewriteDst (target : HoneypotTarget) (ipOffset : Nat) (f : Frame) : Frame :=
  (f.store (ipOffset + 16) (bytes32 target.dstIp)).store (ipOffset + 10) (bytes16 0)

def tryRedirect (targets : UInt32 → Option HoneypotTarget) (active : Option UInt32) (f : Frame) :
    Option (XdpAction × Frame) := do
  let target ← targets (active.getD 0)
  if target.active = 0 ∨ target.dstIp = 0 then none
  else
    let _eth ← ptrAt f 0 ethHdrSize
    if etherType f ≠ EtherType.ipv4 then none
    else
      let ip ← ptrAt f ethHdrSize ipv4HdrSize
      let ihl := (f.u8 ip &&& 0x0F).toNat * 4
      if ihl < 20 then none
      else
        let f := (f.store 0 target.dstMac.bytes).store 6 target.srcMac.bytes
        let oldDst := f.u32 (ip + 16)
        let f := rewriteDst target ip f
        let check ← computeIpChecksum f ip ihl
        let f := f.store (ip + 10) (bytes16 check)
        let f ← rewritePort target oldDst ip ihl f
        some (.tx, f)

def redirectToHoneypot (targets : UInt32 → Option HoneypotTarget) (active : Option UInt32)
    (f : Frame) : XdpAction × Frame :=
  (tryRedirect targets active f).getD (.drop, f)

theorem Frame.store_length (f : Frame) (p : Nat) (bs : List UInt8) :
    (f.store p bs).length = f.length := by
  induction bs generalizing f p with
  | nil => rfl
  | cons b bs ih => rw [store, ih, List.length_set]

theorem Frame.u8_set (f : Frame) (p i : Nat) (b : UInt8) :
    u8 (f.set p b) i = if p = i ∧ i < f.length then b else f.u8 i := by
  simp only [u8, List.getD_eq_getElem?_getD, List.getElem?_set]
  by_cases hp : p = i
  · subst hp
    by_cases hl : p < f.length
    · simp [hl]
    · simp [hl]
  · simp [hp]

variable {f : Frame} {p i : Nat}

theorem Frame.u8_store_of_lt (bs : List UInt8) (h : i < p) :
    u8 (f.store p bs) i = f.u8 i := by
  induction bs generalizing f p with
  | nil => rfl
  | cons b bs ih =>
    rw [store, ih (by omega), u8_set, if_neg (by omega)]

theorem Frame.u8_store_of_ge (bs : List UInt8) (h : p + bs.length ≤ i) :
    u8 (f.store p bs) i = f.u8 i := by
  induction bs generalizing f p with
  | nil => rfl
  | cons b bs ih =>
    simp only [List.length_cons] at h
    rw [store, ih (by omega), u8_set, if_neg (by omega)]

theorem Frame.u8_store_of_mem (bs : List UInt8) (hi : i < bs.length) (hlen : p + i < f.length) :
    u8 (f.store p bs) (p + i) = bs.getD i 0 := by
  induction bs generalizing f p i with
  | nil => simp at hi
  | cons b bs ih =>
    rw [store]
    cases i with
    | zero =>
      rw [Nat.add_zero, u8_store_of_lt bs (by omega), u8_set, if_pos ⟨rfl, by omega⟩]
      rfl
    | succ i =>
      simp only [List.length_cons] at hi
      rw [show p + (i + 1) = p + 1 + i by omega, ih (by omega) (by rw [List.length_set]; omega)]
      rfl

end Falx
