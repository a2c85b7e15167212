import Falx.ByteReader
import Falx.HeaderChecksum
import Mathlib.Data.List.GetD

/-! The parser of the XDP program with every read of the frame recorded, and what it
accepts and returns in terms of the bytes on the wire. -/

namespace Falx

open Option Words ByteReader Reader List

namespace Reads

def ptrAt (offset size : Nat) : Reader Nat := do
  let n ← Reader.size
  if offset + size ≤ n then return offset else Reader.fail

def u8 (p : Nat) : Reader UInt8 := do
  let w ← Reader.window p 1
  return w.1.getD 0 0

def u16 (p : Nat) : Reader UInt16 := do
  let w ← Reader.window p 2
  return le16 (w.1.getD 0 0) (w.1.getD 1 0)

def u32 (p : Nat) : Reader UInt32 := do
  let w ← Reader.window p 4
  return le32 (w.1.getD 0 0) (w.1.getD 1 0) (w.1.getD 2 0) (w.1.getD 3 0)

def ipv6Addr (p : Nat) : Reader Ipv6Addr := do
  let w ← Reader.window p 16
  return ⟨w.1, w.2⟩

def parseIpv4 (info : PacketInfo) : Reader PacketInfo := do
  let ip ← ptrAt ethHdrSize ipv4HdrSize
  let versionIhl ← u8 ip
  let ihl := (versionIhl &&& 0x0F).toNat
  if ihl < 5 then Reader.fail
  else do
    let srcIp ← u32 (ip + 12)
    let dstIp ← u32 (ip + 16)
    let protocol ← u8 (ip + 9)
    let info := { info with srcIp, dstIp, protocol }
    let offset := ethHdrSize + ihl * 4
    if protocol = Proto.tcp then do
      let tcp ← ptrAt offset tcpHdrSize
      let source ← u16 tcp
      let dest ← u16 (tcp + 2)
      let flags ← u16 (tcp + 12)
      let dataOff := (swap16 flags >>> 12).toNat
      if dataOff < 5 then Reader.fail
      else return { info with
        srcPort := swap16 source
        dstPort := swap16 dest
        tcpFlags := (swap16 flags &&& 0x1FF).toUInt8
        payloadOffset := UInt32.ofNat (offset + dataOff * 4) }
    else if protocol = Proto.udp then do
      let udp ← ptrAt offset udpHdrSize
      let source ← u16 udp
      let dest ← u16 (udp + 2)
      return { info with
        srcPort := swap16 source
        dstPort := swap16 dest
        payloadOffset := UInt32.ofNat (offset + udpHdrSize) }
    else return { info with payloadOffset := UInt32.ofNat offset }

def parseIpv6 (info : PacketInfo) : Reader PacketInfo := do
  let ip6 ← ptrAt ethHdrSize ipv6HdrSize
  let srcIp6 ← ipv6Addr (ip6 + 8)
  let dstIp6 ← ipv6Addr (ip6 + 24)
  let protocol ← u8 (ip6 + 6)
  let offset := ethHdrSize + ipv6HdrSize
  let info := { info with
    srcIp6, dstIp6, protocol, isIpv6 := true, payloadOffset := UInt32.ofNat offset }
  if protocol = Proto.tcp then do
    let tcp ← ptrAt offset tcpHdrSize
    let source ← u16 tcp
    let dest ← u16 (tcp + 2)
    let flags ← u16 (tcp + 12)
    return { info with
      srcPort := swap16 source
      dstPort := swap16 dest
      tcpFlags := (swap16 flags &&& 0x1FF).toUInt8 }
  else if protocol = Proto.udp then do
    let udp ← ptrAt offset udpHdrSize
    let source ← u16 udp
    let dest ← u16 (udp + 2)
    return { info with srcPort := swap16 source, dstPort := swap16 dest }
  else return info

def parsePacket : Reader PacketInfo := do
  let n ← Reader.size
  let info : PacketInfo := { pktLen := UInt32.ofNat n }
  let eth ← ptrAt 0 ethHdrSize
  let word ← u16 (eth + 12)
  let etherType := swap16 word
  if etherType = EtherType.ipv4 then parseIpv4 info
  else if etherType = EtherType.ipv6 then parseIpv6 info
  else return info

section Value

variable (f : Frame)

@[simp] theorem value_ptrAt (offset size : Nat) :
    (ptrAt offset size).value f = Falx.ptrAt f offset size := by
  by_cases h : offset + size ≤ f.length
  · simp [ptrAt, Falx.ptrAt, h]
  · simp [ptrAt, Falx.ptrAt, h]

@[simp] theorem value_u8 (p : Nat) : (u8 p).value f = some (f.u8 p) := rfl

@[simp] theorem value_u16 (p : Nat) : (u16 p).value f = some (f.u16 p) := rfl

@[simp] theorem value_u32 (p : Nat) : (u32 p).value f = some (f.u32 p) := rfl

@[simp] theorem value_ipv6Addr (p : Nat) : (ipv6Addr p).value f = some (Ipv6Addr.load f p) := rfl

theorem value_parseIpv4 (info : PacketInfo) : (parseIpv4 info).value f = Falx.parseIpv4 f info := by
  simp only [parseIpv4, Falx.parseIpv4, value_bind, value_ptrAt, value_u8,
    apply_ite (fun r : Reader PacketInfo => r.value f), value_fail, value_pure,
    value_u16, value_u32, bind_some]
  rfl

theorem value_parseIpv6 (info : PacketInfo) : (parseIpv6 info).value f = Falx.parseIpv6 f info := by
  simp only [parseIpv6, Falx.parseIpv6, value_bind, value_ptrAt, value_u8,
    apply_ite (fun r : Reader PacketInfo => r.value f), value_pure, value_u16,
    value_ipv6Addr, bind_some]
  rfl

theorem value_parsePacket : parsePacket.value f = Falx.parsePacket f := by
  simp only [parsePacket, Falx.parsePacket, value_bind, value_size, value_ptrAt,
    apply_ite (fun r : Reader PacketInfo => r.value f), value_pure, value_u16,
    value_parseIpv4, value_parseIpv6, bind_some]
  refine bind_congr fun eth heth => ?_
  obtain ⟨-, rfl⟩ := ptrAt_eq_some.mp heth
  rfl

end Value

section InBounds

variable {f : Frame}

theorem inBounds_ptrAt_bind {β : Type} {offset size : Nat} {k : Nat → Reader β}
    (hk : offset + size ≤ f.length → (k offset).InBounds f) :
    (ptrAt offset size >>= k).InBounds f := by
  refine Reader.InBounds.bind ?_ fun p hp => ?_
  · refine inBounds_size.bind fun n _ => ?_
    split
    · exact inBounds_pure _
    · exact inBounds_fail
  · rw [value_ptrAt] at hp
    obtain ⟨hfits, rfl⟩ := ptrAt_eq_some.mp hp
    exact hk hfits

theorem inBounds_u16 {p : Nat} (h : p + 2 ≤ f.length) : (u16 p).InBounds f :=
  inBounds_field h _

section Transport

variable {β : Type} {l4 : Nat}

theorem inBounds_tcp {k : UInt16 → UInt16 → UInt16 → Reader β}
    (hk : ∀ source dest flags, (k source dest flags).InBounds f) :
    (ptrAt l4 tcpHdrSize >>= fun tcp => u16 tcp >>= fun source => u16 (tcp + 2) >>= fun dest =>
      u16 (tcp + 12) >>= fun flags => k source dest flags).InBounds f := by
  refine inBounds_ptrAt_bind fun htcp => ?_
  simp only [tcpHdrSize] at htcp
  refine (inBounds_u16 (by omega)).bind fun source _ => ?_
  refine (inBounds_u16 (by omega)).bind fun dest _ => ?_
  refine (inBounds_u16 (by omega)).bind fun flags _ => ?_
  exact hk source dest flags

theorem inBounds_udp {k : UInt16 → UInt16 → Reader β}
    (hk : ∀ source dest, (k source dest).InBounds f) :
    (ptrAt l4 udpHdrSize >>= fun udp => u16 udp >>= fun source => u16 (udp + 2) >>= fun dest =>
      k source dest).InBounds f := by
  refine inBounds_ptrAt_bind fun hudp => ?_
  simp only [udpHdrSize] at hudp
  refine (inBounds_u16 (by omega)).bind fun source _ => ?_
  refine (inBounds_u16 (by omega)).bind fun dest _ => ?_
  exact hk source dest

end Transport

theorem inBounds_parseIpv4 (info : PacketInfo) : (parseIpv4 info).InBounds f := by
  refine inBounds_ptrAt_bind fun hip => ?_
  simp only [ethHdrSize, ipv4HdrSize] at hip ⊢
  refine (inBounds_field (by omega) _).bind fun versionIhl _ => ?_
  split
  · exact inBounds_fail
  refine (inBounds_field (by omega) _).bind fun srcIp _ => ?_
  refine (inBounds_field (by omega) _).bind fun dstIp _ => ?_
  refine (inBounds_field (by omega) _).bind fun protocol _ => ?_
  split
  · refine inBounds_tcp fun source dest flags => ?_
    split
    · exact inBounds_fail
    · exact inBounds_pure _
  split
  · exact inBounds_udp fun source dest => inBounds_pure _
  · exact inBounds_pure _

theorem inBounds_parseIpv6 (info : PacketInfo) : (parseIpv6 info).InBounds f := by
  refine inBounds_ptrAt_bind fun hip => ?_
  simp only [ethHdrSize, ipv6HdrSize] at hip ⊢
  refine (inBounds_field (by omega) _).bind fun srcIp6 _ => ?_
  refine (inBounds_field (by omega) _).bind fun dstIp6 _ => ?_
  refine (inBounds_field (by omega) _).bind fun protocol _ => ?_
  split
  · exact inBounds_tcp fun source dest flags => inBounds_pure _
  split
  · exact inBounds_udp fun source dest => inBounds_pure _
  · exact inBounds_pure _

theorem inBounds_parsePacket (f : Frame) : parsePacket.InBounds f := by
  refine inBounds_size.bind fun n _ => ?_
  refine inBounds_ptrAt_bind fun heth => ?_
  simp only [ethHdrSize] at heth
  refine (inBounds_u16 (by omega)).bind fun word _ => ?_
  dsimp only
  split
  · exact inBounds_parseIpv4 _
  split
  · exact inBounds_parseIpv6 _
  · exact inBounds_pure _

end InBounds

end Reads

def ihlWords (f : Frame) : Nat := (f.u8 14).toNat % 16

def tcpWords (f : Frame) (l4 : Nat) : Nat := (f.u8 (l4 + 12)).toNat / 16

def ipv4Transport (f : Frame) : Nat := 14 + 4 * ihlWords f

def Ipv4WellFormed (f : Frame) : Prop :=
  34 ≤ f.length ∧ 5 ≤ ihlWords f ∧
    ((f.u8 23).toNat = 6 →
      ipv4Transport f + 20 ≤ f.length ∧ 5 ≤ tcpWords f (ipv4Transport f)) ∧
    ((f.u8 23).toNat = 17 → ipv4Transport f + 8 ≤ f.length)

def Ipv6WellFormed (f : Frame) : Prop :=
  54 ≤ f.length ∧ ((f.u8 20).toNat = 6 → 74 ≤ f.length) ∧
    ((f.u8 20).toNat = 17 → 62 ≤ f.length)

def WellFormed (f : Frame) : Prop :=
  (beWord f 12 ≠ 0x0800 ∧ beWord f 12 ≠ 0x86DD) ∨ (beWord f 12 = 0x0800 ∧ Ipv4WellFormed f) ∨
    (beWord f 12 = 0x86DD ∧ Ipv6WellFormed f)

/-- The fields of a packet as numbers, and its addresses as they lie on the wire. -/
@[ext]
structure Decoded where
  src : List UInt8
  dst : List UInt8
  src6 : List UInt8
  dst6 : List UInt8
  srcPort : Nat
  dstPort : Nat
  protocol : Nat
  tcpFlags : Nat
  isIpv6 : Bool
  pktLen : Nat
  payloadOffset : Nat
  deriving DecidableEq

def PacketInfo.decoded (pkt : PacketInfo) : Decoded where
  src := bytes32 pkt.srcIp
  dst := bytes32 pkt.dstIp
  src6 := pkt.srcIp6.bytes
  dst6 := pkt.dstIp6.bytes
  srcPort := pkt.srcPort.toNat
  dstPort := pkt.dstPort.toNat
  protocol := pkt.protocol.toNat
  tcpFlags := pkt.tcpFlags.toNat
  isIpv6 := pkt.isIpv6
  pktLen := pkt.pktLen.toNat
  payloadOffset := pkt.payloadOffset.toNat

def wireBytes (f : Frame) (p n : Nat) : List UInt8 := (f.drop p).take n

def nonIpDecoding (f : Frame) : Decoded where
  src := [0, 0, 0, 0]
  dst := [0, 0, 0, 0]
  src6 := List.replicate 16 0
  dst6 := List.replicate 16 0
  srcPort := 0
  dstPort := 0
  protocol := 0
  tcpFlags := 0
  isIpv6 := false
  pktLen := f.length % 2 ^ 32
  payloadOffset := 0

def withTransport (f : Frame) (protocol l4 : Nat) (d : Decoded) : Decoded :=
  { d with
    protocol := protocol
    srcPort := if protocol = 6 ∨ protocol = 17 then beWord f l4 else 0
    dstPort := if protocol = 6 ∨ protocol = 17 then beWord f (l4 + 2) else 0
    tcpFlags := if protocol = 6 then (f.u8 (l4 + 13)).toNat else 0 }

def ipv4Decoding (f : Frame) : Decoded :=
  withTransport f (f.u8 23).toNat (ipv4Transport f) { nonIpDecoding f with
    src := wireBytes f 26 4
    dst := wireBytes f 30 4
    payloadOffset := ipv4Transport f +
      (if (f.u8 23).toNat = 6 then 4 * tcpWords f (ipv4Transport f)
        else if (f.u8 23).toNat = 17 then 8 else 0) }

def ipv6Decoding (f : Frame) : Decoded :=
  withTransport f (f.u8 20).toNat 54 { nonIpDecoding f with
    src6 := wireBytes f 22 16
    dst6 := wireBytes f 38 16
    isIpv6 := true
    payloadOffset := 54 }

def referenceDecoding (f : Frame) : Decoded :=
  if beWord f 12 = 0x0800 then ipv4Decoding f
  else if beWord f 12 = 0x86DD then ipv6Decoding f
  else nonIpDecoding f

section Wire

variable (f : Frame)

theorem etherType_eq_iff (t : UInt16) : etherType f = t ↔ beWord f 12 = t.toNat := by
  rw [← UInt16.toNat_inj, etherType, toNat_swap16_u16]

theorem toNat_and_lowNibble (b : UInt8) : (b &&& 0x0F).toNat = b.toNat % 16 := by
  exact Nat.and_two_pow_sub_one_eq_mod b.toNat 4

theorem toNat_tcpFlagsWord (p : Nat) : (tcpFlagsWord f p).toNat =
    (f.u8 (p + 12)).toNat * 256 + (f.u8 (p + 13)).toNat := by
  rw [tcpFlagsWord, toNat_swap16_u16, beWord]

theorem toNat_dataOff (p : Nat) : (tcpFlagsWord f p >>> 12).toNat = tcpWords f p := by
  have h13 := (f.u8 (p + 13)).toNat_lt
  rw [UInt16.toNat_shiftRight, toNat_tcpFlagsWord, tcpWords]
  rw [show (UInt16.toNat 12 % 16) = 12 from rfl, Nat.shiftRight_eq_div_pow]
  omega

theorem toNat_tcpFlags (p : Nat) :
    ((tcpFlagsWord f p &&& 0x1FF).toUInt8).toNat = (f.u8 (p + 13)).toNat := by
  have h13 := (f.u8 (p + 13)).toNat_lt
  have hmask : (tcpFlagsWord f p &&& 0x1FF).toNat = (tcpFlagsWord f p).toNat % 512 := by
    exact Nat.and_two_pow_sub_one_eq_mod _ 9
  rw [UInt16.toNat_toUInt8, hmask, toNat_tcpFlagsWord]
  omega

theorem wireBytes_eq {p n : Nat} (h : p + n ≤ f.length) :
    wireBytes f p n = (List.range n).map fun i => f.u8 (p + i) := by
  apply ext_getElem
  · simp only [wireBytes, length_take, length_drop, length_map, length_range]
    omega
  · intro i hi hi'
    simp only [length_map, length_range] at hi'
    simp only [wireBytes, getElem_take, getElem_drop, getElem_map, getElem_range,
      Frame.u8]
    rw [getD_eq_getElem _ _ (by omega)]

theorem bytes32_u32_eq_wireBytes {p : Nat} (h : p + 4 ≤ f.length) :
    bytes32 (f.u32 p) = wireBytes f p 4 := by
  rw [Frame.u32, bytes32_le32, wireBytes_eq f h]
  rfl

theorem bytes_load_eq_wireBytes {p : Nat} (h : p + 16 ≤ f.length) :
    (Ipv6Addr.load f p).bytes = wireBytes f p 16 := by
  rw [wireBytes_eq f h]
  rfl

end Wire

section Accepted

variable {f : Frame} {info pkt : PacketInfo}

instance (f : Frame) : Decidable (Ipv4WellFormed f) := inferInstanceAs (Decidable (_ ∧ _))

instance (f : Frame) : Decidable (Ipv6WellFormed f) := inferInstanceAs (Decidable (_ ∧ _))

instance (f : Frame) : Decidable (WellFormed f) := inferInstanceAs (Decidable (_ ∨ _))

def ipv4Result (f : Frame) (info : PacketInfo) : PacketInfo :=
  let l4 := ipv4Transport f
  let protocol := f.u8 23
  { info with
    srcIp := f.u32 26
    dstIp := f.u32 30
    protocol := protocol
    srcPort := if protocol = Proto.tcp ∨ protocol = Proto.udp then swap16 (f.u16 l4)
      else info.srcPort
    dstPort := if protocol = Proto.tcp ∨ protocol = Proto.udp then swap16 (f.u16 (l4 + 2))
      else info.dstPort
    tcpFlags := if protocol = Proto.tcp then (tcpFlagsWord f l4 &&& 0x1FF).toUInt8
      else info.tcpFlags
    payloadOffset := UInt32.ofNat (if protocol = Proto.tcp then l4 + tcpWords f l4 * 4
      else if protocol = Proto.udp then l4 + 8 else l4) }

def ipv6Result (f : Frame) (info : PacketInfo) : PacketInfo :=
  let protocol := f.u8 20
  { info with
    srcIp6 := Ipv6Addr.load f 22
    dstIp6 := Ipv6Addr.load f 38
    protocol := protocol
    isIpv6 := true
    srcPort := if protocol = Proto.tcp ∨ protocol = Proto.udp then swap16 (f.u16 54)
      else info.srcPort
    dstPort := if protocol = Proto.tcp ∨ protocol = Proto.udp then swap16 (f.u16 56)
      else info.dstPort
    tcpFlags := if protocol = Proto.tcp then (tcpFlagsWord f 54 &&& 0x1FF).toUInt8
      else info.tcpFlags
    payloadOffset := 54 }

theorem eq_tcp_iff (b : UInt8) : b = Proto.tcp ↔ b.toNat = 6 := UInt8.toNat_inj.symm

theorem eq_udp_iff (b : UInt8) : b = Proto.udp ↔ b.toNat = 17 := UInt8.toNat_inj.symm

theorem udp_ne_tcp : Proto.udp ≠ Proto.tcp := by decide

theorem transport_eq {b : UInt8} {l4 : Nat} {tcp udp : Nat → Option PacketInfo}
    {other : Option PacketInfo} {r : PacketInfo} {P : Prop} [Decidable P]
    (htcp : b = Proto.tcp → tcp l4 = if P then some r else none)
    (hudp : b = Proto.udp → udp l4 = some r) (ho : b ≠ Proto.tcp → b ≠ Proto.udp → other = some r) :
    (if b = Proto.tcp then (ptrAt f l4 tcpHdrSize).bind tcp
      else if b = Proto.udp then (ptrAt f l4 udpHdrSize).bind udp else other) =
    if (b.toNat = 6 → l4 + 20 ≤ f.length ∧ P) ∧ (b.toNat = 17 → l4 + 8 ≤ f.length) then some r
      else none := by
  simp only [← eq_tcp_iff, ← eq_udp_iff, ptrAt, tcpHdrSize, udpHdrSize]
  by_cases h6 : b = Proto.tcp
  · by_cases hfits : l4 + 20 ≤ f.length
    · simp [h6, hfits, udp_ne_tcp.symm, htcp h6]
    · simp [h6, hfits]
  by_cases h17 : b = Proto.udp
  · by_cases hfits : l4 + 8 ≤ f.length
    · simp [h17, hfits, udp_ne_tcp, hudp h17]
    · simp [h17, hfits, udp_ne_tcp]
  · simp [h6, h17, ho h6 h17]

theorem parseIpv4_eq (f : Frame) (info : PacketInfo) :
    parseIpv4 f info = if Ipv4WellFormed f then some (ipv4Result f info) else none := by
  have hihl : (f.u8 ethHdrSize &&& 0x0F).toNat = ihlWords f := toNat_and_lowNibble _
  have hl4 : ethHdrSize + ihlWords f * 4 = ipv4Transport f := by
    rw [ipv4Transport, ethHdrSize, Nat.mul_comm]
  simp only [parseIpv4, bind_eq_bind]
  by_cases hlen : ethHdrSize + ipv4HdrSize ≤ f.length
  · rw [ptrAt, if_pos hlen, bind_some, hihl]
    by_cases h5 : ihlWords f < 5
    · rw [if_pos h5, if_neg fun h => absurd h.2.1 (by omega)]
    rw [if_neg h5, hl4]
    refine (transport_eq (b := f.u8 23) (r := ipv4Result f info)
      (P := 5 ≤ tcpWords f (ipv4Transport f)) (fun h => ?_) (fun h => ?_) fun h6 h17 => ?_).trans
      (if_congr ?_ rfl rfl)
    · rw [toNat_dataOff, ← ite_not]
      simp [ipv4Result, h, ethHdrSize]
    · simp [ipv4Result, h, udp_ne_tcp, ethHdrSize, udpHdrSize]
    · simp [ipv4Result, h6, h17, ethHdrSize]
    · exact ⟨fun h => ⟨hlen, by omega, h⟩, fun h => h.2.2⟩
  · rw [ptrAt, if_neg hlen, bind_none, if_neg fun h => hlen h.1]

theorem parseIpv6_eq (f : Frame) (info : PacketInfo) :
    parseIpv6 f info = if Ipv6WellFormed f then some (ipv6Result f info) else none := by
  simp only [parseIpv6, bind_eq_bind]
  by_cases hlen : ethHdrSize + ipv6HdrSize ≤ f.length
  · rw [ptrAt, if_pos hlen, bind_some]
    refine (transport_eq (b := f.u8 20) (r := ipv6Result f info) (P := True) (fun h => ?_)
      (fun h => ?_) fun h6 h17 => ?_).trans (if_congr ?_ rfl rfl)
    · simp [ipv6Result, h, ethHdrSize, ipv6HdrSize]
    · simp [ipv6Result, h, udp_ne_tcp, ethHdrSize, ipv6HdrSize]
    · simp [ipv6Result, h6, h17, ethHdrSize, ipv6HdrSize]
    · rw [and_true]
      exact ⟨fun h => ⟨hlen, h⟩, fun h => h.2⟩
  · rw [ptrAt, if_neg hlen, bind_none, if_neg fun h => hlen h.1]

theorem parsePacket_eq (hlen : 14 ≤ f.length) :
    parsePacket f =
      if beWord f 12 = 0x0800 then parseIpv4 f { pktLen := UInt32.ofNat f.length }
      else if beWord f 12 = 0x86DD then parseIpv6 f { pktLen := UInt32.ofNat f.length }
      else some { pktLen := UInt32.ofNat f.length } := by
  have h4 : etherType f = EtherType.ipv4 ↔ beWord f 12 = 0x0800 := etherType_eq_iff f _
  have h6 : etherType f = EtherType.ipv6 ↔ beWord f 12 = 0x86DD := etherType_eq_iff f _
  have hfits : 0 + ethHdrSize ≤ f.length := by simpa [ethHdrSize] using hlen
  simp only [parsePacket, ptrAt, if_pos hfits, bind_eq_bind, bind_some, h4, h6]

theorem parsePacket_isSome_iff (hlen : 14 ≤ f.length) :
    (parsePacket f).isSome = true ↔ WellFormed f := by
  rw [parsePacket_eq hlen]
  by_cases h4 : beWord f 12 = 0x0800
  · rw [if_pos h4, parseIpv4_eq]
    by_cases hwf : Ipv4WellFormed f
    · simp [WellFormed, h4, hwf]
    · simp [WellFormed, h4, hwf]
  by_cases h6 : beWord f 12 = 0x86DD
  · rw [if_pos h6, parseIpv6_eq]
    by_cases hwf : Ipv6WellFormed f
    · simp [WellFormed, h6, hwf]
    · simp [WellFormed, h6, hwf]
  · simp [WellFormed, h4, h6]

theorem toNat_port (f : Frame) (b : UInt8) (p : Nat) :
    (if b = Proto.tcp ∨ b = Proto.udp then swap16 (f.u16 p) else 0).toNat =
      if b.toNat = 6 ∨ b.toNat = 17 then beWord f p else 0 := by
  simp only [eq_tcp_iff, eq_udp_iff, apply_ite UInt16.toNat, toNat_swap16_u16]
  rfl

theorem toNat_flags (f : Frame) (b : UInt8) (p : Nat) :
    (if b = Proto.tcp then (tcpFlagsWord f p &&& 0x1FF).toUInt8 else 0).toNat =
      if b.toNat = 6 then (f.u8 (p + 13)).toNat else 0 := by
  simp only [eq_tcp_iff, apply_ite UInt8.toNat, toNat_tcpFlags]
  rfl

theorem ipv4Result_decoded (hwf : Ipv4WellFormed f) :
    (ipv4Result f { pktLen := UInt32.ofNat f.length }).decoded = ipv4Decoding f := by
  obtain ⟨hlen, -, -, -⟩ := hwf
  have htcp := eq_tcp_iff (f.u8 23)
  have hudp := eq_udp_iff (f.u8 23)
  have hl4 : ipv4Transport f ≤ 74 := by
    rw [ipv4Transport, ihlWords]
    omega
  have hwd : tcpWords f (ipv4Transport f) < 16 := by
    have hb := (f.u8 (ipv4Transport f + 12)).toNat_lt
    rw [tcpWords]
    omega
  have hzero : Ipv6Addr.unspecified.bytes = List.replicate 16 0 := rfl
  ext1
  · exact bytes32_u32_eq_wireBytes f (by omega)
  · exact bytes32_u32_eq_wireBytes f (by omega)
  · exact hzero
  · exact hzero
  · exact toNat_port f _ _
  · exact toNat_port f _ _
  · rfl
  · exact toNat_flags f _ _
  · rfl
  · exact UInt32.toNat_ofNat'
  · simp only [PacketInfo.decoded, ipv4Result, ipv4Decoding, withTransport, htcp, hudp,
      UInt32.toNat_ofNat']
    split_ifs <;> omega

theorem bytes32_zero : bytes32 0 = [0, 0, 0, 0] := by decide

theorem ipv6Result_decoded (hwf : Ipv6WellFormed f) :
    (ipv6Result f { pktLen := UInt32.ofNat f.length }).decoded = ipv6Decoding f := by
  obtain ⟨hlen, -, -⟩ := hwf
  ext1
  · exact bytes32_zero
  · exact bytes32_zero
  · exact bytes_load_eq_wireBytes f (by omega)
  · exact bytes_load_eq_wireBytes f (by omega)
  · exact toNat_port f _ _
  · exact toNat_port f _ _
  · rfl
  · exact toNat_flags f _ _
  · rfl
  · exact UInt32.toNat_ofNat'
  · rfl

theorem parsePacket_decoded (h : parsePacket f = some pkt) : pkt.decoded = referenceDecoding f := by
  rw [parsePacket_eq (Nat.not_lt.mp (parsePacket_length h))] at h
  unfold referenceDecoding
  by_cases h4 : beWord f 12 = 0x0800
  · rw [if_pos h4, parseIpv4_eq] at h
    obtain ⟨hwf, heq⟩ := ite_none_right_eq_some.mp h
    rw [if_pos h4, ← Option.some.inj heq]
    exact ipv4Result_decoded hwf
  rw [if_neg h4] at h ⊢
  by_cases h6 : beWord f 12 = 0x86DD
  · rw [if_pos h6, parseIpv6_eq] at h
    obtain ⟨hwf, heq⟩ := ite_none_right_eq_some.mp h
    rw [if_pos h6, ← Option.some.inj heq]
    exact ipv6Result_decoded hwf
  · rw [if_neg h6] at h ⊢
    rw [← Option.some.inj h]
    simp only [PacketInfo.decoded, nonIpDecoding, bytes32_zero, UInt32.toNat_ofNat']
    rfl

/-- For every frame that has an Ethernet header: the parser reads inside the frame, it
accepts the well-formed frames and no others, and what it returns is what is on the wire. -/
theorem parsePacket_spec (f : Frame) (hlen : 14 ≤ f.length) :
    (∀ p ∈ Reads.parsePacket.reads f, p < f.length) ∧
      ((Reads.parsePacket.value f).isSome = true ↔ WellFormed f) ∧
      ∀ pkt, Reads.parsePacket.value f = some pkt → pkt.decoded = referenceDecoding f := by
  rw [Reads.value_parsePacket]
  exact ⟨Reads.inBounds_parsePacket f, parsePacket_isSome_iff hlen, fun _ => parsePacket_decoded⟩

theorem parsePacket_spec_icmpFrame :
    14 ≤ (icmpFrame 1 2 3 4).length ∧ WellFormed (icmpFrame 1 2 3 4) ∧
      (referenceDecoding (icmpFrame 1 2 3 4)).src = [1, 2, 3, 4] := by
  obtain ⟨-, hiff, hdecoded⟩ := parsePacket_spec (icmpFrame 1 2 3 4) (by decide)
  have hv : Reads.parsePacket.value (icmpFrame 1 2 3 4) = some (icmpInfo 1 2 3 4) :=
    (Reads.value_parsePacket _).trans (parsePacket_icmpFrame 1 2 3 4)
  refine ⟨by decide, hiff.mp (by rw [hv]; rfl), ?_⟩
  rw [← hdecoded _ hv]
  decide

end Accepted

end Falx
