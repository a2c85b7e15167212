import Falx.Types

/-! Frames and the header parser of the XDP program. Words are loaded in native
(little-endian) order, so an address keeps its wire bytes in memory. Every
access is preceded by the bounds check `ptrAt`. Of IPv6 only the fixed header is
read; extension headers are not followed. -/

namespace Falx

open Option Words

abbrev Frame := List UInt8

namespace Frame

def u8 (f : Frame) (p : Nat) : UInt8 := f.getD p 0

def u16 (f : Frame) (p : Nat) : UInt16 := le16 (u8 f p) (u8 f (p + 1))

def u32 (f : Frame) (p : Nat) : UInt32 :=
  le32 (u8 f p) (u8 f (p + 1)) (u8 f (p + 2)) (u8 f (p + 3))

end Frame

structure Ipv6Addr where
  bytes : List UInt8
  length_eq : bytes.length = 16
  deriving DecidableEq

def Ipv6Addr.unspecified : Ipv6Addr := ⟨List.replicate 16 0, rfl⟩

def Ipv6Addr.load (f : Frame) (p : Nat) : Ipv6Addr :=
  ⟨(List.range 16).map (fun i => f.u8 (p + i)), by simp⟩

structure PacketInfo where
  srcIp : UInt32 := 0
  dstIp : UInt32 := 0
  srcPort : UInt16 := 0
  dstPort : UInt16 := 0
  protocol : UInt8 := 0
  tcpFlags : UInt8 := 0
  pktLen : UInt32 := 0
  isIpv6 : Bool := false
  srcIp6 : Ipv6Addr := Ipv6Addr.unspecified
  dstIp6 : Ipv6Addr := Ipv6Addr.unspecified
  payloadOffset : UInt32 := 0
  deriving DecidableEq

def ethHdrSize : Nat := 14
def ipv4HdrSize : Nat := 20
def ipv6HdrSize : Nat := 40
def tcpHdrSize : Nat := 20
def udpHdrSize : Nat := 8

def ptrAt (f : Frame) (offset size : Nat) : Option Nat :=
  if offset + size ≤ f.length then some offset else none

def etherType (f : Frame) : UInt16 := swap16 (f.u16 12)

def ipHdrLen (f : Frame) : Nat := (f.u8 ethHdrSize &&& 0x0F).toNat * 4

def tcpFlagsWord (f : Frame) (tcp : Nat) : UInt16 := swap16 (f.u16 (tcp + 12))

def parseIpv4 (f : Frame) (info : PacketInfo) : Option PacketInfo := do
  let ip ← ptrAt f ethHdrSize ipv4HdrSize
  let ihl := (f.u8 ip &&& 0x0F).toNat
  if ihl < 5 then none
  else
    let info := { info with
      srcIp := f.u32 (ip + 12)
      dstIp := f.u32 (ip + 16)
      protocol := f.u8 (ip + 9) }
    let offset := ethHdrSize + ihl * 4
    if info.protocol = Proto.tcp then
      let tcp ← ptrAt f offset tcpHdrSize
      let dataOff := (tcpFlagsWord f tcp >>> 12).toNat
      if dataOff < 5 then none
      else
        some { info with
          srcPort := swap16 (f.u16 tcp)
          dstPort := swap16 (f.u16 (tcp + 2))
          tcpFlags := (tcpFlagsWord f tcp &&& 0x1FF).toUInt8
          payloadOffset := UInt32.ofNat (offset + dataOff * 4) }
    else if info.protocol = Proto.udp then
      let udp ← ptrAt f offset udpHdrSize
      some { info with
        srcPort := swap16 (f.u16 udp)
        dstPort := swap16 (f.u16 (udp + 2))
        payloadOffset := UInt32.ofNat (offset + udpHdrSize) }
    else some { info with payloadOffset := UInt32.ofNat offset }

def parseIpv6 (f : Frame) (info : PacketInfo) : Option PacketInfo := do
  let ip6 ← ptrAt f ethHdrSize ipv6HdrSize
  let offset := ethHdrSize + ipv6HdrSize
  let info := { info with
    srcIp6 := Ipv6Addr.load f (ip6 + 8)
    dstIp6 := Ipv6Addr.load f (ip6 + 24)
    protocol := f.u8 (ip6 + 6)
    isIpv6 := true
    payloadOffset := UInt32.ofNat offset }
  if info.protocol = Proto.tcp then
    let tcp ← ptrAt f offset tcpHdrSize
    some { info with
      srcPort := swap16 (f.u16 tcp)
      dstPort := swap16 (f.u16 (tcp + 2))
      tcpFlags := (tcpFlagsWord f tcp &&& 0x1FF).toUInt8 }
  else if info.protocol = Proto.udp then
    let udp ← ptrAt f offset udpHdrSize
    some { info with
      srcPort := swap16 (f.u16 udp)
      dstPort := swap16 (f.u16 (udp + 2)) }
  else some info

def parsePacket (f : Frame) : Option PacketInfo := do
  let info : PacketInfo := { pktLen := UInt32.ofNat f.length }
  let _eth ← ptrAt f 0 ethHdrSize
  if etherType f = EtherType.ipv4 then parseIpv4 f info
  else if etherType f = EtherType.ipv6 then parseIpv6 f info
  -- ARP and other traffic keeps only its length
  else some info

namespace TcpFlags

def syn : UInt8 := 0x02
def ack : UInt8 := 0x10

def isSynOnly (flags : UInt8) : Bool := flags == syn

def isNonSynAck (flags : UInt8) : Bool := flags &&& ack != 0 && flags &&& syn == 0

end TcpFlags

variable {f : Frame} {pkt info : PacketInfo}

theorem ptrAt_eq_some {offset size p : Nat} :
    ptrAt f offset size = some p ↔ offset + size ≤ f.length ∧ p = offset := by
  by_cases h : offset + size ≤ f.length
  · simp [ptrAt, h, eq_comm]
  · simp [ptrAt, h]

theorem parsePacket_length (h : parsePacket f = some pkt) : ¬ f.length < 14 := by
  simp only [parsePacket, bind_eq_bind, bind_eq_some_iff, ptrAt_eq_some,
    ethHdrSize] at h
  omega

/-- What the later stages rely on when the IPv4 branch accepts. -/
structure Ipv4Accepted (f : Frame) (info pkt : PacketInfo) : Prop where
  hdr : ethHdrSize + ipv4HdrSize ≤ f.length
  ihl : 20 ≤ ipHdrLen f
  srcIp : pkt.srcIp = f.u32 26
  isIpv6 : pkt.isIpv6 = info.isIpv6
  pktLen : pkt.pktLen = info.pktLen

theorem parseIpv4_spec (h : parseIpv4 f info = some pkt) : Ipv4Accepted f info pkt := by
  simp only [parseIpv4, bind_eq_bind, bind_eq_some_iff, ptrAt_eq_some] at h
  obtain ⟨ip, ⟨hlen, rfl⟩, h⟩ := h
  split at h
  · simp at h
  rename_i hihl
  have hihl' : 20 ≤ ipHdrLen f := by
    simp only [ipHdrLen]
    omega
  split at h
  · obtain ⟨tcp, -, h⟩ := bind_eq_some_iff.mp h
    split at h
    · simp at h
    · cases h
      exact ⟨hlen, hihl', rfl, rfl, rfl⟩
  · split at h
    · obtain ⟨udp, -, h⟩ := bind_eq_some_iff.mp h
      cases h
      exact ⟨hlen, hihl', rfl, rfl, rfl⟩
    · cases h
      exact ⟨hlen, hihl', rfl, rfl, rfl⟩

theorem parseIpv6_isIpv6 (h : parseIpv6 f info = some pkt) : pkt.isIpv6 = true := by
  simp only [parseIpv6, bind_eq_bind, bind_eq_some_iff, ptrAt_eq_some] at h
  obtain ⟨ip6, -, h⟩ := h
  split at h
  · obtain ⟨tcp, -, h⟩ := bind_eq_some_iff.mp h
    cases h
    rfl
  · split at h
    · obtain ⟨udp, -, h⟩ := bind_eq_some_iff.mp h
      cases h
      rfl
    · cases h
      rfl

theorem parsePacket_cases (h : parsePacket f = some pkt) :
    (etherType f = EtherType.ipv4 ∧ pkt.isIpv6 = false ∧ pkt.srcIp = f.u32 26 ∧
      20 ≤ ipHdrLen f ∧ ethHdrSize + ipv4HdrSize ≤ f.length) ∨
    (etherType f = EtherType.ipv6 ∧ pkt.isIpv6 = true) ∨
    (etherType f ≠ EtherType.ipv4 ∧ etherType f ≠ EtherType.ipv6 ∧
      pkt = { pktLen := UInt32.ofNat f.length }) := by
  simp only [parsePacket, bind_eq_bind, bind_eq_some_iff, ptrAt_eq_some] at h
  obtain ⟨eth, -, h⟩ := h
  by_cases h4 : etherType f = EtherType.ipv4
  · rw [if_pos h4] at h
    have ha := parseIpv4_spec h
    exact .inl ⟨h4, ha.isIpv6, ha.srcIp, ha.ihl, ha.hdr⟩
  · rw [if_neg h4] at h
    by_cases h6 : etherType f = EtherType.ipv6
    · rw [if_pos h6] at h
      exact .inr (.inl ⟨h6, parseIpv6_isIpv6 h⟩)
    · rw [if_neg h6] at h
      exact .inr (.inr ⟨h4, h6, (Option.some.inj h).symm⟩)

def ipv4Source (f : Frame) : Option UInt32 :=
  if etherType f = EtherType.ipv4 then (parsePacket f).map PacketInfo.srcIp else none

theorem ipv4Source_of_parsed (h : parsePacket f = some pkt) (h4 : pkt.isIpv6 = false)
    (h0 : pkt.srcIp ≠ 0) : ipv4Source f = some pkt.srcIp := by
  rcases parsePacket_cases h with ⟨he, -⟩ | ⟨-, hv⟩ | ⟨-, -, rfl⟩
  · rw [ipv4Source, if_pos he, h, map_some]
  · rw [h4] at hv
    cases hv
  · exact absurd rfl h0

end Falx
