import Falx.Manager
import Falx.PacketReads
import Falx.Redirect

/-! The parser of the AF_XDP bridge, which reads the frames that the XDP program has
handed to user space, and its agreement with the parser of the program. -/

namespace Falx

open Words

namespace AfXdp

structure PacketMeta where
  srcIP : Option NetIP := none
  dstIP : Option NetIP := none
  isIPv6 : Bool := false
  protocol : UInt8 := 0
  srcPort : UInt16 := 0
  dstPort : UInt16 := 0
  tcpFlags : UInt16 := 0
  pktLen : UInt32 := 0
  flowID : UInt64 := 0
  payloadSample : List UInt8 := []
  umemOffset : UInt64 := 0
  deriving DecidableEq

inductive FrameError where
  | frameTooShort (n : Nat)
  | truncatedIPv4
  | invalidIHL (ihl : Nat)
  | truncatedIPv6
  | truncatedTCP
  | truncatedUDP
  deriving DecidableEq

def FrameError.message : FrameError → String
  | frameTooShort n => "frame too short: " ++ toString n ++ " bytes"
  | truncatedIPv4 => "truncated IPv4 header"
  | invalidIHL ihl => "invalid IHL: " ++ toString ihl
  | truncatedIPv6 => "truncated IPv6 header"
  | truncatedTCP => "truncated TCP header"
  | truncatedUDP => "truncated UDP header"

def uint16At (frame : Frame) (p : Nat) : UInt16 := le16 (frame.u8 (p + 1)) (frame.u8 p)

def samplePayload (frame : Frame) (payloadStart : Nat) (m : PacketMeta) : PacketMeta :=
  if payloadStart < frame.length then
    let stop := if frame.length < payloadStart + 64 then frame.length else payloadStart + 64
    { m with payloadSample := wireBytes frame payloadStart (stop - payloadStart) }
  else m

def parseL4 (frame : Frame) (offset : Nat) (m : PacketMeta) : Except FrameError PacketMeta :=
  let remaining : Int := frame.length - offset
  if m.protocol = Proto.tcp then
    if remaining < 20 then .error .truncatedTCP
    else
      let m := { m with
        srcPort := uint16At frame offset
        dstPort := uint16At frame (offset + 2)
        tcpFlags := uint16At frame (offset + 12) &&& 0x01FF }
      let dataOffset := ((frame.u8 (offset + 12) >>> 4) * 4).toNat
      .ok (samplePayload frame (offset + dataOffset) m)
  else if m.protocol = Proto.udp then
    if remaining < 8 then .error .truncatedUDP
    else
      let m := { m with srcPort := uint16At frame offset, dstPort := uint16At frame (offset + 2) }
      .ok (samplePayload frame (offset + 8) m)
  else .ok m

def fnv (h : UInt64) (bytes : List UInt8) : UInt64 :=
  bytes.foldl (fun h c => (h ^^^ c.toUInt64) * 1099511628211) h

def computeFlowID (m : PacketMeta) : UInt64 :=
  let h : UInt64 := 14695981039346656037
  let h := fnv h (m.srcIP.getD [])
  let h := fnv h (m.dstIP.getD [])
  let h := fnv h ((bytes16 m.srcPort).reverse ++ (bytes16 m.dstPort).reverse)
  fnv h [m.protocol]

/-- A transport header that cannot be parsed leaves the network layer as it is, and the
flow without an ID. -/
def withL4 (frame : Frame) (offset : Nat) (m : PacketMeta) : PacketMeta :=
  match parseL4 frame offset m with
  | .error _ => m
  | .ok m => { m with flowID := computeFlowID m }

def parseFrame (frame : Frame) (umemOffset : UInt64) : Except FrameError PacketMeta :=
  if frame.length < 14 then .error (.frameTooShort frame.length)
  else
    let m : PacketMeta := { pktLen := UInt32.ofNat frame.length, umemOffset }
    let etherType := uint16At frame 12
    if etherType = EtherType.ipv4 then
      if frame.length < 14 + 20 then .error .truncatedIPv4
      else
        let ihl := (frame.u8 14 &&& 0x0F).toNat * 4
        if ihl < 20 ∨ frame.length < 14 + ihl then .error (.invalidIHL ihl)
        else
          .ok (withL4 frame (14 + ihl) { m with
            srcIP := NetIP.to4 (wireBytes frame (14 + 12) 4)
            dstIP := NetIP.to4 (wireBytes frame (14 + 16) 4)
            protocol := frame.u8 (14 + 9)
            isIPv6 := false })
    else if etherType = EtherType.ipv6 then
      if frame.length < 14 + 40 then .error .truncatedIPv6
      else
        .ok (withL4 frame (14 + 40) { m with
          srcIP := NetIP.to16 (wireBytes frame (14 + 8) 16)
          dstIP := NetIP.to16 (wireBytes frame (14 + 24) 16)
          protocol := frame.u8 (14 + 6)
          isIPv6 := true })
    -- ARP and others
    else .ok m

end AfXdp

section Agreement

open AfXdp

def PacketInfo.srcBytes (pkt : PacketInfo) : List UInt8 :=
  if pkt.isIpv6 then pkt.srcIp6.bytes else bytes32 pkt.srcIp

def PacketInfo.dstBytes (pkt : PacketInfo) : List UInt8 :=
  if pkt.isIpv6 then pkt.dstIp6.bytes else bytes32 pkt.dstIp

def transportStart (f : Frame) (pkt : PacketInfo) : Nat :=
  if pkt.isIpv6 then 54 else ipv4Transport f

def transportLength (f : Frame) (pkt : PacketInfo) : Nat :=
  if pkt.protocol = Proto.tcp then 4 * tcpWords f (transportStart f pkt) else 8

structure ParsersAgree (f : Frame) (pkt : PacketInfo) (m : PacketMeta) : Prop where
  family : m.isIPv6 = pkt.isIpv6
  src : m.srcIP = some pkt.srcBytes
  dst : m.dstIP = some pkt.dstBytes
  protocol : m.protocol = pkt.protocol
  srcPort : m.srcPort = pkt.srcPort
  dstPort : m.dstPort = pkt.dstPort
  pktLen : m.pktLen = pkt.pktLen
  tcpFlags : m.tcpFlags.toUInt8 = pkt.tcpFlags
  payloadSample : m.payloadSample =
    (f.drop (transportStart f pkt + transportLength f pkt)).take 64

section Transport

variable {f : Frame} {l4 : Nat} {m : PacketMeta}

theorem uint16At_eq (f : Frame) (p : Nat) : uint16At f p = swap16 (f.u16 p) := by
  rw [uint16At, Frame.u16, swap16_le16]

theorem toNat_dataOffset (b : UInt8) : ((b >>> 4) * 4).toNat = 4 * (b.toNat / 16) := by
  have hb := b.toNat_lt
  have hshift : (b >>> 4).toNat = b.toNat / 16 := by exact Nat.shiftRight_eq_div_pow _ _
  rw [UInt8.toNat_mul, hshift, show UInt8.toNat 4 = 4 from rfl]
  omega

theorem samplePayload_eq (f : Frame) (start : Nat) (hm : m.payloadSample = []) :
    samplePayload f start m = { m with payloadSample := (f.drop start).take 64 } := by
  simp only [samplePayload, wireBytes]
  by_cases hlt : start < f.length
  · rw [if_pos hlt]
    by_cases hend : f.length < start + 64
    · rw [if_pos hend, List.take_of_length_le (by simp),
        List.take_of_length_le (by rw [List.length_drop]; omega)]
    · rw [if_neg hend, Nat.add_sub_cancel_left]
  · rw [if_neg hlt, List.drop_eq_nil_of_le (by omega), List.take_nil, ← hm]

structure TransportRead (f : Frame) (l4 : Nat) (m m' : PacketMeta) : Prop where
  family : m'.isIPv6 = m.isIPv6
  src : m'.srcIP = m.srcIP
  dst : m'.dstIP = m.dstIP
  protocol : m'.protocol = m.protocol
  pktLen : m'.pktLen = m.pktLen
  srcPort : m'.srcPort = swap16 (f.u16 l4)
  dstPort : m'.dstPort = swap16 (f.u16 (l4 + 2))
  tcpFlags : m'.tcpFlags = if m.protocol = Proto.tcp then tcpFlagsWord f l4 &&& 0x1FF else m.tcpFlags
  payloadSample : m'.payloadSample =
    (f.drop (l4 + if m.protocol = Proto.tcp then 4 * tcpWords f l4 else 8)).take 64

variable (f l4 m) in
theorem withL4_spec (hp : m.protocol = Proto.tcp ∨ m.protocol = Proto.udp)
    (htcp : m.protocol.toNat = 6 → l4 + 20 ≤ f.length)
    (hudp : m.protocol.toNat = 17 → l4 + 8 ≤ f.length) (hm : m.payloadSample = []) :
    TransportRead f l4 m (withL4 f l4 m) := by
  rcases hp with hp | hp
  · have hfits := htcp ((eq_tcp_iff _).mp hp)
    have hrem : ¬ ((f.length : Int) - l4 < 20) := by omega
    have hpa : parseL4 f l4 m = .ok { m with
        srcPort := swap16 (f.u16 l4)
        dstPort := swap16 (f.u16 (l4 + 2))
        tcpFlags := tcpFlagsWord f l4 &&& 0x1FF
        payloadSample := (f.drop (l4 + 4 * tcpWords f l4)).take 64 } := by
      simp only [parseL4, if_pos hp, if_neg hrem, uint16At_eq, toNat_dataOffset]
      exact congrArg Except.ok (samplePayload_eq f _ hm)
    rw [withL4, hpa]
    exact ⟨rfl, rfl, rfl, rfl, rfl, rfl, rfl, (if_pos hp).symm, by rw [if_pos hp]⟩
  · have hne : m.protocol ≠ Proto.tcp := hp ▸ udp_ne_tcp
    have hfits := hudp ((eq_udp_iff _).mp hp)
    have hrem : ¬ ((f.length : Int) - l4 < 8) := by omega
    have hpa : parseL4 f l4 m = .ok { m with
        srcPort := swap16 (f.u16 l4)
        dstPort := swap16 (f.u16 (l4 + 2))
        payloadSample := (f.drop (l4 + 8)).take 64 } := by
      simp only [parseL4, if_neg hne, if_pos hp, if_neg hrem, uint16At_eq]
      exact congrArg Except.ok (samplePayload_eq f _ hm)
    rw [withL4, hpa]
    exact ⟨rfl, rfl, rfl, rfl, rfl, rfl, rfl, (if_neg hne).symm, by rw [if_neg hne]⟩

end Transport

theorem uint16At_eq_iff (f : Frame) (p : Nat) (t : UInt16) : uint16At f p = t ↔
    beWord f p = t.toNat := by
  rw [uint16At_eq, ← UInt16.toNat_inj, toNat_swap16_u16]

theorem to4_wireBytes {f : Frame} {p : Nat} (h : p + 4 ≤ f.length) :
    NetIP.to4 (wireBytes f p 4) = some (bytes32 (f.u32 p)) := by
  rw [← bytes32_u32_eq_wireBytes f h]
  rfl

theorem to16_wireBytes {f : Frame} {p : Nat} (h : p + 16 ≤ f.length) :
    NetIP.to16 (wireBytes f p 16) = some (Ipv6Addr.load f p).bytes := by
  rw [← bytes_load_eq_wireBytes f h, NetIP.to16, (Ipv6Addr.load f p).length_eq]
  rfl

variable {f : Frame} {pkt : PacketInfo}

theorem parseFrame_ipv4 (h4 : beWord f 12 = 0x0800) (hwf : Ipv4WellFormed f)
    (hp : f.u8 23 = Proto.tcp ∨ f.u8 23 = Proto.udp) (umemOffset : UInt64) :
    ∃ m, parseFrame f umemOffset = .ok m ∧
      ParsersAgree f (ipv4Result f { pktLen := UInt32.ofNat f.length }) m := by
  obtain ⟨hlen, hihl, htcp, hudp⟩ := hwf
  have htype : uint16At f 12 = EtherType.ipv4 := (uint16At_eq_iff f 12 _).mpr h4
  have hl4 : 14 + (f.u8 14 &&& 0x0F).toNat * 4 = ipv4Transport f := by
    rw [toNat_and_lowNibble, ipv4Transport, ihlWords, Nat.mul_comm]
  have hfits : ipv4Transport f ≤ f.length := by
    rcases hp with hp | hp
    · have := (htcp ((eq_tcp_iff _).mp hp)).1
      omega
    · have := hudp ((eq_udp_iff _).mp hp)
      omega
  have hsm : ¬ ((f.u8 14 &&& 0x0F).toNat * 4 < 20 ∨ f.length < ipv4Transport f) := by
    have hle : ipv4Transport f = 14 + 4 * ihlWords f := rfl
    omega
  have hread := withL4_spec f (ipv4Transport f)
    { pktLen := UInt32.ofNat f.length, umemOffset := umemOffset,
      srcIP := some (bytes32 (f.u32 26)), dstIP := some (bytes32 (f.u32 30)),
      protocol := f.u8 23, isIPv6 := false } hp (fun h => (htcp h).1) hudp rfl
  refine ⟨_, ?_, ⟨hread.family, hread.src, hread.dst, hread.protocol, ?_, ?_, hread.pktLen, ?_, ?_⟩⟩
  · simp only [parseFrame, if_neg (show ¬ f.length < 14 by omega), if_pos htype,
      if_neg (show ¬ f.length < 14 + 20 by omega), hl4, if_neg hsm,
      to4_wireBytes (f := f) (p := 14 + 12) (by omega),
      to4_wireBytes (f := f) (p := 14 + 16) (by omega)]
  · rw [hread.srcPort]
    exact (if_pos hp).symm
  · rw [hread.dstPort]
    exact (if_pos hp).symm
  · rw [hread.tcpFlags, apply_ite UInt16.toUInt8]
    rfl
  · exact hread.payloadSample

theorem parseFrame_ipv6 (h6 : beWord f 12 = 0x86DD) (hwf : Ipv6WellFormed f)
    (hp : f.u8 20 = Proto.tcp ∨ f.u8 20 = Proto.udp) (umemOffset : UInt64) :
    ∃ m, parseFrame f umemOffset = .ok m ∧
      ParsersAgree f (ipv6Result f { pktLen := UInt32.ofNat f.length }) m := by
  obtain ⟨hlen, htcp, hudp⟩ := hwf
  have htype : uint16At f 12 = EtherType.ipv6 := (uint16At_eq_iff f 12 _).mpr h6
  have hne : EtherType.ipv6 ≠ EtherType.ipv4 := by decide
  have hread := withL4_spec f 54
    { pktLen := UInt32.ofNat f.length, umemOffset := umemOffset,
      srcIP := some (Ipv6Addr.load f 22).bytes, dstIP := some (Ipv6Addr.load f 38).bytes,
      protocol := f.u8 20, isIPv6 := true } hp htcp hudp rfl
  refine ⟨_, ?_, ⟨hread.family, hread.src, hread.dst, hread.protocol, ?_, ?_, hread.pktLen, ?_, ?_⟩⟩
  · simp only [parseFrame, if_neg (show ¬ f.length < 14 by omega), htype, if_neg hne, if_true,
      if_neg (show ¬ f.length < 14 + 40 by omega),
      to16_wireBytes (f := f) (p := 14 + 8) (by omega),
      to16_wireBytes (f := f) (p := 14 + 24) (by omega)]
  · rw [hread.srcPort]
    exact (if_pos hp).symm
  · rw [hread.dstPort]
    exact (if_pos hp).symm
  · rw [hread.tcpFlags, apply_ite UInt16.toUInt8]
    rfl
  · exact hread.payloadSample

/-- On every frame that the XDP program accepts as TCP or UDP the bridge's parser succeeds
and says the same. -/
theorem parseFrame_agrees (h : parsePacket f = some pkt)
    (hp : pkt.protocol = Proto.tcp ∨ pkt.protocol = Proto.udp) (umemOffset : UInt64) :
    ∃ m, parseFrame f umemOffset = .ok m ∧ ParsersAgree f pkt m := by
  rw [parsePacket_eq (Nat.not_lt.mp (parsePacket_length h))] at h
  by_cases h4 : beWord f 12 = 0x0800
  · rw [if_pos h4, parseIpv4_eq] at h
    obtain ⟨hwf, heq⟩ := Option.ite_none_right_eq_some.mp h
    obtain rfl := Option.some.inj heq
    exact parseFrame_ipv4 h4 hwf hp umemOffset
  rw [if_neg h4] at h
  by_cases h6 : beWord f 12 = 0x86DD
  · rw [if_pos h6, parseIpv6_eq] at h
    obtain ⟨hwf, heq⟩ := Option.ite_none_right_eq_some.mp h
    obtain rfl := Option.some.inj heq
    exact parseFrame_ipv6 h6 hwf hp umemOffset
  · rw [if_neg h6] at h
    obtain rfl := Option.some.inj h
    exact absurd hp (show ¬ ((0 : UInt8) = Proto.tcp ∨ (0 : UInt8) = Proto.udp) by decide)

theorem parseFrame_agrees_checkedSyn :
    (∃ pkt, parsePacket checkedSyn = some pkt ∧ pkt.protocol = Proto.tcp) ∧
      ∃ m, parseFrame checkedSyn 0 = .ok m ∧ m.dstPort = 80 := by
  have hsome : (parsePacket checkedSyn).isSome = true := by decide +kernel
  obtain ⟨pkt, hpkt⟩ := Option.isSome_iff_exists.mp hsome
  have hpr : (parsePacket checkedSyn).map PacketInfo.protocol = some Proto.tcp := by
    decide +kernel
  have hport : (parsePacket checkedSyn).map PacketInfo.dstPort = some 80 := by decide +kernel
  rw [hpkt] at hpr hport
  obtain ⟨m, hm, hag⟩ := parseFrame_agrees hpkt (.inl (Option.some.inj hpr)) 0
  exact ⟨⟨pkt, hpkt, Option.some.inj hpr⟩, m, hm, hag.dstPort.trans (Option.some.inj hport)⟩

end Agreement

end Falx
