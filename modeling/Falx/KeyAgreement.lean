import Falx.Manager

/-! The key under which the control plane stores a block, compared byte by byte
with the key under which the pipeline looks up a packet's source. The map
library writes a key in native order, so the big-endian value of an address
reaches the map reversed, while the pipeline uses the bytes as they arrived. -/

namespace Falx

open Words

def sourceBytes (f : Frame) : List UInt8 :=
  [f.u8 26, f.u8 27, f.u8 28, f.u8 29]

/-- `frame` is accepted as an IPv4 packet `pkt` whose source field is `addr`. -/
structure FromAddr (addr : List UInt8) (frame : Frame) (pkt : PacketInfo) : Prop where
  parsed : parsePacket frame = some pkt
  ipv4 : etherType frame = EtherType.ipv4
  source : sourceBytes frame = addr

def icmpFrame (a b c d : UInt8) : Frame :=
  List.replicate 12 0 ++ [0x08, 0x00] ++
    [0x45, 0, 0, 20, 0, 0, 0, 0, 64, 1, 0, 0] ++ [a, b, c, d] ++ [10, 0, 0, 1]

def icmpInfo (a b c d : UInt8) : PacketInfo where
  srcIp := le32 a b c d
  dstIp := le32 10 0 0 1
  protocol := 1
  pktLen := 34
  payloadOffset := 34

theorem etherType_icmpFrame (a b c d : UInt8) : etherType (icmpFrame a b c d) = EtherType.ipv4 := by
  have h : Frame.u16 (icmpFrame a b c d) 12 = le16 8 0 := rfl
  rw [etherType, h]
  decide

theorem parsePacket_icmpFrame (a b c d : UInt8) :
    parsePacket (icmpFrame a b c d) = some (icmpInfo a b c d) := by
  have hihl : Frame.u8 (icmpFrame a b c d) 14 = 0x45 := rfl
  have hpr : Frame.u8 (icmpFrame a b c d) 23 = 1 := rfl
  have hlen : (icmpFrame a b c d).length = 34 := rfl
  have hsrc : Frame.u32 (icmpFrame a b c d) 26 = le32 a b c d := rfl
  have hdst : Frame.u32 (icmpFrame a b c d) 30 = le32 10 0 0 1 := rfl
  simp [parsePacket, parseIpv4, ptrAt, etherType_icmpFrame, hihl, hpr, hlen, hsrc, hdst,
    icmpInfo, ethHdrSize, ipv4HdrSize, Proto.tcp, Proto.udp]
  decide

theorem fromAddr_icmpFrame (a b c d : UInt8) :
    FromAddr [a, b, c, d] (icmpFrame a b c d) (icmpInfo a b c d) :=
  ⟨parsePacket_icmpFrame a b c d, etherType_icmpFrame a b c d, rfl⟩

/-- Agreement on one address, whichever form `net.IP` holds it in, for each of
the three operations that write an entry. -/
structure KeyAgreement (a b c d : UInt8) : Prop where
  bytes : ∀ ip key frame pkt, NetIP.to4 ip = some [a, b, c, d] → ipv4ToUint32 ip = some key →
    FromAddr [a, b, c, d] frame pkt → bytes32 key = bytes32 pkt.srcIp
  block : ∀ ip env entry m frame pkt addr, NetIP.to4 ip = some [a, b, c, d] →
    env.allowed = true → env.mapErr = none → FromAddr addr frame pkt →
    (blockIPv4 env ip entry m).2 pkt.srcIp =
      if addr = [a, b, c, d] then some (absoluteExpiry env.now entry) else m pkt.srcIp
  batch : ∀ ip ds env entry m frame pkt addr, NetIP.to4 ip = some [a, b, c, d] →
    env.mapErr = none → FromAddr addr frame pkt →
    (blockIPv4Batch true (ds ++ [(env, ⟨ip, entry⟩)]) m).2 pkt.srcIp =
      if addr = [a, b, c, d] then some (absoluteExpiry env.now entry)
      else (blockIPv4Batch true ds m).2 pkt.srcIp
  unblock : ∀ ip env (m : BlocklistV4) frame pkt addr, NetIP.to4 ip = some [a, b, c, d] →
    (unblockIPv4 env ip m).1 = none → FromAddr addr frame pkt →
    (unblockIPv4 env ip m).2 pkt.srcIp =
      if addr = [a, b, c, d] then none else m pkt.srcIp

variable {addr : List UInt8} {frame : Frame} {pkt : PacketInfo}

theorem FromAddr.srcIp_eq (h : FromAddr addr frame pkt) : bytes32 pkt.srcIp = addr := by
  rcases parsePacket_cases h.parsed with ⟨-, -, hsrc, -, -⟩ | ⟨h6, -⟩ | ⟨h4, -, -⟩
  · rw [hsrc, Frame.u32, bytes32_le32]
    exact h.source
  · have h4 := h.ipv4
    rw [h6] at h4
    simp [EtherType.ipv4, EtherType.ipv6] at h4
  · exact absurd h.ipv4 h4

theorem update_key_apply {a b c d : UInt8} (hpal : a = d ∧ b = c) (h : FromAddr addr frame pkt)
    (m : BlocklistV4) (e : Option BlockEntry) : Function.update m (le32 d c b a) e pkt.srcIp =
      if addr = [a, b, c, d] then e else m pkt.srcIp := by
  obtain ⟨rfl, rfl⟩ := hpal
  have hsrc := h.srcIp_eq
  have hiff : pkt.srcIp = le32 a b b a ↔ addr = [a, b, b, a] := by
    constructor
    · intro he
      rw [← hsrc, he, bytes32_le32]
    · intro he
      apply bytes32_injective
      rw [hsrc, he, bytes32_le32]
  simp only [Function.update_apply, hiff]

/-- The two sides agree on an address exactly when it reads the same backwards. -/
theorem keyAgreement_iff (a b c d : UInt8) : KeyAgreement a b c d ↔ a = d ∧ b = c := by
  constructor
  · intro h
    have hip : NetIP.to4 [a, b, c, d] = some [a, b, c, d] := rfl
    have hk := h.bytes _ _ _ _ hip (ipv4ToUint32_of_to4 hip) (fromAddr_icmpFrame a b c d)
    rw [(fromAddr_icmpFrame a b c d).srcIp_eq, bytes32_le32] at hk
    simp only [List.cons.injEq] at hk
    exact ⟨hk.1.symm, hk.2.1.symm⟩
  · intro hpal
    refine ⟨?_, ?_, ?_, ?_⟩
    · intro ip key frame pkt hip hkey h
      obtain ⟨rfl, rfl⟩ := hpal
      rw [ipv4ToUint32_of_to4 hip, Option.some.injEq] at hkey
      rw [h.srcIp_eq, ← hkey, bytes32_le32]
    · intro ip env entry m frame pkt addr hip hallowed hmap h
      rw [blockIPv4_of_ok hallowed (ipv4ToUint32_of_to4 hip) hmap]
      exact update_key_apply hpal h m _
    · intro ip ds env entry m frame pkt addr hip hmap h
      simp only [blockIPv4Batch, Bool.true_eq_false, if_false, blockDecisions_concat]
      simp only [blockDecisions, ipv4ToUint32_of_to4 hip, hmap]
      exact update_key_apply hpal h _ _
    · intro ip env m frame pkt addr hip hok h
      simp only [unblockIPv4, ipv4ToUint32_of_to4 hip] at hok ⊢
      split at hok
      · simp at hok
      · rename_i hallowed
        rw [if_neg hallowed]
        split at hok
        · simp at hok
        · simp at hok
        · exact update_key_apply hpal h m _

/-- 1.2.3.4 is blocked under the key that the packets of 4.3.2.1 have. -/
theorem keyAgreement_fails : ¬ KeyAgreement 1 2 3 4 := by
  intro h
  have hip : NetIP.to4 [1, 2, 3, 4] = some [1, 2, 3, 4] := rfl
  have hk := h.bytes _ _ _ _ hip (ipv4ToUint32_of_to4 hip) (fromAddr_icmpFrame 1 2 3 4)
  revert hk
  decide

end Falx
