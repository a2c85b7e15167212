import Falx.IpcCodec

/-! What the three receive loops hand on: the Go and the Python loop only frames whose
checksum is right, the C++ loop every block with the right magic and version. -/

namespace Falx.Ipc

open FrameHeader List Words FrameStream
open Falx.Frame (u16 u32)

/-- The bytes of a frame whose fields are valid and whose checksum is that of its own
header and payload. -/
structure Intact (b : List UInt8) : Prop where
  magic : b.take 4 = magicBytes
  version : b.getD 4 0 = protocolVersion
  length : b.length = headerSize + (u32 b 12).toNat
  small : (u32 b 12).toNat ≤ maxPayloadSize
  crc : u32 b 16 = crc32Compute (b.take 16 ++ b.drop headerSize)

section Intact

variable {f : Frame} {s rest : List UInt8}

theorem Frame.Proper.intact_iff (hf : f.Proper) :
    Intact (writeFrame f) ↔ f.checksum = f.header.crc32 := by
  have hread := hf.read_stream []
  have hdrop := hf.drop_stream []
  rw [append_nil] at hread hdrop
  have htake : (writeFrame f).take 16 = f.header.marshal.take 16 := by
    rw [writeFrame, take_append_of_le_length (by rw [hf.length_marshal]; decide)]
  have hlen : u32 (writeFrame f) 12 = f.header.len := congrArg FrameHeader.len hread
  have hcrc : u32 (writeFrame f) 16 = f.header.crc32 := congrArg FrameHeader.crc32 hread
  rw [append_nil] at hdrop
  constructor
  · intro h
    have hc := h.crc
    rw [htake, hdrop, hcrc] at hc
    exact hc.symm
  · intro h
    refine ⟨?_, ?_, ?_, ?_, ?_⟩
    · exact (congrArg FrameHeader.magic hread).trans hf.magic
    · exact (congrArg FrameHeader.version hread).trans hf.version
    · rw [hlen, hf.len, writeFrame, length_append, hf.length_marshal]
    · rw [hlen, hf.len]
      exact hf.small
    · rw [htake, hdrop, hcrc]
      exact h.symm

theorem proper_read (hmg : s.take 4 = magicBytes) (hver : s.getD 4 0 = protocolVersion)
    (hsm : (u32 s 12).toNat ≤ maxPayloadSize)
    (hlen : (u32 s 12).toNat ≤ (s.drop headerSize).length) :
    Frame.Proper ⟨read s, (s.drop headerSize).take (u32 s 12).toNat⟩ := by
  refine ⟨hmg, hver, ?_, ?_⟩
  · exact (length_take_of_le hlen).symm
  · rw [length_take_of_le hlen]
    exact hsm

theorem writeFrame_read (hs : headerSize ≤ s.length) (n : Nat) :
    writeFrame ⟨read s, (s.drop headerSize).take n⟩ ++ (s.drop headerSize).drop n = s := by
  rw [writeFrame, marshal_read hs, append_assoc, take_append_drop,
    take_append_drop]

theorem unmarshalHeader_take (s : List UInt8) :
    unmarshalHeader (s.take headerSize) =
      if s.take 4 ≠ magicBytes then .error (.badMagic (s.take 4))
      else if s.getD 4 0 ≠ protocolVersion then .error (.badVersion (s.getD 4 0))
      else if (read s).len.toNat > maxPayloadSize then
        .error (.tooLong (read s).len)
      else .ok (read s) := by
  have hread := read_take s (Nat.le_refl headerSize)
  have hmg : (s.take headerSize).take 4 = s.take 4 := congrArg magic hread
  have hver : (s.take headerSize).getD 4 0 = s.getD 4 0 := congrArg version hread
  rw [← hread, ← hmg, ← hver]
  rfl

theorem readFrame_eq_ok (h : readFrame s = .ok (f, rest)) :
    f.Proper ∧ s = writeFrame f ++ rest := by
  rw [readFrame] at h
  by_cases hs : s.length < headerSize
  · rw [if_pos hs] at h
    cases h
  have hlong := Nat.not_lt.mp hs
  rw [if_neg hs, unmarshalHeader_take] at h
  by_cases hmg : s.take 4 = magicBytes
  · by_cases hver : s.getD 4 0 = protocolVersion
    · by_cases hsm : (read s).len.toNat > maxPayloadSize
      · rw [if_neg (not_not.mpr hmg), if_neg (not_not.mpr hver), if_pos hsm] at h
        cases h
      · by_cases hlen : (s.drop headerSize).length < (read s).len.toNat
        · simp only [hmg, hver, ne_eq, not_true, if_false, hsm, if_pos hlen] at h
          cases h
        · simp only [hmg, hver, ne_eq, not_true, if_false, hsm, if_neg hlen,
            Except.ok.injEq, Prod.mk.injEq] at h
          obtain ⟨rfl, rfl⟩ := h
          exact ⟨proper_read hmg hver (Nat.not_lt.mp hsm) (Nat.not_lt.mp hlen),
            (writeFrame_read hlong _).symm⟩
    · rw [if_neg (not_not.mpr hmg), if_pos hver] at h
      cases h
  · rw [if_pos hmg] at h
    cases h

theorem handleRound_cases (h : handleRound s ≠ .stop) : ∃ g t, readFrame s = .ok (g, t) ∧
    (g.checksum = g.header.crc32 ∧ handleRound s = .deliver g t ∨
      g.checksum ≠ g.header.crc32 ∧ handleRound s = .skip t) := by
  cases hr : readFrame s with
  | error e => exact absurd (by simp only [handleRound, hr]) h
  | ok p =>
    refine ⟨p.1, p.2, rfl, ?_⟩
    by_cases hcrc : p.1.checksum = p.1.header.crc32
    · have hva : p.1.validate = none := by rw [Frame.validate, if_neg (not_not.mpr hcrc)]
      exact .inl ⟨hcrc, by simp only [handleRound, hr, hva]⟩
    · refine .inr ⟨hcrc, ?_⟩
      simp only [handleRound, hr, Frame.validate, if_pos hcrc]

theorem handleRound_eq_deliver (h : handleRound s = .deliver f rest) :
    Intact (writeFrame f) ∧ s = writeFrame f ++ rest := by
  have hgoes : handleRound s ≠ .stop := by simp [h]
  obtain ⟨g, t, hr, ⟨hcrc, heq⟩ | ⟨-, heq⟩⟩ := handleRound_cases hgoes
  · rw [h, Outcome.deliver.injEq] at heq
    obtain ⟨rfl, rfl⟩ := heq
    obtain ⟨hprop, hs⟩ := readFrame_eq_ok hr
    exact ⟨hprop.intact_iff.mpr hcrc, hs⟩
  · rw [h] at heq
    cases heq

theorem handleRound_eq_skip (h : handleRound s = .skip rest) : rest <:+ s := by
  have hgoes : handleRound s ≠ .stop := by simp [h]
  obtain ⟨g, t, hr, ⟨-, heq⟩ | ⟨-, heq⟩⟩ := handleRound_cases hgoes
  · rw [h] at heq
    cases heq
  · rw [h, Outcome.skip.injEq] at heq
    rw [heq, (readFrame_eq_ok hr).2]
    exact suffix_append _ _

namespace Cpp

def nextBlock (s : List UInt8) : Option (List UInt8 × List UInt8) :=
  let payloadLen := (u32 s 12).toNat
  if s.length < headerSize ∨ maxPayloadSize < payloadLen ∨
    (s.drop headerSize).length < payloadLen then none
  else some (s.take (headerSize + payloadLen), s.drop (headerSize + payloadLen))

variable {b : List UInt8}

section

variable (h : nextBlock s = some (b, rest))

include h

theorem nextBlock_eq_some :
    s = b ++ rest ∧ b.length = headerSize + (u32 b 12).toNat ∧
      (u32 b 12).toNat ≤ maxPayloadSize := by
  simp only [nextBlock] at h
  split_ifs at h with hs
  obtain ⟨rfl, rfl⟩ := h
  simp only [not_or, Nat.not_lt, length_drop] at hs
  have hlen : u32 (s.take (headerSize + (u32 s 12).toNat)) 12 =
      u32 s 12 :=
    congrArg len (read_take s (Nat.le_add_right _ _))
  refine ⟨(take_append_drop _ _).symm, ?_, ?_⟩
  · rw [hlen, length_take_of_le]
    omega
  · rw [hlen]
    exact hs.2.1

theorem writeFrame_block : writeFrame ⟨read b, b.drop headerSize⟩ = b := by
  obtain ⟨-, hlen, -⟩ := nextBlock_eq_some h
  have hb := writeFrame_read (s := b) (by omega) (b.drop headerSize).length
  rwa [take_length, drop_length, append_nil] at hb

theorem proper_block (hmg : b.take 4 = magicBytes) (hver : b.getD 4 0 = protocolVersion) :
    Frame.Proper ⟨read b, b.drop headerSize⟩ := by
  obtain ⟨-, hlen, hsm⟩ := nextBlock_eq_some h
  have hpay : (u32 b 12).toNat = (b.drop headerSize).length := by
    rw [length_drop, hlen]
    omega
  exact ⟨hmg, hver, hpay, hpay ▸ hsm⟩

end

theorem parseFrame_eq_error (hlen : headerSize ≤ b.length)
    (h : ¬ (b.take 4 = magicBytes ∧ b.getD 4 0 = protocolVersion)) :
    ∃ e, parseFrame b = .error e := by
  rw [parseFrame, if_neg (Nat.not_lt.mpr hlen)]
  by_cases hmg : b.take 4 = magicBytes
  · exact ⟨_, (if_neg (not_not.mpr hmg)).trans (if_pos fun hv => h ⟨hmg, hv⟩)⟩
  · exact ⟨_, if_pos hmg⟩

theorem recvRound_block (h : nextBlock s = some (b, rest)) :
    recvRound s =
      if b.take 4 = magicBytes ∧ b.getD 4 0 = protocolVersion then
        .deliver ⟨read b, b.drop headerSize⟩ rest
      else .skip rest := by
  obtain ⟨hs, hlen, hsm⟩ := nextBlock_eq_some h
  by_cases hva : b.take 4 = magicBytes ∧ b.getD 4 0 = protocolVersion
  · rw [if_pos hva, hs, ← writeFrame_block h]
    have hrd := recvRound_writeFrame (proper_block h hva.1 hva.2) rest
    rw [writeFrame_block h] at hrd ⊢
    exact hrd
  · have hread : u32 s 12 = u32 b 12 := by
      have hb := read_take s (n := b.length) (by omega)
      rw [hs, take_left, ← hs] at hb
      exact congrArg len hb.symm
    obtain ⟨e, he⟩ := parseFrame_eq_error (show headerSize ≤ b.length by omega) hva
    have hlong : headerSize + (u32 b 12).toNat ≤ s.length := by
      rw [hs, length_append]
      omega
    have hsh : ¬ (s.drop headerSize).length < (u32 b 12).toNat := by
      rw [length_drop]
      omega
    have htake : s.take (headerSize + (u32 b 12).toNat) = b := by
      rw [← hlen, hs, take_left]
    have hdrop : s.drop (headerSize + (u32 b 12).toNat) = rest := by
      rw [← hlen, hs, drop_left]
    simp only [recvRound, readLe32_eq, hread, if_neg (show ¬ s.length < headerSize by omega),
      if_neg (Nat.not_lt.mpr hsm), if_neg hsh, htake, hdrop, he, if_neg hva]

theorem recvRound_last (h : nextBlock s = none) : recvRound s = .stop := by
  simp only [nextBlock] at h
  split_ifs at h with hs
  simp only [recvRound, readLe32_eq]
  rcases hs with hs | hs | hs
  · rw [if_pos hs]
  · by_cases hlong : s.length < headerSize
    · rw [if_pos hlong]
    · rw [if_neg hlong, if_pos hs]
  · by_cases hlong : s.length < headerSize
    · rw [if_pos hlong]
    · by_cases hlarge : (u32 s 12).toNat > maxPayloadSize
      · rw [if_neg hlong, if_pos hlarge]
      · rw [if_neg hlong, if_neg hlarge, if_pos hs]

end Cpp

namespace Py

theorem msgTypeOf_eq_some {b : UInt8} {t : MsgType} (h : msgTypeOf b = some t) :
    t ∈ MsgType.aiSide ∧ t.code = b := by
  refine ⟨mem_of_find?_eq_some h, ?_⟩
  simpa using List.find?_some h

theorem fromBytes_eq_ok {hdr payload : List UInt8} {f : Frame} (h : fromBytes hdr payload = .ok f) :
    hdr.take 4 = magicBytes ∧ hdr.getD 4 0 = protocolVersion ∧
      f.msgType ∈ MsgType.aiSide ∧ f.msgType.code = hdr.getD 5 0 ∧
      f = ⟨f.msgType, (u32 hdr 8).toNat, (u16 hdr 6).toNat, payload⟩ ∧
      f.crc32 = some (u32 hdr 16) := by
  rw [fromBytes] at h
  by_cases hmg : hdr.take 4 = magicBytes
  · by_cases hver : hdr.getD 4 0 = protocolVersion
    · rw [if_neg (not_not.mpr hmg), if_neg (not_not.mpr hver)] at h
      cases ht : msgTypeOf (hdr.getD 5 0) with
      | none =>
        rw [ht] at h
        cases h
      | some t =>
        obtain ⟨hshared, hcode⟩ := msgTypeOf_eq_some ht
        simp only [ht] at h
        cases hc : (⟨t, (u32 hdr 8).toNat, (u16 hdr 6).toNat, payload⟩ :
            Frame).crc32 with
        | none =>
          rw [hc] at h
          cases h
        | some expected =>
          simp only [hc] at h
          by_cases hcrc : u32 hdr 16 = expected
          · rw [if_neg (not_not.mpr hcrc)] at h
            cases h
            exact ⟨hmg, hver, hshared, hcode, rfl, hcrc ▸ hc⟩
          · rw [if_pos hcrc] at h
            cases h
    · rw [if_neg (not_not.mpr hmg), if_pos hver] at h
      cases h
  · rw [if_pos hmg] at h
    cases h

theorem runRound_deliver_cases {f : Frame} (h : runRound s = .deliver f rest) :
    headerSize ≤ s.length ∧ (u32 s 12).toNat ≤ maxPayloadSize ∧
      (u32 s 12).toNat ≤ (s.drop headerSize).length ∧
      fromBytes (s.take headerSize) ((s.drop headerSize).take (u32 s 12).toNat) = .ok f ∧
      rest = (s.drop headerSize).drop (u32 s 12).toNat := by
  rw [runRound] at h
  by_cases hs : s.length < headerSize
  · rw [if_pos hs] at h
    cases h
  have hlen : u32 (s.take headerSize) 12 = u32 s 12 :=
    congrArg len (read_take s (Nat.le_refl headerSize))
  simp only [if_neg hs, hlen] at h
  by_cases hsm : (u32 s 12).toNat > maxPayloadSize
  · rw [if_pos hsm] at h
    cases h
  by_cases hrest : (s.drop headerSize).length < (u32 s 12).toNat
  · rw [if_neg hsm, if_pos hrest] at h
    cases h
  rw [if_neg hsm, if_neg hrest] at h
  cases hf : fromBytes (s.take headerSize)
      ((s.drop headerSize).take (u32 s 12).toNat) with
  | error e =>
    rw [hf] at h
    cases h
  | ok g =>
    simp only [hf, Outcome.deliver.injEq] at h
    obtain ⟨rfl, rfl⟩ := h
    exact ⟨Nat.not_lt.mp hs, Nat.not_lt.mp hsm, Nat.not_lt.mp hrest, rfl, rfl⟩

theorem exists_message_of_fromBytes {f : Frame} (hsm : (u32 s 12).toNat ≤ maxPayloadSize)
    (hlen : (u32 s 12).toNat ≤ (s.drop headerSize).length)
    (h : fromBytes (s.take headerSize) ((s.drop headerSize).take (u32 s 12).toNat) =
      .ok f) :
    ∃ m : Message, m.py = f ∧
      m.go = ⟨FrameHeader.read s, (s.drop headerSize).take (u32 s 12).toNat⟩ := by
  obtain ⟨hmg, hver, hshared, hcode, hf, hcrc⟩ := fromBytes_eq_ok h
  have hread := FrameHeader.read_take s (Nat.le_refl headerSize)
  have hprop := proper_read ((congrArg FrameHeader.magic hread).symm.trans hmg)
    ((congrArg FrameHeader.version hread).symm.trans hver) hsm hlen
  let m : Message := ⟨f.msgType, u32 s 8, u16 s 6,
    (s.drop headerSize).take (u32 s 12).toNat, hshared, hprop.small⟩
  have hpy : m.py = f := by
    have hseq : u32 (s.take headerSize) 8 = u32 s 8 := congrArg FrameHeader.seq hread
    have hflags : u16 (s.take headerSize) 6 = u16 s 6 := congrArg FrameHeader.flags hread
    rw [hf, hseq, hflags]
    rfl
  have hhdr : m.go.header = FrameHeader.read s := by
    have hm := m.crc32_py
    rw [hpy, hcrc] at hm
    refine FrameHeader.ext hprop.magic.symm hprop.version.symm ?_ rfl rfl ?_ ?_
    · exact hcode.trans (congrArg FrameHeader.msgType hread)
    · rw [← UInt32.toNat_inj, m.length_payload]
      exact hprop.len.symm
    · exact (Option.some.inj hm).symm.trans (congrArg FrameHeader.crc32 hread)
  exact ⟨m, hpy, congrArg (Ipc.Frame.mk · m.payload) hhdr⟩

theorem runRound_eq_deliver {f : Frame} (h : runRound s = .deliver f rest) :
    ∃ b, f.serialise = some b ∧ Intact b ∧ s = b ++ rest := by
  obtain ⟨hs, hsm, hlen, hf, rfl⟩ := runRound_deliver_cases h
  obtain ⟨m, rfl, hgo⟩ := exists_message_of_fromBytes hsm hlen hf
  refine ⟨writeFrame m.go, m.serialise_py, m.proper_go.intact_iff.mpr m.checksum_go, ?_⟩
  rw [hgo]
  exact (writeFrame_read hs _).symm

theorem runRound_eq_skip (h : runRound s = .skip rest) : rest <:+ s := by
  simp only [runRound] at h
  split_ifs at h
  · cases h
    exact drop_suffix _ _
  · cases hf : fromBytes (s.take headerSize)
        ((s.drop headerSize).take (u32 (s.take headerSize) 12).toNat) with
    | ok g => simp [hf] at h
    | error e =>
      simp only [hf, Outcome.skip.injEq] at h
      subst h
      exact (drop_suffix _ _).trans (drop_suffix _ _)

end Py

end Intact

/-- Every block that `parse_frame` accepts carries the checksum of its own bytes. -/
inductive Cpp.IntactBlocks : List UInt8 → Prop where
  | last {s} : nextBlock s = none → IntactBlocks s
  | block {s b rest} : nextBlock s = some (b, rest) →
      (b.take 4 = magicBytes → b.getD 4 0 = protocolVersion →
        u32 b 16 = crc32Compute (b.take 16 ++ b.drop headerSize)) →
      IntactBlocks rest → IntactBlocks s

namespace Cpp

variable {s rest : List UInt8} {f : Frame}

theorem recvRound_eq_skip (h : recvRound s = .skip rest) : rest <:+ s := by
  cases hb : nextBlock s with
  | none => simp [recvRound_last hb] at h
  | some p =>
    rw [recvRound_block hb] at h
    split_ifs at h
    cases h
    rw [(nextBlock_eq_some hb).1]
    exact suffix_append _ _

theorem recvRound_eq_deliver (h : recvRound s = .deliver f rest) :
    nextBlock s = some (serialise f, rest) ∧ f.Proper := by
  cases hb : nextBlock s with
  | none => simp [recvRound_last hb] at h
  | some p =>
    rw [recvRound_block hb] at h
    split_ifs at h with hva
    cases h
    rw [serialise_eq, writeFrame_block hb]
    exact ⟨rfl, proper_block hb hva.1 hva.2⟩

theorem IntactBlocks.of_nextBlock {b : List UInt8} (h : IntactBlocks s)
    (hb : nextBlock s = some (b, rest)) :
    (b.take 4 = magicBytes → b.getD 4 0 = protocolVersion →
        u32 b 16 = crc32Compute (b.take 16 ++ b.drop headerSize)) ∧
      IntactBlocks rest := by
  cases h with
  | last hnone => simp [hnone] at hb
  | block hsome hcrc hrest =>
    rw [hsome] at hb
    cases hb
    exact ⟨hcrc, hrest⟩

theorem IntactBlocks.of_mem {rounds : Nat} (h : IntactBlocks s)
    (hf : f ∈ receive recvRound rounds s) : Intact (serialise f) := by
  refine of_mem_receive (Q := IntactBlocks) (P := fun f => Intact (serialise f)) ?_ ?_ h hf
  · intro t rest ht hr
    cases hb : nextBlock t with
    | none => simp [recvRound_last hb] at hr
    | some p =>
      rw [recvRound_block hb] at hr
      split_ifs at hr
      cases hr
      exact (ht.of_nextBlock hb).2
  · intro t g rest ht hr
    obtain ⟨hb, hg⟩ := recvRound_eq_deliver hr
    obtain ⟨hcrc, hrest⟩ := ht.of_nextBlock hb
    have hread : read (serialise g) = g.header := by
      have h := hg.read_stream []
      rwa [append_nil, ← serialise_eq] at h
    have hmg := (congrArg magic hread).trans hg.magic
    have hver := (congrArg version hread).trans hg.version
    obtain ⟨-, hlen, hsm⟩ := nextBlock_eq_some hb
    exact ⟨⟨hmg, hver, hlen, hsm, hcrc hmg hver⟩, hrest⟩

theorem intactBlocks_of_receive
    (h : ∀ rounds, ∀ f ∈ receive recvRound rounds s, Intact (serialise f)) : IntactBlocks s := by
  induction hn : s.length using Nat.strong_induction_on generalizing s with
  | _ n ih =>
    subst hn
    cases hb : nextBlock s with
    | none => exact .last hb
    | some p =>
      obtain ⟨b, t⟩ := p
      obtain ⟨hs, hlen, -⟩ := nextBlock_eq_some hb
      have hrd := recvRound_block hb
      refine .block hb ?_ (ih t.length ?_ ?_ rfl)
      · intro hmg hver
        rw [if_pos ⟨hmg, hver⟩] at hrd
        have hfst := h 1 ⟨read b, b.drop headerSize⟩ (by simp [receive, hrd])
        rw [serialise_eq, writeFrame_block hb] at hfst
        exact hfst.crc
      · rw [hs, length_append, hlen, headerSize]
        omega
      · intro rounds f hf
        refine h (rounds + 1) f ?_
        rw [receive, hrd]
        split_ifs
        · exact .tail _ hf
        · exact hf

end Cpp

/-- The Go and the Python loop hand on intact frames only. The C++ loop compares no
checksum and does so exactly on streams whose blocks are intact to begin with. -/
theorem received_intact_iff (s : List UInt8) :
    (∀ rounds, ∀ f ∈ receive handleRound rounds s,
        Intact (writeFrame f) ∧ writeFrame f <:+: s) ∧
      (∀ rounds, ∀ f ∈ receive Py.runRound rounds s,
        ∃ b, f.serialise = some b ∧ Intact b ∧ b <:+: s) ∧
      ((∀ rounds, ∀ f ∈ receive Cpp.recvRound rounds s,
        Intact (Cpp.serialise f) ∧ Cpp.serialise f <:+: s) ↔ Cpp.IntactBlocks s) := by
  refine ⟨?_, ?_, ?_, ?_⟩
  · intro rounds f hf
    obtain ⟨b, ⟨rfl, hb⟩, hs⟩ := infix_of_mem_receive (R := fun f b => writeFrame f = b ∧ Intact b)
      handleRound_eq_skip
      (fun hr => ⟨_, ⟨rfl, (handleRound_eq_deliver hr).1⟩, (handleRound_eq_deliver hr).2⟩) hf
    exact ⟨hb, hs⟩
  · intro rounds f hf
    obtain ⟨b, ⟨hf, hb⟩, hs⟩ := infix_of_mem_receive
      (R := fun (f : Py.Frame) b => f.serialise = some b ∧ Intact b) Py.runRound_eq_skip
      (fun hr => by
        obtain ⟨b, hser, hb, hs⟩ := Py.runRound_eq_deliver hr
        exact ⟨b, ⟨hser, hb⟩, hs⟩) hf
    exact ⟨b, hf, hb, hs⟩
  · exact fun h => Cpp.intactBlocks_of_receive fun rounds f hf => (h rounds f hf).1
  · intro h rounds f hf
    obtain ⟨b, rfl, hs⟩ := infix_of_mem_receive (R := fun f b => Cpp.serialise f = b)
      Cpp.recvRound_eq_skip
      (fun hr => ⟨_, rfl, (Cpp.nextBlock_eq_some (Cpp.recvRound_eq_deliver hr).1).1⟩) hf
    exact ⟨h.of_mem hf, hs⟩

def damaged : List UInt8 :=
  writeFrame ⟨⟨magicBytes, protocolVersion, MsgType.heartbeat.code, 0, 1, 0, 0⟩, []⟩

theorem recvLoop_hands_on_damaged :
    receive Cpp.recvRound 1 damaged =
        [⟨⟨magicBytes, protocolVersion, MsgType.heartbeat.code, 0, 1, 0, 0⟩, []⟩] ∧
      ¬ (∀ f ∈ receive Cpp.recvRound 1 damaged, Intact (Cpp.serialise f)) ∧
      receive handleRound 1 damaged = [] ∧ receive Py.runRound 1 damaged = [] := by
  have hcpp : receive Cpp.recvRound 1 damaged =
      [⟨⟨magicBytes, protocolVersion, MsgType.heartbeat.code, 0, 1, 0, 0⟩, []⟩] := by decide +kernel
  refine ⟨hcpp, fun h => ?_, by decide +kernel, by decide +kernel⟩
  exact absurd (h _ List.mem_cons_self).crc (by decide +kernel)

theorem intactBlocks_of_sent {ms : List Message} {s : List UInt8}
    (h : s <+: ms.flatMap fun m => writeFrame m.go) : Cpp.IntactBlocks s := by
  induction ms generalizing s with
  | nil =>
    obtain rfl : s = [] := prefix_nil.mp h
    exact .last rfl
  | cons m ms ih =>
    rw [flatMap_cons] at h
    have hm := m.proper_go
    by_cases hlong : (writeFrame m.go).length ≤ s.length
    · obtain ⟨t, rfl⟩ := prefix_of_prefix_length_le (prefix_append _ _) h hlong
      have hrd := Cpp.recvRound_writeFrame hm t
      obtain ⟨hb, -⟩ := Cpp.recvRound_eq_deliver hrd
      rw [Cpp.serialise_eq] at hb
      refine .block hb (fun _ _ => ?_) (ih ((prefix_append_right_inj _).mp h))
      exact (hm.intact_iff.mpr m.checksum_go).crc
    · refine .last (if_pos ?_)
      by_cases hs : s.length < headerSize
      · exact .inl hs
      · refine .inr (.inr ?_)
        obtain ⟨u, hu⟩ := h
        have hread := read_take (s ++ u) (Nat.not_lt.mp hs)
        rw [take_left, hu, hm.read_stream] at hread
        have hlen : (u32 s 12).toNat = m.go.payload.length := by
          rw [← hm.len, ← hread]
          rfl
        rw [writeFrame, length_append, hm.length_marshal] at hlong
        rw [hlen, length_drop]
        omega

theorem received_intact_iff_heartbeat :
    receive Cpp.recvRound 2 (writeFrame (Message.go ⟨.heartbeat, 1, 0, [], by decide, by decide⟩)) ≠
        [] ∧
      ∀ rounds, ∀ f ∈ receive Cpp.recvRound rounds
          (writeFrame (Message.go ⟨.heartbeat, 1, 0, [], by decide, by decide⟩)),
        Intact (Cpp.serialise f) := by
  refine ⟨by decide +kernel, fun rounds f hf => ?_⟩
  refine (((received_intact_iff _).2.2.mpr ?_) rounds f hf).1
  refine @intactBlocks_of_sent [⟨.heartbeat, 1, 0, [], by decide, by decide⟩] _ ?_
  simp

end Falx.Ipc
