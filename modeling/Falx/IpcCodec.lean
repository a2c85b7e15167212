import Falx.IpcFrame

/-! The three codecs write the same bytes and read them back. -/

namespace Falx.Ipc

open FrameHeader List Words FrameStream
open Falx.Frame (u8 u16 u32)

namespace FrameHeader

def read (b : List UInt8) : FrameHeader :=
  ⟨b.take 4, b.getD 4 0, b.getD 5 0, u16 b 6, u32 b 8, u32 b 12,
    u32 b 16⟩

theorem length_marshal {h : FrameHeader} (hm : h.magic.length = 4) :
    h.marshal.length = headerSize := by
  simp [marshal, hm, bytes16, bytes32, headerSize]

theorem read_marshal {h : FrameHeader} (hm : h.magic = magicBytes) (rest : List UInt8) :
    read (h.marshal ++ rest) = h := by
  obtain ⟨magic, version, msgType, flags, seq, len, crc⟩ := h
  obtain rfl : magic = magicBytes := hm
  simp [read, marshal, magicBytes, bytes16, bytes32, u16, u32, u8]
  exact ⟨le16_bytes16 flags, le32_bytes32 seq, le32_bytes32 len, le32_bytes32 crc⟩

theorem read_take (b : List UInt8) {n : Nat} (hn : headerSize ≤ n) : read (b.take n) = read b := by
  have hget : ∀ i < headerSize, (b.take n).getD i 0 = b.getD i 0 := by
    intro i hi
    rw [getD_eq_getElem?_getD, getD_eq_getElem?_getD,
      List.getElem?_take_of_lt (Nat.lt_of_lt_of_le hi hn)]
  have htake : (b.take n).take 4 = b.take 4 := by
    rw [take_take, Nat.min_eq_left (Nat.le_trans (by decide) hn)]
  simp only [read, u16, u32, u8, htake]
  repeat rw [hget _ (by decide)]

theorem marshal_read {b : List UInt8} (h : headerSize ≤ b.length) :
    (read b).marshal = b.take headerSize := by
  have hstep : ∀ n < 20, b.take (n + 1) = b.take n ++ [b.getD n 0] := by
    intro n hn
    have hlt : n < b.length := by
      rw [headerSize] at h
      omega
    rw [take_add_one, getD_eq_getElem?_getD, List.getElem?_eq_getElem hlt]
    rfl
  rw [headerSize, hstep 19 (by omega), hstep 18 (by omega), hstep 17 (by omega), hstep 16 (by omega),
    hstep 15 (by omega), hstep 14 (by omega), hstep 13 (by omega), hstep 12 (by omega),
    hstep 11 (by omega), hstep 10 (by omega), hstep 9 (by omega), hstep 8 (by omega),
    hstep 7 (by omega), hstep 6 (by omega), hstep 5 (by omega), hstep 4 (by omega)]
  simp [marshal, read, u16, u32, u8, bytes16_le16, bytes32_le32]

end FrameHeader

structure Frame.Proper (f : Frame) : Prop where
  magic : f.header.magic = magicBytes
  version : f.header.version = protocolVersion
  len : f.header.len.toNat = f.payload.length
  small : f.payload.length ≤ maxPayloadSize

section Proper

variable {f : Frame}

section

variable (hf : f.Proper)

include hf

theorem Frame.Proper.length_marshal : f.header.marshal.length = headerSize :=
  FrameHeader.length_marshal (by rw [hf.magic]; rfl)

theorem Frame.Proper.unmarshalHeader : unmarshalHeader f.header.marshal = .ok f.header := by
  have hread := read_marshal hf.magic []
  rw [append_nil] at hread
  have hlen : ¬ f.header.len.toNat > maxPayloadSize := by
    rw [hf.len]
    exact Nat.not_lt.mpr hf.small
  change (if (read f.header.marshal).magic ≠ magicBytes then _
    else if (read f.header.marshal).version ≠ protocolVersion then _
    else if (read f.header.marshal).len.toNat > maxPayloadSize then _
    else Except.ok (read f.header.marshal)) = _
  rw [hread, if_neg (not_not.mpr hf.magic), if_neg (not_not.mpr hf.version), if_neg hlen]

theorem Frame.Proper.take_stream (rest : List UInt8) :
    (writeFrame f ++ rest).take headerSize = f.header.marshal := by
  rw [writeFrame, append_assoc, ← hf.length_marshal, take_left]

theorem Frame.Proper.drop_stream (rest : List UInt8) :
    (writeFrame f ++ rest).drop headerSize = f.payload ++ rest := by
  rw [writeFrame, append_assoc, ← hf.length_marshal, drop_left]

theorem Frame.Proper.length_stream (rest : List UInt8) :
    ¬ (writeFrame f ++ rest).length < headerSize := by
  simp only [writeFrame, length_append, hf.length_marshal]
  omega

theorem Frame.Proper.read_stream (rest : List UInt8) :
    read (writeFrame f ++ rest) = f.header := by
  rw [writeFrame, append_assoc, read_marshal hf.magic]

theorem readFrame_writeFrame (rest : List UInt8) :
    readFrame (writeFrame f ++ rest) = .ok (f, rest) := by
  have hsh : ¬ (f.payload ++ rest).length < f.payload.length := by simp
  simp only [readFrame, if_neg (hf.length_stream rest), hf.take_stream, hf.unmarshalHeader,
    hf.drop_stream, hf.len, if_neg hsh, take_left, drop_left]

end

end Proper

namespace Cpp

theorem writeLe16_eq (v : UInt16) : writeLe16 v = bytes16 v := by
  have hmask : ∀ w : UInt16, (w &&& 0xFF).toUInt8.toNat = w.toNat % 256 := by
    intro w
    rw [UInt16.toNat_toUInt8, UInt16.toNat_and, show (0xFF : UInt16).toNat = 2 ^ 8 - 1 from rfl,
      Nat.and_two_pow_sub_one_eq_mod]
    omega
  simp only [writeLe16, bytes16, List.cons.injEq, ← UInt8.toNat_inj, and_true, hmask,
    UInt8.toNat_ofNat', UInt16.toNat_shiftRight, Nat.shiftRight_eq_div_pow]
  exact ⟨trivial, rfl⟩

theorem writeLe32_eq (v : UInt32) : writeLe32 v = bytes32 v := by
  have hmask : ∀ w : UInt32, (w &&& 0xFF).toUInt8.toNat = w.toNat % 256 := by
    intro w
    rw [UInt32.toNat_toUInt8, UInt32.toNat_and, show (0xFF : UInt32).toNat = 2 ^ 8 - 1 from rfl,
      Nat.and_two_pow_sub_one_eq_mod]
    omega
  simp only [writeLe32, bytes32, List.cons.injEq, ← UInt8.toNat_inj, and_true, hmask,
    UInt8.toNat_ofNat', UInt32.toNat_shiftRight, Nat.shiftRight_eq_div_pow]
  exact ⟨trivial, rfl, rfl, rfl⟩

theorem serialise_eq (f : Frame) : serialise f = writeFrame f := by
  simp only [serialise, writeLe16_eq, writeLe32_eq, writeFrame, marshal]

theorem readLe16_eq (data : List UInt8) (off : Nat) : readLe16 data off = u16 data off := by
  have h0 := (data.getD off 0).toNat_lt
  have h1 := (data.getD (off + 1) 0).toNat_lt
  have hhigh : ((data.getD (off + 1) 0).toUInt16 <<< 8).toNat =
      2 ^ 8 * (data.getD (off + 1) 0).toNat := by
    rw [UInt16.toNat_shiftLeft, UInt8.toNat_toUInt16, show (8 : UInt16).toNat % 16 = 8 from rfl,
      Nat.shiftLeft_eq]
    omega
  rw [← UInt16.toNat_inj, readLe16, UInt16.or_comm, UInt16.toNat_or, hhigh, UInt8.toNat_toUInt16,
    ← Nat.two_pow_add_eq_or_of_lt h0, u16, toNat_le16]
  exact Nat.add_comm _ _

theorem readLe32_eq (data : List UInt8) (off : Nat) : readLe32 data off = u32 data off := by
  have h0 := (data.getD off 0).toNat_lt
  have h1 := (data.getD (off + 1) 0).toNat_lt
  have h2 := (data.getD (off + 2) 0).toNat_lt
  have e0 : (data.getD off 0).toUInt32.toNat = (data.getD off 0).toNat := UInt8.toNat_toUInt32 _
  have e1 : ((data.getD (off + 1) 0).toUInt32 <<< 8).toNat = (data.getD (off + 1) 0).toNat * 2 ^ 8 :=
    toNat_byte_shiftLeft _ (k := 8) (by omega)
  have e2 : ((data.getD (off + 2) 0).toUInt32 <<< 16).toNat =
      (data.getD (off + 2) 0).toNat * 2 ^ 16 := toNat_byte_shiftLeft _ (k := 16) (by omega)
  have e3 : ((data.getD (off + 3) 0).toUInt32 <<< 24).toNat =
      (data.getD (off + 3) 0).toNat * 2 ^ 24 := toNat_byte_shiftLeft _ (k := 24) (by omega)
  have s1 := toNat_or_of_dvd (x := (data.getD off 0).toUInt32)
    (y := (data.getD (off + 1) 0).toUInt32 <<< 8) (k := 8) (by omega) (by omega)
  have s2 := toNat_or_of_dvd
    (x := (data.getD off 0).toUInt32 ||| (data.getD (off + 1) 0).toUInt32 <<< 8)
    (y := (data.getD (off + 2) 0).toUInt32 <<< 16) (k := 16) (by omega) (by omega)
  rw [← UInt32.toNat_inj, readLe32, toNat_or_of_dvd (k := 24) (by omega) (by omega), s2, s1, e0, e1,
    e2, e3, u32, toNat_le32]
  simp only [u8]
  omega

theorem parseFrame_writeFrame {f : Frame} (hf : f.Proper) : parseFrame (writeFrame f) = .ok f := by
  have hread := hf.read_stream []
  have hlong := hf.length_stream []
  have hdrop := hf.drop_stream []
  rw [append_nil] at hread hlong hdrop
  have hmg : (writeFrame f).take 4 = magicBytes := (congrArg magic hread).trans hf.magic
  have hver : (writeFrame f).getD 4 0 = protocolVersion :=
    (congrArg version hread).trans hf.version
  have hlen : (u32 (writeFrame f) 12).toNat = f.payload.length :=
    (congrArg (·.len.toNat) hread).trans hf.len
  have hall : ¬ (writeFrame f).length < headerSize + f.payload.length := by
    simp only [writeFrame, length_append, hf.length_marshal]
    omega
  simp only [parseFrame, readLe16_eq, readLe32_eq]
  rw [if_neg hlong, if_neg (not_not.mpr hmg), if_neg (not_not.mpr hver), hlen,
    if_neg (Nat.not_lt.mpr hf.small), if_neg hall, hdrop, append_nil, take_length]
  exact congrArg (fun h => Except.ok (Frame.mk h f.payload)) hread

theorem recvRound_writeFrame {f : Frame} (hf : f.Proper) (rest : List UInt8) :
    recvRound (writeFrame f ++ rest) = .deliver f rest := by
  have hlen : (readLe32 (writeFrame f ++ rest) 12).toNat = f.payload.length := by
    have hread := congrArg len (hf.read_stream rest)
    rw [readLe32_eq, ← hf.len, ← hread]
    rfl
  have hfm : (writeFrame f).length = headerSize + f.payload.length := by
    rw [writeFrame, length_append, hf.length_marshal]
  have hsh : ¬ (f.payload ++ rest).length < f.payload.length := by simp
  simp only [recvRound, if_neg (hf.length_stream rest), hlen, if_neg (Nat.not_lt.mpr hf.small),
    hf.drop_stream, if_neg hsh, ← hfm, take_left, drop_left,
    parseFrame_writeFrame hf]

end Cpp

structure Message where
  msgType : MsgType
  seq : UInt32
  flags : UInt16
  payload : List UInt8
  shared : msgType ∈ MsgType.aiSide
  small : payload.length ≤ maxPayloadSize

namespace Message

def go (m : Message) : Frame := buildFrame m.msgType.code m.seq m.flags m.payload

def cpp (m : Message) : Frame := Cpp.buildFrame m.msgType m.seq m.flags m.payload

def py (m : Message) : Py.Frame := ⟨m.msgType, m.seq.toNat, m.flags.toNat, m.payload⟩

theorem length_payload (m : Message) : m.go.header.len.toNat = m.payload.length := by
  have hsm := m.small
  rw [maxPayloadSize] at hsm
  exact UInt32.toNat_ofNat_of_lt' (by rw [UInt32.size]; omega)

theorem packHeader_py (m : Message) (crc : UInt32) :
    m.py.packHeader crc.toNat = some { m.go.header with crc32 := crc }.marshal := by
  have hsm := m.small
  have hfits : m.py.flags < 2 ^ 16 ∧ m.py.seq < 2 ^ 32 ∧ m.py.payload.length < 2 ^ 32 ∧
      crc.toNat < 2 ^ 32 :=
    ⟨m.flags.toNat_lt, m.seq.toNat_lt, Nat.lt_of_le_of_lt hsm (by decide), crc.toNat_lt⟩
  rw [Py.Frame.packHeader, if_pos hfits]
  simp [py, go, buildFrame, marshal]

theorem crc32_py (m : Message) : m.py.crc32 = some m.go.header.crc32 := by
  have hzero := m.packHeader_py 0
  rw [show (0 : UInt32).toNat = 0 from rfl] at hzero
  rw [Py.Frame.crc32, hzero]
  rfl

theorem serialise_py (m : Message) : m.py.serialise = some (writeFrame m.go) := by
  rw [Py.Frame.serialise, crc32_py]
  simp only [packHeader_py, Option.map_some]
  rfl

theorem proper_go (m : Message) : m.go.Proper :=
  ⟨rfl, rfl, m.length_payload, m.small⟩

theorem checksum_go (m : Message) : m.go.checksum = m.go.header.crc32 := rfl

theorem validate_go (m : Message) : m.go.validate = none := by
  rw [Frame.validate, if_neg (not_not.mpr m.checksum_go)]

theorem handleRound_go (m : Message) (rest : List UInt8) :
    handleRound (writeFrame m.go ++ rest) = .deliver m.go rest := by
  simp only [handleRound, readFrame_writeFrame m.proper_go, validate_go]

theorem msgTypeOf_code {t : MsgType} (h : t ∈ MsgType.aiSide) : Py.msgTypeOf t.code = some t := by
  cases t with
  | mapUpdateAck => simp [MsgType.aiSide] at h
  | _ => rfl

theorem fromBytes_py (m : Message) : Py.fromBytes m.go.header.marshal m.payload = .ok m.py := by
  have hread := FrameHeader.read_marshal m.proper_go.magic []
  have htype : m.go.header.marshal.getD 5 0 = m.msgType.code := congrArg FrameHeader.msgType hread
  have hseq : u32 m.go.header.marshal 8 = m.seq := congrArg FrameHeader.seq hread
  have hflags : u16 m.go.header.marshal 6 = m.flags := congrArg FrameHeader.flags hread
  have hcrc : u32 m.go.header.marshal 16 = m.go.header.crc32 := congrArg FrameHeader.crc32 hread
  have hmg : ¬ m.go.header.marshal.take 4 ≠ magicBytes :=
    not_not.mpr (congrArg FrameHeader.magic hread)
  have hver : ¬ m.go.header.marshal.getD 4 0 ≠ protocolVersion :=
    not_not.mpr (congrArg FrameHeader.version hread)
  rw [Py.fromBytes, if_neg hmg, if_neg hver, htype, msgTypeOf_code m.shared, hseq, hflags]
  have hpy : (⟨m.msgType, m.seq.toNat, m.flags.toNat, m.payload⟩ : Py.Frame).crc32 =
      some m.go.header.crc32 := m.crc32_py
  simp only [hpy, hcrc, ne_eq, not_true, if_false]
  rfl

theorem runRound_py (m : Message) (rest : List UInt8) :
    Py.runRound (writeFrame m.go ++ rest) = .deliver m.py rest := by
  have hf := m.proper_go
  have hread := read_marshal hf.magic []
  have hlen : (u32 m.go.header.marshal 12).toNat = m.payload.length :=
    (congrArg (fun h => h.len.toNat) hread).trans hf.len
  have hsh : ¬ (m.go.payload ++ rest).length < m.payload.length := by
    rw [length_append]
    exact Nat.not_lt.mpr (Nat.le_add_right _ _)
  have htake : (m.go.payload ++ rest).take m.payload.length = m.payload := take_left
  have hdrop : (m.go.payload ++ rest).drop m.payload.length = rest := drop_left
  simp only [Py.runRound, if_neg (hf.length_stream rest), hf.take_stream, hf.drop_stream, hlen,
    if_neg (Nat.not_lt.mpr m.small), if_neg hsh, htake, hdrop, fromBytes_py]

end Message

/-- The three encoders write the same bytes, and the three receive loops take any
concatenation of them apart again, frame by frame. -/
theorem frame_codecs_agree (ms : List Message) :
    (∀ m : Message, Cpp.serialise m.cpp = writeFrame m.go ∧
        m.py.serialise = some (writeFrame m.go) ∧ m.go.validate = none) ∧
      ∀ extra,
        receive handleRound (ms.length + 1 + extra) (ms.flatMap fun m => writeFrame m.go) =
          ms.map Message.go ∧
        receive Cpp.recvRound (ms.length + 1 + extra) (ms.flatMap fun m => writeFrame m.go) =
          ms.map Message.cpp ∧
        receive Py.runRound (ms.length + 1 + extra) (ms.flatMap fun m => writeFrame m.go) =
          ms.map Message.py := by
  refine ⟨fun m => ⟨Cpp.serialise_eq m.go, m.serialise_py, m.validate_go⟩, fun extra => ⟨?_, ?_, ?_⟩⟩
  · exact receive_flatMap (fun m _ => m.handleRound_go) rfl (by omega)
  · exact receive_flatMap (fun m _ => Cpp.recvRound_writeFrame m.proper_go) rfl (by omega)
  · exact receive_flatMap (fun m _ => m.runRound_py) rfl (by omega)

end Falx.Ipc
