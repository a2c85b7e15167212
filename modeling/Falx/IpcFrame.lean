import Falx.FrameStream
import Falx.Packet

/-! The frames between falxd and the AI engine, and the three programs that write and
read them: falxd in Go, the C++ engine and its Python counterpart. Go's and zlib's
CRC-32 are the bitwise one of the C++ header. -/

namespace Falx.Ipc

open Words FrameStream
open Falx.Frame (u16 u32)

def magicBytes : List UInt8 := [0x46, 0x4C, 0x58, 0x32]

def protocolVersion : UInt8 := 1

def headerSize : Nat := 20

def maxPayloadSize : Nat := 2 ^ 20

inductive MsgType where
  | inferRequest
  | configPush
  | heartbeat
  | inferResponse
  | mapUpdateReq
  | heartbeatAck
  | alert
  | mapUpdateAck
  | error
  deriving DecidableEq

namespace MsgType

def code : MsgType → UInt8
  | inferRequest => 0x01
  | configPush => 0x02
  | heartbeat => 0x03
  | inferResponse => 0x81
  | mapUpdateReq => 0x82
  | heartbeatAck => 0x83
  | alert => 0x84
  | mapUpdateAck => 0x85
  | error => 0xFF

/-- The C++ and the Python enumeration, which know no `mapUpdateAck`. -/
def aiSide : List MsgType :=
  [inferRequest, configPush, heartbeat, inferResponse, mapUpdateReq, heartbeatAck, alert, error]

end MsgType

def crc32Poly : UInt32 := 0xEDB88320

def crc32Bit (crc : UInt32) : UInt32 := (crc >>> 1) ^^^ ((0 - (crc &&& 1)) &&& crc32Poly)

def crc32Byte (crc : UInt32) (b : UInt8) : UInt32 :=
  (List.range 8).foldl (fun crc _ => crc32Bit crc) (crc ^^^ b.toUInt32)

def crc32Compute (data : List UInt8) : UInt32 := data.foldl crc32Byte 0xFFFFFFFF ^^^ 0xFFFFFFFF

@[ext]
structure FrameHeader where
  magic : List UInt8
  version : UInt8
  msgType : UInt8
  flags : UInt16
  seq : UInt32
  len : UInt32
  crc32 : UInt32
  deriving DecidableEq

structure Frame where
  header : FrameHeader
  payload : List UInt8
  deriving DecidableEq

inductive FrameError where
  | headerRead
  | badMagic (got : List UInt8)
  | badVersion (got : UInt8)
  | tooLong (len : UInt32)
  | payloadRead (len : UInt32)
  | unknownType (got : UInt8)
  | crcMismatch (got expected : UInt32)
  deriving DecidableEq

namespace FrameHeader

def marshal (h : FrameHeader) : List UInt8 :=
  h.magic ++ [h.version, h.msgType] ++ bytes16 h.flags ++ bytes32 h.seq ++ bytes32 h.len ++
    bytes32 h.crc32

end FrameHeader

def unmarshalHeader (b : List UInt8) : Except FrameError FrameHeader :=
  if b.take 4 ≠ magicBytes then .error (.badMagic (b.take 4))
  else if b.getD 4 0 ≠ protocolVersion then .error (.badVersion (b.getD 4 0))
  else
    let h : FrameHeader :=
      ⟨b.take 4, b.getD 4 0, b.getD 5 0, u16 b 6, u32 b 8,
        u32 b 12, u32 b 16⟩
    if h.len.toNat > maxPayloadSize then .error (.tooLong h.len) else .ok h

def buildFrame (msgType : UInt8) (seq : UInt32) (flags : UInt16) (payload : List UInt8) : Frame :=
  let h : FrameHeader :=
    ⟨magicBytes, protocolVersion, msgType, flags, seq, UInt32.ofNat payload.length, 0⟩
  ⟨{ h with crc32 := crc32Compute (h.marshal.take 16 ++ payload) }, payload⟩

namespace Frame

def checksum (f : Frame) : UInt32 := crc32Compute (f.header.marshal.take 16 ++ f.payload)

def validate (f : Frame) : Option FrameError :=
  if f.checksum ≠ f.header.crc32 then some (.crcMismatch f.checksum f.header.crc32) else none

end Frame

def writeFrame (f : Frame) : List UInt8 := f.header.marshal ++ f.payload

def readFrame (s : List UInt8) : Except FrameError (Frame × List UInt8) :=
  if s.length < headerSize then .error .headerRead
  else
    match unmarshalHeader (s.take headerSize) with
    | .error e => .error e
    | .ok h =>
      let rest := s.drop headerSize
      if rest.length < h.len.toNat then .error (.payloadRead h.len)
      else .ok (⟨h, rest.take h.len.toNat⟩, rest.drop h.len.toNat)

def handleRound (s : List UInt8) : Outcome UInt8 Frame :=
  match readFrame s with
  | .error _ => .stop
  | .ok (f, rest) =>
    match f.validate with
    | some _ => .skip rest
    | none => .deliver f rest

namespace Cpp

def hostBytes (h : FrameHeader) : List UInt8 :=
  h.magic ++ [h.version, h.msgType] ++ bytes16 h.flags ++ bytes32 h.seq ++ bytes32 h.len ++
    bytes32 h.crc32

def buildFrame (msgType : MsgType) (seq : UInt32) (flags : UInt16) (payload : List UInt8) : Frame :=
  let h : FrameHeader :=
    ⟨magicBytes, protocolVersion, msgType.code, flags, seq, UInt32.ofNat payload.length, 0⟩
  ⟨{ h with crc32 := crc32Compute ((hostBytes h).take 16 ++ payload) }, payload⟩

def writeLe16 (v : UInt16) : List UInt8 := [(v &&& 0xFF).toUInt8, ((v >>> 8) &&& 0xFF).toUInt8]

def writeLe32 (v : UInt32) : List UInt8 :=
  [(v &&& 0xFF).toUInt8, ((v >>> 8) &&& 0xFF).toUInt8, ((v >>> 16) &&& 0xFF).toUInt8,
    ((v >>> 24) &&& 0xFF).toUInt8]

def serialise (f : Frame) : List UInt8 :=
  f.header.magic ++ [f.header.version, f.header.msgType] ++ writeLe16 f.header.flags ++
    writeLe32 f.header.seq ++ writeLe32 f.header.len ++ writeLe32 f.header.crc32 ++ f.payload

def readLe16 (data : List UInt8) (off : Nat) : UInt16 :=
  (data.getD off 0).toUInt16 ||| (data.getD (off + 1) 0).toUInt16 <<< 8

def readLe32 (data : List UInt8) (off : Nat) : UInt32 :=
  (data.getD off 0).toUInt32 ||| (data.getD (off + 1) 0).toUInt32 <<< 8 |||
    (data.getD (off + 2) 0).toUInt32 <<< 16 ||| (data.getD (off + 3) 0).toUInt32 <<< 24

def parseFrame (data : List UInt8) : Except FrameError Frame :=
  if data.length < headerSize then .error .headerRead
  else if data.take 4 ≠ magicBytes then .error (.badMagic (data.take 4))
  else if data.getD 4 0 ≠ protocolVersion then .error (.badVersion (data.getD 4 0))
  else
    let h : FrameHeader :=
      ⟨data.take 4, data.getD 4 0, data.getD 5 0, readLe16 data 6, readLe32 data 8,
        readLe32 data 12, readLe32 data 16⟩
    if h.len.toNat > maxPayloadSize then .error (.tooLong h.len)
    else if data.length < headerSize + h.len.toNat then .error (.payloadRead h.len)
    else .ok ⟨h, (data.drop headerSize).take h.len.toNat⟩

def recvRound (s : List UInt8) : Outcome UInt8 Frame :=
  if s.length < headerSize then .stop
  else
    let payloadLen := (readLe32 s 12).toNat
    if payloadLen > maxPayloadSize then .stop
    else if (s.drop headerSize).length < payloadLen then .stop
    else
      match parseFrame (s.take (headerSize + payloadLen)) with
      | .error _ => .skip (s.drop (headerSize + payloadLen))
      | .ok f => .deliver f (s.drop (headerSize + payloadLen))

end Cpp

namespace Py

/-- Python's integers have no bounds of their own. -/
structure Frame where
  msgType : MsgType
  seq : Nat
  flags : Nat
  payload : List UInt8
  deriving DecidableEq

namespace Frame

/-- `struct.pack` with the format `<4sBBHIII`, which raises an error on a number that
does not fit its field. -/
def packHeader (f : Frame) (crc : Nat) : Option (List UInt8) :=
  if f.flags < 2 ^ 16 ∧ f.seq < 2 ^ 32 ∧ f.payload.length < 2 ^ 32 ∧ crc < 2 ^ 32 then
    some (magicBytes ++ [protocolVersion, f.msgType.code] ++ bytes16 (UInt16.ofNat f.flags) ++
      bytes32 (UInt32.ofNat f.seq) ++ bytes32 (UInt32.ofNat f.payload.length) ++
      bytes32 (UInt32.ofNat crc))
  else none

def crc32 (f : Frame) : Option UInt32 :=
  (f.packHeader 0).map fun hdr => crc32Compute (hdr.take 16 ++ f.payload)

def serialise (f : Frame) : Option (List UInt8) :=
  match f.crc32 with
  | none => none
  | some crc => (f.packHeader crc.toNat).map (· ++ f.payload)

end Frame

def msgTypeOf (b : UInt8) : Option MsgType := MsgType.aiSide.find? fun t => t.code = b

def fromBytes (hdr payload : List UInt8) : Except FrameError Frame :=
  if hdr.take 4 ≠ magicBytes then .error (.badMagic (hdr.take 4))
  else if hdr.getD 4 0 ≠ protocolVersion then .error (.badVersion (hdr.getD 4 0))
  else
    match msgTypeOf (hdr.getD 5 0) with
    | none => .error (.unknownType (hdr.getD 5 0))
    | some msgType =>
      let f : Frame := ⟨msgType, (u32 hdr 8).toNat, (u16 hdr 6).toNat, payload⟩
      match f.crc32 with
      | none => .error (.payloadRead (UInt32.ofNat payload.length))
      | some expected =>
        if u32 hdr 16 ≠ expected then
          .error (.crcMismatch (u32 hdr 16) expected)
        else .ok f

/-- One round of `run`. A stream that ends ends the loop; any other exception is
logged, with the bytes read so far gone. -/
def runRound (s : List UInt8) : Outcome UInt8 Frame :=
  if s.length < headerSize then .stop
  else
    let hdr := s.take headerSize
    let rest := s.drop headerSize
    let plen := (u32 hdr 12).toNat
    if plen > maxPayloadSize then .skip rest
    else if rest.length < plen then .stop
    else
      match fromBytes hdr (rest.take plen) with
      | .error _ => .skip (rest.drop plen)
      | .ok f => .deliver f (rest.drop plen)

end Py

end Falx.Ipc
