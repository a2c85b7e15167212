import Falx.Codewords
import Falx.QrReedSolomon
import Mathlib.Data.Fintype.Vector

/-! The codewords of a QR code. The version is chosen by the length of the text alone, and the
bits that do not fit behind the mode and the length are cut off. -/

namespace Falx.Qr

open List Codewords

structure QrVer where
  dataBytes : Nat
  ecPerBlock : Nat
  g1n : Nat
  g1d : Nat
  g2n : Nat
  g2d : Nat
  deriving DecidableEq, Inhabited

def qrVersions : List QrVer :=
  [⟨16, 10, 1, 16, 0, 0⟩, ⟨28, 16, 1, 28, 0, 0⟩, ⟨44, 26, 1, 44, 0, 0⟩, ⟨64, 18, 2, 32, 0, 0⟩,
    ⟨86, 24, 2, 43, 0, 0⟩, ⟨108, 16, 4, 27, 0, 0⟩, ⟨124, 18, 4, 31, 0, 0⟩,
    ⟨154, 22, 2, 38, 2, 39⟩, ⟨182, 22, 3, 36, 2, 37⟩, ⟨216, 26, 4, 43, 1, 44⟩]

def countBits (version : Nat) : Nat := if version ≤ 9 then 8 else 16

def byteBits (data : List UInt8) : List Bool := data.flatMap fun b => toBits b.toNat 8

def qrPads : Nat → Nat → List Bool
  | 0, _ => []
  | n + 1, pi => toBits (if pi % 2 = 0 then 0xEC else 0x11) 8 ++ qrPads n (pi + 1)

def qrBits (version : Nat) (v : QrVer) (data : List UInt8) : List Bool :=
  let cap := v.dataBytes * 8
  let bits := toBits 4 4 ++ toBits data.length (countBits version) ++ byteBits data
  let bits := bits ++ List.replicate (min 4 (cap - bits.length)) false
  let bits := bits ++ List.replicate ((8 - bits.length % 8) % 8) false
  bits ++ qrPads ((cap - bits.length + 7) / 8) 0

def rawByte (bits : List Bool) : UInt8 :=
  bits.foldl (fun b bit => (b <<< 1) ||| if bit then 1 else 0) 0

def rawData : Nat → List Bool → List UInt8
  | 0, _ => []
  | n + 1, bits => rawByte (bits.take 8) :: rawData n (bits.drop 8)

def slices (size : Nat) : Nat → List UInt8 → List (List UInt8)
  | 0, _ => []
  | n + 1, data => data.take size :: slices size n (data.drop size)

def qrBlocks (v : QrVer) (data : List UInt8) : List (List UInt8) :=
  slices v.g1d v.g1n data ++ slices v.g2d v.g2n (data.drop (v.g1n * v.g1d))

def qrEncode (data : List UInt8) : Except String (Nat × List UInt8) :=
  match qrVersions.findIdx? fun v => data.length ≤ v.dataBytes with
  | none => .error ("qr: text too long (" ++ toString data.length ++ " bytes, max 216)")
  | some vi =>
    let v := qrVersions.getD vi default
    let blocks := qrBlocks v (rawData v.dataBytes (qrBits (vi + 1) v data))
    .ok (vi + 1, interleave (max v.g1d v.g2d) blocks ++
      interleave v.ecPerBlock (blocks.map (qrRS · v.ecPerBlock)))

def readSegment (countBits : Nat) (bits : List Bool) : Option (List UInt8) :=
  let count := ofBits ((bits.drop 4).take countBits)
  let payload := bits.drop (4 + countBits)
  if ofBits (bits.take 4) = 4 ∧ 8 * count ≤ payload.length then
    some ((List.range count).map fun i => UInt8.ofNat (ofBits ((payload.drop (8 * i)).take 8)))
  else none

def readCodewords (version : Nat) (codewords : List UInt8) : Option (List UInt8) :=
  let v := qrVersions.getD (version - 1) default
  let sizes := List.replicate v.g1n v.g1d ++ List.replicate v.g2n v.g2d
  readSegment (countBits version)
    (byteBits (deinterleave (max v.g1d v.g2d) sizes codewords).flatten)

section Blocks

variable {n : Nat} {v : QrVer} {data : List UInt8}

theorem slices_spec {size : Nat} (h : n * size ≤ data.length) :
    (slices size n data).map List.length = List.replicate n size ∧
      (slices size n data).flatten = data.take (n * size) := by
  induction n generalizing data with
  | zero => simp [slices]
  | succ n ih =>
    rw [Nat.succ_mul] at h
    obtain ⟨hlen, hflat⟩ := @ih (data.drop size) (by rw [length_drop]; omega)
    rw [slices, map_cons, flatten_cons, hlen, hflat, length_take,
      Nat.min_eq_left (by omega), replicate_succ, Nat.succ_mul, Nat.add_comm (n * size),
      take_add]
    exact ⟨rfl, rfl⟩

section

variable (h : data.length = v.g1n * v.g1d + v.g2n * v.g2d)

include h

theorem qrBlocks_spec :
    (qrBlocks v data).map List.length =
        List.replicate v.g1n v.g1d ++ List.replicate v.g2n v.g2d ∧
      (qrBlocks v data).flatten = data := by
  obtain ⟨hlen, hflat⟩ := @slices_spec v.g1n data v.g1d (by omega)
  obtain ⟨hlen', hflat'⟩ := @slices_spec v.g2n (data.drop (v.g1n * v.g1d)) v.g2d
    (by rw [length_drop]; omega)
  rw [qrBlocks, map_append, flatten_append, hlen, hlen', hflat, hflat']
  refine ⟨rfl, ?_⟩
  rw [take_of_length_le (l := data.drop _) (by rw [length_drop]; omega),
    take_append_drop]

theorem deinterleave_qrBlocks (rest : List UInt8) :
    (deinterleave (max v.g1d v.g2d) (List.replicate v.g1n v.g1d ++ List.replicate v.g2n v.g2d)
      (interleave (max v.g1d v.g2d) (qrBlocks v data) ++ rest)).flatten = data := by
  obtain ⟨hlen, hflat⟩ := qrBlocks_spec h
  rw [← hlen, deinterleave_interleave ?_ rest, hflat]
  intro b hb
  have hsize : b.length ∈ (qrBlocks v data).map List.length := mem_map_of_mem hb
  rw [hlen, mem_append, mem_replicate, mem_replicate] at hsize
  omega

end

end Blocks

section Bits

variable {n : Nat} {bits : List Bool} {data : List UInt8}

theorem toBits_rawByte {bits : List Bool} (h : bits.length = 8) :
    toBits (rawByte bits).toNat 8 = bits := by
  have hall : ∀ v : List.Vector Bool 8, toBits (rawByte v.toList).toNat 8 = v.toList := by
    decide +kernel
  exact hall ⟨bits, h⟩

theorem rawData_spec (h : 8 * n ≤ bits.length) :
    (rawData n bits).length = n ∧ byteBits (rawData n bits) = bits.take (8 * n) := by
  induction n generalizing bits with
  | zero => simp [rawData, byteBits]
  | succ n ih =>
    obtain ⟨hlen, hbits⟩ := @ih (bits.drop 8) (by rw [length_drop]; omega)
    rw [byteBits] at hbits
    rw [rawData, length_cons, hlen, byteBits, flatMap_cons, hbits,
      toBits_rawByte (by rw [length_take]; omega), Nat.mul_succ, Nat.add_comm (8 * n),
      take_add]
    exact ⟨rfl, rfl⟩

theorem length_byteBits (data : List UInt8) : (byteBits data).length = 8 * data.length := by
  rw [byteBits, length_flatMap]
  simp [length_toBits, Nat.mul_comm]

theorem length_qrPads (n pi : Nat) : (qrPads n pi).length = 8 * n := by
  induction n generalizing pi with
  | zero => rfl
  | succ n ih =>
    rw [qrPads, length_append, length_toBits, ih]
    omega

theorem qrBits_spec (version : Nat) (v : QrVer) (data : List UInt8) :
    8 * v.dataBytes ≤ (qrBits version v data).length ∧ ∃ pad, qrBits version v data =
      toBits 4 4 ++ (toBits data.length (countBits version) ++ (byteBits data ++ pad)) := by
  constructor
  · simp only [qrBits, length_append, length_replicate, length_qrPads]
    omega
  · simp only [qrBits, append_assoc]
    exact ⟨_, rfl⟩

theorem readBytes_byteBits (data : List UInt8) (rest : List Bool) :
    (List.range data.length).map
      (fun i => UInt8.ofNat (ofBits (((byteBits data ++ rest).drop (8 * i)).take 8))) = data := by
  induction data with
  | nil => rfl
  | cons b data ih =>
    have hlen := length_toBits b.toNat 8
    have hsp : byteBits (b :: data) ++ rest = toBits b.toNat 8 ++ (byteBits data ++ rest) := by
      simp [byteBits]
    rw [length_cons, range_succ_eq_map, map_cons, map_map, hsp]
    refine congrArg₂ List.cons ?_ ((map_congr_left fun i _ => ?_).trans ih)
    · rw [Nat.mul_zero, drop_zero, take_left' hlen, ofBits_toBits b.toNat_lt]
      exact UInt8.ofNat_toNat
    · have hdrop : 8 * (i + 1) = (toBits b.toNat 8).length + 8 * i := by omega
      rw [Function.comp_apply, Nat.succ_eq_add_one, hdrop, drop_length_add_append]

theorem readSegment_iff {n room : Nat} {pad : List Bool} (hcnt : data.length < 2 ^ n)
    (hroom : 4 + n ≤ room)
    (hle : room ≤ (toBits 4 4 ++ (toBits data.length n ++ (byteBits data ++ pad))).length) :
    readSegment n ((toBits 4 4 ++ (toBits data.length n ++ (byteBits data ++ pad))).take room) =
      some data ↔ 4 + n + 8 * data.length ≤ room := by
  obtain ⟨k, rfl⟩ := Nat.exists_eq_add_of_le hroom
  have hmode := length_toBits 4 4
  have hlen := length_toBits data.length n
  have htake : (toBits 4 4 ++ (toBits data.length n ++ (byteBits data ++ pad))).take (4 + n + k) =
      toBits 4 4 ++ (toBits data.length n ++ (byteBits data ++ pad).take k) := by
    have hsum : 4 + n + k = (toBits 4 4).length + ((toBits data.length n).length + k) := by omega
    rw [hsum, take_length_add_append, take_length_add_append]
  have hbits := length_byteBits data
  have hpay : ((byteBits data ++ pad).take k).length = k := by
    rw [length_take, length_append]
    simp only [length_append, hmode, hlen] at hle
    omega
  have hdrop : (toBits 4 4 ++ (toBits data.length n ++ (byteBits data ++ pad).take k)).drop (4 + n) =
      (byteBits data ++ pad).take k := by
    rw [← append_assoc]
    exact drop_left' (by rw [length_append, hmode, hlen])
  rw [htake, readSegment, hdrop, take_left' hmode, drop_left' hmode,
    take_left' hlen, ofBits_toBits hcnt, hpay]
  by_cases hfits : 8 * data.length ≤ k
  · have hdata : (byteBits data ++ pad).take k = byteBits data ++ pad.take (k - 8 * data.length) := by
      rw [take_append, hbits, take_of_length_le (by omega)]
    rw [if_pos ⟨rfl, hfits⟩, hdata, readBytes_byteBits]
    exact iff_of_true rfl (by omega)
  · rw [if_neg fun h => hfits h.2]
    exact iff_of_false nofun (by omega)

end Bits

def cutLengths : List Nat :=
  [15, 16, 27, 28, 43, 44, 63, 64, 85, 86, 107, 108, 123, 124, 153, 154, 181, 182, 214, 215, 216]

theorem qrVersions_spec : ∀ v ∈ qrVersions, v.g1n * v.g1d + v.g2n * v.g2d = v.dataBytes ∧
    16 ≤ v.dataBytes ∧ v.dataBytes ≤ 216 := by
  decide

theorem cutLengths_spec : ∀ n < 217, ∀ vi ∈ qrVersions.findIdx? fun v => n ≤ v.dataBytes,
    4 + countBits (vi + 1) + 8 * n ≤ 8 * (qrVersions.getD vi default).dataBytes ↔
      n ∉ cutLengths := by
  decide +kernel

/-- The text is read back from its codewords unless its length is one of the last two below
the capacity of a version, or of the last three in version 10. -/
theorem qrEncode_roundtrip {text codewords : List UInt8} {version : Nat}
    (h : qrEncode text = .ok (version, codewords)) :
    readCodewords version codewords = some text ↔ text.length ∉ cutLengths := by
  rw [qrEncode] at h
  split at h
  · cases h
  rename_i vi hvi
  cases h
  obtain ⟨hlt, hfit, -⟩ := List.findIdx?_eq_some_iff_getElem.mp hvi
  have hget : qrVersions.getD vi default = qrVersions[vi] := by
    rw [List.getD_eq_getElem?_getD, List.getElem?_eq_getElem hlt]
    rfl
  obtain ⟨hsizes, hmin, hmax⟩ := qrVersions_spec _ (List.getElem_mem hlt)
  rw [← hget] at hsizes hmin hmax hfit
  have hfit := of_decide_eq_true hfit
  obtain ⟨hroom, pad, hbits⟩ := qrBits_spec (vi + 1) (qrVersions.getD vi default) text
  obtain ⟨hlen, hraw⟩ := rawData_spec hroom
  have hcnt : countBits (vi + 1) = 8 ∨ countBits (vi + 1) = 16 := ite_eq_or_eq _ _ _
  rw [readCodewords, Nat.add_sub_cancel, deinterleave_qrBlocks (hlen.trans hsizes.symm), hraw,
    hbits, readSegment_iff, cutLengths_spec _ (by omega) vi hvi]
  · rcases hcnt with hcnt | hcnt <;> rw [hcnt] <;> omega
  · omega
  · rwa [← hbits]

theorem qrEncode_roundtrip_hello : (qrEncode [104, 101, 108, 108, 111]).toOption.map (fun r =>
    decide (readCodewords r.1 r.2 = some [104, 101, 108, 108, 111])) = some true := by
  cases h : qrEncode [104, 101, 108, 108, 111] with
  | error err => cases h
  | ok r => exact congrArg some (decide_eq_true ((qrEncode_roundtrip h).mpr (by decide)))

theorem qrEncode_cut : (qrEncode (List.replicate 15 97)).toOption.map (fun r =>
    decide (readCodewords r.1 r.2 = some (List.replicate 15 97))) = some false := by
  decide +kernel

end Falx.Qr
