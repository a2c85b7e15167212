import Falx.GeoIPTable
import Falx.MmdbRecord

/-! IPv4 addresses in a tree of IPv6 addresses. The format puts them behind 96 zero bits,
the reader starts at the root for both kinds of tree. -/

namespace Falx

open Mmdb MmdbFormat

namespace Mmdb

def treeBits (m : MmdbMeta) (ip : UInt32) : List Bool :=
  if m.ipVersion = 6 then List.replicate 96 false ++ addressBits ip else addressBits ip

def RecordAt (m : MmdbMeta) (raw : List UInt8) (v : Nat) (n : Node) : Prop :=
  n.bytes <+: raw.drop (dataStart m + (v - m.nodeCount.toNat - 16)) ∧ n.Valid raw (dataStart m)

def LeafOf (m : MmdbMeta) (raw : List UInt8) (bits : List Bool) (v : Nat) : Prop :=
  walk (recordValue m.recordSize.toNat raw) m.nodeCount.toNat bits 0 = some v ∧
    m.nodeCount.toNat + 16 ≤ v

def StoredFor (m : MmdbMeta) (raw : List UInt8) (ip : UInt32) (c : IsoEntry) : Prop :=
  ∃ v n, LeafOf m raw (treeBits m ip) v ∧ RecordAt m raw v n ∧ countryOf n.deref = c ∧ c ≠ (0, 0)

def descend (next : Nat → Bool → Nat) (nodeCount : Nat) : Nat → Nat → Nat
  | 0, node => node
  | k + 1, node => if node < nodeCount then descend next nodeCount k (next node false) else node

def leadingZeros (ip : UInt32) : Nat := ((addressBits ip).takeWhile (!·)).length

section Descend

variable {next : Nat → Bool → Nat} {nodeCount : Nat}

theorem descend_of_ge {node : Nat} (h : nodeCount ≤ node) (k : Nat) :
    descend next nodeCount k node = node := by
  cases k with
  | zero => rfl
  | succ k => rw [descend, if_neg (by omega)]

theorem walk_replicate_append {node : Nat} (h : node < nodeCount) (k : Nat) (bits : List Bool) :
    walk next nodeCount (List.replicate k false ++ bits) node =
      if descend next nodeCount k node < nodeCount then
        walk next nodeCount bits (descend next nodeCount k node)
      else some (descend next nodeCount k node) := by
  induction k generalizing node with
  | zero =>
    rw [descend, if_pos h]
    rfl
  | succ k ih =>
    rw [List.replicate_succ, List.cons_append, walk, descend, if_pos h]
    by_cases hnext : next node false < nodeCount
    · rw [if_pos hnext, ih hnext]
    · rw [if_neg hnext, descend_of_ge (by omega), if_neg hnext]

end Descend

theorem addressBits_eq (ip : UInt32) :
    ∃ rest, addressBits ip = List.replicate (leadingZeros ip) false ++ rest := by
  refine ⟨(addressBits ip).dropWhile (!·), ?_⟩
  have hzeros : (addressBits ip).takeWhile (!·) = List.replicate (leadingZeros ip) false := by
    rw [List.eq_replicate_iff]
    refine ⟨rfl, fun b hb => ?_⟩
    have hnot := List.all_eq_true.mp List.all_takeWhile b hb
    simpa using hnot
  rw [← hzeros, List.takeWhile_append_dropWhile]

/-- Both walks meet: 96 zero bits more lead to the node or leaf that the leading zero bits
of the address lead to. -/
def Meets (m : MmdbMeta) (raw : List UInt8) (ip : UInt32) : Prop :=
  let next := recordValue m.recordSize.toNat raw
  descend next m.nodeCount.toNat (96 + leadingZeros ip) 0 =
    descend next m.nodeCount.toNat (leadingZeros ip) 0

theorem walk_treeBits {m : MmdbMeta} {raw : List UInt8} {ip : UInt32}
    (hpos : 0 < m.nodeCount.toNat) (hver : m.ipVersion = 6) (h : Meets m raw ip) :
    walk (recordValue m.recordSize.toNat raw) m.nodeCount.toNat (treeBits m ip) 0 =
      walk (recordValue m.recordSize.toNat raw) m.nodeCount.toNat (addressBits ip) 0 := by
  obtain ⟨rest, hrest⟩ := addressBits_eq ip
  rw [treeBits, if_pos hver, hrest, ← List.append_assoc, List.replicate_append_replicate,
    walk_replicate_append hpos, walk_replicate_append hpos]
  rw [Meets] at h
  simp only [h]

end Mmdb

def codeRecord (code : List UInt8) : Node :=
  .map (.cons (.utf8 countryKey) (.map (.cons (.utf8 isoCodeKey) (.utf8 code) .nil)) .nil)

theorem codeRecord_valid (a b : UInt8) (data : List UInt8) (base : Nat) :
    (codeRecord [a, b]).Valid data base := by
  simp only [codeRecord, Node.Valid, Entries.Valid, Entries.length, Entries.keys, Node.text,
    List.length_cons, List.length_nil]
  decide

theorem codeRecord_readable (a b : UInt8) : RecordReadable (codeRecord [a, b]) := by
  change Searchable countryKey isoCodeOf isMap CountryReadable (0 + 1) _
  trivial

def halvesFile : List UInt8 :=
  [0, 0, 17, 0, 0, 39] ++ List.replicate 16 0 ++ (codeRecord (ascii ['U', 'S'])).bytes ++
    (codeRecord (ascii ['D', 'E'])).bytes ++ mmdbMetaSep ++
    [0xE3, 0x4A] ++ MmdbMeta.nodeCountKey ++ [0xC1, 1, 0x4B] ++
    MmdbMeta.recordSizeKey ++ [0xA1, 24, 0x4A] ++ MmdbMeta.ipVersionKey ++ [0xA1, 6]

def halvesReader : GeoIPReader :=
  ⟨halvesFile, 1, 24, 6, 22, (0x55, 0x53) :: List.replicate 21 (0, 0) ++ [(0x44, 0x45)]⟩

theorem openGeoIP_halvesFile :
    openGeoIP halvesFile = .ok halvesReader ∧ MmdbMeta.parseMeta halvesFile = .ok ⟨1, 24, 6⟩ := by
  decide +kernel

theorem recordAt_halvesFile : RecordAt ⟨1, 24, 6⟩ halvesFile 17 (codeRecord (ascii ['U', 'S'])) :=
  ⟨by decide +kernel, codeRecord_valid _ _ _ _⟩

end Falx
