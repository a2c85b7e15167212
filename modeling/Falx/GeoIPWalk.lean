import Falx.GeoIP

/-! The search tree of an MMDB file as the format defines it: records as numbers, and
the walk along the bits of an address. The reader's packed 32-bit arithmetic follows
it on every node of the tree. -/

namespace Falx

open Mmdb Words

namespace Mmdb

def bigEndian (raw : List UInt8) (pos : Nat) : Nat → Nat
  | 0 => 0
  | k + 1 => bigEndian raw pos k * 256 + byteAt raw (pos + k)

/-- The left or right record of a node: with 28 bits, the middle byte of the node
holds the four highest bits of the left record and then those of the right one. -/
def recordValue (recordSize : Nat) (raw : List UInt8) (node : Nat) (right : Bool) : Nat :=
  let base := node * (recordSize / 4)
  if recordSize = 28 then
    if right = true then byteAt raw (base + 3) % 16 * 2 ^ 24 + bigEndian raw (base + 4) 3
    else byteAt raw (base + 3) / 16 * 2 ^ 24 + bigEndian raw base 3
  else if right = true then bigEndian raw (base + recordSize / 8) (recordSize / 8)
  else bigEndian raw base (recordSize / 8)

def walk (next : Nat → Bool → Nat) (nodeCount : Nat) : List Bool → Nat → Option Nat
  | [], _ => none
  | bit :: bits, node =>
    if next node bit < nodeCount then walk next nodeCount bits (next node bit)
    else some (next node bit)

def lowBits (ip : UInt32) : Nat → List Bool
  | 0 => []
  | n + 1 => ip.toNat.testBit n :: lowBits ip n

def addressBits (ip : UInt32) : List Bool := lowBits ip 32

def dataStart (m : MmdbMeta) : Nat := m.nodeCount.toNat * (m.recordSize.toNat / 4) + 16

/-- The walk of the address ends at a leaf whose record is inside the file and decodes
to the code `c`. -/
def DecodesTo (m : MmdbMeta) (raw : List UInt8) (ip : UInt32) (c : IsoEntry) : Prop :=
  ∃ v, walk (recordValue m.recordSize.toNat raw) m.nodeCount.toNat (addressBits ip) 0 = some v ∧
    m.nodeCount.toNat + 16 ≤ v ∧
    dataStart m + (v - m.nodeCount.toNat - 16) < raw.length ∧
    decodeISOCode raw (dataStart m + (v - m.nodeCount.toNat - 16)) = c ∧ c ≠ (0, 0)

def Edge (m : MmdbMeta) (raw : List UInt8) (u v : Nat) : Prop :=
  v < m.nodeCount.toNat ∧ ∃ right, recordValue m.recordSize.toNat raw u right = v

theorem bigEndian_three (raw : List UInt8) (pos : Nat) :
    bigEndian raw pos 3 =
      (byteAt raw pos * 256 + byteAt raw (pos + 1)) * 256 + byteAt raw (pos + 2) := by
  simp [bigEndian]

theorem bigEndian_four (raw : List UInt8) (pos : Nat) :
    bigEndian raw pos 4 =
      ((byteAt raw pos * 256 + byteAt raw (pos + 1)) * 256 + byteAt raw (pos + 2)) * 256 +
        byteAt raw (pos + 3) := by
  simp [bigEndian]

end Mmdb

namespace GeoIPReader

def record (r : GeoIPReader) : Nat → Bool → Nat := recordValue r.recordSize.toNat r.raw

/-- What the checks of `openGeoIP` establish. -/
structure Valid (r : GeoIPReader) : Prop where
  nodes_pos : 0 < r.nodeCount.toNat
  nodes_le : r.nodeCount.toNat ≤ 2 ^ 28
  size : (r.recordSize = 24 ∧ r.bytesPerNode = 6) ∨ (r.recordSize = 28 ∧ r.bytesPerNode = 7) ∨
    (r.recordSize = 32 ∧ r.bytesPerNode = 8)
  dataBase_eq : r.dataBase.toNat = r.nodeCount.toNat * r.bytesPerNode.toNat + 16
  dataBase_le : r.dataBase.toNat ≤ r.raw.length

theorem toNat_pack (top : UInt32) (h : 2 ^ 24 ∣ top.toNat) (a b c : UInt8) :
    (top ||| a.toUInt32 <<< 16 ||| b.toUInt32 <<< 8 ||| c.toUInt32).toNat =
      top.toNat + ((a.toNat * 256 + b.toNat) * 256 + c.toNat) := by
  have ha := a.toNat_lt
  have hb := b.toNat_lt
  have hc := c.toNat_lt
  have ea : (a.toUInt32 <<< 16).toNat = a.toNat * 2 ^ 16 :=
    toNat_byte_shiftLeft a (k := 16) (by omega)
  have eb : (b.toUInt32 <<< 8).toNat = b.toNat * 2 ^ 8 := toNat_byte_shiftLeft b (k := 8) (by omega)
  have ec : c.toUInt32.toNat = c.toNat := UInt8.toNat_toUInt32 c
  have e1 : (top ||| a.toUInt32 <<< 16).toNat = top.toNat + a.toNat * 2 ^ 16 := by
    rw [toNat_or_of_lt h (by omega), ea]
  have e2 : (top ||| a.toUInt32 <<< 16 ||| b.toUInt32 <<< 8).toNat =
      top.toNat + a.toNat * 2 ^ 16 + b.toNat * 2 ^ 8 := by
    rw [toNat_or_of_lt (k := 16) (by omega) (by omega), e1, eb]
  rw [toNat_or_of_lt (k := 8) (by omega) (by omega), e2, ec]
  omega

theorem toNat_pack3 (a b c : UInt8) :
    (a.toUInt32 <<< 16 ||| b.toUInt32 <<< 8 ||| c.toUInt32).toNat =
      (a.toNat * 256 + b.toNat) * 256 + c.toNat := by
  have h := toNat_pack 0 (Nat.dvd_zero _) a b c
  simpa using h

theorem toNat_pack4 (a b c d : UInt8) :
    (a.toUInt32 <<< 24 ||| b.toUInt32 <<< 16 ||| c.toUInt32 <<< 8 ||| d.toUInt32).toNat =
      ((a.toNat * 256 + b.toNat) * 256 + c.toNat) * 256 + d.toNat := by
  have ha : (a.toUInt32 <<< 24).toNat = a.toNat * 2 ^ 24 :=
    toNat_byte_shiftLeft a (k := 24) (by omega)
  rw [toNat_pack _ (by rw [ha]; omega), ha]
  omega

theorem toNat_highNibble (m : UInt8) :
    ((m.toUInt32 &&& 0xF0) <<< 20).toNat = m.toNat / 16 * 2 ^ 24 := by
  have hm := m.toNat_lt
  rw [UInt32.toNat_shiftLeft, UInt32.toNat_and, UInt8.toNat_toUInt32,
    show (0xF0 : UInt32).toNat = 0xF0 from rfl, and_highNibble hm,
    show (20 : UInt32).toNat % 32 = 20 from rfl, Nat.shiftLeft_eq]
  omega

theorem toNat_lowNibble (m : UInt8) :
    ((m.toUInt32 &&& 0x0F) <<< 24).toNat = m.toNat % 16 * 2 ^ 24 := by
  rw [UInt32.toNat_shiftLeft, UInt32.toNat_and, UInt8.toNat_toUInt32,
    show (0x0F : UInt32).toNat = 2 ^ 4 - 1 from rfl, Nat.and_two_pow_sub_one_eq_mod,
    show (24 : UInt32).toNat % 32 = 24 from rfl, Nat.shiftLeft_eq]
  omega

section Record

variable {r : GeoIPReader} {node : UInt32}

theorem Valid.bytesPerNode_le (h : Valid r) : r.bytesPerNode.toNat ≤ 8 := by
  rcases h.size with ⟨-, hb⟩ | ⟨-, hb⟩ | ⟨-, hb⟩ <;> rw [hb] <;> decide

theorem Valid.toNat_base (h : Valid r) (hnode : node.toNat < r.nodeCount.toNat) :
    (node.toUInt64 * r.bytesPerNode.toUInt64).toNat = node.toNat * r.bytesPerNode.toNat := by
  have hlt : node.toNat * r.bytesPerNode.toNat ≤ 2 ^ 28 * 8 :=
    Nat.mul_le_mul (by have := h.nodes_le; omega) h.bytesPerNode_le
  rw [UInt64.toNat_mul, UInt32.toNat_toUInt64, UInt32.toNat_toUInt64, Nat.mod_eq_of_lt (by omega)]

theorem Valid.inBounds (h : Valid r) (hnode : node.toNat < r.nodeCount.toNat) :
    ¬ node.toUInt64 * r.bytesPerNode.toUInt64 + r.bytesPerNode.toUInt64 > r.dataBase.toUInt64 := by
  have hb := h.bytesPerNode_le
  have hlt : node.toNat * r.bytesPerNode.toNat ≤ 2 ^ 28 * 8 :=
    Nat.mul_le_mul (by have := h.nodes_le; omega) hb
  have hstep : (node.toNat + 1) * r.bytesPerNode.toNat ≤ r.nodeCount.toNat * r.bytesPerNode.toNat :=
    Nat.mul_le_mul_right _ hnode
  rw [Nat.add_mul, Nat.one_mul] at hstep
  have hbase := h.dataBase_eq
  rw [gt_iff_lt, UInt64.lt_iff_toNat_lt, UInt64.toNat_add, h.toNat_base hnode,
    UInt32.toNat_toUInt64, UInt32.toNat_toUInt64, Nat.mod_eq_of_lt (by omega)]
  omega

theorem Valid.readRecord_eq (h : Valid r) (hnode : node.toNat < r.nodeCount.toNat)
    (direction : UInt32) :
    (r.readRecord node direction).toNat = r.record node.toNat (decide (direction ≠ 0)) := by
  have hbase := h.toNat_base hnode
  have hin := h.inBounds hnode
  simp only [readRecord, if_neg hin, hbase, record, recordValue]
  rcases h.size with ⟨hs, hb⟩ | ⟨hs, hb⟩ | ⟨hs, hb⟩
  · have hby : r.bytesPerNode.toNat = 24 / 4 := by rw [hb]; rfl
    rw [hby, hs, if_pos rfl, if_neg (show ¬ (24 : UInt32).toNat = 28 by decide)]
    by_cases hd : direction = 0
    · rw [if_pos hd, if_neg (by simp [hd]), toNat_pack3]
      exact (bigEndian_three _ _).symm
    · rw [if_neg hd, if_pos (by simp [hd]), toNat_pack3]
      exact (bigEndian_three _ _).symm
  · have hby : r.bytesPerNode.toNat = 28 / 4 := by rw [hb]; rfl
    rw [hby, hs, if_neg (by decide), if_pos rfl, if_pos (show (28 : UInt32).toNat = 28 from rfl)]
    by_cases hd : direction = 0
    · rw [if_pos hd, if_neg (by simp [hd]), toNat_pack _ (by rw [toNat_highNibble]; omega),
        toNat_highNibble]
      exact congrArg _ (bigEndian_three _ _).symm
    · rw [if_neg hd, if_pos (by simp [hd]), toNat_pack _ (by rw [toNat_lowNibble]; omega),
        toNat_lowNibble]
      exact congrArg _ (bigEndian_three _ _).symm
  · have hby : r.bytesPerNode.toNat = 32 / 4 := by rw [hb]; rfl
    rw [hby, hs, if_neg (by decide), if_neg (by decide), if_pos rfl,
      if_neg (show ¬ (32 : UInt32).toNat = 28 by decide)]
    by_cases hd : direction = 0
    · rw [if_pos hd, if_neg (by simp [hd]), toNat_pack4]
      exact (bigEndian_four _ _).symm
    · rw [if_neg hd, if_pos (by simp [hd]), toNat_pack4]
      exact (bigEndian_four _ _).symm

theorem toNat_and_one (x : UInt32) : (x &&& 1).toNat = x.toNat % 2 := by
  rw [UInt32.toNat_and, show (1 : UInt32).toNat = 2 ^ 1 - 1 from rfl,
    Nat.and_two_pow_sub_one_eq_mod]

theorem direction_eq (ip : UInt32) {bit : Nat} (h : bit < 32) :
    decide ((ip >>> UInt32.ofNat bit) &&& 1 ≠ 0) = ip.toNat.testBit bit := by
  have hn : ((ip >>> UInt32.ofNat bit) &&& 1).toNat = ip.toNat / 2 ^ bit % 2 := by
    rw [toNat_and_one, UInt32.toNat_shiftRight, UInt32.toNat_ofNat', Nat.shiftRight_eq_div_pow,
      Nat.mod_eq_of_lt (show bit < 2 ^ 32 by omega), Nat.mod_eq_of_lt h]
  have hz : (ip >>> UInt32.ofNat bit) &&& 1 ≠ 0 ↔ ip.toNat / 2 ^ bit % 2 = 1 := by
    rw [← UInt32.toNat_inj.ne, hn, show (0 : UInt32).toNat = 0 from rfl]
    omega
  rw [Nat.testBit_eq_decide_div_mod_eq, decide_eq_decide]
  exact hz

theorem Valid.walk_eq (h : Valid r) (ip : UInt32) {n : Nat} (hn : n ≤ 32)
    (hnode : node.toNat < r.nodeCount.toNat) :
    walk r.record r.nodeCount.toNat (lowBits ip n) node.toNat =
      if r.nodeCount.toNat ≤ (r.traverseFrom ip n node).toNat then
        some (r.traverseFrom ip n node).toNat
      else none := by
  induction n generalizing node with
  | zero =>
    rw [traverseFrom, if_neg (by omega)]
    rfl
  | succ bit ih =>
    have hnext := h.readRecord_eq hnode ((ip >>> UInt32.ofNat bit) &&& 1)
    rw [direction_eq ip (by omega)] at hnext
    simp only [lowBits, walk, ← hnext]
    by_cases hlt : (r.readRecord node ((ip >>> UInt32.ofNat bit) &&& 1)).toNat < r.nodeCount.toNat
    · have htrav : r.traverseFrom ip (bit + 1) node =
          r.traverseFrom ip bit (r.readRecord node ((ip >>> UInt32.ofNat bit) &&& 1)) := by
        rw [traverseFrom, if_neg (by rw [ge_iff_le, UInt32.le_iff_toNat_le]; omega)]
      rw [if_pos hlt, htrav]
      exact ih (by omega) hlt
    · have htrav : r.traverseFrom ip (bit + 1) node =
          r.readRecord node ((ip >>> UInt32.ofNat bit) &&& 1) := by
        rw [traverseFrom, if_pos (by rw [ge_iff_le, UInt32.le_iff_toNat_le]; omega)]
      rw [if_neg hlt, htrav, if_pos (by omega)]

theorem Valid.walk_addressBits (h : Valid r) (ip : UInt32) :
    walk r.record r.nodeCount.toNat (addressBits ip) 0 =
      if r.nodeCount.toNat ≤ (r.traverseTree ip).toNat then some (r.traverseTree ip).toNat
      else none := by
  have hroot : (0 : UInt32).toNat < r.nodeCount.toNat := h.nodes_pos
  have hwalk := h.walk_eq ip (Nat.le_refl 32) hroot
  rwa [UInt32.toNat_zero] at hwalk

end Record

end GeoIPReader

end Falx
