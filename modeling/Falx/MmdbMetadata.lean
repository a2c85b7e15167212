import Falx.GeoIP
import Falx.MmdbDecode

/-! The metadata of an MMDB file against the format. Values are passed over by their size
field, which for maps and arrays counts entries and not bytes. -/

namespace Falx.Mmdb

open MmdbFormat MmdbMeta

section Number

theorem toNat_shiftLeft_or {v : UInt64} (hv : v.toNat < 2 ^ 56) (b : UInt8) :
    (v <<< 8 ||| b.toUInt64).toNat = v.toNat * 256 + b.toNat := by
  have hb := b.toNat_lt
  have hshift : (v <<< 8).toNat = v.toNat <<< 8 := by
    rw [UInt64.toNat_shiftLeft, Nat.mod_eq_of_lt]
    · rfl
    · rw [Nat.shiftLeft_eq]
      change v.toNat * 2 ^ 8 < _
      omega
  rw [UInt64.toNat_or, hshift, UInt8.toNat_toUInt64, Words.shiftLeft_or_eq (by omega)]

theorem toNat_foldl_shiftLeft (bs : List UInt8) {v : UInt64} {k : Nat}
    (hv : v.toNat < 256 ^ k) (hk : k + bs.length ≤ 8) :
    (bs.foldl (fun (v : UInt64) b => v <<< 8 ||| b.toUInt64) v).toNat =
        bs.foldl (fun v b => v * 256 + b.toNat) v.toNat ∧
      bs.foldl (fun v b => v * 256 + b.toNat) v.toNat < 256 ^ (k + bs.length) := by
  induction bs generalizing v k with
  | nil => exact ⟨rfl, hv⟩
  | cons b bs ih =>
    have hb := b.toNat_lt
    rw [List.length_cons] at hk
    have hpow : 256 ^ k ≤ 256 ^ 7 := Nat.pow_le_pow_right (by omega) (by omega)
    have hstep := toNat_shiftLeft_or (show v.toNat < 2 ^ 56 by omega) b
    have hlt : (v <<< 8 ||| b.toUInt64).toNat < 256 ^ (k + 1) := by omega
    have hrest := ih hlt (by omega)
    rw [hstep] at hrest
    rw [List.length_cons, ← Nat.add_assoc, Nat.add_right_comm]
    exact hrest

theorem bigEndian_lt {bs : List UInt8} (hlen : bs.length ≤ 4) :
    MmdbFormat.bigEndian bs < 2 ^ 32 := by
  have hfold := toNat_foldl_shiftLeft bs (v := 0) (k := 0) (by decide) (by omega)
  exact Nat.lt_of_lt_of_le hfold.2 (Nat.pow_le_pow_right (n := 256) (by omega)
    (show 0 + bs.length ≤ 4 by omega))

theorem readBigEndianN_of_stored {raw bs : List UInt8} {pos : Nat} (h : bs <+: raw.drop pos)
    (hlen : bs.length ≤ 4) :
    (readBigEndianN raw pos bs.length).toUInt32.toNat = MmdbFormat.bigEndian bs := by
  have hfold := toNat_foldl_shiftLeft bs (v := 0) (k := 0) (by decide) (by omega)
  rw [readBigEndianN, ← List.prefix_iff_eq_take.mp h, UInt64.toNat_toUInt32, hfold.1]
  exact Nat.mod_eq_of_lt (bigEndian_lt hlen)

end Number

def metaKeys : List (List UInt8) := [nodeCountKey, recordSizeKey, ipVersionKey]

def numberOf : Node → Option Nat
  | .scalar t payload => if t.unsigned then some (MmdbFormat.bigEndian payload) else none
  | _ => none

def Short : Node → Prop
  | .scalar t _ => t = .uint16 ∨ t = .uint32
  | _ => False

/-- Keys are strings, the three numbers short, and all values but the last are as many bytes
as their size field says. -/
def PassedBySize : Entries → Prop
  | .nil => True
  | .cons (.utf8 s) value es =>
    (s ∈ metaKeys → Short value) ∧
      (es.length ≠ 0 → value.Sized ∧ value.payload.length = value.size) ∧ PassedBySize es
  | .cons _ _ _ => False

def word : Node → UInt32
  | .scalar _ payload => UInt32.ofNat (MmdbFormat.bigEndian payload)
  | _ => 0

def stored (key : List UInt8) (es : Entries) (default : UInt32) : UInt32 :=
  match es.get key with
  | some value => word value
  | none => default

section Metadata

variable {raw : List UInt8} {base : Nat}

variable {key s : List UInt8} {value : Node} {es : Entries} {pos : Nat}

theorem stored_cons (h : some s ∉ es.keys) (default : UInt32) :
    stored key (.cons (.utf8 s) value es) default =
      stored key es (if s = key then word value.deref else default) := by
  by_cases hs : s = key
  · subst hs
    simp [stored, Entries.get, Node.text, Entries.get_eq_none es h]
  · simp [stored, Entries.get, Node.text, hs]

theorem store_eq {value : Ctrl} {number w : UInt32} {m : MmdbMeta}
    (h : s ∈ metaKeys → (value.dtype = typeUint32 ∨ value.dtype = typeUint16) ∧ number = w) :
    m.store s value number =
      ⟨if s = nodeCountKey then w else m.nodeCount, if s = recordSizeKey then w else m.recordSize,
        if s = ipVersionKey then w else m.ipVersion⟩ := by
  by_cases hs : s ∈ metaKeys
  · obtain ⟨hdtype, rfl⟩ := h hs
    rw [store, if_pos hdtype]
    simp only [metaKeys, List.mem_cons, List.not_mem_nil, or_false] at hs
    rcases hs with rfl | rfl | rfl <;> rfl
  · simp only [metaKeys, List.mem_cons, List.not_mem_nil, or_false, not_or] at hs
    simp [store, hs]

theorem Short.length_le {t : Scalar} {payload : List UInt8} (h : Short (.scalar t payload))
    (hfits : t.Fits payload.length) : payload.length ≤ 4 := by
  rcases h with rfl | rfl
  · exact Nat.le_trans hfits (by decide)
  · exact hfits

theorem Short.ctrl (h : Short value)
    (hb : value.bytes <+: raw.drop pos) (hv : value.Valid raw base) :
    ((mmdbCtrl raw pos).dtype = typeUint32 ∨ (mmdbCtrl raw pos).dtype = typeUint16) ∧
      (readBigEndianN raw (pos + (mmdbCtrl raw pos).adv) (mmdbCtrl raw pos).size).toUInt32 =
        word value.deref := by
  cases value with
  | scalar t payload =>
    obtain ⟨adv, -, -, hctrl, hpay⟩ := mmdbCtrl_node hb hv trivial
    have hlen := h.length_le hv
    rw [hctrl]
    constructor
    · rcases h with rfl | rfl
      · exact .inr rfl
      · exact .inl rfl
    · have hread := readBigEndianN_of_stored hpay hlen
      simp only [Node.payload] at hread
      change _ = UInt32.ofNat (MmdbFormat.bigEndian payload)
      rw [← hread, UInt32.ofNat_toNat]
      rfl
  | _ => exact h.elim

theorem decodeEntries_succ (h : (Node.utf8 s).bytes <+: raw.drop pos) (hs : s.length < sizeLimit)
    (count : Nat) (m : MmdbMeta) :
    let next := pos + (Node.utf8 s).bytes.length
    let value := mmdbCtrl raw next
    decodeEntries raw (count + 1) pos m =
      decodeEntries raw count (next + value.adv + value.size)
        (m.store s value (readBigEndianN raw (next + value.adv) value.size).toUInt32) := by
  obtain ⟨adv, hctrl, hname, haf, hend⟩ := key_of_utf8 h hs
  have hpos := List.length_pos_iff.mpr (Node.bytes_ne_nil (.utf8 s))
  simp only [decodeEntries, if_pos (show pos < raw.length by omega), hctrl, hname]
  rw [if_neg (by simp only [ne_eq, not_true_eq_false, false_or]; omega), haf]

theorem decodeEntries_eq {pos : Nat} : (es : Entries) → (m : MmdbMeta) →
    es.bytes <+: raw.drop pos → es.Valid raw base → es.keys.Nodup → PassedBySize es →
    decodeEntries raw es.length pos m =
      .ok ⟨stored nodeCountKey es m.nodeCount, stored recordSizeKey es m.recordSize,
        stored ipVersionKey es m.ipVersion⟩
  | .nil, m, _, _, _, _ => rfl
  | .cons (.utf8 s) value es, m, h, hv, hnd, hp => by
    rw [Entries.keys, List.nodup_cons] at hnd
    obtain ⟨hkey, hval, hes⟩ := entry_stored h
    obtain ⟨hsh, hflat, hp⟩ := hp
    rw [Entries.length, decodeEntries_succ hkey hv.1.size_lt,
      store_eq fun hs => (hsh hs).ctrl hval hv.2.1,
      stored_cons hnd.1, stored_cons hnd.1, stored_cons hnd.1]
    -- behind the last value the loop ends, wherever it has got to
    by_cases hlast : es.length = 0
    · cases es with
      | nil => rfl
      | cons key value es => exact absurd hlast (Nat.succ_ne_zero _)
    · obtain ⟨hsz, hsize⟩ := hflat hlast
      obtain ⟨adv, -, hlen, hctrl, -⟩ := mmdbCtrl_node hval hv.2.1 hsz
      have hnext : pos + (Node.utf8 s).bytes.length + adv + value.size =
          pos + (Node.utf8 s).bytes.length + value.bytes.length := by omega
      rw [hctrl]
      simp only [hnext]
      exact decodeEntries_eq es _ hes hv.2.2 hnd.2 hp

theorem short_of_get (hkey : key ∈ metaKeys) {v : Node} :
    (es : Entries) → es.Valid raw base → PassedBySize es → es.get key = some v →
    Short v ∧ v.Valid raw base
  | .cons (.utf8 s) value es, hv, hp, h => by
    by_cases hs : s = key
    · subst hs
      have hsh := hp.1 hkey
      rw [Entries.get, if_pos (show (Node.utf8 s).text = some s from rfl)] at h
      cases value with
      | scalar t payload =>
        cases h
        exact ⟨hsh, hv.2.1⟩
      | _ => exact hsh.elim
    · rw [Entries.get, if_neg (by simpa [Node.text] using hs)] at h
      exact short_of_get hkey es hv.2.2 hp.2.2 h

theorem stored_toNat (hkey : key ∈ metaKeys) {number : Nat} (hv : es.Valid raw base)
    (hp : PassedBySize es) (h : (es.get key).bind numberOf = some number) (default : UInt32) :
    (stored key es default).toNat = number := by
  obtain ⟨v, hget, hnumber⟩ := Option.bind_eq_some_iff.mp h
  obtain ⟨hsh, hva⟩ := short_of_get hkey es hv hp hget
  rw [stored, hget]
  cases v with
  | scalar t payload =>
    have hlen := hsh.length_le hva
    have hunsigned : t.unsigned = true := by rcases hsh with rfl | rfl <;> rfl
    rw [numberOf, if_pos hunsigned] at hnumber
    cases hnumber
    exact UInt32.toNat_ofNat_of_lt' (bigEndian_lt hlen)
  | _ => exact hsh.elim

end Metadata

def numberEntries (rest : Entries) : Entries :=
  .cons (.utf8 nodeCountKey) (.scalar .uint32 [1])
    (.cons (.utf8 recordSizeKey) (.scalar .uint16 [24])
      (.cons (.utf8 ipVersionKey) (.scalar .uint16 [4]) rest))

def languages : Node := .array (.cons (.utf8 (ascii ['e', 'n'])) .nil)

def languagesLast : Entries := numberEntries (.cons (.utf8 (ascii ['l'])) languages .nil)

def languagesFirst : Entries := .cons (.utf8 (ascii ['l'])) languages (numberEntries .nil)

end Falx.Mmdb
