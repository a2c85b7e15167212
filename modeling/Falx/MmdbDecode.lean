import Falx.Mmdb
import Falx.MmdbFormat

/-! The MMDB reader against the format: control bytes are read back, a place in the data
holds one value at most, and the way past a value ends behind it if no pointer is in it. -/

namespace Falx.Mmdb

open List MmdbFormat Words Node

section Ctrl

variable {data bs : List UInt8} {pos : Nat}

section

variable (h : bs <+: data.drop pos)

include h

theorem getElem?_of_stored {i : Nat} {b : UInt8}
    (hi : bs[i]? = some b) : data[pos + i]? = some b := by
  obtain ⟨rest, hrest⟩ := h
  rw [← List.getElem?_drop, ← hrest, List.getElem?_append_left (List.getElem?_eq_some_iff.mp hi).1,
    hi]

theorem byteAt_of_stored {i v : Nat}
    (hi : bs[i]? = some (UInt8.ofNat v)) (hv : v < 256) : byteAt data (pos + i) = v := by
  rw [byteAt, getD_eq_getElem?_getD, getElem?_of_stored h hi]
  exact UInt8.toNat_ofNat_of_lt' hv

theorem length_of_stored (hne : bs ≠ []) :
    pos + bs.length ≤ data.length := by
  have hle := h.length_le
  have hpos := length_pos_iff.mpr hne
  rw [length_drop] at hle
  omega

end

theorem append_prefix_drop {cs : List UInt8} (h : bs ++ cs <+: data.drop pos) :
    bs <+: data.drop pos ∧ cs <+: data.drop (pos + bs.length) := by
  obtain ⟨rest, hrest⟩ := h
  refine ⟨⟨cs ++ rest, by rw [← hrest, append_assoc]⟩, rest, ?_⟩
  rw [← drop_drop, ← hrest, append_assoc, drop_left]

theorem entry_stored {key value : Node} {es : Entries}
    (h : (Entries.cons key value es).bytes <+: data.drop pos) :
    key.bytes <+: data.drop pos ∧ value.bytes <+: data.drop (pos + key.bytes.length) ∧
      es.bytes <+: data.drop (pos + key.bytes.length + value.bytes.length) := by
  obtain ⟨hkey, hrest⟩ := append_prefix_drop h
  exact ⟨hkey, append_prefix_drop hrest⟩

theorem sizeBytes_fst_lt (size : Nat) : (sizeBytes size).1 < 32 := by
  unfold sizeBytes
  split_ifs <;> simp only <;> omega

theorem ctrlSize_sizeBytes {size : Nat} (hsize : size < sizeLimit)
    (h : (sizeBytes size).2 <+: data.drop pos) (dtype : Int) (adv : Nat) :
    ctrlSize data dtype (sizeBytes size).1 pos adv =
      ⟨dtype, size, adv + (sizeBytes size).2.length⟩ := by
  rw [sizeLimit] at hsize
  unfold sizeBytes at h ⊢
  by_cases h29 : size < 29
  · simp [ctrlSize, h29]
  by_cases h285 : size < 285
  · simp only [if_neg h29, if_pos h285] at h ⊢
    have hlen : pos + 1 ≤ data.length := length_of_stored h (by simp)
    have h0 : byteAt data pos = size - 29 := byteAt_of_stored h (i := 0) rfl (by omega)
    rw [ctrlSize, if_neg (by omega), if_pos rfl, if_neg (by omega), h0]
    simp only [length_singleton, Ctrl.mk.injEq, true_and, and_true]
    omega
  by_cases h65821 : size < 65821
  · simp only [if_neg h29, if_neg h285, if_pos h65821] at h ⊢
    have hlen : pos + 2 ≤ data.length := length_of_stored h (by simp)
    have h0 : byteAt data pos = (size - 285) / 256 := byteAt_of_stored h (i := 0) rfl (by omega)
    have h1 : byteAt data (pos + 1) = (size - 285) % 256 :=
      byteAt_of_stored h (i := 1) rfl (by omega)
    rw [ctrlSize, if_neg (by omega), if_neg (by omega), if_pos rfl, if_neg (by omega), h0, h1,
      shiftLeft_or_eq (Nat.mod_lt _ (by omega))]
    simp only [length_cons, length_nil, Ctrl.mk.injEq, true_and, and_true]
    omega
  · simp only [if_neg h29, if_neg h285, if_neg h65821] at h ⊢
    have hlen : pos + 3 ≤ data.length := length_of_stored h (by simp)
    have h0 : byteAt data pos = (size - 65821) / 65536 := byteAt_of_stored h (i := 0) rfl (by omega)
    have h1 : byteAt data (pos + 1) = (size - 65821) / 256 % 256 :=
      byteAt_of_stored h (i := 1) rfl (by omega)
    have h2 : byteAt data (pos + 2) = (size - 65821) % 256 :=
      byteAt_of_stored h (i := 2) rfl (by omega)
    rw [ctrlSize, if_neg (by omega), if_neg (by omega), if_neg (by omega), if_neg (by omega), h0, h1,
      h2, shiftLeft_or_or_eq (Nat.mod_lt _ (by omega)) (Nat.mod_lt _ (by omega))]
    simp only [length_cons, length_nil, Ctrl.mk.injEq, true_and, and_true]
    omega

theorem ctrlByte_parts {b type raw : Nat} (hb : b = type * 32 + raw) (hraw : raw < 32) :
    b >>> 5 = type ∧ b &&& 0x1F = raw := by
  rw [Nat.shiftRight_eq_div_pow, show 0x1F = 2 ^ 5 - 1 from rfl, Nat.and_two_pow_sub_one_eq_mod]
  omega

theorem mmdbCtrl_ctrlBytes {type size : Nat} (htype : 0 < type) (hmax : type < 16)
    (hsize : size < sizeLimit) (h : ctrlBytes type size <+: data.drop pos) :
    mmdbCtrl data pos = ⟨type, size, (ctrlBytes type size).length⟩ := by
  have hraw := sizeBytes_fst_lt size
  by_cases h8 : type < 8
  · rw [ctrlBytes, if_pos h8] at h ⊢
    have hlen := length_of_stored h (by simp)
    have h0 : byteAt data pos = type * 32 + (sizeBytes size).1 :=
      byteAt_of_stored h (i := 0) rfl (by omega)
    have htail : (sizeBytes size).2 <+: data.drop (pos + 1) :=
      (append_prefix_drop (show [_] ++ _ <+: _ from h)).2
    obtain ⟨hshift, hmask⟩ := ctrlByte_parts h0 hraw
    simp only [length_cons] at hlen
    rw [mmdbCtrl, if_neg (by omega)]
    simp only [hshift, hmask, if_neg (show ¬ type = 0 by omega)]
    rw [ctrlSize_sizeBytes hsize htail]
    simp only [length_cons, Nat.add_comm]
  · rw [ctrlBytes, if_neg h8] at h ⊢
    have hlen := length_of_stored h (by simp)
    have h0 : byteAt data pos = (sizeBytes size).1 := byteAt_of_stored h (i := 0) rfl (by omega)
    have h1 : byteAt data (pos + 1) = type - 7 := byteAt_of_stored h (i := 1) rfl (by omega)
    have htail : (sizeBytes size).2 <+: data.drop (pos + 2) :=
      (append_prefix_drop (show [_, _] ++ _ <+: _ from h)).2
    obtain ⟨hshift, hmask⟩ := ctrlByte_parts (h0.trans (by omega : _ = 0 * 32 + _)) hraw
    simp only [length_cons] at hlen
    rw [mmdbCtrl, if_neg (by omega)]
    simp only [h1, hshift, hmask, if_true, if_neg (show ¬ pos + 1 ≥ data.length by omega)]
    rw [ctrlSize_sizeBytes hsize htail]
    simp only [length_cons, Ctrl.mk.injEq, true_and]
    omega

variable {base : Nat} {n : Node}

theorem mmdbCtrl_node (h : n.bytes <+: data.drop pos) (hv : n.Valid data base) (hs : n.Sized) :
    ∃ adv, 0 < adv ∧ adv + n.payload.length = n.bytes.length ∧
      mmdbCtrl data pos = ⟨n.type, n.size, adv⟩ ∧ n.payload <+: data.drop (pos + adv) := by
  rw [bytes_eq hs] at h ⊢
  obtain ⟨hctrl, hpay⟩ := append_prefix_drop h
  refine ⟨_, length_pos_iff.mpr (ctrlBytes_ne_nil _ _), length_append.symm, ?_, hpay⟩
  exact mmdbCtrl_ctrlBytes n.type_pos n.type_lt hv.size_lt hctrl

theorem ctrlSize_dtype (dtype : Int) (rawSz pos adv : Nat) :
    (ctrlSize data dtype rawSz pos adv).dtype = dtype ∨
      (ctrlSize data dtype rawSz pos adv).dtype = -1 := by
  unfold ctrlSize
  repeat' split
  all_goals first
    | exact .inl rfl
    | exact .inr rfl

section

variable (h : n.bytes <+: data.drop pos)

include h

theorem mmdbCtrl_dtype (hv : n.Valid data base) :
    (mmdbCtrl data pos).dtype = n.type ∨ (mmdbCtrl data pos).dtype = -1 ∧ n.type = 1 := by
  cases n with
  | pointer p target =>
    have hlen := length_of_stored h (bytes_ne_nil _)
    have hpos := length_pos_iff.mpr (bytes_ne_nil (.pointer p target))
    have hle := p.le
    have h0 : byteAt data pos = 1 * 32 + ((p.tail.length - 1) * 8 + p.low.val) :=
      (byteAt_of_stored h (i := 0) rfl (by omega)).trans (by omega)
    have hshift := (ctrlByte_parts h0 (by omega)).1
    simp only [mmdbCtrl, if_neg (show ¬ pos ≥ data.length by omega), hshift]
    exact (ctrlSize_dtype _ _ _ _).imp_right fun hd => ⟨hd, rfl⟩
  | _ =>
    obtain ⟨adv, -, -, hctrl, -⟩ := mmdbCtrl_node h hv (by trivial)
    exact .inl (congrArg Ctrl.dtype hctrl)

theorem type_unique {n' : Node} (h' : n'.bytes <+: data.drop pos)
    (hv : n.Valid data base) (hv' : n'.Valid data base) : n.type = n'.type := by
  rcases mmdbCtrl_dtype h hv with hd | ⟨hd, hone⟩ <;>
    rcases mmdbCtrl_dtype h' hv' with hd' | ⟨hd', hone'⟩ <;> omega

theorem payload_unique {n' : Node}
    (h' : n'.bytes <+: data.drop pos) (hv : n.Valid data base) (hv' : n'.Valid data base)
    (hs : n.Sized) (hs' : n'.Sized) :
    n.size = n'.size ∧
      ∃ adv, n.payload <+: data.drop (pos + adv) ∧ n'.payload <+: data.drop (pos + adv) := by
  obtain ⟨adv, -, -, hctrl, hpay⟩ := mmdbCtrl_node h hv hs
  obtain ⟨adv', -, -, hctrl', hpay'⟩ := mmdbCtrl_node h' hv' hs'
  obtain ⟨-, hsize, hadv⟩ := Ctrl.mk.inj (hctrl.symm.trans hctrl')
  subst hadv
  exact ⟨hsize, adv, hpay, hpay'⟩

end

theorem key_of_utf8 {s : List UInt8} (h : (utf8 s).bytes <+: data.drop pos)
    (hs : s.length < sizeLimit) :
    ∃ adv, mmdbCtrl data pos = ⟨typeUtf8, s.length, adv⟩ ∧ keyAt data (pos + adv) s.length = s ∧
      pos + adv + s.length = pos + (utf8 s).bytes.length ∧
      pos + adv + s.length ≤ data.length := by
  have hv : (utf8 s).Valid data 0 := by rwa [Node.Valid]
  obtain ⟨adv, -, hlen, hctrl, hpay⟩ := mmdbCtrl_node h hv trivial
  have hend := length_of_stored h (bytes_ne_nil _)
  simp only [payload] at hlen hpay
  exact ⟨adv, hctrl, (prefix_iff_eq_take.mp hpay).symm, by omega, by omega⟩

end Ctrl

section Unique

variable {data : List UInt8} {base : Nat}

mutual

theorem node_unique {pos : Nat} : (n n' : Node) → n.bytes <+: data.drop pos →
    n'.bytes <+: data.drop pos → n.Valid data base → n'.Valid data base → n = n'
  | .utf8 s, n', h, h', hv, hv' => by
    obtain ⟨s', rfl⟩ := type_eq_utf8 (type_unique h h' hv hv').symm
    obtain ⟨hsize, adv, hp, hp'⟩ := payload_unique h h' hv hv' trivial trivial
    exact congrArg utf8 (eq_of_prefixes_of_length hp hp' hsize)
  | .scalar t payload, n', h, h', hv, hv' => by
    obtain ⟨payload', rfl⟩ := type_eq_scalar (type_unique h h' hv hv').symm
    obtain ⟨hsize, adv, hp, hp'⟩ := payload_unique h h' hv hv' trivial trivial
    exact congrArg (scalar t) (eq_of_prefixes_of_length hp hp' hsize)
  | .bool b, n', h, h', hv, hv' => by
    obtain ⟨b', rfl⟩ := type_eq_bool (type_unique h h' hv hv').symm
    obtain ⟨hsize, -⟩ := payload_unique h h' hv hv' trivial trivial
    cases b <;> cases b' <;> first | rfl | cases hsize
  | .array items, n', h, h', hv, hv' => by
    obtain ⟨items', rfl⟩ := type_eq_array (type_unique h h' hv hv').symm
    obtain ⟨hsize, adv, hp, hp'⟩ := payload_unique h h' hv hv' trivial trivial
    rw [Node.Valid] at hv hv'
    rw [items_unique items items' hp hp' hsize hv.2 hv'.2]
  | .map es, n', h, h', hv, hv' => by
    obtain ⟨es', rfl⟩ := type_eq_map (type_unique h h' hv hv').symm
    obtain ⟨hsize, adv, hp, hp'⟩ := payload_unique h h' hv hv' trivial trivial
    rw [Node.Valid] at hv hv'
    rw [entries_unique es es' hp hp' hsize hv.2.1 hv'.2.1]
  | .pointer p target, n', h, h', hv, hv' => by
    obtain ⟨p', target', rfl⟩ := type_eq_pointer (type_unique h h' hv hv').symm
    -- equal pointers lead to one place, and the induction goes on there
    obtain rfl : p = p' := Pointer.eq_of_stored h h'
    rw [Node.Valid] at hv hv'
    rw [node_unique target target' hv.2.1 hv'.2.1 hv.2.2 hv'.2.2]

theorem items_unique {pos : Nat} : (ns ns' : Nodes) → ns.bytes <+: data.drop pos →
    ns'.bytes <+: data.drop pos → ns.length = ns'.length → ns.Valid data base →
    ns'.Valid data base → ns = ns'
  | .nil, .nil, _, _, _, _, _ => rfl
  | .cons n ns, .cons n' ns', h, h', hlen, hv, hv' => by
    rw [Nodes.bytes] at h h'
    rw [Nodes.Valid] at hv hv'
    obtain ⟨hn, hns⟩ := append_prefix_drop h
    obtain ⟨hn', hns'⟩ := append_prefix_drop h'
    obtain rfl := node_unique n n' hn hn' hv.1 hv'.1
    rw [items_unique ns ns' hns hns' (Nat.succ.inj hlen) hv.2 hv'.2]

theorem entries_unique {pos : Nat} : (es es' : Entries) → es.bytes <+: data.drop pos →
    es'.bytes <+: data.drop pos → es.length = es'.length → es.Valid data base →
    es'.Valid data base → es = es'
  | .nil, .nil, _, _, _, _, _ => rfl
  | .cons key value es, .cons key' value' es', h, h', hlen, hv, hv' => by
    rw [Entries.Valid] at hv hv'
    obtain ⟨hkey, hval, hes⟩ := entry_stored h
    obtain ⟨hkey', hval', hes'⟩ := entry_stored h'
    obtain rfl := node_unique key key' hkey hkey' hv.1 hv'.1
    obtain rfl := node_unique value value' hval hval' hv.2.1 hv'.2.1
    rw [entries_unique es es' hes hes' (Nat.succ.inj hlen) hv.2.2 hv'.2.2]

end

end Unique

mutual

/-- No pointer in the value but those whose control byte is 0x21. -/
def Passed : Node → Prop
  | .array items => PassedItems items
  | .map entries => PassedEntries entries
  | n => n.Sized

def PassedItems : Nodes → Prop
  | .nil => True
  | .cons n ns => Passed n ∧ PassedItems ns

def PassedEntries : Entries → Prop
  | .nil => True
  | .cons key value es => Passed key ∧ Passed value ∧ PassedEntries es

end

theorem Passed.sized {n : Node} (h : Passed n) : n.Sized := by
  cases n with
  | pointer p target => simpa only [Passed] using h
  | _ => trivial

def valueEnd (data : List UInt8) (fuel pos : Nat) : Nat :=
  let value := mmdbCtrl data pos
  skipMMDBValue data fuel (pos + value.adv) value.dtype value.size

def entryEnd (data : List UInt8) (fuel pos : Nat) : Nat :=
  let key := mmdbCtrl data pos
  valueEnd data fuel (pos + (key.adv + key.size))

section Skip

variable {data : List UInt8} {base : Nat}

theorem payload_length {n : Node} (h : n.text ≠ none) : n.payload.length = n.size := by
  cases n with
  | utf8 s | pointer p target => rfl
  | _ => exact absurd rfl h

mutual

theorem valueEnd_eq {fuel pos : Nat} : (n : Node) → n.bytes <+: data.drop pos →
    n.Valid data base → Passed n → data.length ≤ fuel + pos →
    valueEnd data fuel pos = pos + n.bytes.length := by
  intro n h hv hp hfuel
  obtain ⟨adv, hadv, hlen, hctrl, hpay⟩ := mmdbCtrl_node h hv hp.sized
  have hend := length_of_stored h n.bytes_ne_nil
  -- a value inside starts behind the control bytes, so the bytes left bound the nesting
  obtain ⟨fuel, rfl⟩ : ∃ fuel', fuel = fuel' + 1 := ⟨fuel - 1, by omega⟩
  rw [valueEnd]
  simp only [hctrl]
  cases n with
  | utf8 s =>
    rw [← hlen, ← Nat.add_assoc]
    rfl
  | scalar t payload =>
    rw [← hlen, ← Nat.add_assoc]
    cases t <;> rfl
  | bool b =>
    rw [← hlen]
    rfl
  | array items =>
    rw [Node.Valid] at hv
    rw [Passed] at hp
    rw [← hlen, ← Nat.add_assoc]
    exact itemsEnd_eq items hpay hv.2 hp (by omega)
  | map entries =>
    rw [Node.Valid] at hv
    rw [Passed] at hp
    rw [← hlen, ← Nat.add_assoc]
    exact entriesEnd_eq entries hpay hv.2.1 hv.2.2.1 hp (by omega)
  | pointer p target =>
    rw [← hlen, ← Nat.add_assoc]
    rfl

theorem itemsEnd_eq {fuel pos : Nat} : (ns : Nodes) → ns.bytes <+: data.drop pos →
    ns.Valid data base → PassedItems ns → data.length ≤ fuel + pos →
    entryLoop (valueEnd data fuel) data.length ns.length pos = pos + ns.bytes.length
  | .nil, _, _, _, _ => rfl
  | .cons n ns, h, hv, hp, hfuel => by
    rw [Nodes.bytes] at h ⊢
    rw [Nodes.Valid] at hv
    rw [PassedItems] at hp
    obtain ⟨hn, hns⟩ := append_prefix_drop h
    have hend := length_of_stored hn n.bytes_ne_nil
    have hpos := length_pos_iff.mpr n.bytes_ne_nil
    rw [Nodes.length, entryLoop, if_pos (by omega), valueEnd_eq n hn hv.1 hp.1 hfuel,
      itemsEnd_eq ns hns hv.2 hp.2 (by omega), length_append, Nat.add_assoc]

theorem entriesEnd_eq {fuel pos : Nat} : (es : Entries) → es.bytes <+: data.drop pos →
    es.Valid data base → none ∉ es.keys → PassedEntries es → data.length ≤ fuel + pos →
    entryLoop (entryEnd data fuel) data.length es.length pos = pos + es.bytes.length
  | .nil, _, _, _, _, _ => rfl
  | .cons key value es, h, hv, hk, hp, hfuel => by
    rw [Entries.Valid] at hv
    rw [PassedEntries] at hp
    rw [Entries.keys, mem_cons, not_or] at hk
    obtain ⟨hkey, hval, hes⟩ := entry_stored h
    have hpos := length_pos_iff.mpr key.bytes_ne_nil
    have hend := length_of_stored hkey key.bytes_ne_nil
    have hen : entryEnd data fuel pos = pos + key.bytes.length + value.bytes.length := by
      obtain ⟨adv, -, hlen, hctrl, -⟩ := mmdbCtrl_node hkey hv.1 hp.1.sized
      rw [payload_length (Ne.symm hk.1)] at hlen
      simp only [entryEnd, hctrl, hlen]
      exact valueEnd_eq value hval hv.2.1 hp.2.1 (by omega)
    rw [Entries.length, entryLoop, if_pos (by omega), hen,
      entriesEnd_eq es hes hv.2.2 hk.2 hp.2.2 (by omega), Entries.bytes, length_append,
      length_append]
    omega

end

end Skip

end Falx.Mmdb
