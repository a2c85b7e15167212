import Falx.MmdbDecode

/-! The records of an MMDB file against the format: which of them the reader gets the
country code out of. -/

namespace Falx.Mmdb

open MmdbFormat Node

def lookup (key : List UInt8) (pick : Node → IsoEntry) (es : Entries) : IsoEntry :=
  match es.get key with
  | some value => pick value
  | none => (0, 0)

def codeOf : Node → IsoEntry
  | .utf8 (a :: b :: _) => (a, b)
  | _ => (0, 0)

def isoCodeOf : Node → IsoEntry
  | .map es => lookup isoCodeKey codeOf es
  | _ => (0, 0)

def countryOf : Node → IsoEntry
  | .map es => lookup countryKey isoCodeOf es
  | _ => (0, 0)

/-- A search of the first `limit` entries stops at a value of `key` that it can read, and
has only strings for keys and values it can pass before that. Where it gives up, there is
nothing to be found. -/
def Searchable (key : List UInt8) (pick : Node → IsoEntry) (stops : Node → Bool)
    (good : Node → Prop) : Nat → Entries → Prop
  | limit + 1, .cons (.utf8 s) value es =>
    if s = key ∧ stops value = true then good value
    else (s = key → pick value.deref = (0, 0)) ∧ Passed value ∧
      Searchable key pick stops good limit es
  | _, es => lookup key pick es = (0, 0)

def hasCode : Node → Bool
  | .utf8 (_ :: _ :: _) => true
  | _ => false

def isMap : Node → Bool
  | .map _ => true
  | _ => false

def CountryReadable : Node → Prop
  | .map es =>
    Searchable isoCodeKey codeOf hasCode (fun _ => True) (min es.length maxMapEntries) es
  | n => isoCodeOf n.deref = (0, 0)

def RecordReadable : Node → Prop
  | .map es => Searchable countryKey isoCodeOf isMap CountryReadable es.length es
  | n => countryOf n.deref = (0, 0)

section Search

variable {data : List UInt8} {base : Nat} {key : List UInt8} {pick : Node → IsoEntry}

theorem lookup_cons_self (value : Node) (es : Entries) :
    lookup key pick (.cons (.utf8 key) value es) = pick value.deref := by
  simp [lookup, Entries.get, text]

variable {s : List UInt8} {es : Entries} {found : List UInt8 → Ctrl → Nat → Option IsoEntry}
  {pos : Nat} {n : Node}

theorem lookup_cons_of_zero {value : Node} (hzero : s = key → pick value.deref = (0, 0))
    (h : some s ∉ es.keys) : lookup key pick (.cons (.utf8 s) value es) = lookup key pick es := by
  by_cases hs : s = key
  · subst hs
    rw [lookup_cons_self, hzero rfl, lookup, Entries.get_eq_none es h]
  · simp [lookup, Entries.get, text, hs]

theorem findInMap_succ (h : (utf8 s).bytes <+: data.drop pos) (hs : s.length < sizeLimit)
    (count : Nat) :
    let next := pos + (utf8 s).bytes.length
    findInMap data found (count + 1) pos =
      match found s (mmdbCtrl data next) (next + (mmdbCtrl data next).adv) with
      | some iso => iso
      | none => findInMap data found count (valueEnd data (skipFuel data) next) := by
  obtain ⟨adv, hctrl, hname, haf, hend⟩ := key_of_utf8 h hs
  have hpos := List.length_pos_iff.mpr (bytes_ne_nil (.utf8 s))
  simp only [findInMap, if_pos (show pos < data.length by omega), hctrl, hname]
  rw [if_neg (by simp only [ne_eq, not_true_eq_false, false_or]; omega), haf]
  rfl

theorem findInMap_pointer {p : Pointer} {target : Node}
    (h : (pointer p target).bytes <+: data.drop pos)
    (hv : (pointer p target).Valid data base) (count : Nat) :
    findInMap data found (count + 1) pos = (0, 0) := by
  have hdtype : (mmdbCtrl data pos).dtype ≠ typeUtf8 := by
    rcases mmdbCtrl_dtype h hv with hd | ⟨hd, -⟩ <;> rw [hd] <;> simp [type, typeUtf8]
  rw [findInMap]
  split
  · exact if_pos (.inl hdtype)
  · rfl

theorem findInMap_eq_lookup {stops : Node → Bool} {good : Node → Prop}
    (hstop : ∀ value pos, value.bytes <+: data.drop pos → value.Valid data base →
      stops value = true → good value →
      found key (mmdbCtrl data pos) (pos + (mmdbCtrl data pos).adv) = some (pick value.deref))
    (hpass : ∀ s value pos, value.bytes <+: data.drop pos → value.Valid data base →
      ¬ (s = key ∧ stops value = true) →
      found s (mmdbCtrl data pos) (pos + (mmdbCtrl data pos).adv) = none)
    {limit : Nat} (h : es.bytes <+: data.drop pos) (hv : es.Valid data base)
    (hsome : none ∉ es.keys) (hnd : es.keys.Nodup) (hli : limit ≤ es.length)
    (hs : Searchable key pick stops good limit es) :
    findInMap data found limit pos = lookup key pick es := by
  induction limit generalizing pos es with
  | zero =>
    rw [Searchable] at hs
    · exact hs.symm
    · exact fun _ _ _ _ hzero => absurd hzero (Nat.succ_ne_zero _).symm
  | succ limit ih =>
    cases es with
    | nil => exact absurd hli (Nat.not_succ_le_zero _)
    | cons k value es =>
      rw [Entries.keys, List.mem_cons, not_or] at hsome
      rw [Entries.keys, List.nodup_cons] at hnd
      obtain ⟨hkey, hval, hes⟩ := entry_stored h
      cases k with
      | utf8 s =>
        rw [findInMap_succ hkey hv.1.size_lt]
        simp only [Searchable] at hs
        by_cases hst : s = key ∧ stops value = true
        · rw [if_pos hst] at hs
          obtain ⟨rfl, hst⟩ := hst
          rw [hstop value _ hval hv.2.1 hst hs, lookup_cons_self]
        · rw [if_neg hst] at hs
          -- the key is not behind a value that is passed, since the keys differ
          obtain ⟨hzero, hpassed, hs⟩ := hs
          rw [hpass s value _ hval hv.2.1 hst]
          rw [valueEnd_eq value hval hv.2.1 hpassed (by rw [skipFuel]; omega),
            ih hes hv.2.2 hsome.2 hnd.2 (Nat.le_of_succ_le_succ hli) hs,
            lookup_cons_of_zero hzero hnd.1]
      | pointer p target =>
        rw [findInMap_pointer hkey hv.1]
        simpa only [Searchable] using hs.symm
      | _ => exact absurd rfl hsome.1

section

variable (h : n.bytes <+: data.drop pos) (hv : n.Valid data base)

include h hv

theorem mmdbCtrl_dtype_utf8 (hd : (mmdbCtrl data pos).dtype = typeUtf8) : ∃ s, n = .utf8 s := by
  rcases mmdbCtrl_dtype h hv with hn | ⟨hn, -⟩
  · exact type_eq_utf8 (Int.ofNat_inj.mp (hn.symm.trans hd))
  · exact absurd (hn.symm.trans hd) (by decide)

theorem mmdbCtrl_dtype_map (hd : (mmdbCtrl data pos).dtype = typeMap) : ∃ es, n = .map es := by
  rcases mmdbCtrl_dtype h hv with hn | ⟨hn, -⟩
  · exact type_eq_map (Int.ofNat_inj.mp (hn.symm.trans hd))
  · exact absurd (hn.symm.trans hd) (by decide)

end

theorem hasCode_of_two_le (h : 2 ≤ s.length) : hasCode (.utf8 s) = true := by
  cases s with
  | nil => cases h
  | cons a s =>
    cases s with
    | nil => exact absurd h (Nat.not_succ_le_self 1)
    | cons b s => rfl

theorem eq_utf8_of_hasCode (h : hasCode n = true) : ∃ a b rest, n = .utf8 (a :: b :: rest) := by
  cases n with
  | utf8 s =>
    cases s with
    | nil => cases h
    | cons a s =>
      cases s with
      | nil => cases h
      | cons b s => exact ⟨a, b, s, rfl⟩
  | _ => cases h

theorem eq_map_of_isMap (h : isMap n = true) : ∃ es, n = .map es := by
  cases n with
  | map es => exact ⟨es, rfl⟩
  | _ => cases h

theorem decodeISOInMap_eq (h : es.bytes <+: data.drop pos) (hv : (map es).Valid data base)
    (hr : CountryReadable (.map es)) : decodeISOInMap data pos es.length = isoCodeOf (.map es) := by
  refine findInMap_eq_lookup ?_ ?_ h hv.2.1 hv.2.2.1 hv.2.2.2 (Nat.min_le_left _ _) hr
  · intro value pos hval hvv hst _
    obtain ⟨a, b, rest, rfl⟩ := eq_utf8_of_hasCode hst
    obtain ⟨adv, -, -, hctrl, hpay⟩ := mmdbCtrl_node hval hvv trivial
    simp only [payload] at hpay
    have ha : data[pos + adv]? = some a := getElem?_of_stored hpay (i := 0) rfl
    have hb : data[pos + adv + 1]? = some b := getElem?_of_stored hpay (i := 1) rfl
    have hlen := length_of_stored hpay (by simp)
    simp only [List.length_cons] at hlen
    rw [hctrl]
    simp only [List.getD_eq_getElem?_getD, ha, hb, Option.getD_some]
    exact if_pos ⟨trivial, rfl, by simp [size], by omega⟩
  · intro s value pos hval hvv hst
    refine if_neg ?_
    rintro ⟨hs, hd, hsize, -⟩
    obtain ⟨t, rfl⟩ := mmdbCtrl_dtype_utf8 hval hvv hd
    obtain ⟨adv, -, -, hctrl, -⟩ := mmdbCtrl_node hval hvv trivial
    rw [hctrl] at hsize
    exact hst ⟨hs, hasCode_of_two_le hsize⟩

end Search

theorem decodeISOCode_eq {data : List UInt8} {base pos : Nat} {n : Node}
    (h : n.bytes <+: data.drop pos) (hv : n.Valid data base) (hr : RecordReadable n) :
    decodeISOCode data pos = countryOf n.deref := by
  rw [decodeISOCode]
  by_cases hd : (mmdbCtrl data pos).dtype = typeMap
  · obtain ⟨es, rfl⟩ := mmdbCtrl_dtype_map h hv hd
    obtain ⟨adv, hadv, -, hctrl, hpay⟩ := mmdbCtrl_node h hv trivial
    simp only [hctrl]
    rw [if_neg (by simp only [type, typeMap]; omega)]
    refine findInMap_eq_lookup ?_ ?_ hpay hv.2.1 hv.2.2.1 hv.2.2.2 (Nat.le_refl _) hr
    · intro value pos hval hvv hst hgood
      obtain ⟨es', rfl⟩ := eq_map_of_isMap hst
      obtain ⟨adv, -, -, hctrl, hpay⟩ := mmdbCtrl_node hval hvv trivial
      rw [hctrl]
      exact (if_pos ⟨rfl, rfl⟩).trans (congrArg some (decodeISOInMap_eq hpay hvv hgood))
    · intro s value pos hval hvv hst
      refine if_neg ?_
      rintro ⟨hs, hd⟩
      obtain ⟨es', rfl⟩ := mmdbCtrl_dtype_map hval hvv hd
      exact hst ⟨hs, rfl⟩
  · rw [if_pos (.inl hd)]
    cases n with
    | map es =>
      obtain ⟨adv, -, -, hctrl, -⟩ := mmdbCtrl_node h hv trivial
      exact absurd (congrArg Ctrl.dtype hctrl) hd
    | pointer p target => exact hr.symm
    | _ => rfl

def HasCode (n : Node) (s : List UInt8) : Prop :=
  ∃ es country, n.deref = .map es ∧ es.get countryKey = some (.map country) ∧
    country.get isoCodeKey = some (.utf8 s)

theorem countryOf_of_hasCode {n : Node} {a b : UInt8} {rest : List UInt8}
    (h : HasCode n (a :: b :: rest)) : countryOf n.deref = (a, b) := by
  obtain ⟨es, country, hn, hcty, hcode⟩ := h
  simp only [hn, countryOf, lookup, hcty, isoCodeOf, hcode, codeOf]

theorem countryOf_of_not_hasCode {n : Node} (h : ∀ s, ¬ HasCode n s) :
    countryOf n.deref = (0, 0) := by
  cases hn : n.deref with
  | map es =>
    rw [countryOf, lookup]
    cases hcty : es.get countryKey with
    | none => rfl
    | some value =>
      cases value with
      | map country =>
        change lookup isoCodeKey codeOf country = (0, 0)
        rw [lookup]
        cases hcode : country.get isoCodeKey with
        | none => rfl
        | some value =>
          cases value with
          | utf8 s => exact absurd ⟨es, country, hn, hcty, hcode⟩ (h s)
          | _ => rfl
      | _ => rfl
  | _ => rfl

def usCountry : Node :=
  .map (.cons (.utf8 isoCodeKey) (.utf8 (ascii ['U', 'S'])) .nil)

def usPointer : Node := .pointer ⟨⟨0, by decide⟩, [0], by decide, by decide⟩ usCountry

def sharedRecord : Node := .map (.cons (.utf8 countryKey) usPointer .nil)

def inlineRecord : Node :=
  .map (.cons (.utf8 (ascii ['a', 's', 'n'])) (.scalar .uint32 [0x3B, 0x41])
    (.cons (.utf8 countryKey) usCountry
      (.cons (.utf8 (ascii ['r', 'e', 'g'])) usPointer .nil)))

theorem usCountry_valid (data : List UInt8) (base : Nat) : usCountry.Valid data base := by
  simp only [usCountry, Node.Valid, Entries.Valid]
  decide

theorem usCountry_readable : CountryReadable usCountry := by
  change Searchable isoCodeKey codeOf hasCode (fun _ => True) (0 + 1) _
  trivial

theorem usPointer_valid (rest : List UInt8) : usPointer.Valid (usCountry.bytes ++ rest) 0 := by
  exact ⟨rfl, List.prefix_append _ _, usCountry_valid _ _⟩

theorem prefix_drop_length (as bs : List UInt8) : bs <+: (as ++ bs).drop as.length :=
  ⟨[], by rw [List.append_nil, List.drop_left]⟩

end Falx.Mmdb
