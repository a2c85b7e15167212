import Falx.Words

/-! The data section of an MMDB file: control bytes, the way past a value, and the
search of a record for its country code. Positions only grow, so nested values need
no more depth than there are bytes. -/

namespace Falx

abbrev IsoEntry := UInt8 × UInt8

namespace Mmdb

def typePointer : Int := 1
def typeUtf8 : Int := 2
def typeDouble : Int := 3
def typeBytes : Int := 4
def typeUint16 : Int := 5
def typeUint32 : Int := 6
def typeMap : Int := 7
def typeInt32 : Int := 8
def typeUint64 : Int := 9
def typeUint128 : Int := 10
def typeArray : Int := 11
def typeBool : Int := 14
def typeFloat : Int := 15

def maxMapEntries : Nat := 64

def ascii (cs : List Char) : List UInt8 := cs.map fun c => UInt8.ofNat c.toNat

def byteAt (data : List UInt8) (pos : Nat) : Nat := (data.getD pos 0).toNat

structure Ctrl where
  dtype : Int
  size : Nat
  adv : Nat
  deriving DecidableEq

def Ctrl.truncated : Ctrl := ⟨-1, 0, 0⟩

def ctrlSize (data : List UInt8) (dtype : Int) (rawSz pos adv : Nat) : Ctrl :=
  if rawSz < 29 then ⟨dtype, rawSz, adv⟩
  else if rawSz = 29 then
    if pos ≥ data.length then .truncated else ⟨dtype, byteAt data pos + 29, adv + 1⟩
  else if rawSz = 30 then
    if pos + 1 ≥ data.length then .truncated
    else ⟨dtype, (byteAt data pos <<< 8 ||| byteAt data (pos + 1)) + 285, adv + 2⟩
  else if pos + 2 ≥ data.length then .truncated
  else
    ⟨dtype, (byteAt data pos <<< 16 ||| byteAt data (pos + 1) <<< 8 ||| byteAt data (pos + 2)) +
      65821, adv + 3⟩

def mmdbCtrl (data : List UInt8) (pos : Nat) : Ctrl :=
  if pos ≥ data.length then .truncated
  else
    let b := byteAt data pos
    if b >>> 5 = 0 then
      if pos + 1 ≥ data.length then .truncated
      else ctrlSize data (byteAt data (pos + 1) + 7) (b &&& 0x1F) (pos + 2) 2
    else ctrlSize data ((b >>> 5 : Nat) : Int) (b &&& 0x1F) (pos + 1) 1

/-- `for i := 0; i < count && pos < n; i++` with a body that moves `pos`. -/
def entryLoop (body : Nat → Nat) (n : Nat) : Nat → Nat → Nat
  | 0, pos => pos
  | count + 1, pos => if pos < n then entryLoop body n count (body pos) else pos

/-- The position behind the value whose control bytes were read before `pos`. The
fuel bounds the nesting. -/
def skipMMDBValue (data : List UInt8) : Nat → Nat → Int → Nat → Nat
  | 0, pos, _, _ => pos
  | fuel + 1, pos, dtype, size =>
    if dtype = typeUtf8 ∨ dtype = typeBytes then pos + size
    else if dtype = typeUint16 ∨ dtype = typeUint32 ∨ dtype = typeUint64 ∨ dtype = typeUint128 ∨
        dtype = typeInt32 ∨ dtype = typeDouble ∨ dtype = typeFloat then pos + size
    else if dtype = typeBool then pos
    else if dtype = typeMap then
      entryLoop (fun pos =>
        let key := mmdbCtrl data pos
        let pos := pos + (key.adv + key.size)
        let value := mmdbCtrl data pos
        skipMMDBValue data fuel (pos + value.adv) value.dtype value.size) data.length size pos
    else if dtype = typeArray then
      entryLoop (fun pos =>
        let value := mmdbCtrl data pos
        skipMMDBValue data fuel (pos + value.adv) value.dtype value.size) data.length size pos
    else if dtype = typePointer then pos + size
    else pos

def skipFuel (data : List UInt8) : Nat := data.length + 1

def keyAt (data : List UInt8) (pos len : Nat) : List UInt8 := (data.drop pos).take len

/-- The entries of a map, searched for one key. `found` says what to return for the
value behind the control bytes `value`, whose payload is at `pos`, if anything. -/
def findInMap (data : List UInt8) (found : List UInt8 → Ctrl → Nat → Option IsoEntry) :
    Nat → Nat → IsoEntry
  | 0, _ => (0, 0)
  | count + 1, pos =>
    if pos < data.length then
      let key := mmdbCtrl data pos
      let pos := pos + key.adv
      if key.dtype ≠ typeUtf8 ∨ pos + key.size > data.length then (0, 0)
      else
        let name := keyAt data pos key.size
        let pos := pos + key.size
        let value := mmdbCtrl data pos
        let pos := pos + value.adv
        match found name value pos with
        | some iso => iso
        | none =>
          findInMap data found count (skipMMDBValue data (skipFuel data) pos value.dtype value.size)
    else (0, 0)

def isoCodeKey : List UInt8 := ascii ['i', 's', 'o', '_', 'c', 'o', 'd', 'e']

def countryKey : List UInt8 := ascii ['c', 'o', 'u', 'n', 't', 'r', 'y']

def decodeISOInMap (data : List UInt8) (pos entryCount : Nat) : IsoEntry :=
  findInMap data (fun name value pos =>
    if name = isoCodeKey ∧ value.dtype = typeUtf8 ∧ value.size ≥ 2 ∧ pos + 2 ≤ data.length then
      some (data.getD pos 0, data.getD (pos + 1) 0)
    else none) (min entryCount maxMapEntries) pos

def decodeISOCode (data : List UInt8) (pos : Nat) : IsoEntry :=
  let ctrl := mmdbCtrl data pos
  if ctrl.dtype ≠ typeMap ∨ ctrl.adv = 0 then (0, 0)
  else
    findInMap data (fun name value pos =>
      if name = countryKey ∧ value.dtype = typeMap then some (decodeISOInMap data pos value.size)
      else none) ctrl.size (pos + ctrl.adv)

section Fuel

variable {data : List UInt8}

theorem ctrlSize_adv (dtype : Int) (rawSz pos : Nat) {adv : Nat} (h : 0 < adv) :
    ctrlSize data dtype rawSz pos adv = .truncated ∨
      0 < (ctrlSize data dtype rawSz pos adv).adv := by
  unfold ctrlSize
  repeat' split
  all_goals first
    | exact .inl rfl
    | exact .inr (by simp only; omega)

theorem mmdbCtrl_adv (data : List UInt8) (pos : Nat) :
    mmdbCtrl data pos = .truncated ∨ 0 < (mmdbCtrl data pos).adv := by
  simp only [mmdbCtrl]
  split
  · exact .inl rfl
  · split
    · split
      · exact .inl rfl
      · exact ctrlSize_adv _ _ _ (by omega)
    · exact ctrlSize_adv _ _ _ (by omega)

theorem entryLoop_ge {body : Nat → Nat} (h : ∀ p, p ≤ body p) (n count pos : Nat) :
    pos ≤ entryLoop body n count pos := by
  induction count generalizing pos with
  | zero => exact Nat.le_refl _
  | succ count ih =>
    simp only [entryLoop]
    split
    · exact Nat.le_trans (h pos) (ih (body pos))
    · exact Nat.le_refl _

theorem skipMMDBValue_ge (fuel pos : Nat) (dtype : Int) (size : Nat) :
    pos ≤ skipMMDBValue data fuel pos dtype size := by
  induction fuel generalizing pos dtype size with
  | zero => exact Nat.le_refl _
  | succ fuel ih =>
    simp only [skipMMDBValue]
    repeat' split
    · omega
    · omega
    · exact Nat.le_refl _
    · exact entryLoop_ge (fun p => Nat.le_trans (by omega) (ih _ _ _)) _ _ _
    · exact entryLoop_ge (fun p => Nat.le_trans (by omega) (ih _ _ _)) _ _ _
    · omega
    · exact Nat.le_refl _

theorem skipMMDBValue_truncated (fuel pos : Nat) :
    skipMMDBValue data fuel pos Ctrl.truncated.dtype Ctrl.truncated.size = pos := by
  cases fuel with
  | zero | succ fuel => rfl

end Fuel

end Mmdb

end Falx
