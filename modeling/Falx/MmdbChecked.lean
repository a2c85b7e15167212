import Falx.GeoIPTable

/-! The decoder on hostile files. Every index into the file is checked, as a panic would
show it, a recursion that runs out of depth does not return, and the calls that read
control bytes are recorded. -/

namespace Falx.Mmdb

open List

structure CtrlCall where
  pos : Nat
  /-- made by `skipMMDBValue` -/
  passing : Bool
  deriving DecidableEq

namespace Checked

/-- The result and the calls of `mmdbCtrl` made for it; `none` is a panic or a run that
does not end. -/
def Run (α : Type) : Type := Option (α × List CtrlCall)

instance : Monad Run where
  pure a := some (a, [])
  bind c k :=
    match c with
    | none => none
    | some (a, calls) =>
      match k a with
      | none => none
      | some (b, more) => some (b, calls ++ more)

def index (data : List UInt8) (pos : Nat) : Run UInt8 :=
  match data[pos]? with
  | none => none
  | some b => pure b

def slice (data : List UInt8) (pos len : Nat) : Run (List UInt8) :=
  if pos + len ≤ data.length then pure (keyAt data pos len) else none

def ctrlSize (data : List UInt8) (dtype : Int) (rawSz pos adv : Nat) : Run Ctrl :=
  if rawSz < 29 then pure ⟨dtype, rawSz, adv⟩
  else if rawSz = 29 then
    if pos ≥ data.length then pure .truncated
    else do
      let b ← index data pos
      pure ⟨dtype, b.toNat + 29, adv + 1⟩
  else if rawSz = 30 then
    if pos + 1 ≥ data.length then pure .truncated
    else do
      let b ← index data pos
      let c ← index data (pos + 1)
      pure ⟨dtype, (b.toNat <<< 8 ||| c.toNat) + 285, adv + 2⟩
  else if pos + 2 ≥ data.length then pure .truncated
  else do
    let b ← index data pos
    let c ← index data (pos + 1)
    let d ← index data (pos + 2)
    pure ⟨dtype, (b.toNat <<< 16 ||| c.toNat <<< 8 ||| d.toNat) + 65821, adv + 3⟩

def mmdbCtrl (data : List UInt8) (passing : Bool) (pos : Nat) : Run Ctrl := do
  (some ((), [⟨pos, passing⟩]) : Run Unit)
  if pos ≥ data.length then pure .truncated
  else
    let b ← index data pos
    if b.toNat >>> 5 = 0 then
      if pos + 1 ≥ data.length then pure .truncated
      else
        let t ← index data (pos + 1)
        ctrlSize data (t.toNat + 7) (b.toNat &&& 0x1F) (pos + 2) 2
    else ctrlSize data ((b.toNat >>> 5 : Nat) : Int) (b.toNat &&& 0x1F) (pos + 1) 1

def entryLoop (body : Nat → Run Nat) (n : Nat) : Nat → Nat → Run Nat
  | 0, pos => pure pos
  | count + 1, pos => if pos < n then do entryLoop body n count (← body pos) else pure pos

def skipMMDBValue (data : List UInt8) : Nat → Nat → Int → Nat → Run Nat
  | 0, _, _, _ => none
  | fuel + 1, pos, dtype, size =>
    if dtype = typeUtf8 ∨ dtype = typeBytes then pure (pos + size)
    else if dtype = typeUint16 ∨ dtype = typeUint32 ∨ dtype = typeUint64 ∨ dtype = typeUint128 ∨
        dtype = typeInt32 ∨ dtype = typeDouble ∨ dtype = typeFloat then pure (pos + size)
    else if dtype = typeBool then pure pos
    else if dtype = typeMap then
      entryLoop (fun pos => do
        let key ← mmdbCtrl data true pos
        let pos := pos + (key.adv + key.size)
        let value ← mmdbCtrl data true pos
        skipMMDBValue data fuel (pos + value.adv) value.dtype value.size) data.length size pos
    else if dtype = typeArray then
      entryLoop (fun pos => do
        let value ← mmdbCtrl data true pos
        skipMMDBValue data fuel (pos + value.adv) value.dtype value.size) data.length size pos
    else if dtype = typePointer then pure (pos + size)
    else pure pos

def findInMap (data : List UInt8) (found : List UInt8 → Ctrl → Nat → Run (Option IsoEntry)) :
    Nat → Nat → Run IsoEntry
  | 0, _ => pure (0, 0)
  | count + 1, pos =>
    if pos < data.length then do
      let key ← mmdbCtrl data false pos
      let pos := pos + key.adv
      if key.dtype ≠ typeUtf8 ∨ pos + key.size > data.length then pure (0, 0)
      else
        let name ← slice data pos key.size
        let pos := pos + key.size
        let value ← mmdbCtrl data false pos
        let pos := pos + value.adv
        match ← found name value pos with
        | some iso => pure iso
        | none =>
          findInMap data found count
            (← skipMMDBValue data (skipFuel data) pos value.dtype value.size)
    else pure (0, 0)

def decodeISOInMap (data : List UInt8) (pos entryCount : Nat) : Run IsoEntry :=
  findInMap data (fun name value pos =>
    if name = isoCodeKey ∧ value.dtype = typeUtf8 ∧ value.size ≥ 2 ∧ pos + 2 ≤ data.length then do
      let a ← index data pos
      let b ← index data (pos + 1)
      pure (some (a, b))
    else pure none) (min entryCount maxMapEntries) pos

def decodeISOCode (data : List UInt8) (pos : Nat) : Run IsoEntry := do
  let ctrl ← mmdbCtrl data false pos
  if ctrl.dtype ≠ typeMap ∨ ctrl.adv = 0 then pure (0, 0)
  else
    findInMap data (fun name value pos =>
      if name = countryKey ∧ value.dtype = typeMap then do
        let iso ← decodeISOInMap data pos value.size
        pure (some iso)
      else pure none) ctrl.size (pos + ctrl.adv)

def readBigEndianN (data : List UInt8) : Nat → Nat → UInt64 → Run UInt64
  | _, 0, v => pure v
  | pos, n + 1, v =>
    if pos < data.length then do
      let b ← index data pos
      readBigEndianN data (pos + 1) n (v <<< 8 ||| b.toUInt64)
    else pure v

/-- The number is read for every entry here, and not only for the three names. -/
def decodeEntries (raw : List UInt8) : Nat → Nat → MmdbMeta → Run (Except GeoIPError MmdbMeta)
  | 0, _, m => pure (.ok m)
  | count + 1, pos, m =>
    if pos < raw.length then do
      let key ← mmdbCtrl raw false pos
      let pos := pos + key.adv
      if key.dtype ≠ typeUtf8 ∨ pos + key.size > raw.length then
        pure (.error (.badKey key.dtype))
      else
        let name ← slice raw pos key.size
        let pos := pos + key.size
        let value ← mmdbCtrl raw false pos
        let valPos := pos + value.adv
        let number ← readBigEndianN raw valPos value.size 0
        decodeEntries raw count (valPos + value.size) (m.store name value number.toUInt32)
    else pure (.ok m)

def decodeMetaRecord (raw : List UInt8) (pos : Nat) : Run (Except GeoIPError MmdbMeta) := do
  let ctrl ← mmdbCtrl raw false pos
  if ctrl.dtype ≠ typeMap then pure (.error (.notAMap ctrl.dtype))
  else
    match ← decodeEntries raw ctrl.size (pos + ctrl.adv) ⟨0, 0, 0⟩ with
    | .error err => pure (.error err)
    | .ok m =>
      if m.nodeCount = 0 then pure (.error .noNodeCount)
      else if m.recordSize = 0 then pure (.error .noRecordSize)
      else pure (.ok m)

def parseMeta (raw : List UInt8) : Run (Except GeoIPError MmdbMeta) :=
  match lastIndex raw mmdbMetaSep with
  | none => pure (.error .separatorNotFound)
  | some idx =>
    if idx + mmdbMetaSep.length ≥ raw.length then pure (.error .noMetadata)
    else decodeMetaRecord raw (idx + mmdbMetaSep.length)

def readRecord (r : GeoIPReader) (node direction : UInt32) : Run UInt32 :=
  let base := node.toUInt64 * r.bytesPerNode.toUInt64
  if base + r.bytesPerNode.toUInt64 > r.dataBase.toUInt64 then pure r.nodeCount
  else
    let p (i : Nat) : Run UInt32 := do
      let _ ← index r.raw base.toNat
      let b ← index r.raw (base.toNat + i)
      pure b.toUInt32
    if r.recordSize = 24 then
      if direction = 0 then do pure ((← p 0) <<< 16 ||| (← p 1) <<< 8 ||| (← p 2))
      else do pure ((← p 3) <<< 16 ||| (← p 4) <<< 8 ||| (← p 5))
    else if r.recordSize = 28 then
      if direction = 0 then do
        pure (((← p 3) &&& 0xF0) <<< 20 ||| (← p 0) <<< 16 ||| (← p 1) <<< 8 ||| (← p 2))
      else do
        pure (((← p 3) &&& 0x0F) <<< 24 ||| (← p 4) <<< 16 ||| (← p 5) <<< 8 ||| (← p 6))
    else if r.recordSize = 32 then
      if direction = 0 then do
        pure ((← p 0) <<< 24 ||| (← p 1) <<< 16 ||| (← p 2) <<< 8 ||| (← p 3))
      else do pure ((← p 4) <<< 24 ||| (← p 5) <<< 16 ||| (← p 6) <<< 8 ||| (← p 7))
    else pure r.nodeCount

def collectLeaves (r : GeoIPReader) (node : UInt32) (acc : Run (List UInt32)) :
    Run (List UInt32) := do
  let leafSet ← acc
  let left ← readRecord r node 0
  let right ← readRecord r node 1
  pure (r.addLeaf right (r.addLeaf left leafSet))

/-- A read that fails at a visited node fails the whole search. -/
def searchTree (r : GeoIPReader) : Run (List UInt32) :=
  match DepthFirst.search r.children (collectLeaves r) (2 * r.nodeCount.toNat + 1) [0] []
    (pure []) with
  | none => none
  | some (_, leafSet) => leafSet

def fillEntry (r : GeoIPReader) (table : List IsoEntry) (leaf : UInt32) : Run (List IsoEntry) :=
  let dataPos := r.dataBase.toUInt64 + r.leafIndex leaf
  if dataPos.toNat ≥ r.raw.length then pure table
  else
    let idx := (r.leafIndex leaf).toUInt32
    if idx ≥ UInt32.ofNat table.length then pure table
    else do
      let iso ← decodeISOCode r.raw dataPos.toNat
      pure (table.set idx.toNat iso)

def buildISOTable (r : GeoIPReader) : Run (Except GeoIPError GeoIPReader) := do
  let leafSet ← searchTree r
  if leafSet = [] then pure (.ok { r with isoTable := [] })
  else
    let maxIdx := r.maxIndex leafSet
    if maxIdx > 0xFFFFFFFF then pure (.error (.tableOverflow maxIdx))
    else
      let table ← leafSet.foldlM (fillEntry r) (List.replicate (maxIdx.toUInt32 + 1).toNat (0, 0))
      pure (.ok { r with isoTable := table })

def openGeoIP (raw : List UInt8) : Run (Except GeoIPError GeoIPReader) :=
  if raw.length < mmdbMetaSep.length + 1 then pure (.error (.fileTooSmall raw.length))
  else do
    match ← parseMeta raw with
    | .error err => pure (.error err)
    | .ok m =>
      if m.ipVersion ≠ 4 ∧ m.ipVersion ≠ 6 then pure (.error (.ipVersion m.ipVersion))
      else if m.recordSize ≠ 24 ∧ m.recordSize ≠ 28 ∧ m.recordSize ≠ 32 then
        pure (.error (.recordSize m.recordSize))
      else if m.nodeCount > maxMMDBNodes then pure (.error (.tooManyNodes m.nodeCount))
      else
        let bytesPerNode := (m.recordSize * 2 + 7) / 8
        let dataBase := m.nodeCount.toUInt64 * bytesPerNode.toUInt64 + 16
        if dataBase.toNat > raw.length then pure (.error (.dataBaseBeyondFile dataBase))
        else if dataBase > 0xFFFFFFFF then pure (.error (.dataBaseOverflow dataBase))
        else
          buildISOTable ⟨raw, m.nodeCount, m.recordSize, bytesPerNode, dataBase.toUInt32, []⟩

section Spec

variable {α β : Type} {data : List UInt8} {pos : Nat}

variable {c : Run α} {k : α → Run β} {a : α} {b : β} {calls more : List CtrlCall} {stop : Nat}

theorem run_bind (hc : c = some (a, calls)) (hk : k a = some (b, more)) :
    c >>= k = some (b, calls ++ more) := by
  subst hc
  show (match k a with | none => none | some (b, more) => some (b, calls ++ more)) = _
  rw [hk]

theorem run_pure_bind (a : α) (k : α → Run β) : (pure a : Run α) >>= k = k a := by
  show (match k a with | none => none | some (b, more) => some (b, [] ++ more)) = _
  rcases k a with _ | ⟨b, more⟩
  · rfl
  · rfl

theorem index_eq (h : pos < data.length) : index data pos = pure (data.getD pos 0) := by
  rw [index, List.getElem?_eq_getElem h, getD_eq_getElem?_getD, List.getElem?_eq_getElem h]
  rfl

theorem ctrlSize_eq (data : List UInt8) (dtype : Int) (rawSz pos adv : Nat) :
    ctrlSize data dtype rawSz pos adv = pure (Mmdb.ctrlSize data dtype rawSz pos adv) := by
  rw [ctrlSize, Mmdb.ctrlSize]
  split
  · rfl
  split
  · split
    · rfl
    · rw [index_eq (by omega)]
      rfl
  split
  · split
    · rfl
    · rw [index_eq (by omega), run_pure_bind, index_eq (by omega)]
      rfl
  · split
    · rfl
    · rw [index_eq (by omega), run_pure_bind, index_eq (by omega), run_pure_bind,
        index_eq (by omega)]
      rfl

theorem mmdbCtrl_eq (data : List UInt8) (passing : Bool) (pos : Nat) :
    mmdbCtrl data passing pos = some (Mmdb.mmdbCtrl data pos, [⟨pos, passing⟩]) := by
  refine run_bind rfl (?_ : _ = pure (Mmdb.mmdbCtrl data pos))
  rw [Mmdb.mmdbCtrl]
  split
  · rfl
  · rw [index_eq (by omega), run_pure_bind]
    by_cases hext : byteAt data pos >>> 5 = 0
    · refine (if_pos hext).trans (Eq.trans ?_ (congrArg pure (if_pos hext).symm))
      split
      · rfl
      · rw [index_eq (by omega), run_pure_bind]
        exact ctrlSize_eq _ _ _ _ _
    · refine (if_neg hext).trans (Eq.trans ?_ (congrArg pure (if_neg hext).symm))
      exact ctrlSize_eq _ _ _ _ _

/-- The control bytes read inside the file while passing over values end inside it. -/
def Uncut (data : List UInt8) (calls : List CtrlCall) : Prop :=
  ∀ c ∈ calls, c.passing = true → c.pos < data.length → Mmdb.mmdbCtrl data c.pos ≠ .truncated

/-- The calls made on the way from `pos` to `stop` are paid for with two for each byte. -/
def Paid (data : List UInt8) (pos stop : Nat) (calls : List CtrlCall) : Prop :=
  Uncut data calls → calls.length + 2 * (data.length - stop) ≤ 2 * (data.length - pos)

theorem Paid.append {mid : Nat} (h : Paid data pos mid calls) (h' : Paid data mid stop more) :
    Paid data pos stop (calls ++ more) := by
  intro hun
  have h1 := h fun c hc => hun c (mem_append_left _ hc)
  have h2 := h' fun c hc => hun c (mem_append_right _ hc)
  rw [length_append]
  omega

theorem paid_entry (hpos : pos < data.length) (hstop : pos + (Mmdb.mmdbCtrl data pos).adv ≤ stop)
    (hmore : more.length ≤ 1) : Paid data pos stop (⟨pos, true⟩ :: more) := by
  intro hun
  rcases mmdbCtrl_adv data pos with ht | hadv
  · exact absurd ht (hun _ (.head _) rfl hpos)
  · rw [length_cons]
    omega

def Spends (data : List UInt8) (pos stop : Nat) (c : Run α) (a : α) : Prop :=
  ∃ calls, c = some (a, calls) ∧ Paid data pos stop calls

abbrev Passes (data : List UInt8) (pos : Nat) (c : Run Nat) (stop : Nat) : Prop :=
  Spends data pos stop c stop

theorem spends_pure (h : pos ≤ stop) (a : α) : Spends data pos stop (pure a) a := by
  refine ⟨[], rfl, fun _ => ?_⟩
  rw [length_nil]
  omega

theorem Spends.bind {mid : Nat} (hc : Spends data pos mid c a)
    (hk : Spends data mid stop (k a) b) : Spends data pos stop (c >>= k) b := by
  obtain ⟨calls, hc, hpaid⟩ := hc
  obtain ⟨more, hk, hpaid'⟩ := hk
  exact ⟨_, run_bind hc hk, hpaid.append hpaid'⟩

theorem entryLoop_spec {body : Nat → Run Nat} {body' : Nat → Nat} (hge : ∀ p, p ≤ body' p)
    (h : ∀ p, pos ≤ p → p < data.length → Passes data p (body p) (body' p)) (count : Nat) :
    Passes data pos (entryLoop body data.length count pos)
      (Mmdb.entryLoop body' data.length count pos) := by
  induction count generalizing pos with
  | zero => exact spends_pure (Nat.le_refl _) pos
  | succ count ih =>
    simp only [entryLoop, Mmdb.entryLoop]
    split
    · next hlt =>
      exact (h pos (Nat.le_refl _) hlt).bind (ih fun p hp => h p (Nat.le_trans (hge pos) hp))
    · exact spends_pure (Nat.le_refl _) pos

/-- Nesting is no deeper than there are bytes left. -/
theorem skipMMDBValue_spec {fuel : Nat} (h : data.length - pos < fuel) (dtype : Int) (size : Nat) :
    Passes data pos (skipMMDBValue data fuel pos dtype size)
      (Mmdb.skipMMDBValue data fuel pos dtype size) := by
  induction fuel generalizing pos dtype size with
  | zero => omega
  | succ fuel ih =>
    have hv : ∀ p q, pos ≤ p → p < data.length → p ≤ q →
        Passes data (q + (Mmdb.mmdbCtrl data q).adv)
          (skipMMDBValue data fuel (q + (Mmdb.mmdbCtrl data q).adv) (Mmdb.mmdbCtrl data q).dtype
            (Mmdb.mmdbCtrl data q).size)
          (Mmdb.skipMMDBValue data fuel (q + (Mmdb.mmdbCtrl data q).adv)
            (Mmdb.mmdbCtrl data q).dtype (Mmdb.mmdbCtrl data q).size) := by
      intro p q hp hpn hq
      rcases mmdbCtrl_adv data q with ht | hadv
      · obtain ⟨fuel, rfl⟩ : ∃ k, fuel = k + 1 := ⟨fuel - 1, by omega⟩
        rw [ht, skipMMDBValue_truncated]
        exact spends_pure (Nat.le_refl _) _
      · exact ih (by omega) _ _
    simp only [skipMMDBValue, Mmdb.skipMMDBValue]
    repeat' split
    · exact spends_pure (by omega) _
    · exact spends_pure (by omega) _
    · exact spends_pure (by omega) _
    · refine entryLoop_spec (fun p => Nat.le_trans (by omega) (skipMMDBValue_ge _ _ _ _))
        (fun p hp hpn => ?_) _
      obtain ⟨calls, hskip, hpaid⟩ := hv p _ hp hpn (Nat.le_add_right p _)
      refine ⟨_, run_bind (mmdbCtrl_eq _ _ _) (run_bind (mmdbCtrl_eq _ _ _) hskip), ?_⟩
      show Paid data p _ ([⟨p, true⟩, ⟨_, true⟩] ++ calls)
      exact Paid.append (paid_entry hpn (by omega) (by simp)) hpaid
    · refine entryLoop_spec (fun p => Nat.le_trans (by omega) (skipMMDBValue_ge _ _ _ _))
        (fun p hp hpn => ?_) _
      obtain ⟨calls, hskip, hpaid⟩ := hv p p hp hpn (Nat.le_refl p)
      refine ⟨_, run_bind (mmdbCtrl_eq _ _ _) hskip, ?_⟩
      exact Paid.append (paid_entry hpn (Nat.le_refl _) (by simp)) hpaid
    · exact spends_pure (by omega) _
    · exact spends_pure (by omega) _

theorem slice_eq {len : Nat} (h : pos + len ≤ data.length) :
    slice data pos len = pure (keyAt data pos len) :=
  if_pos h

def FindsAs (data : List UInt8) (found : List UInt8 → Ctrl → Nat → Run (Option IsoEntry))
    (found' : List UInt8 → Ctrl → Nat → Option IsoEntry) : Prop :=
  ∀ name value pos, ∃ calls, found name value pos = some (found' name value pos, calls) ∧
    Paid data pos data.length calls ∧ (found' name value pos = none → calls = [])

theorem findInMap_spec {found : List UInt8 → Ctrl → Nat → Run (Option IsoEntry)}
    {found' : List UInt8 → Ctrl → Nat → Option IsoEntry} (hfd : FindsAs data found found')
    (count pos : Nat) :
    Spends data pos data.length (findInMap data found count pos)
      (Mmdb.findInMap data found' count pos) := by
  induction count generalizing pos with
  | zero => exact ⟨[], rfl, fun _ => by simp⟩
  | succ count ih =>
    rw [findInMap, Mmdb.findInMap]
    by_cases hlt : pos < data.length
    swap
    · rw [if_neg hlt, if_neg hlt]
      exact ⟨[], rfl, fun _ => by simp⟩
    rw [if_pos hlt, if_pos hlt]
    by_cases hbad : (Mmdb.mmdbCtrl data pos).dtype ≠ typeUtf8 ∨
        pos + (Mmdb.mmdbCtrl data pos).adv + (Mmdb.mmdbCtrl data pos).size > data.length
    · refine ⟨_, run_bind (mmdbCtrl_eq _ _ _) ((if_pos hbad).trans
        (congrArg pure (if_pos hbad).symm)), fun _ => ?_⟩
      simp only [append_nil, length_singleton]
      omega
    have hadv : 0 < (Mmdb.mmdbCtrl data pos).adv := by
      rcases mmdbCtrl_adv data pos with ht | hadv
      · exact absurd (.inl (by rw [ht]; decide)) hbad
      · exact hadv
    have hkey := mmdbCtrl_eq data false pos
    generalize Mmdb.mmdbCtrl data pos = key at hbad hadv hkey ⊢
    have hv := mmdbCtrl_eq data false (pos + key.adv + key.size)
    simp only [if_neg hbad]
    generalize Mmdb.mmdbCtrl data (pos + key.adv + key.size) = value at hv ⊢
    obtain ⟨calls, hf, hpaid, hnil⟩ := hfd (keyAt data (pos + key.adv) key.size) value
      (pos + key.adv + key.size + value.adv)
    have hsc : slice data (pos + key.adv) key.size = _ := slice_eq (by omega)
    cases hc : found' (keyAt data (pos + key.adv) key.size) value
        (pos + key.adv + key.size + value.adv) with
    | some iso =>
      rw [hc] at hf
      refine ⟨_, run_bind hkey ((if_neg hbad).trans (run_bind hsc (run_bind hv
        (run_bind hf rfl)))), fun hun => ?_⟩
      have hle := hpaid fun c hmem => hun c (by simp [hmem])
      simp only [length_append, length_singleton, length_nil]
      omega
    | none =>
      rw [hc, hnil hc] at hf
      obtain ⟨rest, hrest, hpaid⟩ := (@skipMMDBValue_spec data
        (pos + key.adv + key.size + value.adv) (skipFuel data)
        (Nat.lt_succ_of_le (Nat.sub_le _ _)) value.dtype value.size).bind (ih _)
      refine ⟨_, run_bind hkey ((if_neg hbad).trans (run_bind hsc (run_bind hv
        (run_bind hf hrest)))), fun hun => ?_⟩
      have hle := hpaid fun c hmem => hun c (by simp [hmem])
      simp only [length_append, length_singleton, length_nil]
      omega

theorem decodeISOInMap_spec (data : List UInt8) (pos entryCount : Nat) :
    Spends data pos data.length (decodeISOInMap data pos entryCount)
      (Mmdb.decodeISOInMap data pos entryCount) := by
  refine findInMap_spec (fun name value pos => ⟨[], ?_, fun _ => by simp, fun _ => rfl⟩) _ _
  split
  · rw [index_eq (by omega), run_pure_bind, index_eq (by omega)]
    rfl
  · rfl

theorem findsAs_country (data : List UInt8) :
    FindsAs data (fun name value pos =>
      if name = countryKey ∧ value.dtype = typeMap then do
        let iso ← decodeISOInMap data pos value.size
        pure (some iso)
      else pure none) (fun name value pos =>
      if name = countryKey ∧ value.dtype = typeMap then
        some (Mmdb.decodeISOInMap data pos value.size)
      else none) := by
  intro name value pos
  by_cases hc : name = countryKey ∧ value.dtype = typeMap
  · obtain ⟨calls, hmap, hpaid⟩ := decodeISOInMap_spec data pos value.size
    simp only [if_pos hc]
    exact ⟨_, run_bind hmap rfl, by simpa using hpaid, fun hn => by cases hn⟩
  · simp only [if_neg hc]
    exact ⟨[], rfl, fun _ => by simp, fun _ => rfl⟩

theorem decodeISOCode_spec (data : List UInt8) (pos : Nat) :
    ∃ calls, decodeISOCode data pos = some (Mmdb.decodeISOCode data pos, calls) ∧
      (Uncut data calls → calls.length ≤ 2 * data.length + 1) := by
  by_cases hbad : (Mmdb.mmdbCtrl data pos).dtype ≠ typeMap ∨ (Mmdb.mmdbCtrl data pos).adv = 0
  · exact ⟨_, run_bind (mmdbCtrl_eq _ _ _) ((if_pos hbad).trans
      (congrArg pure (if_pos hbad).symm)), fun _ => by simp⟩
  rw [Mmdb.decodeISOCode]
  simp only [if_neg hbad]
  obtain ⟨calls, hfind, hpaid⟩ := findInMap_spec (findsAs_country data)
    (Mmdb.mmdbCtrl data pos).size (pos + (Mmdb.mmdbCtrl data pos).adv)
  refine ⟨_, run_bind (mmdbCtrl_eq _ _ _) ((if_neg hbad).trans hfind), fun hun => ?_⟩
  have hle := hpaid fun c hmem => hun c (mem_append_right _ hmem)
  simp only [length_append, length_singleton]
  omega

def Returns (c : Run α) (a : α) : Prop := ∃ calls, c = some (a, calls)

theorem Returns.bind (hc : Returns c a) (hk : Returns (k a) b) : Returns (c >>= k) b := by
  obtain ⟨calls, hc⟩ := hc
  obtain ⟨more, hk⟩ := hk
  exact ⟨_, run_bind hc hk⟩

theorem returns_pure (a : α) : Returns (pure a) a := ⟨[], rfl⟩

theorem returns_mmdbCtrl (data : List UInt8) (passing : Bool) (pos : Nat) :
    Returns (mmdbCtrl data passing pos) (Mmdb.mmdbCtrl data pos) :=
  ⟨_, mmdbCtrl_eq data passing pos⟩

theorem returns_readBigEndianN (data : List UInt8) (pos n : Nat) (v : UInt64) :
    Returns (readBigEndianN data pos n v)
      (((data.drop pos).take n).foldl (fun v b => v <<< 8 ||| b.toUInt64) v) := by
  induction n generalizing pos v with
  | zero => exact returns_pure v
  | succ n ih =>
    rw [readBigEndianN]
    split
    · next h =>
      rw [drop_eq_getElem_cons h, take_succ_cons, foldl_cons]
      refine Returns.bind ⟨[], index_eq h⟩ ?_
      rw [getD_eq_getElem?_getD, List.getElem?_eq_getElem h]
      exact ih _ _
    · next h =>
      rw [drop_eq_nil_of_le (by omega)]
      exact returns_pure v

theorem returns_decodeEntries (raw : List UInt8) (count pos : Nat) (m : MmdbMeta) :
    Returns (decodeEntries raw count pos m) (MmdbMeta.decodeEntries raw count pos m) := by
  induction count generalizing pos m with
  | zero => exact returns_pure _
  | succ count ih =>
    rw [decodeEntries, MmdbMeta.decodeEntries]
    split
    · refine (returns_mmdbCtrl raw false pos).bind ?_
      simp only
      split
      · exact returns_pure _
      · next hkey =>
        exact Returns.bind ⟨[], slice_eq (by omega)⟩ ((returns_mmdbCtrl _ _ _).bind
          ((returns_readBigEndianN _ _ _ _).bind (ih _ _)))
    · exact returns_pure _

theorem returns_parseMeta (raw : List UInt8) : Returns (parseMeta raw) (MmdbMeta.parseMeta raw) := by
  unfold parseMeta MmdbMeta.parseMeta
  cases lastIndex raw mmdbMetaSep with
  | none => exact returns_pure _
  | some idx =>
    simp only
    split
    · exact returns_pure _
    refine (returns_mmdbCtrl _ _ _).bind ?_
    simp only [MmdbMeta.decodeMetaRecord]
    split
    · exact returns_pure _
    refine (returns_decodeEntries _ _ _ _).bind ?_
    generalize MmdbMeta.decodeEntries raw _ _ _ = entries
    cases entries with
    | error err => exact returns_pure _
    | ok m =>
      simp only
      split
      · exact returns_pure _
      · split
        · exact returns_pure _
        · exact returns_pure _

end Spec

section Table

variable {r : GeoIPReader}

theorem readRecord_eq (h : GeoIPReader.Valid r) (node direction : UInt32) :
    readRecord r node direction = pure (r.readRecord node direction) := by
  have hby := h.bytesPerNode_le
  have hn := node.toNat_lt
  simp only [readRecord, GeoIPReader.readRecord]
  split
  · rfl
  next hin =>
  have hfile : (node.toUInt64 * r.bytesPerNode.toUInt64).toNat + r.bytesPerNode.toNat ≤
      r.raw.length := by
    have hmul : node.toNat * r.bytesPerNode.toNat ≤ 2 ^ 32 * 8 :=
      Nat.mul_le_mul (Nat.le_of_lt hn) hby
    rw [gt_iff_lt, UInt64.lt_iff_toNat_lt, UInt64.toNat_add, UInt64.toNat_mul] at hin
    simp only [UInt32.toNat_toUInt64, UInt64.toNat_mul] at hin ⊢
    have hbase := h.dataBase_le
    omega
  generalize (node.toUInt64 * r.bytesPerNode.toUInt64).toNat = base at hfile ⊢
  have hp : ∀ i < r.bytesPerNode.toNat, (do
      let _ ← index r.raw base
      let b ← index r.raw (base + i)
      pure b.toUInt32 : Run UInt32) = pure (r.raw.getD (base + i) 0).toUInt32 := by
    intro i hi
    rw [index_eq (by omega), run_pure_bind, index_eq (by omega), run_pure_bind]
  have h28 : ¬ (28 : UInt32) = 24 := by decide
  have h32 : ¬ (32 : UInt32) = 24 ∧ ¬ (32 : UInt32) = 28 := by decide
  rcases h.size with ⟨hs, hb⟩ | ⟨hs, hb⟩ | ⟨hs, hb⟩
  all_goals
    rw [hb] at hp
    simp only [hs, h28, h32, reduceIte]
    split
  all_goals simp (disch := decide) only [hp, run_pure_bind]

theorem searchTree_eq (h : GeoIPReader.Valid r) {visited leafSet : List UInt32}
    (hdfs : r.searchTree = some (visited, leafSet)) : searchTree r = pure leafSet := by
  have hcol : ∀ node s, collectLeaves r node (pure s) = pure (r.collectLeaves node s) := by
    intro node s
    rw [collectLeaves, run_pure_bind, readRecord_eq h, run_pure_bind, readRecord_eq h,
      run_pure_bind]
    rfl
  rw [searchTree, DepthFirst.search_map pure hcol,
    show DepthFirst.search r.children r.collectLeaves _ [0] [] [] = _ from hdfs]
  rfl

theorem returns_fillEntry (r : GeoIPReader) (table : List IsoEntry) (leaf : UInt32) :
    Returns (fillEntry r table leaf) (r.fillEntry table leaf) := by
  simp only [fillEntry, GeoIPReader.fillEntry]
  split
  · exact returns_pure _
  · split
    · exact returns_pure _
    · obtain ⟨calls, hdec, -⟩ := decodeISOCode_spec r.raw
        (r.dataBase.toUInt64 + r.leafIndex leaf).toNat
      exact Returns.bind ⟨calls, hdec⟩ (returns_pure _)

theorem returns_foldlM (r : GeoIPReader) (leafSet : List UInt32) (table : List IsoEntry) :
    Returns (leafSet.foldlM (fillEntry r) table) (leafSet.foldl r.fillEntry table) := by
  induction leafSet generalizing table with
  | nil => exact returns_pure _
  | cons leaf leafSet ih =>
    exact (returns_fillEntry r table leaf).bind (ih _)

theorem returns_buildISOTable (h : GeoIPReader.Valid r) :
    Returns (buildISOTable r) r.buildISOTable := by
  obtain ⟨⟨visited, leafSet⟩, hdfs⟩ := r.searchTree_isSome h.nodes_pos
  rw [buildISOTable, searchTree_eq h hdfs, run_pure_bind, GeoIPReader.buildISOTable, hdfs]
  simp only
  split
  · exact returns_pure _
  · split
    · exact returns_pure _
    · exact (returns_foldlM r leafSet _).bind (returns_pure _)

theorem returns_openGeoIP (raw : List UInt8) : Returns (openGeoIP raw) (Falx.openGeoIP raw) := by
  rw [openGeoIP, Falx.openGeoIP]
  split
  · exact returns_pure _
  refine (returns_parseMeta raw).bind ?_
  rcases MmdbMeta.parseMeta_cases raw with ⟨err, herr, -⟩ | ⟨m, hm, hpos⟩
  · rw [herr]
    exact returns_pure _
  rw [hm]
  simp only
  repeat' split
  all_goals first
    | exact returns_pure _
    | next hsize hns hfile _ =>
      exact returns_buildISOTable (GeoIPReader.valid_of_checks hpos hsize hns hfile)

/-- On any bytes the file is opened and its records are decoded without an index
outside the file, and both come to an end. -/
theorem hostile_file_safe (raw : List UInt8) :
    Returns (openGeoIP raw) (Falx.openGeoIP raw) ∧ Falx.openGeoIP raw ≠ .error .searchFuel ∧
      Returns (parseMeta raw) (MmdbMeta.parseMeta raw) ∧
      ∀ pos, Returns (decodeISOCode raw pos) (Mmdb.decodeISOCode raw pos) := by
  refine ⟨returns_openGeoIP raw, openGeoIP_fuel raw, returns_parseMeta raw, fun pos => ?_⟩
  obtain ⟨calls, hdec, -⟩ := decodeISOCode_spec raw pos
  exact ⟨calls, hdec⟩

end Table

section Cost

variable {r : GeoIPReader}

def controlReads (raw : List UInt8) (pos : Nat) : List CtrlCall :=
  match decodeISOCode raw pos with
  | none => []
  | some (_, calls) => calls

def IsLeaf (r : GeoIPReader) (leaf : UInt32) : Prop :=
  ∃ node, Relation.ReflTransGen (fun u v => v ∈ r.children u) 0 node ∧
    (∃ right : Bool, leaf = r.readRecord node (if right then 1 else 0)) ∧
    r.nodeCount.toNat + 16 ≤ leaf.toNat

theorem isLeaf_iff (h : GeoIPReader.Valid r) {visited leafSet : List UInt32}
    (hdfs : r.searchTree = some (visited, leafSet)) (leaf : UInt32) :
    IsLeaf r leaf ↔ leaf ∈ leafSet := by
  have hexp := GeoIPReader.searchTree_explored hdfs
  simp only [IsLeaf, hexp.leaf_iff, hexp.visited_iff, h.ge_iff]

theorem length_isoTable_le_iff (h : GeoIPReader.Valid r) {r' : GeoIPReader}
    (hbd : r.buildISOTable = .ok r') (n : Nat) :
    r'.isoTable.length ≤ n ↔
      ∀ leaf, IsLeaf r leaf → leaf.toNat - r.nodeCount.toNat - 16 < n := by
  obtain ⟨visited, leafSet, table, hdfs, htb, hok⟩ := h.buildISOTable_spec
  obtain rfl := Except.ok.inj (hok.symm.trans hbd)
  simp only [isLeaf_iff h hdfs]
  refine ⟨fun hle leaf hmem => Nat.lt_of_lt_of_le (htb.index_lt leaf hmem) hle, fun hlt => ?_⟩
  have hall : ∀ leaf ∈ leafSet, r.nodeCount.toNat + 16 ≤ leaf.toNat := by
    intro leaf hmem
    obtain ⟨-, -, -, hge⟩ := (isLeaf_iff h hdfs leaf).mpr hmem
    exact hge
  rw [GeoIPReader.buildISOTable, hdfs] at hok
  simp only at hok
  split at hok
  · obtain rfl := congrArg GeoIPReader.isoTable (Except.ok.inj hok)
    exact Nat.zero_le n
  · next hne =>
    split at hok
    · cases hok
    · have htab := congrArg GeoIPReader.isoTable (Except.ok.inj hok)
      simp only at htab ⊢
      rw [← htab, GeoIPReader.length_foldl_fillEntry, length_replicate,
        (GeoIPReader.maxIndex_spec hall).1]
      rcases GeoIPReader.maxIndex_mem r leafSet 0 with htop | ⟨leaf, hmem, htop⟩
      · obtain ⟨leaf, hmem⟩ := exists_mem_of_ne_nil _ hne
        have hleaf := hlt leaf hmem
        rw [show r.maxIndex leafSet = 0 from htop]
        exact Nat.lt_of_le_of_lt (Nat.zero_le _) hleaf
      · rw [show r.maxIndex leafSet = r.leafIndex leaf from htop,
          GeoIPReader.leafIndex_eq (hall leaf hmem)]
        exact hlt leaf hmem

/-- The table of an accepted file is no longer than the file if and only if no leaf
points past that; a record is decoded in two control reads a byte where passing over
values meets no control bytes that the end of the file cuts off. -/
theorem hostile_file_cost {raw : List UInt8} {r : GeoIPReader} (h : Falx.openGeoIP raw = .ok r) :
    (r.isoTable.length ≤ raw.length ↔
      ∀ leaf, IsLeaf r leaf → leaf.toNat - r.nodeCount.toNat - 16 < raw.length) ∧
    ∀ pos, Uncut raw (controlReads raw pos) →
      (controlReads raw pos).length ≤ 2 * raw.length + 4 := by
  refine ⟨?_, fun pos hun => ?_⟩
  · rcases openGeoIP_cases raw with ⟨err, herr, -⟩ | ⟨m, r', -, hv, rfl, -, -, hopen⟩
    · rw [herr] at h
      cases h
    · rw [hopen] at h
      have hiff := length_isoTable_le_iff hv h r'.raw.length
      obtain ⟨-, -, table, -, -, hok⟩ := hv.buildISOTable_spec
      obtain rfl := Except.ok.inj (hok.symm.trans h)
      exact hiff
  · obtain ⟨calls, hdec, hle⟩ := decodeISOCode_spec raw pos
    rw [controlReads, hdec] at hun ⊢
    have hle := hle hun
    simp only
    omega

theorem hostile_file_cost_cyclicFile : ∃ r, Falx.openGeoIP cyclicFile = .ok r ∧
    (∀ leaf, IsLeaf r leaf → leaf.toNat - r.nodeCount.toNat - 16 < cyclicFile.length) ∧
    Uncut cyclicFile (controlReads cyclicFile 22) ∧
    (controlReads cyclicFile 22).length ≤ 2 * cyclicFile.length + 4 := by
  have hopen : Falx.openGeoIP cyclicFile = .ok ⟨cyclicFile, 1, 24, 6, 22, [(85, 83)]⟩ := by
    decide +kernel
  have huncut : Uncut cyclicFile (controlReads cyclicFile 22) := by
    unfold Uncut
    decide +kernel
  obtain ⟨htb, hreads⟩ := hostile_file_cost hopen
  exact ⟨_, hopen, htb.mp (by decide), huncut, hreads 22 huncut⟩

/-- A leaf 300 bytes into a data section that is shorter, a record that is an array of
284 values, and a control byte at the end of the file whose second byte is missing. -/
def hugeFile : List UInt8 :=
  [0, 0, 17, 0, 1, 61] ++ List.replicate 16 0 ++
    [0xE1, 0x41, 0x61, 0x1D, 0x04, 255, 0x9D, 26] ++
    mmdbMetaSep ++ [0xE3, 0x4A] ++ MmdbMeta.nodeCountKey ++ [0xC1, 1, 0x4B] ++
    MmdbMeta.recordSizeKey ++ [0xA1, 24, 0x4A] ++ MmdbMeta.ipVersionKey ++ [0xA1, 4, 0]

theorem hugeFile_exceeds : ∃ r, Falx.openGeoIP hugeFile = .ok r ∧ hugeFile.length = 86 ∧
    r.isoTable.length = 301 ∧ (controlReads hugeFile 22).length = 287 := by
  have hopen : ((Falx.openGeoIP hugeFile).toOption.map fun r => r.isoTable.length) = some 301 := by
    decide +kernel
  cases hr : Falx.openGeoIP hugeFile with
  | error err =>
    rw [hr] at hopen
    cases hopen
  | ok r =>
    rw [hr] at hopen
    exact ⟨r, rfl, by decide, Option.some.inj hopen, by decide +kernel⟩

end Cost

end Checked

end Falx.Mmdb
