import Falx.GeoIPWalk

/-! The table of country codes. The search of the tree ends and finds every leaf that a
walk can reach, and the table then holds, at the index of each of them, the code that
decoding its record gives. -/

namespace Falx

open List Mmdb

namespace GeoIPReader

section Search

variable {r : GeoIPReader} {node leaf : UInt32}

theorem Valid.ge_iff (h : Valid r) :
    leaf ≥ r.nodeCount + 16 ↔ r.nodeCount.toNat + 16 ≤ leaf.toNat := by
  have hle := h.nodes_le
  rw [ge_iff_le, UInt32.le_iff_toNat_le, UInt32.toNat_add, show (16 : UInt32).toNat = 16 from rfl,
    Nat.mod_eq_of_lt (by omega)]

theorem mem_children : leaf ∈ r.children node ↔
    leaf < r.nodeCount ∧ ∃ right : Bool, leaf = r.readRecord node (if right then 1 else 0) := by
  simp only [children, mem_filter, mem_cons, not_mem_nil, or_false,
    decide_eq_true_eq, Bool.exists_bool]
  constructor
  · rintro ⟨hmem, hlt⟩
    exact ⟨hlt, hmem⟩
  · rintro ⟨hlt, hmem⟩
    exact ⟨hmem, hlt⟩

theorem length_children_le (r : GeoIPReader) (node : UInt32) : (r.children node).length ≤ 2 :=
  length_filter_le _ _

theorem searchTree_isSome (r : GeoIPReader) (h : 0 < r.nodeCount.toNat) :
    ∃ found, r.searchTree = some found := by
  have hmem : ∀ u : UInt32, u.toNat < r.nodeCount.toNat →
      u ∈ (List.range r.nodeCount.toNat).map UInt32.ofNat := by
    intro u hu
    exact mem_map.mpr ⟨u.toNat, mem_range.mpr hu, UInt32.ofNat_toNat⟩
  have hpend := DepthFirst.pending_le r.children r.length_children_le
    ((List.range r.nodeCount.toNat).map UInt32.ofNat) []
  rw [length_map, length_range] at hpend
  refine DepthFirst.search_isSome (fun u _ v hv => hmem v ?_) _ _ (fun u hu => hmem u ?_) ?_
  · exact UInt32.lt_iff_toNat_lt.mp (mem_children.mp hv).1
  · rw [mem_singleton.mp hu]
    exact h
  · rw [length_singleton]
    omega

variable {leafSet visited : List UInt32}

theorem mem_addLeaf {child : UInt32} : leaf ∈ r.addLeaf child leafSet ↔
    leaf ∈ leafSet ∨ (leaf = child ∧ leaf ≥ r.nodeCount + 16) := by
  simp only [addLeaf]
  by_cases h : child ≥ r.nodeCount + 16
  · rw [if_pos h, mem_insert_iff]
    constructor
    · rintro (rfl | hmem)
      · exact .inr ⟨rfl, h⟩
      · exact .inl hmem
    · rintro (hmem | ⟨rfl, -⟩)
      · exact .inr hmem
      · exact .inl rfl
  · rw [if_neg h]
    constructor
    · exact .inl
    · rintro (hmem | ⟨rfl, hge⟩)
      · exact hmem
      · exact absurd hge h

theorem mem_collectLeaves : leaf ∈ r.collectLeaves node leafSet ↔
    leaf ∈ leafSet ∨
      ((∃ right : Bool, leaf = r.readRecord node (if right then 1 else 0)) ∧
        leaf ≥ r.nodeCount + 16) := by
  simp only [collectLeaves, mem_addLeaf, Bool.exists_bool, or_and_right, or_assoc]
  rfl

theorem mem_foldr_collectLeaves {added : List UInt32} : leaf ∈ added.foldr r.collectLeaves [] ↔
    ∃ node ∈ added, (∃ right : Bool, leaf = r.readRecord node (if right then 1 else 0)) ∧
      leaf ≥ r.nodeCount + 16 := by
  induction added with
  | nil => simp
  | cons node added ih =>
    rw [foldr_cons, mem_collectLeaves, ih, exists_mem_cons_iff, or_comm]

/-- What the search of the tree has found: the nodes reachable from the root, and the
leaves of these nodes. -/
structure Explored (r : GeoIPReader) (visited leafSet : List UInt32) : Prop where
  visited_iff : ∀ u, u ∈ visited ↔ Relation.ReflTransGen (fun u v => v ∈ r.children u) 0 u
  leaf_iff : ∀ leaf, leaf ∈ leafSet ↔
    ∃ node ∈ visited, (∃ right : Bool, leaf = r.readRecord node (if right then 1 else 0)) ∧
      leaf ≥ r.nodeCount + 16

theorem searchTree_explored (h : r.searchTree = some (visited, leafSet)) :
    r.Explored visited leafSet := by
  obtain ⟨added, hs⟩ := DepthFirst.search_searched h
  have hadded : visited = added := hs.visited_eq.trans (append_nil _)
  refine ⟨fun u => ?_, fun leaf => ?_⟩
  · have hmem := hs.mem_iff u
    simpa only [mem_singleton, exists_eq_left] using hmem
  · rw [show leafSet = added.foldr r.collectLeaves [] from hs.collected, hadded]
    exact mem_foldr_collectLeaves

theorem and_one_eq (x : UInt32) : ∃ right : Bool, x &&& 1 = if right then 1 else 0 := by
  rcases Nat.mod_two_eq_zero_or_one x.toNat with h | h
  · exact ⟨false, UInt32.toNat_inj.mp ((toNat_and_one x).trans h)⟩
  · exact ⟨true, UInt32.toNat_inj.mp ((toNat_and_one x).trans h)⟩

theorem Valid.traverseFrom_mem (h : Valid r) (hexp : r.Explored visited leafSet) (ip : UInt32)
    {n : Nat} (hnode : node ∈ visited) (hlt : node.toNat < r.nodeCount.toNat)
    (hleaf : r.nodeCount.toNat + 16 ≤ (r.traverseFrom ip n node).toNat) :
    r.traverseFrom ip n node ∈ leafSet := by
  induction n generalizing node with
  | zero =>
    rw [traverseFrom] at hleaf
    omega
  | succ bit ih =>
    obtain ⟨right, hright⟩ := and_one_eq (ip >>> UInt32.ofNat bit)
    simp only [traverseFrom, hright] at hleaf ⊢
    by_cases hge : r.readRecord node (if right then 1 else 0) ≥ r.nodeCount
    · rw [if_pos hge] at hleaf ⊢
      exact (hexp.leaf_iff _).mpr ⟨node, hnode, ⟨right, rfl⟩, h.ge_iff.mpr hleaf⟩
    · rw [if_neg hge] at hleaf ⊢
      have hchild : r.readRecord node (if right then 1 else 0) < r.nodeCount := UInt32.not_le.mp hge
      have hpath := (hexp.visited_iff node).mp hnode
      have hstep := hpath.tail (mem_children.mpr ⟨hchild, right, rfl⟩)
      exact ih ((hexp.visited_iff _).mpr hstep) (UInt32.lt_iff_toNat_lt.mp hchild) hleaf

theorem Valid.traverseTree_mem (h : Valid r) (hexp : r.Explored visited leafSet) (ip : UInt32)
    (hleaf : r.nodeCount.toNat + 16 ≤ (r.traverseTree ip).toNat) : r.traverseTree ip ∈ leafSet := by
  have hroot : (0 : UInt32).toNat < r.nodeCount.toNat := h.nodes_pos
  exact h.traverseFrom_mem hexp ip ((hexp.visited_iff 0).mpr .refl) hroot hleaf

end Search

section Table

variable {r : GeoIPReader} {leaf : UInt32} {leafSet : List UInt32}

theorem leafIndex_eq (hleaf : r.nodeCount.toNat + 16 ≤ leaf.toNat) :
    (r.leafIndex leaf).toNat = leaf.toNat - r.nodeCount.toNat - 16 := by
  have hsub : (leaf.toUInt64 - r.nodeCount.toUInt64).toNat = leaf.toNat - r.nodeCount.toNat := by
    rw [UInt64.toNat_sub_of_le _ _ (by rw [UInt64.le_iff_toNat_le]; simp; omega)]
    simp
  rw [leafIndex, UInt64.toNat_sub_of_le _ _ (by rw [UInt64.le_iff_toNat_le, hsub]; simp; omega),
    hsub]
  rfl

theorem maxIndex_ge (r : GeoIPReader) (leafSet : List UInt32) (m : UInt64) :
    let top := leafSet.foldl (fun m leaf => if r.leafIndex leaf > m then r.leafIndex leaf else m) m
    m ≤ top ∧ ∀ leaf ∈ leafSet, r.leafIndex leaf ≤ top := by
  induction leafSet generalizing m with
  | nil => simp
  | cons head leafSet ih =>
    simp only [foldl_cons, mem_cons, forall_eq_or_imp]
    split
    · next hgt =>
      obtain ⟨hm, hall⟩ := ih (r.leafIndex head)
      exact ⟨UInt64.le_trans (UInt64.le_of_lt hgt) hm, hm, hall⟩
    · next hle =>
      obtain ⟨hm, hall⟩ := ih m
      exact ⟨hm, UInt64.le_trans (UInt64.not_lt.mp hle) hm, hall⟩

theorem maxIndex_mem (r : GeoIPReader) (leafSet : List UInt32) (m : UInt64) :
    let top := leafSet.foldl (fun m leaf => if r.leafIndex leaf > m then r.leafIndex leaf else m) m
    top = m ∨ ∃ leaf ∈ leafSet, top = r.leafIndex leaf := by
  induction leafSet generalizing m with
  | nil => simp
  | cons head leafSet ih =>
    simp only [foldl_cons, mem_cons, exists_eq_or_imp]
    split
    · rcases ih (r.leafIndex head) with h | h
      · exact .inr (.inl h)
      · exact .inr (.inr h)
    · rcases ih m with h | h
      · exact .inl h
      · exact .inr (.inr h)

theorem maxIndex_spec (hall : ∀ leaf ∈ leafSet, r.nodeCount.toNat + 16 ≤ leaf.toNat) :
    ((r.maxIndex leafSet).toUInt32 + 1).toNat = (r.maxIndex leafSet).toNat + 1 ∧
      (r.maxIndex leafSet).toNat + 1 < 2 ^ 32 ∧
      ∀ leaf ∈ leafSet, leaf.toNat - r.nodeCount.toNat - 16 < (r.maxIndex leafSet).toNat + 1 := by
  have hlt : (r.maxIndex leafSet).toNat + 1 < 2 ^ 32 := by
    rcases maxIndex_mem r leafSet 0 with htop | ⟨leaf, hmem, htop⟩
    · rw [show r.maxIndex leafSet = 0 from htop]
      decide
    · have hl := leaf.toNat_lt
      rw [show r.maxIndex leafSet = r.leafIndex leaf from htop, leafIndex_eq (hall leaf hmem)]
      omega
  refine ⟨?_, hlt, fun leaf hmem => ?_⟩
  · rw [UInt32.toNat_add, UInt64.toNat_toUInt32, UInt32.toNat_one]
    omega
  · have hge := UInt64.le_iff_toNat_le.mp ((maxIndex_ge r leafSet 0).2 leaf hmem)
    rw [leafIndex_eq (hall leaf hmem)] at hge
    exact Nat.lt_succ_of_le hge

def directCode (r : GeoIPReader) (idx : Nat) : IsoEntry :=
  if r.dataBase.toNat + idx < r.raw.length then decodeISOCode r.raw (r.dataBase.toNat + idx)
  else (0, 0)

variable {table : List IsoEntry}

theorem fillEntry_getD (hleaf : r.nodeCount.toNat + 16 ≤ leaf.toNat)
    (hidx : leaf.toNat - r.nodeCount.toNat - 16 < table.length) (hlen : table.length < 2 ^ 32)
    (i : Nat) :
    (r.fillEntry table leaf).getD i (0, 0) =
      if i = leaf.toNat - r.nodeCount.toNat - 16 ∧ r.dataBase.toNat + i < r.raw.length then
        decodeISOCode r.raw (r.dataBase.toNat + i)
      else table.getD i (0, 0) := by
  have hb := r.dataBase.toNat_lt
  have hindex := leafIndex_eq hleaf
  have hpos : (r.dataBase.toUInt64 + r.leafIndex leaf).toNat =
      r.dataBase.toNat + (leaf.toNat - r.nodeCount.toNat - 16) := by
    rw [UInt64.toNat_add, hindex, UInt32.toNat_toUInt64]
    omega
  have hword : (r.leafIndex leaf).toUInt32.toNat = leaf.toNat - r.nodeCount.toNat - 16 := by
    rw [UInt64.toNat_toUInt32, hindex]
    omega
  have hin : ¬ (r.leafIndex leaf).toUInt32 ≥ UInt32.ofNat table.length := by
    rw [ge_iff_le, UInt32.le_iff_toNat_le, hword, UInt32.toNat_ofNat', Nat.mod_eq_of_lt hlen]
    omega
  simp only [fillEntry, hpos, if_neg hin, hword]
  by_cases hfile : r.dataBase.toNat + (leaf.toNat - r.nodeCount.toNat - 16) ≥ r.raw.length
  · rw [if_pos hfile, if_neg (by rintro ⟨rfl, hlt⟩; omega)]
  · rw [if_neg hfile, getD_eq_getElem?_getD, List.getElem?_set]
    by_cases hi : leaf.toNat - r.nodeCount.toNat - 16 = i
    · subst hi
      rw [if_pos rfl, if_pos hidx, if_pos ⟨rfl, by omega⟩]
      rfl
    · rw [if_neg hi, if_neg (fun hc => hi hc.1.symm), getD_eq_getElem?_getD]

theorem length_fillEntry (r : GeoIPReader) (table : List IsoEntry) (leaf : UInt32) :
    (r.fillEntry table leaf).length = table.length := by
  simp only [fillEntry]
  split
  · rfl
  · split
    · rfl
    · exact length_set

theorem length_foldl_fillEntry (r : GeoIPReader) (table : List IsoEntry) (leafSet : List UInt32) :
    (leafSet.foldl r.fillEntry table).length = table.length := by
  induction leafSet generalizing table with
  | nil => rfl
  | cons head leafSet ih => rw [foldl_cons, ih, length_fillEntry]

theorem foldl_fillEntry_getD {i : Nat}
    (hall : ∀ leaf ∈ leafSet, r.nodeCount.toNat + 16 ≤ leaf.toNat)
    (hidx : ∀ leaf ∈ leafSet, leaf.toNat - r.nodeCount.toNat - 16 < table.length)
    (hlen : table.length < 2 ^ 32)
    (hen : table.getD i (0, 0) = r.directCode i ∨
      (table.getD i (0, 0) = (0, 0) ∧ ∃ leaf ∈ leafSet, i = leaf.toNat - r.nodeCount.toNat - 16)) :
    (leafSet.foldl r.fillEntry table).getD i (0, 0) = r.directCode i := by
  induction leafSet generalizing table with
  | nil =>
    rcases hen with hen | ⟨-, leaf, hmem, -⟩
    · exact hen
    · cases hmem
  | cons head leafSet ih =>
    have hstep := fillEntry_getD (hall head (.head _)) (hidx head (.head _)) hlen i
    refine ih (fun leaf hmem => hall leaf (.tail _ hmem))
      (fun leaf hmem => ?_) (by rwa [length_fillEntry]) ?_
    · rw [length_fillEntry]
      exact hidx leaf (.tail _ hmem)
    · by_cases hi : i = head.toNat - r.nodeCount.toNat - 16
      · by_cases hfile : r.dataBase.toNat + i < r.raw.length
        · rw [if_pos ⟨hi, hfile⟩] at hstep
          exact .inl (hstep.trans (if_pos hfile).symm)
        · -- outside the file both the entry and the direct answer are zero
          have hdirect : r.directCode i = (0, 0) := if_neg hfile
          rw [if_neg (fun hc => hfile hc.2)] at hstep
          rcases hen with hen | ⟨hen, -⟩
          · exact .inl (hstep.trans hen)
          · exact .inl (hstep.trans (hen.trans hdirect.symm))
      · rw [if_neg (fun hc => hi hc.1)] at hstep
        rcases hen with hen | ⟨hen, leaf, hmem, hleaf⟩
        · exact .inl (hstep.trans hen)
        · rcases mem_cons.mp hmem with rfl | hmem
          · exact absurd hleaf hi
          · exact .inr ⟨hstep.trans hen, leaf, hmem, hleaf⟩

structure Tabulated (r : GeoIPReader) (leafSet : List UInt32) (table : List IsoEntry) : Prop where
  length_lt : table.length < 2 ^ 32
  index_lt : ∀ leaf ∈ leafSet, leaf.toNat - r.nodeCount.toNat - 16 < table.length
  entry : ∀ leaf ∈ leafSet, table.getD (leaf.toNat - r.nodeCount.toNat - 16) (0, 0) =
    r.directCode (leaf.toNat - r.nodeCount.toNat - 16)

theorem tabulated_foldl (hall : ∀ leaf ∈ leafSet, r.nodeCount.toNat + 16 ≤ leaf.toNat) :
    r.Tabulated leafSet (leafSet.foldl r.fillEntry
      (List.replicate ((r.maxIndex leafSet).toUInt32 + 1).toNat (0, 0))) := by
  obtain ⟨hword, hlt, hidx⟩ := maxIndex_spec hall
  have hlen : (List.replicate ((r.maxIndex leafSet).toUInt32 + 1).toNat
      ((0, 0) : IsoEntry)).length = (r.maxIndex leafSet).toNat + 1 := by
    rw [length_replicate, hword]
  refine ⟨?_, fun leaf hmem => ?_, fun leaf hmem => ?_⟩
  · rw [length_foldl_fillEntry, hlen]
    exact hlt
  · rw [length_foldl_fillEntry, hlen]
    exact hidx leaf hmem
  · refine foldl_fillEntry_getD hall (by rwa [hlen]) (by rwa [hlen]) (.inr ⟨?_, leaf, hmem, rfl⟩)
    rw [getD_eq_getElem?_getD, List.getElem?_replicate]
    split
    · rfl
    · rfl

theorem Valid.buildISOTable_spec (h : Valid r) : ∃ visited leafSet table,
    r.searchTree = some (visited, leafSet) ∧ r.Tabulated leafSet table ∧
      r.buildISOTable = .ok { r with isoTable := table } := by
  obtain ⟨⟨visited, leafSet⟩, hdfs⟩ := r.searchTree_isSome h.nodes_pos
  have hall : ∀ leaf ∈ leafSet, r.nodeCount.toNat + 16 ≤ leaf.toNat := by
    intro leaf hmem
    obtain ⟨-, -, -, hge⟩ := ((searchTree_explored hdfs).leaf_iff leaf).mp hmem
    exact h.ge_iff.mp hge
  by_cases hnil : leafSet = []
  · subst hnil
    refine ⟨visited, [], [], hdfs, ⟨by decide, by simp, by simp⟩, ?_⟩
    rw [buildISOTable, hdfs]
    exact if_pos rfl
  · have hmax : ¬ r.maxIndex leafSet > 0xFFFFFFFF := by
      have hlt := (maxIndex_spec hall).2.1
      rw [gt_iff_lt, UInt64.lt_iff_toNat_lt, show (0xFFFFFFFF : UInt64).toNat = 2 ^ 32 - 1 from rfl]
      omega
    refine ⟨visited, leafSet, _, hdfs, tabulated_foldl hall, ?_⟩
    rw [buildISOTable, hdfs]
    exact (if_neg hnil).trans (if_neg hmax)

theorem traverseFrom_isoTable (r : GeoIPReader) (table : List IsoEntry) (ip : UInt32) (n : Nat)
    (node : UInt32) :
    { r with isoTable := table }.traverseFrom ip n node = r.traverseFrom ip n node := by
  induction n generalizing node with
  | zero => rfl
  | succ bit ih =>
    rw [traverseFrom, traverseFrom, ih]
    rfl

theorem Valid.lookupIPv4_eq (h : Valid r) {visited : List UInt32}
    (hdfs : r.searchTree = some (visited, leafSet)) (htb : r.Tabulated leafSet table)
    (ip : UInt32) : { r with isoTable := table }.lookupIPv4 ip =
      if r.nodeCount.toNat + 16 ≤ (r.traverseTree ip).toNat ∧
          r.directCode ((r.traverseTree ip).toNat - r.nodeCount.toNat - 16) ≠ (0, 0) then
        (r.directCode ((r.traverseTree ip).toNat - r.nodeCount.toNat - 16), true)
      else ((0, 0), false) := by
  have hle := h.nodes_le
  have hsm : r.traverseTree ip ≤ r.nodeCount + 15 ↔
      ¬ r.nodeCount.toNat + 16 ≤ (r.traverseTree ip).toNat := by
    rw [UInt32.le_iff_toNat_le, UInt32.toNat_add, show (15 : UInt32).toNat = 15 from rfl,
      Nat.mod_eq_of_lt (by omega)]
    omega
  have htrav : { r with isoTable := table }.traverseTree ip = r.traverseTree ip :=
    traverseFrom_isoTable r table ip 32 0
  simp only [lookupIPv4, htrav]
  by_cases hleaf : r.nodeCount.toNat + 16 ≤ (r.traverseTree ip).toNat
  · have hexp := searchTree_explored hdfs
    have hmem := h.traverseTree_mem hexp ip hleaf
    have hidx : (r.traverseTree ip - r.nodeCount - 16).toNat =
        (r.traverseTree ip).toNat - r.nodeCount.toNat - 16 := by
      have hsub := UInt32.toNat_sub_of_le (r.traverseTree ip) r.nodeCount
        (by rw [UInt32.le_iff_toNat_le]; omega)
      rw [UInt32.toNat_sub_of_le _ _ (by rw [UInt32.le_iff_toNat_le, hsub]; simp; omega), hsub]
      rfl
    have hin : ¬ r.traverseTree ip - r.nodeCount - 16 ≥ UInt32.ofNat table.length := by
      have hlt := htb.index_lt _ hmem
      rw [ge_iff_le, UInt32.le_iff_toNat_le, hidx, UInt32.toNat_ofNat',
        Nat.mod_eq_of_lt htb.length_lt]
      omega
    rw [if_neg (fun hc => hsm.mp hc hleaf), if_neg hin, hidx, htb.entry _ hmem]
    by_cases hzero : r.directCode ((r.traverseTree ip).toNat - r.nodeCount.toNat - 16) = (0, 0)
    · rw [if_pos hzero, if_neg (fun hc => hc.2 hzero)]
    · rw [if_neg hzero, if_pos ⟨hleaf, hzero⟩]
  · rw [if_pos (hsm.mpr hleaf), if_neg (fun hc => hleaf hc.1)]

end Table

end GeoIPReader

variable {raw : List UInt8} {m : MmdbMeta} {r : GeoIPReader}

theorem MmdbMeta.decodeEntries_error {err : GeoIPError} {count pos : Nat}
    (h : decodeEntries raw count pos m = .error err) : err ≠ .searchFuel := by
  induction count generalizing pos m with
  | zero => cases h
  | succ count ih =>
    simp only [decodeEntries] at h
    split at h
    · split at h
      · cases h
        intro hc
        cases hc
      · exact ih h
    · cases h

theorem MmdbMeta.parseMeta_cases (raw : List UInt8) :
    (∃ err, parseMeta raw = .error err ∧ err ≠ .searchFuel) ∨
      ∃ m, parseMeta raw = .ok m ∧ 0 < m.nodeCount.toNat := by
  unfold parseMeta
  split
  · exact .inl ⟨_, rfl, by decide⟩
  · split
    · exact .inl ⟨_, rfl, by decide⟩
    · simp only [decodeMetaRecord]
      split
      · exact .inl ⟨_, rfl, fun hc => by cases hc⟩
      · split
        · next herr => exact .inl ⟨_, rfl, decodeEntries_error herr⟩
        · next m _ =>
          by_cases hnodes : m.nodeCount = 0
          · rw [if_pos hnodes]
            exact .inl ⟨_, rfl, by decide⟩
          · rw [if_neg hnodes]
            split
            · exact .inl ⟨_, rfl, by decide⟩
            · refine .inr ⟨m, rfl, Nat.pos_of_ne_zero fun hz => hnodes ?_⟩
              exact UInt32.toNat_inj.mp hz

theorem GeoIPReader.valid_of_checks (hpos : 0 < m.nodeCount.toNat)
    (hsize : ¬ (m.recordSize ≠ 24 ∧ m.recordSize ≠ 28 ∧ m.recordSize ≠ 32))
    (hnodes : ¬ m.nodeCount > maxMMDBNodes)
    (hfile : ¬ (m.nodeCount.toUInt64 * ((m.recordSize * 2 + 7) / 8).toUInt64 + 16).toNat >
      raw.length) :
    Valid ⟨raw, m.nodeCount, m.recordSize, (m.recordSize * 2 + 7) / 8,
      (m.nodeCount.toUInt64 * ((m.recordSize * 2 + 7) / 8).toUInt64 + 16).toUInt32, []⟩ := by
  have hle : m.nodeCount.toNat ≤ 2 ^ 28 := UInt32.le_iff_toNat_le.mp (UInt32.not_lt.mp hnodes)
  have hlayout : (m.recordSize = 24 ∧ (m.recordSize * 2 + 7) / 8 = 6) ∨
      (m.recordSize = 28 ∧ (m.recordSize * 2 + 7) / 8 = 7) ∨
      (m.recordSize = 32 ∧ (m.recordSize * 2 + 7) / 8 = 8) := by
    by_cases h24 : m.recordSize = 24
    · exact .inl ⟨h24, by rw [h24]; decide⟩
    · by_cases h28 : m.recordSize = 28
      · exact .inr (.inl ⟨h28, by rw [h28]; decide⟩)
      · have h32 : m.recordSize = 32 := by
          by_contra h32
          exact hsize ⟨h24, h28, h32⟩
        exact .inr (.inr ⟨h32, by rw [h32]; decide⟩)
  generalize (m.recordSize * 2 + 7) / 8 = bytes at hlayout hfile ⊢
  have hby : bytes.toNat ≤ 8 := by
    rcases hlayout with ⟨-, hb⟩ | ⟨-, hb⟩ | ⟨-, hb⟩ <;> rw [hb] <;> decide
  have htree : m.nodeCount.toNat * bytes.toNat ≤ 2 ^ 28 * 8 :=
    Nat.mul_le_mul hle hby
  have hbase : (m.nodeCount.toUInt64 * bytes.toUInt64 + 16).toNat =
      m.nodeCount.toNat * bytes.toNat + 16 := by
    rw [UInt64.toNat_add, UInt64.toNat_mul, UInt32.toNat_toUInt64, UInt32.toNat_toUInt64,
      show (16 : UInt64).toNat = 16 from rfl]
    omega
  have hword : (m.nodeCount.toUInt64 * bytes.toUInt64 + 16).toUInt32.toNat =
      m.nodeCount.toNat * bytes.toNat + 16 := by
    rw [UInt64.toNat_toUInt32, hbase]
    omega
  refine ⟨hpos, hle, hlayout, hword, ?_⟩
  rw [hword, ← hbase]
  exact Nat.le_of_not_lt hfile

theorem openGeoIP_cases (raw : List UInt8) :
    (∃ err, openGeoIP raw = .error err ∧ err ≠ .searchFuel) ∨
      ∃ m r, MmdbMeta.parseMeta raw = .ok m ∧ GeoIPReader.Valid r ∧ r.raw = raw ∧
        r.nodeCount = m.nodeCount ∧ r.recordSize = m.recordSize ∧
        openGeoIP raw = r.buildISOTable := by
  by_cases hsm : raw.length < mmdbMetaSep.length + 1
  · exact .inl ⟨_, if_pos hsm, fun hc => by cases hc⟩
  rw [openGeoIP, if_neg hsm]
  rcases MmdbMeta.parseMeta_cases raw with ⟨err, herr, hne⟩ | ⟨m, hm, hpos⟩
  · exact .inl ⟨err, by rw [herr], hne⟩
  rw [hm]
  simp only
  by_cases hver : m.ipVersion ≠ 4 ∧ m.ipVersion ≠ 6
  · exact .inl ⟨_, if_pos hver, fun hc => by cases hc⟩
  by_cases hsize : m.recordSize ≠ 24 ∧ m.recordSize ≠ 28 ∧ m.recordSize ≠ 32
  · exact .inl ⟨_, (if_neg hver).trans (if_pos hsize), fun hc => by cases hc⟩
  by_cases hnodes : m.nodeCount > maxMMDBNodes
  · exact .inl ⟨_, (if_neg hver).trans ((if_neg hsize).trans (if_pos hnodes)),
      fun hc => by cases hc⟩
  rw [if_neg hver, if_neg hsize, if_neg hnodes]
  by_cases hfile : (m.nodeCount.toUInt64 * ((m.recordSize * 2 + 7) / 8).toUInt64 + 16).toNat >
      raw.length
  · exact .inl ⟨_, if_pos hfile, fun hc => by cases hc⟩
  by_cases hover : m.nodeCount.toUInt64 * ((m.recordSize * 2 + 7) / 8).toUInt64 + 16 > 0xFFFFFFFF
  · exact .inl ⟨_, (if_neg hfile).trans (if_pos hover), fun hc => by cases hc⟩
  rw [if_neg hfile, if_neg hover]
  exact .inr ⟨m, _, rfl, GeoIPReader.valid_of_checks hpos hsize hnodes hfile, rfl, rfl, rfl, rfl⟩

namespace GeoIPReader

section Specification

variable {r : GeoIPReader} {m : MmdbMeta}

theorem Valid.readRecord_bit (h : Valid r) {node : UInt32}
    (hnode : node.toNat < r.nodeCount.toNat) (right : Bool) :
    (r.readRecord node (if right then 1 else 0)).toNat = r.record node.toNat right := by
  rw [h.readRecord_eq hnode]
  cases right
  · rfl
  · rfl

theorem Valid.reached_lt (h : Valid r) {u : UInt32}
    (hrc : Relation.ReflTransGen (fun u v => v ∈ r.children u) 0 u) :
    u.toNat < r.nodeCount.toNat := by
  cases hrc with
  | refl => exact h.nodes_pos
  | tail _ hedge => exact UInt32.lt_iff_toNat_lt.mp (mem_children.mp hedge).1

variable (h : Valid r) (hnodes : r.nodeCount = m.nodeCount) (hsize : r.recordSize = m.recordSize)

include h hnodes hsize

theorem Valid.dataStart_eq : dataStart m = r.dataBase.toNat := by
  rw [h.dataBase_eq, dataStart, ← hnodes, ← hsize]
  rcases h.size with ⟨hs, hb⟩ | ⟨hs, hb⟩ | ⟨hs, hb⟩ <;> rw [hs, hb] <;> rfl

theorem Valid.reachable_iff (n : Nat) :
    Relation.ReflTransGen (Edge m r.raw) 0 n ↔
      ∃ u : UInt32, u.toNat = n ∧ Relation.ReflTransGen (fun u v => v ∈ r.children u) 0 u := by
  constructor
  · intro hpath
    induction hpath with
    | refl => exact ⟨0, rfl, .refl⟩
    | tail _ hedge ih =>
      obtain ⟨u, rfl, hrc⟩ := ih
      obtain ⟨hlt, right, rfl⟩ := hedge
      have hnext := h.readRecord_bit (h.reached_lt hrc) right
      rw [record, hsize] at hnext
      rw [← hnodes, ← hnext] at hlt
      have hmem := mem_children.mpr ⟨UInt32.lt_iff_toNat_lt.mpr hlt, right, rfl⟩
      exact ⟨_, hnext, hrc.tail hmem⟩
  · rintro ⟨u, rfl, hrc⟩
    induction hrc with
    | refl => exact .refl
    | tail hprev hedge ih =>
      obtain ⟨hlt, right, rfl⟩ := mem_children.mp hedge
      have hnext := h.readRecord_bit (h.reached_lt hprev) right
      rw [record, hsize] at hnext
      exact ih.tail ⟨hnodes ▸ UInt32.lt_iff_toNat_lt.mp hlt, right, hnext.symm⟩

theorem Valid.decodesTo_iff (ip : UInt32) (c : IsoEntry) :
    DecodesTo m r.raw ip c ↔
      r.nodeCount.toNat + 16 ≤ (r.traverseTree ip).toNat ∧
        r.directCode ((r.traverseTree ip).toNat - r.nodeCount.toNat - 16) = c ∧ c ≠ (0, 0) := by
  have hwalk := h.walk_addressBits ip
  rw [record, hsize] at hwalk
  simp only [DecodesTo, hwalk, h.dataStart_eq hnodes hsize, ← hnodes, directCode]
  constructor
  · rintro ⟨v, hv, hleaf, hfile, hcode, hne⟩
    split at hv
    · obtain rfl := Option.some.inj hv
      exact ⟨hleaf, (if_pos hfile).trans hcode, hne⟩
    · cases hv
  · rintro ⟨hleaf, hcode, hne⟩
    split at hcode
    · next hfile => exact ⟨_, if_pos (by omega), hleaf, hfile, hcode, hne⟩
    · exact absurd hcode.symm hne

variable {visited leafSet : List UInt32}

theorem Valid.lookupIPv4_iff {table : List IsoEntry} (hdfs : r.searchTree = some (visited, leafSet))
    (htb : r.Tabulated leafSet table) (ip : UInt32) (c : IsoEntry) :
    { r with isoTable := table }.lookupIPv4 ip = (c, true) ↔ DecodesTo m r.raw ip c := by
  rw [h.lookupIPv4_eq hdfs htb, h.decodesTo_iff hnodes hsize]
  split
  · next hcode =>
    constructor
    · intro heq
      obtain rfl := congrArg Prod.fst heq
      exact ⟨hcode.1, rfl, hcode.2⟩
    · rintro ⟨-, rfl, -⟩
      rfl
  · next hcode =>
    constructor
    · intro heq
      cases congrArg Prod.snd heq
    · rintro ⟨hleaf, rfl, hne⟩
      exact absurd ⟨hleaf, hne⟩ hcode

theorem Valid.visited_iff (hdfs : r.searchTree = some (visited, leafSet)) (n : Nat) :
    n ∈ visited.map UInt32.toNat ↔ Relation.ReflTransGen (Edge m r.raw) 0 n := by
  have hexp := searchTree_explored hdfs
  rw [h.reachable_iff hnodes hsize, mem_map]
  constructor
  · rintro ⟨u, hu, rfl⟩
    exact ⟨u, rfl, (hexp.visited_iff u).mp hu⟩
  · rintro ⟨u, rfl, hrc⟩
    exact ⟨u, (hexp.visited_iff u).mpr hrc, rfl⟩

end Specification

end GeoIPReader

theorem openGeoIP_fuel (raw : List UInt8) : openGeoIP raw ≠ .error .searchFuel := by
  rcases openGeoIP_cases raw with ⟨err, herr, hne⟩ | ⟨m, r, -, hv, -, -, -, hopen⟩
  · exact fun hc => hne (Except.error.inj (herr.symm.trans hc))
  · obtain ⟨visited, leafSet, table, -, -, hbd⟩ := hv.buildISOTable_spec
    rw [hopen, hbd]
    exact fun hc => by cases hc

theorem openGeoIP_ok (hr : openGeoIP raw = .ok r) (hm : MmdbMeta.parseMeta raw = .ok m) :
    (∀ ip c, r.lookupIPv4 ip = (c, true) ↔ DecodesTo m raw ip c) ∧
      ∃ visited leafSet, r.searchTree = some (visited, leafSet) ∧
        ∀ n, n ∈ visited.map UInt32.toNat ↔ Relation.ReflTransGen (Edge m raw) 0 n := by
  rcases openGeoIP_cases raw with ⟨err, herr, -⟩ | ⟨m', r', hm', hv, rfl, hnodes, hsize, hopen⟩
  · rw [herr] at hr
    cases hr
  obtain ⟨visited, leafSet, table, hdfs, htb, hbd⟩ := hv.buildISOTable_spec
  rw [hopen, hbd] at hr
  obtain rfl := Except.ok.inj hr
  obtain rfl := Except.ok.inj (hm.symm.trans hm')
  exact ⟨hv.lookupIPv4_iff hnodes hsize hdfs htb, visited, leafSet, hdfs,
    hv.visited_iff hnodes hsize hdfs⟩

theorem lookupIPv4_not_found {ip : UInt32} {Stored : IsoEntry → Prop}
    (h : ∀ c, r.lookupIPv4 ip = (c, true) ↔ Stored c) (hno : ∀ c, ¬ Stored c) :
    (r.lookupIPv4 ip).2 = false := by
  rw [← Bool.not_eq_true]
  intro hok
  exact hno _ ((h _).mp (Prod.ext rfl hok))

/-- Opening a file never runs out of fuel, whatever graph its tree is. The table lookup of
an accepted file answers as decoding along the walk does, and the search that built
the table has visited the nodes reachable from the root. -/
theorem openGeoIP_lookupIPv4 (raw : List UInt8) :
    openGeoIP raw ≠ .error .searchFuel ∧
      ∀ r m, openGeoIP raw = .ok r → MmdbMeta.parseMeta raw = .ok m →
        (∀ ip c, r.lookupIPv4 ip = (c, true) ↔ DecodesTo m raw ip c) ∧
        (∀ ip, (∀ c, ¬ DecodesTo m raw ip c) → (r.lookupIPv4 ip).2 = false) ∧
        ∃ visited leafSet, r.searchTree = some (visited, leafSet) ∧
          ∀ n, n ∈ visited.map UInt32.toNat ↔ Relation.ReflTransGen (Edge m raw) 0 n := by
  refine ⟨openGeoIP_fuel raw, fun r m hr hm => ?_⟩
  obtain ⟨hget, hvis⟩ := openGeoIP_ok hr hm
  exact ⟨hget, fun ip hno => lookupIPv4_not_found (hget ip) hno, hvis⟩

def cyclicFile : List UInt8 :=
  [0, 0, 17, 0, 0, 0] ++ List.replicate 16 0 ++
    [0xE1, 0x47] ++ countryKey ++ [0xE1, 0x48] ++ isoCodeKey ++ [0x42] ++ ascii ['U', 'S'] ++
    mmdbMetaSep ++ [0xE3, 0x4A] ++ MmdbMeta.nodeCountKey ++ [0xC1, 1, 0x4B] ++
    MmdbMeta.recordSizeKey ++ [0xA1, 24, 0x4A] ++ MmdbMeta.ipVersionKey ++ [0xA1, 4]

theorem openGeoIP_lookupIPv4_cyclicFile :
    ∃ r, openGeoIP cyclicFile = .ok r ∧ MmdbMeta.parseMeta cyclicFile = .ok ⟨1, 24, 4⟩ ∧
      DecodesTo ⟨1, 24, 4⟩ cyclicFile 0xC0000000 (85, 83) ∧
      ∀ c, ¬ DecodesTo ⟨1, 24, 4⟩ cyclicFile 0xFFFFFFFF c := by
  have hopen : openGeoIP cyclicFile = .ok ⟨cyclicFile, 1, 24, 6, 22, [(85, 83)]⟩ := by
    decide +kernel
  have hmeta : MmdbMeta.parseMeta cyclicFile = .ok ⟨1, 24, 4⟩ := by decide +kernel
  obtain ⟨hiff, -, -⟩ := (openGeoIP_lookupIPv4 cyclicFile).2 _ _ hopen hmeta
  refine ⟨_, hopen, hmeta, (hiff _ _).mp (by decide +kernel), fun c hc => ?_⟩
  have hsnd := congrArg Prod.snd ((hiff _ c).mpr hc)
  revert hsnd
  exact (by decide +kernel : ¬ (GeoIPReader.lookupIPv4 ⟨cyclicFile, 1, 24, 6, 22, [(85, 83)]⟩
    0xFFFFFFFF).2 = true)

end Falx
