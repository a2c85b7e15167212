import Falx.DepthFirst
import Falx.Mmdb

/-! The GeoIP reader: metadata, the search tree and its packed records, the table of
country codes built when the file is opened, and the lookup that uses it. -/

namespace Falx

open Mmdb

def maxMMDBNodes : UInt32 := (1 : UInt32) <<< 28

def mmdbMetaSep : List UInt8 :=
  [0xAB, 0xCD, 0xEF] ++ ascii ['M', 'a', 'x', 'M', 'i', 'n', 'd', '.', 'c', 'o', 'm']

structure MmdbMeta where
  nodeCount : UInt32
  recordSize : UInt32
  ipVersion : UInt32
  deriving DecidableEq

inductive GeoIPError where
  | fileTooSmall (size : Nat)
  | separatorNotFound
  | noMetadata
  | notAMap (dtype : Int)
  | badKey (dtype : Int)
  | noNodeCount
  | noRecordSize
  | ipVersion (version : UInt32)
  | recordSize (size : UInt32)
  | tooManyNodes (count : UInt32)
  | dataBaseBeyondFile (dataBase : UInt64)
  | dataBaseOverflow (dataBase : UInt64)
  | tableOverflow (index : UInt64)
  /-- the search of the tree has not ended within its fuel -/
  | searchFuel
  deriving DecidableEq

def lastIndex (raw sep : List UInt8) : Option Nat :=
  (List.range (raw.length + 1 - sep.length)).reverse.find? fun i =>
    (raw.drop i).take sep.length == sep

def readBigEndianN (data : List UInt8) (pos n : Nat) : UInt64 :=
  ((data.drop pos).take n).foldl (fun v b => v <<< 8 ||| b.toUInt64) 0

namespace MmdbMeta

def nodeCountKey : List UInt8 := ascii ['n', 'o', 'd', 'e', '_', 'c', 'o', 'u', 'n', 't']

def recordSizeKey : List UInt8 := ascii ['r', 'e', 'c', 'o', 'r', 'd', '_', 's', 'i', 'z', 'e']

def ipVersionKey : List UInt8 := ascii ['i', 'p', '_', 'v', 'e', 'r', 's', 'i', 'o', 'n']

def store (name : List UInt8) (value : Ctrl) (number : UInt32) (m : MmdbMeta) : MmdbMeta :=
  if value.dtype = typeUint32 ∨ value.dtype = typeUint16 then
    if name = nodeCountKey then { m with nodeCount := number }
    else if name = recordSizeKey then { m with recordSize := number }
    else if name = ipVersionKey then { m with ipVersion := number }
    else m
  else m

def decodeEntries (raw : List UInt8) : Nat → Nat → MmdbMeta → Except GeoIPError MmdbMeta
  | 0, _, m => .ok m
  | count + 1, pos, m =>
    if pos < raw.length then
      let key := mmdbCtrl raw pos
      let pos := pos + key.adv
      if key.dtype ≠ typeUtf8 ∨ pos + key.size > raw.length then .error (.badKey key.dtype)
      else
        let name := keyAt raw pos key.size
        let pos := pos + key.size
        let value := mmdbCtrl raw pos
        let valPos := pos + value.adv
        let number := (readBigEndianN raw valPos value.size).toUInt32
        decodeEntries raw count (valPos + value.size) (m.store name value number)
    else .ok m

def decodeMetaRecord (raw : List UInt8) (pos : Nat) : Except GeoIPError MmdbMeta :=
  let ctrl := mmdbCtrl raw pos
  if ctrl.dtype ≠ typeMap then .error (.notAMap ctrl.dtype)
  else
    match decodeEntries raw ctrl.size (pos + ctrl.adv) ⟨0, 0, 0⟩ with
    | .error err => .error err
    | .ok m =>
      if m.nodeCount = 0 then .error .noNodeCount
      else if m.recordSize = 0 then .error .noRecordSize
      else .ok m

def parseMeta (raw : List UInt8) : Except GeoIPError MmdbMeta :=
  match lastIndex raw mmdbMetaSep with
  | none => .error .separatorNotFound
  | some idx =>
    if idx + mmdbMetaSep.length ≥ raw.length then .error .noMetadata
    else decodeMetaRecord raw (idx + mmdbMetaSep.length)

end MmdbMeta

structure GeoIPReader where
  raw : List UInt8
  nodeCount : UInt32
  recordSize : UInt32
  bytesPerNode : UInt32
  dataBase : UInt32
  isoTable : List IsoEntry
  deriving DecidableEq

namespace GeoIPReader

/-- The left record of a node for direction 0, the right one for 1; a node outside
the tree gives the node count, which is no node and no leaf. -/
def readRecord (r : GeoIPReader) (node direction : UInt32) : UInt32 :=
  let base := node.toUInt64 * r.bytesPerNode.toUInt64
  if base + r.bytesPerNode.toUInt64 > r.dataBase.toUInt64 then r.nodeCount
  else
    let p (i : Nat) : UInt32 := (r.raw.getD (base.toNat + i) 0).toUInt32
    if r.recordSize = 24 then
      if direction = 0 then p 0 <<< 16 ||| p 1 <<< 8 ||| p 2
      else p 3 <<< 16 ||| p 4 <<< 8 ||| p 5
    else if r.recordSize = 28 then
      -- byte 3 holds the four highest bits of both records
      if direction = 0 then (p 3 &&& 0xF0) <<< 20 ||| p 0 <<< 16 ||| p 1 <<< 8 ||| p 2
      else (p 3 &&& 0x0F) <<< 24 ||| p 4 <<< 16 ||| p 5 <<< 8 ||| p 6
    else if r.recordSize = 32 then
      if direction = 0 then p 0 <<< 24 ||| p 1 <<< 16 ||| p 2 <<< 8 ||| p 3
      else p 4 <<< 24 ||| p 5 <<< 16 ||| p 6 <<< 8 ||| p 7
    else r.nodeCount

def traverseFrom (r : GeoIPReader) (ip : UInt32) : Nat → UInt32 → UInt32
  | 0, node => node
  | bit + 1, node =>
    let next := r.readRecord node ((ip >>> UInt32.ofNat bit) &&& 1)
    if next ≥ r.nodeCount then next else traverseFrom r ip bit next

def traverseTree (r : GeoIPReader) (ip : UInt32) : UInt32 := r.traverseFrom ip 32 0

def children (r : GeoIPReader) (node : UInt32) : List UInt32 :=
  [r.readRecord node 0, r.readRecord node 1].filter fun child => child < r.nodeCount

def addLeaf (r : GeoIPReader) (child : UInt32) (leafSet : List UInt32) : List UInt32 :=
  if child ≥ r.nodeCount + 16 then leafSet.insert child else leafSet

def collectLeaves (r : GeoIPReader) (node : UInt32) (leafSet : List UInt32) : List UInt32 :=
  r.addLeaf (r.readRecord node 1) (r.addLeaf (r.readRecord node 0) leafSet)

/-- The visited nodes and the leaf values found; the fuel is one for the root and two
for every node. -/
def searchTree (r : GeoIPReader) : Option (List UInt32 × List UInt32) :=
  DepthFirst.search r.children r.collectLeaves (2 * r.nodeCount.toNat + 1) [0] [] []

def leafIndex (r : GeoIPReader) (leaf : UInt32) : UInt64 :=
  leaf.toUInt64 - r.nodeCount.toUInt64 - 16

def maxIndex (r : GeoIPReader) (leafSet : List UInt32) : UInt64 :=
  leafSet.foldl (fun m leaf => if r.leafIndex leaf > m then r.leafIndex leaf else m) 0

def fillEntry (r : GeoIPReader) (table : List IsoEntry) (leaf : UInt32) : List IsoEntry :=
  let dataPos := r.dataBase.toUInt64 + r.leafIndex leaf
  if dataPos.toNat ≥ r.raw.length then table
  else
    let idx := (r.leafIndex leaf).toUInt32
    if idx ≥ UInt32.ofNat table.length then table
    else table.set idx.toNat (decodeISOCode r.raw dataPos.toNat)

def buildISOTable (r : GeoIPReader) : Except GeoIPError GeoIPReader :=
  match r.searchTree with
  | none => .error .searchFuel
  | some (_, leafSet) =>
    if leafSet = [] then .ok { r with isoTable := [] }
    else
      let maxIdx := r.maxIndex leafSet
      if maxIdx > 0xFFFFFFFF then .error (.tableOverflow maxIdx)
      else
        let table := List.replicate (maxIdx.toUInt32 + 1).toNat (0, 0)
        .ok { r with isoTable := leafSet.foldl r.fillEntry table }

def lookupIPv4 (r : GeoIPReader) (ip : UInt32) : IsoEntry × Bool :=
  let leaf := r.traverseTree ip
  if leaf ≤ r.nodeCount + 15 then ((0, 0), false)
  else
    let idx := leaf - r.nodeCount - 16
    if idx ≥ UInt32.ofNat r.isoTable.length then ((0, 0), false)
    else
      let entry := r.isoTable.getD idx.toNat (0, 0)
      if entry = (0, 0) then ((0, 0), false) else (entry, true)

end GeoIPReader

def openGeoIP (raw : List UInt8) : Except GeoIPError GeoIPReader :=
  if raw.length < mmdbMetaSep.length + 1 then .error (.fileTooSmall raw.length)
  else
    match MmdbMeta.parseMeta raw with
    | .error err => .error err
    | .ok m =>
      if m.ipVersion ≠ 4 ∧ m.ipVersion ≠ 6 then .error (.ipVersion m.ipVersion)
      else if m.recordSize ≠ 24 ∧ m.recordSize ≠ 28 ∧ m.recordSize ≠ 32 then
        .error (.recordSize m.recordSize)
      else if m.nodeCount > maxMMDBNodes then .error (.tooManyNodes m.nodeCount)
      else
        let bytesPerNode := (m.recordSize * 2 + 7) / 8
        let treeSize := m.nodeCount.toUInt64 * bytesPerNode.toUInt64
        let dataBase := treeSize + 16
        if dataBase.toNat > raw.length then .error (.dataBaseBeyondFile dataBase)
        else if dataBase > 0xFFFFFFFF then .error (.dataBaseOverflow dataBase)
        else
          GeoIPReader.buildISOTable
            ⟨raw, m.nodeCount, m.recordSize, bytesPerNode, dataBase.toUInt32, []⟩

end Falx
