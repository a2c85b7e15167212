import Falx.Manager
import Mathlib.Data.Int.Order.Basic

/-! The writer that stands between the decision makers and the blocklist. It
skips entries it remembers having written, limits the writes of a 100 ms window,
and undoes the writes of a batch when one of them fails. -/

namespace Falx

open Words

/-- FNV-1a over every field of an entry but its expiry. -/
def entryFingerprint (e : BlockEntry) : UInt64 :=
  let h : UInt64 := 14695981039346656037
  let h := (h ^^^ e.action.toUInt64) * 1099511628211
  let h := (h ^^^ e.ruleId.toUInt64) * 1099511628211
  let h := (h ^^^ e.threatScore.toUInt64) * 1099511628211
  (h ^^^ e.reason.toUInt64) * 1099511628211

/-- What distinguishes the texts of two addresses: a mapped IPv4 address prints
like the address itself, and otherwise different bytes print differently. -/
def NetIP.cacheKey (ip : NetIP) : NetIP := ip.to4.getD ip

@[ext]
structure WriterTables where
  blocklist : BlocklistV4
  dedupCache : NetIP → Option UInt64
  blocklistV4Count : Int

structure WriterStats where
  dedupeHits : UInt64 := 0
  windowDrops : UInt64 := 0
  capacityDrop : UInt64 := 0
  batchCommits : UInt64 := 0
  batchRollbacks : UInt64 := 0

inductive WriterEvent where
  | wrote (key : UInt32) (entry stored : BlockEntry)
  | lost (key : UInt32)
  deriving DecidableEq

structure HardenedWriter where
  tables : WriterTables
  windowCount : Int
  windowReset : Int
  windowMaxOps : Int
  blocklistV4Max : Int
  stats : WriterStats
  history : List WriterEvent

inductive WriterError where
  | windowExceeded (maxOps : Int)
  | capacityReached
  | batchWindow (requested : Nat) (remaining : Int)
  | batchFailed (ip : NetIP) (cause : GoError) (rolledBack : Nat)
  | manager (cause : GoError)
  deriving DecidableEq

def WriterError.message (ipText : NetIP → String) : WriterError → String
  | windowExceeded maxOps => "write window exceeded (" ++ toString maxOps ++ " ops/100ms)"
  | capacityReached => "blocklist capacity limit reached"
  | batchWindow requested remaining =>
    "batch exceeds write window: " ++ toString requested ++ " ops requested, " ++
      toString remaining ++ " remaining"
  | batchFailed ip cause rolledBack =>
    "batch write failed at " ++ ipText ip ++ ": " ++ cause.message ++ " — rolled back " ++
      toString rolledBack ++ " entries"
  | manager cause => cause.message

structure RollbackEntry where
  ip : NetIP
  -- the entry that `IsBlockedIPv4` found before the write, if any
  previous : Option BlockEntry
  undo : CallEnv

namespace WriterTables

def record (ip : NetIP) (entry : BlockEntry) (t : WriterTables) : WriterTables :=
  { t with
    dedupCache := Function.update t.dedupCache ip.cacheKey (some (entryFingerprint entry))
    blocklistV4Count :=
      if t.dedupCache ip.cacheKey = none then t.blocklistV4Count + 1 else t.blocklistV4Count }

def undo (e : RollbackEntry) (t : WriterTables) : WriterTables :=
  match e.previous with
  | some prev => { t with blocklist := (blockIPv4 e.undo e.ip prev t.blocklist).2 }
  | none =>
    { blocklist := (unblockIPv4 e.undo e.ip t.blocklist).2
      dedupCache := Function.update t.dedupCache e.ip.cacheKey none
      blocklistV4Count := t.blocklistV4Count - 1 }

end WriterTables

def isBlocked (now : UInt64) (ip : NetIP) (m : BlocklistV4) : Option BlockEntry :=
  match isBlockedIPv4 now ip m with
  | .ok found => found
  | .error _ => none

/-- What the environment decides about one decision of a batch: the time at
which its entry is looked up, and the outcomes of its write and of its undoing. -/
structure BatchEnv where
  check : UInt64
  write : CallEnv
  undo : CallEnv
  deriving DecidableEq

namespace HardenedWriter

def logKey (ip : NetIP) (event : UInt32 → WriterEvent) (s : HardenedWriter) : HardenedWriter :=
  match ipv4ToUint32 ip with
  | some key => { s with history := event key :: s.history }
  | none => s

def openWindow (now : Int) (s : HardenedWriter) : HardenedWriter :=
  if s.windowReset < now then { s with windowCount := 0, windowReset := now + 100000000 } else s

def checkWindow (now : Int) (s : HardenedWriter) : Bool × HardenedWriter :=
  let s := s.openWindow now
  if s.windowMaxOps ≤ s.windowCount then (false, s)
  else (true, { s with windowCount := s.windowCount + 1 })

def capacityLimit (s : HardenedWriter) : Int := s.blocklistV4Max * 95 / 100

def hit (s : HardenedWriter) : HardenedWriter :=
  { s with stats.dedupeHits := s.stats.dedupeHits + 1 }

def written (ip : NetIP) (entry stored : BlockEntry) (m : BlocklistV4) (s : HardenedWriter) :
    HardenedWriter :=
  { s with tables := WriterTables.record ip entry { s.tables with blocklist := m } }.logKey ip
    (.wrote · entry stored)

def blockIPv4 (now : Int) (env : CallEnv) (ip : NetIP) (entry : BlockEntry)
    (s : HardenedWriter) : Option WriterError × HardenedWriter :=
  if s.tables.dedupCache ip.cacheKey = some (entryFingerprint entry) then (none, s.hit)
  else
    match s.checkWindow now with
    | (false, s) =>
      (some (.windowExceeded s.windowMaxOps),
        { s with stats.windowDrops := s.stats.windowDrops + 1 })
    | (true, s) =>
      if s.capacityLimit ≤ s.tables.blocklistV4Count then
        (some .capacityReached, { s with stats.capacityDrop := s.stats.capacityDrop + 1 })
      else
        match Falx.blockIPv4 env ip entry s.tables.blocklist with
        | (some e, _) => (some (.manager e), s)
        | (none, m) => (none, s.written ip entry (absoluteExpiry env.now entry) m)

/-- The undo log is kept newest entry first, the order in which it is run. -/
def rollback (entries : List RollbackEntry) (s : HardenedWriter) : HardenedWriter :=
  entries.foldl (fun s e => { s with tables := s.tables.undo e }.logKey e.ip .lost) s

def writeDecisions : List (BatchEnv × BlockDecision) → List RollbackEntry → HardenedWriter →
    Option WriterError × HardenedWriter
  | [], _, s => (none, { s with stats.batchCommits := s.stats.batchCommits + 1 })
  | (env, d) :: ds, log, s =>
    if s.tables.dedupCache d.ip.cacheKey = some (entryFingerprint d.entry) then
      writeDecisions ds log s.hit
    else
      let previous := isBlocked env.check d.ip s.tables.blocklist
      match Falx.blockIPv4 env.write d.ip d.entry s.tables.blocklist with
      | (some e, _) =>
        let s := s.rollback log
        (some (.batchFailed d.ip e log.length),
          { s with stats.batchRollbacks := s.stats.batchRollbacks + 1 })
      | (none, m) =>
        writeDecisions ds (⟨d.ip, previous, env.undo⟩ :: log)
          (s.written d.ip d.entry (absoluteExpiry env.write.now d.entry) m)

def writeBatch (now : Int) (ds : List (BatchEnv × BlockDecision)) (s : HardenedWriter) :
    Option WriterError × HardenedWriter :=
  if ds.length = 0 then (none, s)
  else
    let s := s.openWindow now
    if s.windowMaxOps < s.windowCount + ds.length then
      (some (.batchWindow ds.length (s.windowMaxOps - s.windowCount)),
        { s with stats.windowDrops := s.stats.windowDrops + UInt64.ofNat ds.length })
    else writeDecisions ds [] { s with windowCount := s.windowCount + ds.length }

/-- One visit of the purge to a key of the cache. A key that is no address is
dropped without a change of the counter. -/
def purgeKey (s : HardenedWriter) (now : UInt64) (key : NetIP) : HardenedWriter :=
  let dropped := { s.tables with dedupCache := Function.update s.tables.dedupCache key none }
  if s.tables.dedupCache key = none then s
  else if key.length ≠ 4 ∧ key.length ≠ 16 then { s with tables := dropped }
  else if isBlocked now key s.tables.blocklist = none then
    { s with tables := { dropped with blocklistV4Count := dropped.blocklistV4Count - 1 } }
  else s

def purgeExpiredDedup (visits : List (UInt64 × NetIP)) (s : HardenedWriter) : HardenedWriter :=
  visits.foldl (fun s v => s.purgeKey v.1 v.2) s

end HardenedWriter

section Addresses

def addressOf (key : UInt32) : NetIP := (bytes32 key).reverse

theorem addressOf_injective {j k : UInt32} (h : addressOf j = addressOf k) : j = k :=
  bytes32_injective (List.reverse_injective h)

variable {ip : NetIP} {key : UInt32}

theorem ipv4ToUint32_eq_some : ipv4ToUint32 ip = some key ↔ ip.to4 = some (addressOf key) := by
  rw [ipv4ToUint32]
  constructor
  · intro h
    split at h
    · rename_i a b c d hto4
      cases h
      rw [hto4, addressOf, bytes32_le32]
      rfl
    · cases h
  · intro h
    rw [h]
    simp only [addressOf, bytes32, List.reverse_cons, List.reverse_nil, List.nil_append,
      List.cons_append]
    have hkey := key.toNat_lt
    rw [Option.some.injEq, ← UInt32.toNat_inj, toNat_le32, UInt8.toNat_ofNat',
      UInt8.toNat_ofNat', UInt8.toNat_ofNat', UInt8.toNat_ofNat']
    omega

theorem cacheKey_eq_addressOf : ip.cacheKey = addressOf key ↔ ipv4ToUint32 ip = some key := by
  rw [ipv4ToUint32_eq_some, NetIP.cacheKey]
  have hlen : (addressOf key).length = 4 := rfl
  constructor
  · intro h
    cases hto4 : ip.to4 with
    | some ip4 =>
      rw [hto4] at h
      exact congrArg some h
    | none =>
      rw [hto4] at h
      change ip = addressOf key at h
      rw [NetIP.to4, h, if_pos hlen] at hto4
      cases hto4
  · intro h
    rw [h]
    rfl

theorem isBlocked_of_key (hkey : ipv4ToUint32 ip = some key) (now : UInt64) (m : BlocklistV4) :
    isBlocked now ip m = (m key).filter fun e => !e.expired now := by
  simp only [isBlocked, isBlockedIPv4, hkey]
  cases hm : m key with
  | none => rfl
  | some e =>
    simp only [Option.filter_some]
    cases he : e.expired now <;> rfl

end Addresses

section Calls

variable {env : CallEnv} {ip : NetIP} {entry : BlockEntry} {m : BlocklistV4}

theorem blockIPv4_eq_none (h : (blockIPv4 env ip entry m).1 = none) :
    env.allowed = true ∧ env.mapErr = none ∧ ∃ key, ipv4ToUint32 ip = some key ∧
      blockIPv4 env ip entry m =
        (none, Function.update m key (some (absoluteExpiry env.now entry))) := by
  cases ha : env.allowed with
  | false => simp [blockIPv4, ha] at h
  | true =>
    cases hk : ipv4ToUint32 ip with
    | none => simp [blockIPv4, ha, hk] at h
    | some key =>
      cases he : env.mapErr with
      | some e => simp [blockIPv4, ha, hk, he] at h
      | none => exact ⟨rfl, rfl, key, rfl, blockIPv4_of_ok ha hk he entry m⟩

section

variable (h : env.allowed = false ∨ env.mapErr ≠ none)

include h

theorem blockIPv4_refused :
    (blockIPv4 env ip entry m).2 = m := by
  by_cases hn : (blockIPv4 env ip entry m).1 = none
  · obtain ⟨ha, he, -⟩ := blockIPv4_eq_none hn
    rcases h with h | h
    · rw [ha] at h
      cases h
    · exact absurd he h
  · simp only [blockIPv4] at hn ⊢
    split
    · rfl
    · split
      · rfl
      · split
        · rfl
        · simp_all

theorem unblockIPv4_refused :
    (unblockIPv4 env ip m).2 = m := by
  simp only [unblockIPv4]
  split
  · rfl
  · rename_i ha
    split
    · rfl
    · split
      · rfl
      · rfl
      · simp_all

end

theorem unblockIPv4_allowed {key : UInt32} (hkey : ipv4ToUint32 ip = some key)
    (ha : env.allowed = true) (he : env.mapErr = none) :
    (unblockIPv4 env ip m).2 = Function.update m key none := by
  simp only [unblockIPv4, ha, Bool.true_eq_false, if_false, hkey, he]
  cases hm : m key with
  | none => exact (Function.update_eq_self_iff.mpr hm.symm).symm
  | some e => rfl

end Calls

end Falx
