import Falx.HardenedWriter
import Mathlib.Algebra.BigOperators.Group.Finset.Piecewise
import Mathlib.Algebra.Order.BigOperators.Group.Finset

/-! What a failed batch leaves behind. The writes made before the failure are
undone newest first, so for each address the undo of its earliest write that is
not refused decides what the blocklist holds in the end. -/

namespace Falx

open WriterTables Function Words List

abbrev Batch := List (BatchEnv × BlockDecision)

def CallEnv.Refuses (env : CallEnv) : Prop := env.allowed = false ∨ env.mapErr ≠ none

instance (env : CallEnv) : Decidable env.Refuses := inferInstanceAs (Decidable (_ ∨ _))

/-- The decisions of a batch that are written before the first refused one: those
whose fingerprint differs from that of the decision before them for the same
address, or from the cached one. -/
def writtenBefore (cache : NetIP → Option UInt64) : Batch → Batch
  | [] => []
  | (env, d) :: ds =>
    if cache d.ip.cacheKey = some (entryFingerprint d.entry) then writtenBefore cache ds
    else if env.write.Refuses ∨ ipv4ToUint32 d.ip = none then []
    else (env, d) ::
      writtenBefore (update cache d.ip.cacheKey (some (entryFingerprint d.entry))) ds

/-- Whether the batch has a decision that is not skipped and that the limiter, the map or
its address lets fail. -/
def refused (cache : NetIP → Option UInt64) : Batch → Bool
  | [] => false
  | (env, d) :: ds =>
    if cache d.ip.cacheKey = some (entryFingerprint d.entry) then refused cache ds
    else if env.write.Refuses ∨ ipv4ToUint32 d.ip = none then true
    else refused (update cache d.ip.cacheKey (some (entryFingerprint d.entry))) ds

def writesTo (key : UInt32) (ws : Batch) : Batch :=
  ws.filter fun p => ipv4ToUint32 p.2.ip = some key

/-- How many of the writes to an address, which holds `v` at first, find no
unexpired entry there. -/
def absentChecks (v : Option BlockEntry) : Batch → Nat
  | [] => 0
  | (env, d) :: ws =>
    (if v.filter (fun e => !e.expired env.check) = none then 1 else 0) +
      absentChecks (some (absoluteExpiry env.write.now d.entry)) ws

/-- The undo of the first write that is not refused puts back `v₀`; when all are
refused, the last entry written is `v₀`. -/
def PutsBack (v₀ : Option BlockEntry) : Option BlockEntry → Batch → Prop
  | v, [] => v = v₀
  | v, (env, d) :: ws =>
    if env.undo.Refuses then PutsBack v₀ (some (absoluteExpiry env.write.now d.entry)) ws
    else (v.filter fun e => !e.expired env.check).map (absoluteExpiry env.undo.now) = v₀

def KeyIntact (t : WriterTables) (ws : Batch) (key : UInt32) : Prop :=
  writesTo key ws ≠ [] →
    (t.dedupCache (addressOf key) = none ∧
        absentChecks (t.blocklist key) (writesTo key ws) = 1 ∨
      t.dedupCache (addressOf key) =
          (writesTo key ws).getLast?.map (fun p => entryFingerprint p.2.entry) ∧
        absentChecks (t.blocklist key) (writesTo key ws) = 0) ∧
    PutsBack (t.blocklist key) (t.blocklist key) (writesTo key ws)

namespace WriterTables

def write (p : BatchEnv × BlockDecision) (t : WriterTables) : WriterTables :=
  record p.2.ip p.2.entry
    { t with blocklist := (blockIPv4 p.1.write p.2.ip p.2.entry t.blocklist).2 }

def rollbackEntry (p : BatchEnv × BlockDecision) (t : WriterTables) : RollbackEntry :=
  ⟨p.2.ip, isBlocked p.1.check p.2.ip t.blocklist, p.1.undo⟩

def writeAll (ws : Batch) (t : WriterTables) : WriterTables := ws.foldl (fun t p => t.write p) t

def writeAndUndo : Batch → WriterTables → WriterTables
  | [], t => t
  | p :: ps, t => (writeAndUndo ps (t.write p)).undo (t.rollbackEntry p)

end WriterTables

section Loop

theorem blockIPv4_ne_none {env : CallEnv} {ip : NetIP} {entry : BlockEntry} {m : BlocklistV4} :
    (blockIPv4 env ip entry m).1 ≠ none ↔ env.Refuses ∨ ipv4ToUint32 ip = none := by
  constructor
  · intro h
    by_contra hnot
    obtain ⟨hr, hk⟩ := not_or.mp hnot
    obtain ⟨ha, he⟩ := not_or.mp hr
    obtain ⟨key, hkey⟩ := Option.ne_none_iff_exists'.mp hk
    rw [blockIPv4_of_ok (by simpa using ha) hkey (not_not.mp he)] at h
    exact h rfl
  · intro h hnone
    obtain ⟨ha, he, key, hkey, -⟩ := blockIPv4_eq_none hnone
    simp [CallEnv.Refuses, ha, he, hkey] at h

theorem HardenedWriter.logKey_tables (ip : NetIP) (event : UInt32 → WriterEvent)
    (s : HardenedWriter) : (s.logKey ip event).tables = s.tables := by
  rw [logKey]
  split <;> rfl

theorem HardenedWriter.rollback_tables (log : List RollbackEntry) (s : HardenedWriter) :
    (s.rollback log).tables = log.foldl (fun t e => t.undo e) s.tables := by
  induction log generalizing s with
  | nil => rfl
  | cons e log ih =>
    rw [rollback, foldl_cons, foldl_cons]
    exact (ih _).trans (by rw [logKey_tables])

theorem HardenedWriter.written_tables {s : HardenedWriter} {env : BatchEnv} {d : BlockDecision}
    {m : BlocklistV4} (h : Falx.blockIPv4 env.write d.ip d.entry s.tables.blocklist = (none, m)) :
    (s.written d.ip d.entry (absoluteExpiry env.write.now d.entry) m).tables =
      s.tables.write (env, d) := by
  rw [written, logKey_tables, write, h]

theorem HardenedWriter.writeDecisions_outcome (ds : Batch) (log : List RollbackEntry)
    (s : HardenedWriter) :
    ((s.writeDecisions ds log).1 ≠ none ↔ refused s.tables.dedupCache ds = true) ∧
      (s.writeDecisions ds log).2.tables =
        if refused s.tables.dedupCache ds then
          log.foldl (fun t e => t.undo e)
            (s.tables.writeAndUndo (writtenBefore s.tables.dedupCache ds))
        else s.tables.writeAll (writtenBefore s.tables.dedupCache ds) := by
  induction ds generalizing log s with
  | nil => exact ⟨by simp [writeDecisions, refused], rfl⟩
  | cons p ds ih =>
    obtain ⟨env, d⟩ := p
    rw [writeDecisions, writtenBefore, refused]
    by_cases hhit : s.tables.dedupCache d.ip.cacheKey = some (entryFingerprint d.entry)
    · rw [if_pos hhit, if_pos hhit, if_pos hhit]
      exact ih log s.hit
    rw [if_neg hhit, if_neg hhit, if_neg hhit]
    cases hw : Falx.blockIPv4 env.write d.ip d.entry s.tables.blocklist with
    | mk err m =>
      cases err with
      | some err =>
        have hno := blockIPv4_ne_none.mp (show (Falx.blockIPv4 env.write d.ip d.entry
          s.tables.blocklist).1 ≠ none by simp [hw])
        rw [if_pos hno, if_pos hno]
        exact ⟨iff_of_true (Option.some_ne_none _) rfl, rollback_tables log s⟩
      | none =>
        have hacc := mt blockIPv4_ne_none.mpr (not_not.mpr (congrArg Prod.fst hw))
        rw [if_neg hacc, if_neg hacc]
        have hrest := ih (⟨d.ip, isBlocked env.check d.ip s.tables.blocklist, env.undo⟩ :: log)
          (s.written d.ip d.entry (absoluteExpiry env.write.now d.entry) m)
        rw [written_tables hw] at hrest
        exact hrest

theorem HardenedWriter.writeDecisions_tables {ds : Batch} {log : List RollbackEntry}
    {s s' : HardenedWriter} {e : WriterError} (h : s.writeDecisions ds log = (some e, s')) :
    s'.tables = log.foldl (fun t e => t.undo e)
      (s.tables.writeAndUndo (writtenBefore s.tables.dedupCache ds)) := by
  obtain ⟨hfails, htab⟩ := s.writeDecisions_outcome ds log
  rw [h] at hfails htab
  rwa [if_pos (hfails.mp (Option.some_ne_none e))] at htab

end Loop

structure Accepted (p : BatchEnv × BlockDecision) (key : UInt32) : Prop where
  allowed : p.1.write.allowed = true
  mapErr : p.1.write.mapErr = none
  key_eq : ipv4ToUint32 p.2.ip = some key

inductive AllAccepted : Batch → Prop where
  | nil : AllAccepted []
  | cons {p : BatchEnv × BlockDecision} {key : UInt32} {ws : Batch} (hp : Accepted p key)
      (hws : AllAccepted ws) : AllAccepted (p :: ws)

theorem AllAccepted.of_mem {ws : Batch} {p : BatchEnv × BlockDecision} (hws : AllAccepted ws)
    (h : p ∈ ws) : ∃ key, Accepted p key := by
  induction hws with
  | nil => cases h
  | cons hq _ ih =>
    rcases mem_cons.mp h with rfl | h
    · exact ⟨_, hq⟩
    · exact ih h

theorem allAccepted_writtenBefore (cache : NetIP → Option UInt64) (ds : Batch) :
    AllAccepted (writtenBefore cache ds) := by
  induction ds generalizing cache with
  | nil => exact .nil
  | cons q ds ih =>
    rw [writtenBefore]
    split
    · exact ih _
    · split
      · exact .nil
      · rename_i hnot
        obtain ⟨hr, hk⟩ := not_or.mp hnot
        obtain ⟨ha, he⟩ := not_or.mp hr
        obtain ⟨key, hkey⟩ := Option.ne_none_iff_exists'.mp hk
        exact .cons ⟨by simpa using ha, not_not.mp he, hkey⟩ (ih _)

section Steps

variable {p : BatchEnv × BlockDecision} {key : UInt32}

theorem write_blocklist (h : Accepted p key) (t : WriterTables) :
    (t.write p).blocklist = update t.blocklist key
      (some (absoluteExpiry p.1.write.now p.2.entry)) := by
  simp only [write, record]
  rw [blockIPv4_of_ok h.allowed h.key_eq h.mapErr]

theorem write_dedupCache (h : Accepted p key) (t : WriterTables) :
    (t.write p).dedupCache = update t.dedupCache (addressOf key)
      (some (entryFingerprint p.2.entry)) := by
  simp only [write, record]
  rw [cacheKey_eq_addressOf.mpr h.key_eq]

theorem write_count (h : Accepted p key) (t : WriterTables) :
    (t.write p).blocklistV4Count =
      t.blocklistV4Count + if t.dedupCache (addressOf key) = none then 1 else 0 := by
  simp only [write, record]
  rw [cacheKey_eq_addressOf.mpr h.key_eq]
  split <;> omega

def found (t : WriterTables) (p : BatchEnv × BlockDecision) (key : UInt32) : Option BlockEntry :=
  (t.blocklist key).filter fun e => !e.expired p.1.check

section

variable (h : Accepted p key)

include h

theorem rollbackEntry_previous (t : WriterTables) : (t.rollbackEntry p).previous = found t p key :=
  isBlocked_of_key h.key_eq _ _

theorem undo_blocklist (t t' : WriterTables) :
    (t'.undo (t.rollbackEntry p)).blocklist =
      if p.1.undo.Refuses then t'.blocklist
      else update t'.blocklist key ((found t p key).map (absoluteExpiry p.1.undo.now)) := by
  have hprev := rollbackEntry_previous h t
  have hip : (t.rollbackEntry p).ip = p.2.ip := rfl
  have henv : (t.rollbackEntry p).undo = p.1.undo := rfl
  by_cases hr : p.1.undo.Refuses
  · rw [if_pos hr, undo]
    split
    · exact blockIPv4_refused hr
    · exact unblockIPv4_refused hr
  · obtain ⟨ha, he⟩ := not_or.mp hr
    have ha : p.1.undo.allowed = true := by simpa using ha
    have he : p.1.undo.mapErr = none := not_not.mp he
    rw [if_neg hr, undo, hprev, hip, henv]
    cases hf : found t p key with
    | some e =>
      dsimp only
      rw [blockIPv4_of_ok ha h.key_eq he]
      rfl
    | none => exact unblockIPv4_allowed h.key_eq ha he

theorem undo_dedupCache (t t' : WriterTables) :
    (t'.undo (t.rollbackEntry p)).dedupCache =
      if found t p key = none then update t'.dedupCache (addressOf key) none
      else t'.dedupCache := by
  have hprev := rollbackEntry_previous h t
  have hip : (t.rollbackEntry p).ip.cacheKey = addressOf key := cacheKey_eq_addressOf.mpr h.key_eq
  rw [undo, hprev, hip]
  cases hf : found t p key with
  | some e | none => rfl

theorem undo_count (t t' : WriterTables) :
    (t'.undo (t.rollbackEntry p)).blocklistV4Count =
      t'.blocklistV4Count - if found t p key = none then 1 else 0 := by
  have hprev := rollbackEntry_previous h t
  rw [undo, hprev]
  cases hf : found t p key with
  | some e | none => simp

theorem writesTo_cons_self (ws : Batch) : writesTo key (p :: ws) = p :: writesTo key ws := by
  rw [writesTo, filter_cons_of_pos (by simpa using h.key_eq), writesTo]

theorem writesTo_cons_of_ne {key' : UInt32} (hne : key' ≠ key) (ws : Batch) :
    writesTo key' (p :: ws) = writesTo key' ws := by
  have hno : ¬ ipv4ToUint32 p.2.ip = some key' := by
    rw [h.key_eq]
    exact fun heq => hne (Option.some.inj heq).symm
  rw [writesTo, filter_cons_of_neg (by simpa using hno), writesTo]

end

end Steps

section Undone

variable {ws : Batch}

theorem writeAndUndo_blocklist (hws : AllAccepted ws) (t : WriterTables)
    (key : UInt32) (v₀ : Option BlockEntry) : (t.writeAndUndo ws).blocklist key = v₀ ↔
      PutsBack v₀ (t.blocklist key) (writesTo key ws) := by
  induction hws generalizing t with
  | nil => exact Iff.rfl
  | @cons p k ws hk hws ih =>
    have hrest := ih (t.write p)
    rw [write_blocklist hk] at hrest
    rw [writeAndUndo, undo_blocklist hk]
    by_cases hkey : key = k
    · subst hkey
      rw [update_self] at hrest
      rw [writesTo_cons_self hk, PutsBack]
      by_cases hr : p.1.undo.Refuses
      · rw [if_pos hr, if_pos hr]
        exact hrest
      · rw [if_neg hr, if_neg hr, update_self]
        rfl
    · rw [update_of_ne hkey] at hrest
      rw [writesTo_cons_of_ne hk hkey]
      by_cases hr : p.1.undo.Refuses
      · rw [if_pos hr]
        exact hrest
      · rw [if_neg hr, update_of_ne hkey]
        exact hrest

def lastFingerprint (c : Option UInt64) (ws : Batch) : Option UInt64 :=
  match ws.getLast? with
  | some p => some (entryFingerprint p.2.entry)
  | none => c

theorem lastFingerprint_cons (c : Option UInt64) (p : BatchEnv × BlockDecision) (ws : Batch) :
    lastFingerprint c (p :: ws) = lastFingerprint (some (entryFingerprint p.2.entry)) ws := by
  cases ws with
  | nil => rfl
  | cons q ws =>
    cases hl : (q :: ws).getLast? with
    | some r => rfl
    | none => simp at hl

theorem lastFingerprint_of_ne_nil {c : Option UInt64} (h : ws ≠ []) :
    lastFingerprint c ws = ws.getLast?.map fun p => entryFingerprint p.2.entry := by
  rw [lastFingerprint]
  cases hl : ws.getLast? with
  | some p => rfl
  | none => exact absurd (List.getLast?_eq_none_iff.mp hl) h

theorem writeAndUndo_dedupCache (hws : AllAccepted ws) (t : WriterTables)
    (key : UInt32) : (t.writeAndUndo ws).dedupCache (addressOf key) =
      if absentChecks (t.blocklist key) (writesTo key ws) = 0 then
        lastFingerprint (t.dedupCache (addressOf key)) (writesTo key ws)
      else none := by
  induction hws generalizing t with
  | nil => rfl
  | @cons p k ws hk hws ih =>
    have hrest := ih (t.write p)
    rw [write_blocklist hk, write_dedupCache hk] at hrest
    rw [writeAndUndo, undo_dedupCache hk]
    by_cases hkey : key = k
    · subst hkey
      rw [update_self, update_self] at hrest
      rw [writesTo_cons_self hk, lastFingerprint_cons, absentChecks]
      by_cases hf : found t p key = none
      · have hf' : (t.blocklist key).filter (fun e => !e.expired p.1.check) = none := hf
        rw [if_pos hf, update_self, if_pos hf', if_neg (by omega)]
      · have hf' : ¬ (t.blocklist key).filter (fun e => !e.expired p.1.check) = none := hf
        rw [if_neg hf, hrest, if_neg hf', Nat.zero_add]
    · have haddr : addressOf key ≠ addressOf k := fun h => hkey (addressOf_injective h)
      rw [update_of_ne hkey, update_of_ne haddr] at hrest
      rw [writesTo_cons_of_ne hk hkey]
      by_cases hf : found t p k = none
      · rw [if_pos hf, update_of_ne haddr]
        exact hrest
      · rw [if_neg hf]
        exact hrest

theorem writeAndUndo_dedupCache_of_other (hws : AllAccepted ws)
    (t : WriterTables) {a : NetIP} (ha : ∀ p ∈ ws, p.2.ip.cacheKey ≠ a) :
    (t.writeAndUndo ws).dedupCache a = t.dedupCache a := by
  induction hws generalizing t with
  | nil => rfl
  | @cons p k ws hk hws ih =>
    have hne : a ≠ addressOf k := by
      intro h
      exact ha p (.head _) ((cacheKey_eq_addressOf.mpr hk.key_eq).trans h.symm)
    have hrest := ih (t.write p) (fun q hq => ha q (.tail p hq))
    rw [write_dedupCache hk, update_of_ne hne] at hrest
    rw [writeAndUndo, undo_dedupCache hk]
    split
    · rw [update_of_ne hne]
      exact hrest
    · exact hrest

def newlyCounted (c : Option UInt64) (ws : Batch) : Nat := if c = none ∧ ws ≠ [] then 1 else 0

theorem sum_eq_sum_add {K : Finset UInt32} {k : UInt32} (hk : k ∈ K) {f g : UInt32 → Nat} {d : Nat}
    (hself : f k = g k + d) (hne : ∀ j, j ≠ k → f j = g j) : ∑ j ∈ K, f j = ∑ j ∈ K, g j + d := by
  have h : ∀ j ∈ K, f j = g j + if j = k then d else 0 := by
    intro j _
    by_cases hj : j = k
    · rw [if_pos hj, hj]
      exact hself
    · rw [if_neg hj]
      exact hne j hj
  rw [Finset.sum_congr rfl h, Finset.sum_add_distrib, Finset.sum_ite_eq', if_pos hk]

theorem writeAndUndo_count (hws : AllAccepted ws) (t : WriterTables)
    {K : Finset UInt32} (hK : ∀ p ∈ ws, ∀ key, ipv4ToUint32 p.2.ip = some key → key ∈ K) :
    (t.writeAndUndo ws).blocklistV4Count +
        (∑ k ∈ K, absentChecks (t.blocklist k) (writesTo k ws) : ℕ) =
      t.blocklistV4Count +
        (∑ k ∈ K, newlyCounted (t.dedupCache (addressOf k)) (writesTo k ws) : ℕ) := by
  induction hws generalizing t with
  | nil => simp [writeAndUndo, writesTo, absentChecks, newlyCounted]
  | @cons p k ws hk hws ih =>
    have hmem : k ∈ K := hK p (.head _) k hk.key_eq
    have hrest := ih (t.write p) (fun q hq => hK q (.tail p hq))
    have habsent : ∑ j ∈ K, absentChecks (t.blocklist j) (writesTo j (p :: ws)) =
        ∑ j ∈ K, absentChecks ((t.write p).blocklist j) (writesTo j ws) +
          if found t p k = none then 1 else 0 := by
      apply sum_eq_sum_add hmem
      · rw [writesTo_cons_self hk, absentChecks, write_blocklist hk, update_self, Nat.add_comm]
        rfl
      · intro j hj
        rw [writesTo_cons_of_ne hk hj, write_blocklist hk, update_of_ne hj]
    have hnew : ∑ j ∈ K, newlyCounted (t.dedupCache (addressOf j)) (writesTo j (p :: ws)) =
        ∑ j ∈ K, newlyCounted ((t.write p).dedupCache (addressOf j)) (writesTo j ws) +
          if t.dedupCache (addressOf k) = none then 1 else 0 := by
      apply sum_eq_sum_add hmem
      · rw [writesTo_cons_self hk, write_dedupCache hk, update_self]
        simp [newlyCounted]
      · intro j hj
        have haddr : addressOf j ≠ addressOf k := fun h => hj (addressOf_injective h)
        rw [writesTo_cons_of_ne hk hj, write_dedupCache hk, update_of_ne haddr]
    rw [write_count hk] at hrest
    rw [writeAndUndo, undo_count hk, habsent, hnew, Int.natCast_add, Int.natCast_add]
    split_ifs at hrest ⊢ <;> omega

end Undone

section Restored

variable {ws : Batch}

def keysOf (ws : Batch) : Finset UInt32 := (ws.filterMap fun p => ipv4ToUint32 p.2.ip).toFinset

variable {key : UInt32} {t : WriterTables}

theorem mem_keysOf : key ∈ keysOf ws ↔ writesTo key ws ≠ [] := by
  rw [keysOf, mem_toFinset, mem_filterMap, writesTo, Ne, filter_eq_nil_iff]
  simp

theorem writeAndUndo_count_iff (hws : AllAccepted ws) (t : WriterTables)
    (hle : ∀ key ∈ keysOf ws, newlyCounted (t.dedupCache (addressOf key)) (writesTo key ws) ≤
      absentChecks (t.blocklist key) (writesTo key ws)) :
    (t.writeAndUndo ws).blocklistV4Count = t.blocklistV4Count ↔
      ∀ key ∈ keysOf ws, newlyCounted (t.dedupCache (addressOf key)) (writesTo key ws) =
        absentChecks (t.blocklist key) (writesTo key ws) := by
  have hcnt := writeAndUndo_count hws t (K := keysOf ws) (by
    intro p hp key hkey
    rw [keysOf, mem_toFinset, mem_filterMap]
    exact ⟨p, hp, hkey⟩)
  rw [← Finset.sum_eq_sum_iff_of_le hle]
  omega

theorem newlyCounted_of_cached {c : Option UInt64} (hne : ws ≠ [])
    (hc : c = ws.getLast?.map fun p => entryFingerprint p.2.entry) : newlyCounted c ws = 0 := by
  have hsome : ¬ (c = none ∧ ws ≠ []) := by
    rintro ⟨h0, -⟩
    rw [hc, Option.map_eq_none_iff, List.getLast?_eq_none_iff] at h0
    exact hne h0
  rw [newlyCounted, if_neg hsome]

theorem absentChecks_of_intact (h : KeyIntact t ws key) (hne : writesTo key ws ≠ []) :
    newlyCounted (t.dedupCache (addressOf key)) (writesTo key ws) =
      absentChecks (t.blocklist key) (writesTo key ws) := by
  obtain ⟨hca, -⟩ := h hne
  rcases hca with ⟨hc, hn⟩ | ⟨hc, hn⟩
  · rw [newlyCounted, if_pos ⟨hc, hne⟩, hn]
  · rw [newlyCounted_of_cached hne hc, hn]

section

variable (hws : AllAccepted ws)

include hws

theorem cached_of_writeAndUndo_eq (h : t.writeAndUndo ws = t) (hne : writesTo key ws ≠ []) :
    t.dedupCache (addressOf key) =
      if absentChecks (t.blocklist key) (writesTo key ws) = 0 then
        (writesTo key ws).getLast?.map fun p => entryFingerprint p.2.entry
      else none := by
  have hk := writeAndUndo_dedupCache hws t key
  rw [h, lastFingerprint_of_ne_nil hne] at hk
  exact hk

theorem keyIntact_of_writeAndUndo_eq (h : t.writeAndUndo ws = t) (key : UInt32) :
    KeyIntact t ws key := by
  have hle : ∀ key ∈ keysOf ws, newlyCounted (t.dedupCache (addressOf key)) (writesTo key ws) ≤
      absentChecks (t.blocklist key) (writesTo key ws) := by
    intro key hkey
    have hne := mem_keysOf.mp hkey
    have hc := cached_of_writeAndUndo_eq hws h hne
    by_cases hn : absentChecks (t.blocklist key) (writesTo key ws) = 0
    · rw [if_pos hn] at hc
      rw [newlyCounted_of_cached hne hc]
      omega
    · rw [newlyCounted]
      split <;> omega
  have hcnt := (writeAndUndo_count_iff hws t hle).mp (by rw [h])
  intro hne
  refine ⟨?_, (writeAndUndo_blocklist hws t key _).mp (by rw [h])⟩
  have hc := cached_of_writeAndUndo_eq hws h hne
  by_cases hn : absentChecks (t.blocklist key) (writesTo key ws) = 0
  · rw [if_pos hn] at hc
    exact .inr ⟨hc, hn⟩
  · rw [if_neg hn] at hc
    have heq := hcnt key (mem_keysOf.mpr hne)
    rw [newlyCounted, if_pos ⟨hc, hne⟩] at heq
    exact .inl ⟨hc, heq.symm⟩

theorem writeAndUndo_dedupCache_of_keyIntact (h : ∀ key, KeyIntact t ws key) (a : NetIP) :
    (t.writeAndUndo ws).dedupCache a = t.dedupCache a := by
  by_cases ha : ∀ p ∈ ws, p.2.ip.cacheKey ≠ a
  · exact writeAndUndo_dedupCache_of_other hws t ha
  · push Not at ha
    obtain ⟨p, hp, rfl⟩ := ha
    obtain ⟨key, hkey⟩ := hws.of_mem hp
    have hne : writesTo key ws ≠ [] :=
      ne_nil_of_mem (mem_filter.mpr ⟨hp, by simpa using hkey.key_eq⟩)
    rw [cacheKey_eq_addressOf.mpr hkey.key_eq, writeAndUndo_dedupCache hws,
      lastFingerprint_of_ne_nil hne]
    rcases (h key hne).1 with ⟨hc, hn⟩ | ⟨hc, hn⟩
    · rw [if_neg (by omega), hc]
    · rw [if_pos hn, hc]

theorem writeAndUndo_eq_self_iff (t : WriterTables) :
    t.writeAndUndo ws = t ↔ ∀ key, KeyIntact t ws key := by
  constructor
  · exact keyIntact_of_writeAndUndo_eq hws
  · intro h
    apply WriterTables.ext
    · funext key
      rw [writeAndUndo_blocklist hws]
      by_cases hne : writesTo key ws = []
      · rw [hne]
        rfl
      · exact (h key hne).2
    · funext a
      exact writeAndUndo_dedupCache_of_keyIntact hws h a
    · exact (writeAndUndo_count_iff hws t fun key hkey =>
        (absentChecks_of_intact (h key) (mem_keysOf.mp hkey)).le).mpr fun key hkey =>
          absentChecks_of_intact (h key) (mem_keysOf.mp hkey)

end

end Restored

def HardenedWriter.WindowAdmits (s : HardenedWriter) (now : Int) (ds : Batch) : Prop :=
  (s.openWindow now).windowCount + ds.length ≤ s.windowMaxOps

theorem HardenedWriter.openWindow_frame (now : Int) (s : HardenedWriter) :
    (s.openWindow now).tables = s.tables ∧ (s.openWindow now).windowMaxOps = s.windowMaxOps := by
  rw [openWindow]
  split <;> exact ⟨rfl, rfl⟩

/-- A failed batch leaves the blocklist, the cache and the counter as they were
exactly when the writes it made before the failure can be taken back at every
address. -/
theorem writeBatch_restores_iff {now : Int} {ds : Batch} {s s' : HardenedWriter}
    {e : WriterError} (h : s.writeBatch now ds = (some e, s')) :
    s'.tables = s.tables ↔
      (s.WindowAdmits now ds →
        ∀ key, KeyIntact s.tables (writtenBefore s.tables.dedupCache ds) key) := by
  obtain ⟨htab, hmax⟩ := s.openWindow_frame now
  simp only [HardenedWriter.writeBatch] at h
  split at h
  · cases h
  split at h
  · rename_i hwin
    cases h
    have hfull : ¬ s.WindowAdmits now ds := by
      rw [HardenedWriter.WindowAdmits]
      omega
    simp [htab, hfull]
  · rename_i hwin
    have hadm : s.WindowAdmits now ds := by
      rw [HardenedWriter.WindowAdmits]
      omega
    have hrun := HardenedWriter.writeDecisions_tables h
    simp only [List.foldl_nil, htab] at hrun
    rw [hrun, writeAndUndo_eq_self_iff (allAccepted_writtenBefore _ ds)]
    exact ⟨fun hintact _ => hintact, fun himp => himp hadm⟩

def dropEntry : BlockEntry where
  expireAt := 0
  action := Action.drop
  ruleId := 0
  threatScore := 80
  pad := 0
  reason := 0

def okCall : CallEnv := ⟨true, 1700000000, none⟩

def freshWriter (m : BlocklistV4) : HardenedWriter where
  tables := ⟨m, fun _ => none, 0⟩
  windowCount := 0
  windowReset := 0
  windowMaxOps := 1000
  blocklistV4Max := 65536
  stats := {}
  history := []

def failingBatch : Batch :=
  [(⟨1700000000, okCall, okCall⟩, ⟨[1, 1, 1, 1], dropEntry⟩),
    (⟨1700000000, { okCall with mapErr := some (.mapOp 7) }, okCall⟩, ⟨[2, 2, 2, 2], dropEntry⟩)]

theorem writeBatch_restores_fresh :
    ((freshWriter fun _ => none).writeBatch 1 failingBatch).2.tables =
      (freshWriter fun _ => none).tables := by
  have h : (freshWriter fun _ => none).writeBatch 1 failingBatch =
      (some (.batchFailed [2, 2, 2, 2] (.wrapped "map update failed" (.mapOp 7)) 1),
        ((freshWriter fun _ => none).writeBatch 1 failingBatch).2) := rfl
  refine (writeBatch_restores_iff h).mpr fun _ key hne => ?_
  have hwr : writtenBefore (fun _ => none) failingBatch =
      [(⟨1700000000, okCall, okCall⟩, ⟨[1, 1, 1, 1], dropEntry⟩)] := by decide
  have hkey : key = 0x01010101 := by
    by_contra hkey
    apply hne
    change writesTo key (writtenBefore (fun _ => none) failingBatch) = []
    rw [hwr, writesTo, List.filter_eq_nil_iff]
    simpa [show ipv4ToUint32 [1, 1, 1, 1] = some 0x01010101 from rfl] using fun h => hkey h.symm
  subst hkey
  exact ⟨.inl ⟨rfl, rfl⟩, rfl⟩

/-- With an entry already in the blocklist the undo puts that entry back, but
the cache keeps the fingerprint of the undone write. -/
theorem writeBatch_keeps_fingerprint :
    ((freshWriter fun k => if k = 0x01010101 then some { dropEntry with reason := 3 }
        else none).writeBatch 1 failingBatch).1 ≠ none ∧
      ((freshWriter fun k => if k = 0x01010101 then some { dropEntry with reason := 3 }
        else none).writeBatch 1 failingBatch).2.tables.dedupCache [1, 1, 1, 1] =
          some (entryFingerprint dropEntry) ∧
      (freshWriter fun k => if k = 0x01010101 then some { dropEntry with reason := 3 }
        else none).tables.dedupCache [1, 1, 1, 1] = none := by
  refine ⟨?_, ?_, ?_⟩
  · decide
  · decide
  · rfl

end Falx
