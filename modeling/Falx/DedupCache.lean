import Falx.BatchRollback

/-! What a nil result of the writer means. The cache remembers the fingerprint
of the last entry written for an address; the time to live is not part of it,
and nobody tells the cache when the entry leaves the blocklist. -/

namespace Falx

open HardenedWriter Function Words

structure LastWrite where
  entry : BlockEntry
  stored : BlockEntry
  /-- the entry was removed or replaced after the write -/
  lost : Bool

def lastWrite (key : UInt32) : List WriterEvent → Option LastWrite
  | [] => none
  | .wrote k entry stored :: es =>
    if k = key then some ⟨entry, stored, false⟩ else lastWrite key es
  | .lost k :: es =>
    if k = key then (lastWrite key es).map ({ · with lost := true }) else lastWrite key es

namespace HardenedWriter

def unblockIPv4 (env : CallEnv) (ip : NetIP) (s : HardenedWriter) : HardenedWriter :=
  match Falx.unblockIPv4 env ip s.tables.blocklist with
  | (some _, _) => s
  | (none, m) => { s with tables.blocklist := m }.logKey ip .lost

def sweep (nowSec : UInt64) (keys : List UInt32) (s : HardenedWriter) : HardenedWriter :=
  { s with
    tables.blocklist := sweepBlocklistV4 nowSec keys s.tables.blocklist
    history := (keys.filter (isExpiredIn s.tables.blocklist nowSec)).map .lost ++ s.history }

end HardenedWriter

inductive WriterCommand where
  | block (now : Int) (env : CallEnv) (ip : NetIP) (entry : BlockEntry)
  | batch (now : Int) (ds : Batch)
  | purge (visits : List (UInt64 × NetIP))
  | unblock (env : CallEnv) (ip : NetIP)
  | sweep (nowSec : UInt64) (keys : List UInt32)

def WriterCommand.run (s : HardenedWriter) : WriterCommand → HardenedWriter
  | block now env ip entry => (s.blockIPv4 now env ip entry).2
  | batch now ds => (s.writeBatch now ds).2
  | purge visits => s.purgeExpiredDedup visits
  | unblock env ip => s.unblockIPv4 env ip
  | sweep nowSec keys => s.sweep nowSec keys

def HardenedWriter.runAll (cs : List WriterCommand) (s : HardenedWriter) : HardenedWriter :=
  cs.foldl WriterCommand.run s

/-- Every cached fingerprint is that of the last write for its address, and the
blocklist holds what was written unless it has been lost since. -/
def Remembers (s : HardenedWriter) : Prop :=
  ∀ a fp, s.tables.dedupCache a = some fp → ∃ key w, a = addressOf key ∧
    lastWrite key s.history = some w ∧ entryFingerprint w.entry = fp ∧
    (∃ now, w.stored = absoluteExpiry now w.entry) ∧
    (w.lost = false → s.tables.blocklist key = some w.stored)

section Primitive

variable {s s' : HardenedWriter}

theorem Remembers.forget (hs : Remembers s) (hhist : s'.history = s.history)
    (hbl : s'.tables.blocklist = s.tables.blocklist)
    (hca : ∀ a fp, s'.tables.dedupCache a = some fp → s.tables.dedupCache a = some fp) :
    Remembers s' := by
  intro a fp h
  rw [hhist, hbl]
  exact hs a fp (hca a fp h)

theorem lastWrite_lost_append (key : UInt32) (ks : List UInt32) (es : List WriterEvent) :
    lastWrite key (ks.map .lost ++ es) =
      if key ∈ ks then (lastWrite key es).map ({ · with lost := true }) else lastWrite key es := by
  induction ks with
  | nil => rfl
  | cons k ks ih =>
    rw [List.map_cons, List.cons_append, lastWrite, ih]
    by_cases hk : k = key
    · subst hk
      rw [if_pos rfl, if_pos List.mem_cons_self]
      by_cases hmem : k ∈ ks
      · rw [if_pos hmem, Option.map_map]
        rfl
      · rw [if_neg hmem]
    · rw [if_neg hk]
      have hiff : key ∈ k :: ks ↔ key ∈ ks := by rw [List.mem_cons, or_iff_right fun h => hk h.symm]
      simp only [hiff]

theorem Remembers.lose (hs : Remembers s) {l : List UInt32}
    (hhist : s'.history = l.map .lost ++ s.history)
    (hbl : ∀ key, key ∉ l → s'.tables.blocklist key = s.tables.blocklist key)
    (hca : ∀ a fp, s'.tables.dedupCache a = some fp → s.tables.dedupCache a = some fp) :
    Remembers s' := by
  intro a fp h
  obtain ⟨key, w, ha, hlast, hfp, hnow, hheld⟩ := hs a fp (hca a fp h)
  rw [hhist]
  by_cases hmem : key ∈ l
  · refine ⟨key, { w with lost := true }, ha, ?_, hfp, hnow, fun hl => by cases hl⟩
    rw [lastWrite_lost_append, if_pos hmem, hlast]
    rfl
  · refine ⟨key, w, ha, ?_, hfp, hnow, fun hl => ?_⟩
    · rw [lastWrite_lost_append, if_neg hmem, hlast]
    · rw [hbl key hmem]
      exact hheld hl

theorem Remembers.written (hs : Remembers s) {key : UInt32} {ip : NetIP}
    (hkey : ipv4ToUint32 ip = some key) (entry : BlockEntry) (now : UInt64) :
    Remembers (s.written ip entry (absoluteExpiry now entry)
      (update s.tables.blocklist key (some (absoluteExpiry now entry)))) := by
  intro a fp h
  simp only [HardenedWriter.written, HardenedWriter.logKey, hkey, WriterTables.record] at h ⊢
  rw [cacheKey_eq_addressOf.mpr hkey] at h
  by_cases ha : a = addressOf key
  · subst ha
    rw [update_self] at h
    refine ⟨key, ⟨entry, absoluteExpiry now entry, false⟩, rfl, ?_, Option.some.inj h,
      ⟨now, rfl⟩, fun _ => update_self _ _ _⟩
    rw [lastWrite, if_pos rfl]
  · rw [update_of_ne ha] at h
    obtain ⟨k, w, rfl, hlast, hfp, hnow, hheld⟩ := hs a fp h
    have hne : k ≠ key := fun heq => ha (heq ▸ rfl)
    refine ⟨k, w, rfl, ?_, hfp, hnow, fun hl => ?_⟩
    · rw [lastWrite, if_neg fun heq => hne heq.symm]
      exact hlast
    · rw [update_of_ne hne]
      exact hheld hl

end Primitive

section Steps

variable {s : HardenedWriter}

theorem undo_shrinks (e : RollbackEntry) (t : WriterTables) (a : NetIP) (fp : UInt64)
    (h : (t.undo e).dedupCache a = some fp) : t.dedupCache a = some fp := by
  rw [WriterTables.undo] at h
  split at h
  · exact h
  · by_cases ha : a = e.ip.cacheKey
    · simp only [ha, update_self] at h
      cases h
    · simpa only [update_of_ne ha] using h

theorem undo_blocklist_of_ne (e : RollbackEntry) (t : WriterTables) {key : UInt32}
    (h : ipv4ToUint32 e.ip ≠ some key) : (t.undo e).blocklist key = t.blocklist key := by
  rw [WriterTables.undo]
  split
  · rename_i prev _
    rcases blockIPv4_apply (m := t.blocklist) e.undo e.ip prev key with heq | ⟨hkey, -⟩
    · exact heq
    · exact absurd hkey h
  · rcases unblockIPv4_apply (m := t.blocklist) e.undo e.ip key with heq | ⟨hkey, -⟩
    · exact heq
    · exact absurd hkey h

section

variable (hs : Remembers s)

include hs

theorem Remembers.undone (e : RollbackEntry) :
    Remembers ({ s with tables := s.tables.undo e }.logKey e.ip .lost) := by
  cases hkey : ipv4ToUint32 e.ip with
  | none =>
    refine hs.forget ?_ ?_ ?_
    · simp only [logKey, hkey]
    · rw [logKey_tables]
      funext key
      exact undo_blocklist_of_ne e s.tables (by rw [hkey]; exact (Option.some_ne_none key).symm)
    · intro a fp h
      rw [logKey_tables] at h
      exact undo_shrinks e s.tables a fp h
  | some key =>
    refine hs.lose (l := [key]) ?_ ?_ ?_
    · simp only [logKey, hkey, List.map_cons, List.map_nil, List.cons_append,
        List.nil_append]
    · intro k hk
      rw [logKey_tables]
      apply undo_blocklist_of_ne
      rw [hkey]
      exact fun heq => hk (by rw [Option.some.inj heq]; exact .head _)
    · intro a fp h
      rw [logKey_tables] at h
      exact undo_shrinks e s.tables a fp h

theorem Remembers.rollback (log : List RollbackEntry) : Remembers (s.rollback log) := by
  induction log generalizing s with
  | nil => exact hs
  | cons e log ih => exact ih (hs.undone e)

theorem Remembers.stats (stats : WriterStats) : Remembers { s with stats := stats } := hs

theorem Remembers.writeDecisions (ds : Batch) (log : List RollbackEntry) :
    Remembers (s.writeDecisions ds log).2 := by
  induction ds generalizing s log with
  | nil => exact hs.stats _
  | cons p ds ih =>
    obtain ⟨env, d⟩ := p
    rw [writeDecisions]
    split
    · exact ih (hs.stats _) log
    · cases hw : Falx.blockIPv4 env.write d.ip d.entry s.tables.blocklist with
      | mk err m =>
        cases err with
        | some err => exact (hs.rollback log).stats _
        | none =>
          obtain ⟨-, -, key, hkey, heq⟩ := blockIPv4_eq_none (congrArg Prod.fst hw)
          obtain rfl : m = _ := congrArg Prod.snd (hw.symm.trans heq)
          exact ih (hs.written hkey d.entry env.write.now) _

theorem Remembers.openWindow (now : Int) : Remembers (s.openWindow now) := by
  rw [HardenedWriter.openWindow]
  split <;> exact hs

theorem Remembers.checkWindow (now : Int) : Remembers (s.checkWindow now).2 := by
  have hopen := hs.openWindow now
  simp only [HardenedWriter.checkWindow]
  split <;> exact hopen

theorem Remembers.writeBatch (now : Int) (ds : Batch) : Remembers (s.writeBatch now ds).2 := by
  have hopen := hs.openWindow now
  simp only [HardenedWriter.writeBatch]
  split
  · exact hs
  · split
    · exact hopen
    · have hcnt : Remembers { s.openWindow now with
          windowCount := (s.openWindow now).windowCount + ds.length } := hopen
      exact hcnt.writeDecisions ds []

theorem Remembers.purgeKey (now : UInt64) (key : NetIP) : Remembers (s.purgeKey now key) := by
  have hshrink : ∀ a fp, update s.tables.dedupCache key none a = some fp →
      s.tables.dedupCache a = some fp := by
    intro a fp h
    by_cases ha : a = key
    · rw [ha, update_self] at h
      cases h
    · rwa [update_of_ne ha] at h
  simp only [HardenedWriter.purgeKey]
  split
  · exact hs
  · split
    · exact hs.forget rfl rfl hshrink
    · split
      · exact hs.forget rfl rfl hshrink
      · exact hs

theorem Remembers.purge (visits : List (UInt64 × NetIP)) :
    Remembers (s.purgeExpiredDedup visits) := by
  induction visits generalizing s with
  | nil => exact hs
  | cons v visits ih => exact ih (hs.purgeKey v.1 v.2)

theorem Remembers.unblockIPv4 (env : CallEnv) (ip : NetIP) : Remembers (s.unblockIPv4 env ip) := by
  rw [HardenedWriter.unblockIPv4]
  cases hu : Falx.unblockIPv4 env ip s.tables.blocklist with
  | mk err m =>
    cases err with
    | some e => exact hs
    | none =>
      have hm : m = (Falx.unblockIPv4 env ip s.tables.blocklist).2 := by rw [hu]
      cases hkey : ipv4ToUint32 ip with
      | none =>
        simp only [Falx.unblockIPv4, hkey] at hu
        split at hu <;> cases hu
      | some key =>
        refine hs.lose (l := [key]) ?_ ?_ fun a fp h => ?_
        · simp only [HardenedWriter.logKey, hkey, List.map_cons, List.map_nil, List.cons_append,
            List.nil_append]
        · intro k hk
          rw [HardenedWriter.logKey_tables]
          rw [hm]
          rcases unblockIPv4_apply (m := s.tables.blocklist) env ip k with heq | ⟨hk', -⟩
          · exact heq
          · rw [hkey] at hk'
            exact absurd (Option.some.inj hk' ▸ (.head _)) hk
        · rw [HardenedWriter.logKey_tables] at h
          exact h

theorem Remembers.sweep (nowSec : UInt64) (keys : List UInt32) :
    Remembers (s.sweep nowSec keys) := by
  refine hs.lose rfl ?_ fun a fp h => h
  intro key hmem
  exact (foldl_delete_apply _ _ key).trans (if_neg hmem)

end

end Steps

variable {now : Int} {s s' : HardenedWriter}

theorem Remembers.checked {b : Bool} (hs : Remembers s) (h : s.checkWindow now = (b, s')) :
    Remembers s' := by
  have hc := hs.checkWindow now
  rw [h] at hc
  exact hc

theorem blockIPv4_nil {env : CallEnv} {ip : NetIP} {entry : BlockEntry}
    (h : s.blockIPv4 now env ip entry = (none, s')) :
    s.tables.dedupCache ip.cacheKey = some (entryFingerprint entry) ∧ s' = s.hit ∨
      ∃ s₁ key, s.checkWindow now = (true, s₁) ∧ ipv4ToUint32 ip = some key ∧
        s.tables.dedupCache ip.cacheKey ≠ some (entryFingerprint entry) ∧
        s' = s₁.written ip entry (absoluteExpiry env.now entry)
          (update s₁.tables.blocklist key (some (absoluteExpiry env.now entry))) := by
  rw [HardenedWriter.blockIPv4] at h
  split at h
  · rename_i hhit
    cases h
    exact .inl ⟨hhit, rfl⟩
  · rename_i hmiss
    cases hc : s.checkWindow now with
    | mk ok s₁ =>
      cases ok with
      | false => simp [hc] at h
      | true =>
        simp only [hc] at h
        split at h
        · cases h
        · cases hw : Falx.blockIPv4 env ip entry s₁.tables.blocklist with
          | mk err m =>
            cases err with
            | some e => simp [hw] at h
            | none =>
              obtain ⟨-, -, key, hkey, heq⟩ := blockIPv4_eq_none (congrArg Prod.fst hw)
              obtain rfl : m = _ := congrArg Prod.snd (hw.symm.trans heq)
              simp only [hw] at h
              cases h
              exact .inr ⟨s₁, key, rfl, hkey, hmiss, rfl⟩

theorem Remembers.blockIPv4 (hs : Remembers s) (now : Int) (env : CallEnv) (ip : NetIP)
    (entry : BlockEntry) : Remembers (s.blockIPv4 now env ip entry).2 := by
  cases h : s.blockIPv4 now env ip entry with
  | mk err s' =>
    cases err with
    | none =>
      rcases blockIPv4_nil h with ⟨-, rfl⟩ | ⟨s₁, key, hc, hkey, -, rfl⟩
      · exact hs.stats _
      · exact (hs.checked hc).written hkey entry env.now
    | some e =>
      rw [HardenedWriter.blockIPv4] at h
      split at h
      · cases h
      · cases hc : s.checkWindow now with
        | mk ok s₁ =>
          have h₁ := hs.checked hc
          cases ok with
          | false =>
            simp only [hc] at h
            cases h
            exact h₁.stats _
          | true =>
            simp only [hc] at h
            split at h
            · cases h
              exact h₁.stats _
            · split at h
              · cases h
                exact h₁
              · cases h

theorem Remembers.run (hs : Remembers s) (c : WriterCommand) : Remembers (c.run s) := by
  cases c with
  | block now env ip entry => exact hs.blockIPv4 now env ip entry
  | batch now ds => exact hs.writeBatch now ds
  | purge visits => exact hs.purge visits
  | unblock env ip => exact hs.unblockIPv4 env ip
  | sweep nowSec keys => exact hs.sweep nowSec keys

theorem Remembers.runAll (hs : Remembers s) (cs : List WriterCommand) :
    Remembers (s.runAll cs) := by
  induction cs generalizing s with
  | nil => exact hs
  | cons c cs ih => exact ih (hs.run c)

/-- In every run from an empty cache: a nil result means that the last write for
the address was of an entry with the same fingerprint, and that the blocklist
holds what was written unless it has been lost since. A call that is not
answered from the cache writes the entry itself. -/
theorem blockIPv4_nil_lastWrite {s₀ s s' : HardenedWriter} {cs : List WriterCommand} {now : Int}
    {env : CallEnv} {ip : NetIP} {entry : BlockEntry}
    (hempty : ∀ a, s₀.tables.dedupCache a = none) (hs : s = s₀.runAll cs)
    (h : s.blockIPv4 now env ip entry = (none, s')) :
    ∃ key w, ipv4ToUint32 ip = some key ∧ lastWrite key s'.history = some w ∧
      entryFingerprint w.entry = entryFingerprint entry ∧
      (∃ t, w.stored = absoluteExpiry t w.entry) ∧
      (w.lost = false → s'.tables.blocklist key = some w.stored) ∧
      (s.tables.dedupCache ip.cacheKey ≠ some (entryFingerprint entry) →
        w = ⟨entry, absoluteExpiry env.now entry, false⟩) := by
  have hrem : Remembers s := by
    rw [hs]
    apply Remembers.runAll
    intro a fp ha
    rw [hempty a] at ha
    cases ha
  rcases blockIPv4_nil h with ⟨hhit, rfl⟩ | ⟨s₁, key, hc, hkey, hmiss, rfl⟩
  · obtain ⟨key, w, ha, hlast, hfp, hnow, hheld⟩ := hrem _ _ hhit
    exact ⟨key, w, cacheKey_eq_addressOf.mp ha, hlast, hfp, hnow, hheld,
      fun hmiss => absurd hhit hmiss⟩
  · refine ⟨key, ⟨entry, absoluteExpiry env.now entry, false⟩, hkey, ?_, rfl, ⟨env.now, rfl⟩,
      fun _ => ?_, fun _ => rfl⟩
    · simp only [HardenedWriter.written, HardenedWriter.logKey, hkey]
      rw [lastWrite, if_pos rfl]
    · rw [HardenedWriter.written, HardenedWriter.logKey_tables]
      exact update_self _ _ _

def minuteEntry : BlockEntry := { dropEntry with expireAt := 60 }

def afterMinuteBlock : HardenedWriter :=
  (freshWriter fun _ => none).runAll [.block 1 okCall [1, 1, 1, 1] minuteEntry]

theorem blockIPv4_nil_lastWrite_repeated :
    ∃ key w, ipv4ToUint32 [1, 1, 1, 1] = some key ∧
      lastWrite key (afterMinuteBlock.blockIPv4 2 okCall [1, 1, 1, 1] dropEntry).2.history =
        some w ∧ w.lost = false ∧
      (afterMinuteBlock.blockIPv4 2 okCall [1, 1, 1, 1] dropEntry).2.tables.blocklist key =
        some w.stored := by
  have h : afterMinuteBlock.blockIPv4 2 okCall [1, 1, 1, 1] dropEntry =
      (none, (afterMinuteBlock.blockIPv4 2 okCall [1, 1, 1, 1] dropEntry).2) := rfl
  obtain ⟨key, w, hkey, hlast, -, -, hheld, -⟩ := blockIPv4_nil_lastWrite (fun _ => rfl) rfl h
  obtain rfl : 0x01010101 = key := Option.some.inj hkey
  have hw : w = ⟨minuteEntry, { minuteEntry with expireAt := 1700000060 }, false⟩ :=
    Option.some.inj hlast.symm
  exact ⟨_, w, hkey, hlast, by rw [hw], hheld (by rw [hw])⟩

/-- A permanent block after a block of one minute: the result is nil, and the
blocklist still holds the entry that expires. -/
theorem blockIPv4_nil_expiring :
    (afterMinuteBlock.blockIPv4 2 okCall [1, 1, 1, 1] dropEntry).1 = none ∧
      dropEntry.expireAt = 0 ∧
      ((afterMinuteBlock.blockIPv4 2 okCall [1, 1, 1, 1] dropEntry).2.tables.blocklist
        0x01010101).map BlockEntry.expireAt = some 1700000060 :=
  ⟨rfl, rfl, rfl⟩

end Falx
