import Falx.WriteWindow
import Mathlib.Data.Set.Card
import Mathlib.Data.Set.Finite.Range

/-! The entry counter of the writer and the addresses in its cache. Only the undo of a
batch can make them differ: it takes one off the counter for each write that found no
unexpired entry, and there may be two such writes to one address. -/

namespace Falx

open WriterTables Function

namespace WriterTables

variable {p : BatchEnv × BlockDecision} {key : UInt32} {t t' : WriterTables}

def recorded (t : WriterTables) : Set NetIP := {a | t.dedupCache a ≠ none}

/-- By how much the counter falls short of the number of addresses in the cache. -/
noncomputable def lag (t : WriterTables) : Int := t.recorded.ncard - t.blocklistV4Count

theorem notMem_recorded {a : NetIP} : a ∉ t.recorded ↔ t.dedupCache a = none := not_not

theorem recorded_write (h : Accepted p key) (t : WriterTables) :
    (t.write p).recorded = insert (addressOf key) t.recorded := by
  ext a
  by_cases ha : a = addressOf key
  · simp [recorded, write_dedupCache h, ha]
  · simp [recorded, write_dedupCache h, ha]

theorem recorded_undo (h : Accepted p key) (t t' : WriterTables) :
    (t'.undo (t.rollbackEntry p)).recorded =
      if found t p key = none then t'.recorded \ {addressOf key} else t'.recorded := by
  have hca := undo_dedupCache h t t'
  split
  · rename_i hf
    rw [if_pos hf] at hca
    ext a
    by_cases ha : a = addressOf key
    · simp [recorded, hca, ha]
    · simp [recorded, hca, ha]
  · rename_i hf
    rw [if_neg hf] at hca
    rw [recorded, recorded, hca]

theorem ncard_insert (hfin : t.recorded.Finite) (a : NetIP) :
    ((insert a t.recorded).ncard : Int) =
      t.recorded.ncard + if t.dedupCache a = none then 1 else 0 := by
  split
  · rename_i ha
    rw [Set.ncard_insert_of_notMem (notMem_recorded.mpr ha) hfin]
    rfl
  · rename_i ha
    rw [Set.ncard_insert_of_mem ha]
    omega

theorem ncard_remove (hfin : t.recorded.Finite) (a : NetIP) :
    ((t.recorded \ {a}).ncard : Int) =
      t.recorded.ncard - if t.dedupCache a = none then 0 else 1 := by
  split
  · rename_i ha
    rw [Set.sdiff_singleton_eq_self (notMem_recorded.mpr ha)]
    omega
  · rename_i ha
    have hsub := Set.ncard_sdiff_singleton_add_one (s := t.recorded) (a := a) ha hfin
    omega

section

variable (h : Accepted p key)

include h

theorem lag_write (hfin : t.recorded.Finite) : (t.write p).lag = t.lag := by
  rw [lag, lag, recorded_write h, ncard_insert hfin, write_count h]
  omega

theorem lag_undo (hfin : t'.recorded.Finite) :
    (t'.undo (t.rollbackEntry p)).lag =
      t'.lag + if found t p key = none ∧ t'.dedupCache (addressOf key) = none then 1 else 0 := by
  rw [lag, lag, recorded_undo h, undo_count h]
  by_cases hf : found t p key = none
  · rw [if_pos hf, if_pos hf, ncard_remove hfin]
    by_cases hc : t'.dedupCache (addressOf key) = none
    · simp [hf, hc]
      omega
    · simp [hf, hc]
  · simp [hf]

theorem finite_write (hfin : t.recorded.Finite) : (t.write p).recorded.Finite := by
  rw [recorded_write h]
  exact hfin.insert _

theorem finite_undo (hfin : t'.recorded.Finite) :
    (t'.undo (t.rollbackEntry p)).recorded.Finite := by
  rw [recorded_undo h]
  split
  · exact hfin.sdiff
  · exact hfin

end

section Batches

variable {ws : Batch}

theorem lag_writeAll (hws : AllAccepted ws) (hfin : t.recorded.Finite) :
    (t.writeAll ws).lag = t.lag := by
  induction hws generalizing t with
  | nil => rfl
  | cons hkey hws ih =>
    rw [← lag_write hkey hfin]
    exact ih (finite_write hkey hfin)

theorem finite_writeAndUndo (hws : AllAccepted ws) (hfin : t.recorded.Finite) :
    (t.writeAndUndo ws).recorded.Finite := by
  induction hws generalizing t with
  | nil => exact hfin
  | cons hkey hws ih =>
    exact finite_undo hkey (ih (finite_write hkey hfin))

theorem lastFingerprint_some_ne_none (fp : UInt64) (ws : Batch) :
    lastFingerprint (some fp) ws ≠ none := by
  rw [lastFingerprint]
  split
  · exact Option.some_ne_none _
  · exact Option.some_ne_none _

section

variable (h : Accepted p key)

include h

theorem writeAndUndo_write_dedupCache (hws : AllAccepted ws) (t : WriterTables) :
    ((t.write p).writeAndUndo ws).dedupCache (addressOf key) = none ↔
      absentChecks ((t.write p).blocklist key) (writesTo key ws) ≠ 0 := by
  rw [writeAndUndo_dedupCache hws, write_dedupCache h, update_self]
  split
  · rename_i hz
    exact iff_of_false (lastFingerprint_some_ne_none _ _) (not_not.mpr hz)
  · rename_i hz
    exact iff_of_true rfl hz

theorem absentChecks_cons (t : WriterTables) :
    absentChecks (t.blocklist key) (writesTo key (p :: ws)) =
      (if found t p key = none then 1 else 0) +
        absentChecks ((t.write p).blocklist key) (writesTo key ws) := by
  rw [writesTo_cons_self h, write_blocklist h, update_self]
  rfl

theorem absentChecks_cons_of_ne {k : UInt32} (hne : k ≠ key)
    (t : WriterTables) : absentChecks (t.blocklist k) (writesTo k (p :: ws)) =
      absentChecks ((t.write p).blocklist k) (writesTo k ws) := by
  rw [writesTo_cons_of_ne h hne, write_blocklist h, update_of_ne hne]

theorem absentChecks_cons_le_one (hws : AllAccepted ws) (t : WriterTables) :
    (∀ k, absentChecks (t.blocklist k) (writesTo k (p :: ws)) ≤ 1) ↔
      ¬ (found t p key = none ∧
          ((t.write p).writeAndUndo ws).dedupCache (addressOf key) = none) ∧
        ∀ k, absentChecks ((t.write p).blocklist k) (writesTo k ws) ≤ 1 := by
  rw [writeAndUndo_write_dedupCache h hws]
  have hself : absentChecks (t.blocklist key) (writesTo key (p :: ws)) ≤ 1 ↔
      ¬ (found t p key = none ∧
          absentChecks ((t.write p).blocklist key) (writesTo key ws) ≠ 0) ∧
        absentChecks ((t.write p).blocklist key) (writesTo key ws) ≤ 1 := by
    rw [absentChecks_cons h]
    by_cases hf : found t p key = none
    · simp only [hf, if_true, true_and, not_not]
      omega
    · simp [hf]
  constructor
  · intro hle
    refine ⟨(hself.mp (hle key)).1, fun k => ?_⟩
    by_cases hk : k = key
    · subst hk
      exact (hself.mp (hle k)).2
    · rw [← absentChecks_cons_of_ne h hk]
      exact hle k
  · rintro ⟨honce, hle⟩ k
    by_cases hk : k = key
    · subst hk
      exact hself.mpr ⟨honce, hle k⟩
    · rw [absentChecks_cons_of_ne h hk]
      exact hle k

end

theorem lag_writeAndUndo (hws : AllAccepted ws) (hfin : t.recorded.Finite) :
    t.lag ≤ (t.writeAndUndo ws).lag ∧
      ((t.writeAndUndo ws).lag = t.lag ↔
        ∀ key, absentChecks (t.blocklist key) (writesTo key ws) ≤ 1) := by
  induction hws generalizing t with
  | nil => exact ⟨le_refl _, iff_of_true rfl fun _ => Nat.zero_le _⟩
  | cons hkey hws ih =>
    have hfin' := finite_write hkey hfin
    obtain ⟨hle, hiff⟩ := ih hfin'
    rw [lag_write hkey hfin] at hle hiff
    rw [writeAndUndo, lag_undo hkey (finite_writeAndUndo hws hfin'),
      absentChecks_cons_le_one hkey hws, ← hiff]
    split
    · rename_i hboth
      exact ⟨by omega, iff_of_false (by omega) fun h => h.1 hboth⟩
    · rename_i hnot
      rw [Int.add_zero]
      exact ⟨hle, (and_iff_right hnot).symm⟩

end Batches

end WriterTables

namespace HardenedWriter

variable (s : HardenedWriter) (now : Int)

theorem writeBatch_tables (ds : Batch) :
    (¬ s.WindowAdmits now ds → (s.writeBatch now ds).2.tables = s.tables) ∧
      (s.WindowAdmits now ds → (s.writeBatch now ds).2.tables =
        if refused s.tables.dedupCache ds then
          s.tables.writeAndUndo (writtenBefore s.tables.dedupCache ds)
        else s.tables.writeAll (writtenBefore s.tables.dedupCache ds)) := by
  obtain ⟨htab, hmax⟩ := s.openWindow_frame now
  rw [WindowAdmits, ← hmax]
  simp only [writeBatch]
  split
  · rename_i hnil
    rw [List.length_eq_zero_iff.mp hnil]
    exact ⟨fun _ => rfl, fun _ => rfl⟩
  · split
    · rename_i hfull
      exact ⟨fun _ => htab, fun hadm => absurd hadm (by omega)⟩
    · rename_i hroom
      refine ⟨fun hfull => absurd hfull (by omega), fun _ => ?_⟩
      rw [(writeDecisions_outcome ds [] _).2]
      simp only [htab, List.foldl_nil]

theorem checkWindow_tables : (s.checkWindow now).2.tables = s.tables ∧
    (s.checkWindow now).2.blocklistV4Max = s.blocklistV4Max := by
  simp only [checkWindow, openWindow]
  split <;> split <;> exact ⟨rfl, rfl⟩

def single (env : CallEnv) (ip : NetIP) (entry : BlockEntry) : BatchEnv × BlockDecision :=
  (⟨env.now, env, env⟩, ⟨ip, entry⟩)

theorem blockIPv4_tables (env : CallEnv) (ip : NetIP) (entry : BlockEntry) :
    (s.blockIPv4 now env ip entry).2.tables = s.tables ∨
      ∃ key, Accepted (single env ip entry) key ∧ s.tables.blocklistV4Count < s.capacityLimit ∧
        (s.blockIPv4 now env ip entry).2.tables = s.tables.write (single env ip entry) := by
  obtain ⟨htab, hmax⟩ := s.checkWindow_tables now
  rw [blockIPv4]
  split
  · exact .inl rfl
  · cases hc : s.checkWindow now with
    | mk ok s₁ =>
      rw [hc] at htab hmax
      cases ok with
      | false => exact .inl htab
      | true =>
        dsimp only at htab hmax ⊢
        split
        · exact .inl htab
        · rename_i hroom
          cases hw : Falx.blockIPv4 env ip entry s₁.tables.blocklist with
          | mk err m =>
            cases err with
            | some e => exact .inl htab
            | none =>
              obtain ⟨ha, he, key, hkey, -⟩ := blockIPv4_eq_none (congrArg Prod.fst hw)
              refine .inr ⟨key, ⟨ha, he, hkey⟩, ?_, ?_⟩
              · rw [capacityLimit, hmax, htab] at hroom
                exact Int.not_le.mp hroom
              · rw [← htab]
                exact @written_tables s₁ ⟨env.now, env, env⟩ ⟨ip, entry⟩ m hw

end HardenedWriter

namespace WriterTables

variable {t : WriterTables} {ws : Batch} {p : BatchEnv × BlockDecision} {key : UInt32}

def Addressed (t : WriterTables) : Prop := t.recorded ⊆ Set.range addressOf

theorem Addressed.finite (h : t.Addressed) : t.recorded.Finite := by
  have huint : Finite UInt32 := Finite.of_injective UInt32.toFin fun _ _ => UInt32.toFin_inj.mp
  exact (Set.finite_range addressOf).subset h

theorem Addressed.write (h : t.Addressed) (hp : Accepted p key) : (t.write p).Addressed := by
  rw [Addressed, recorded_write hp]
  exact Set.insert_subset (Set.mem_range_self key) h

theorem Addressed.undo {t' : WriterTables} (h : t'.Addressed) (hp : Accepted p key) :
    (t'.undo (t.rollbackEntry p)).Addressed := by
  rw [Addressed, recorded_undo hp]
  split
  · exact Set.sdiff_subset.trans h
  · exact h

theorem Addressed.writeAll (h : t.Addressed) (hws : AllAccepted ws) :
    (t.writeAll ws).Addressed := by
  induction hws generalizing t with
  | nil => exact h
  | cons hkey hws ih =>
    exact ih (h.write hkey)

theorem Addressed.writeAndUndo (h : t.Addressed) (hws : AllAccepted ws) :
    (t.writeAndUndo ws).Addressed := by
  induction hws generalizing t with
  | nil => exact h
  | cons hkey hws ih =>
    exact (ih (h.write hkey)).undo hkey

end WriterTables

section Commands

variable {s : HardenedWriter}

theorem recorded_forget (t : WriterTables) (a : NetIP) (n : Int) :
    recorded { t with
      dedupCache := update t.dedupCache a none, blocklistV4Count := n } =
      t.recorded \ {a} := by
  ext b
  by_cases hb : b = a
  · simp [recorded, hb]
  · simp [recorded, hb]

theorem purgeKey_recorded (now : UInt64) (key : NetIP) :
    (s.purgeKey now key).tables.recorded ⊆ s.tables.recorded := by
  simp only [HardenedWriter.purgeKey]
  split
  · exact subset_refl _
  · split
    · exact (recorded_forget _ _ _).subset.trans Set.sdiff_subset
    · split
      · exact (recorded_forget _ _ _).subset.trans Set.sdiff_subset
      · exact subset_refl _

theorem purgeKey_lag (h : s.tables.Addressed) (now : UInt64) (key : NetIP) :
    (s.purgeKey now key).tables.lag = s.tables.lag := by
  simp only [HardenedWriter.purgeKey]
  split
  · rfl
  · rename_i hcopy
    obtain ⟨k, rfl⟩ := h hcopy
    rw [if_neg (show ¬ ((addressOf k).length ≠ 4 ∧ (addressOf k).length ≠ 16) from
      fun hlen => hlen.1 rfl)]
    split
    · rw [lag, lag, recorded_forget, ncard_remove h.finite,
        if_neg hcopy]
      dsimp only
      omega
    · rfl

theorem purgeExpiredDedup_recorded (visits : List (UInt64 × NetIP)) :
    (s.purgeExpiredDedup visits).tables.recorded ⊆ s.tables.recorded := by
  induction visits generalizing s with
  | nil => exact subset_refl _
  | cons v visits ih => exact ih.trans (purgeKey_recorded v.1 v.2)

theorem purgeExpiredDedup_lag (h : s.tables.Addressed) (visits : List (UInt64 × NetIP)) :
    (s.purgeExpiredDedup visits).tables.lag = s.tables.lag := by
  induction visits generalizing s with
  | nil => rfl
  | cons v visits ih =>
    have hkeep : (s.purgeKey v.1 v.2).tables.Addressed := (purgeKey_recorded v.1 v.2).trans h
    exact (ih hkeep).trans (purgeKey_lag h v.1 v.2)

theorem unblockIPv4_recorded (env : CallEnv) (ip : NetIP) :
    (s.unblockIPv4 env ip).tables.recorded = s.tables.recorded ∧
      (s.unblockIPv4 env ip).tables.lag = s.tables.lag := by
  rw [HardenedWriter.unblockIPv4]
  split
  · exact ⟨rfl, rfl⟩
  · rw [HardenedWriter.logKey_tables]
    exact ⟨rfl, rfl⟩

/-- In a batch that is taken back, no two writes to one address find no unexpired entry. -/
def WriterCommand.AbsentOnce (s : HardenedWriter) : WriterCommand → Prop
  | batch now ds => s.WindowAdmits now ds → refused s.tables.dedupCache ds = true →
    ∀ key, absentChecks (s.tables.blocklist key)
      (writesTo key (writtenBefore s.tables.dedupCache ds)) ≤ 1
  | _ => True

theorem WriterCommand.addressed_run (h : s.tables.Addressed) (c : WriterCommand) :
    (c.run s).tables.Addressed := by
  cases c with
  | block now env ip entry =>
    rcases s.blockIPv4_tables now env ip entry with heq | ⟨key, hkey, -, heq⟩
    · rw [run, heq]
      exact h
    · rw [run, heq]
      exact h.write hkey
  | batch now ds =>
    have hws := allAccepted_writtenBefore s.tables.dedupCache ds
    by_cases hadm : s.WindowAdmits now ds
    · rw [run, (s.writeBatch_tables now ds).2 hadm]
      split
      · exact h.writeAndUndo hws
      · exact h.writeAll hws
    · rw [run, (s.writeBatch_tables now ds).1 hadm]
      exact h
  | purge visits => exact (purgeExpiredDedup_recorded visits).trans h
  | unblock env ip =>
    rw [run, WriterTables.Addressed, (unblockIPv4_recorded env ip).1]
    exact h
  | sweep nowSec keys => exact h

theorem WriterCommand.lag_run (h : s.tables.Addressed) (c : WriterCommand) :
    s.tables.lag ≤ (c.run s).tables.lag ∧
      ((c.run s).tables.lag = s.tables.lag ↔ c.AbsentOnce s) := by
  have hk : ∀ {c : WriterCommand}, (c.run s).tables.lag = s.tables.lag → c.AbsentOnce s →
      s.tables.lag ≤ (c.run s).tables.lag ∧
        ((c.run s).tables.lag = s.tables.lag ↔ c.AbsentOnce s) :=
    fun hlag honce => ⟨hlag.ge, iff_of_true hlag honce⟩
  cases c with
  | block now env ip entry =>
    refine hk ?_ trivial
    rcases s.blockIPv4_tables now env ip entry with heq | ⟨key, hkey, -, heq⟩
    · rw [run, heq]
    · rw [run, heq, lag_write hkey h.finite]
  | batch now ds =>
    have hws := allAccepted_writtenBefore s.tables.dedupCache ds
    by_cases hadm : s.WindowAdmits now ds
    · have htab := (s.writeBatch_tables now ds).2 hadm
      by_cases hno : refused s.tables.dedupCache ds = true
      · rw [if_pos hno] at htab
        obtain ⟨hle, hiff⟩ := lag_writeAndUndo hws h.finite
        rw [run, htab]
        exact ⟨hle, hiff.trans ⟨fun honce _ _ => honce, fun honce => honce hadm hno⟩⟩
      · rw [if_neg hno] at htab
        refine hk ?_ fun _ hr => absurd hr hno
        rw [run, htab, lag_writeAll hws h.finite]
    · refine hk ?_ fun ha => absurd ha hadm
      rw [run, (s.writeBatch_tables now ds).1 hadm]
  | purge visits => exact hk (purgeExpiredDedup_lag h visits) trivial
  | unblock env ip => exact hk (unblockIPv4_recorded env ip).2 trivial
  | sweep nowSec keys => exact hk rfl trivial

end Commands

def HardenedWriter.Along (P : HardenedWriter → WriterCommand → Prop) (s : HardenedWriter) :
    List WriterCommand → Prop
  | [] => True
  | c :: cs => P s c ∧ (c.run s).Along P cs

theorem lag_runAll {s : HardenedWriter} (h : s.tables.Addressed) (cs : List WriterCommand) :
    s.tables.lag ≤ (s.runAll cs).tables.lag ∧
      ((s.runAll cs).tables.lag = s.tables.lag ↔
        s.Along (fun s c => c.AbsentOnce s) cs) := by
  induction cs generalizing s with
  | nil => exact ⟨le_refl _, iff_of_true rfl trivial⟩
  | cons c cs ih =>
    obtain ⟨hle, hiff⟩ := WriterCommand.lag_run h c
    obtain ⟨hle', hiff'⟩ := ih (WriterCommand.addressed_run h c)
    rw [HardenedWriter.Along, ← hiff, ← hiff']
    refine ⟨hle.trans hle', fun hsame => ?_, fun ⟨hfst, hrest⟩ => hrest.trans hfst⟩
    have hfst : (c.run s).tables.lag = s.tables.lag := le_antisymm (hsame ▸ hle') hle
    exact ⟨hfst, hsame.trans hfst.symm⟩

/-- The counter is right after a run exactly when no batch that was taken back had found the
same address absent twice. -/
theorem runAll_count_iff (maxOpsPerWindow maxEntries now : Int) (m : BlocklistV4)
    (cs : List WriterCommand) :
    let s := newHardenedWriter maxOpsPerWindow maxEntries now m
    (s.runAll cs).tables.blocklistV4Count =
        {a | (s.runAll cs).tables.dedupCache a ≠ none}.ncard ↔
      s.Along (fun s c => c.AbsentOnce s) cs := by
  intro s
  have hnone : s.tables.recorded = ∅ := Set.eq_empty_of_forall_notMem fun a ha => ha rfl
  have haddr : s.tables.Addressed := by
    rw [WriterTables.Addressed, hnone]
    exact Set.empty_subset _
  have hzero : s.tables.lag = 0 := by
    rw [WriterTables.lag, hnone, Set.ncard_empty]
    rfl
  rw [← (lag_runAll haddr cs).2, hzero, WriterTables.lag, Int.sub_eq_zero]
  exact eq_comm

def repeatedBatch (first : BlockEntry) : Batch :=
  [(⟨1700000000, okCall, okCall⟩, ⟨[1, 1, 1, 1], first⟩),
    (⟨1700000000, okCall, okCall⟩, ⟨[1, 1, 1, 1], { dropEntry with reason := 3 }⟩),
    (⟨1700000000, { okCall with mapErr := some (.mapOp 7) }, okCall⟩, ⟨[2, 2, 2, 2], dropEntry⟩)]

/-- The second decision finds the entry of the first. -/
theorem runAll_count_repeated :
    let s := newHardenedWriter 1000 65536 0 fun _ => none
    (s.runAll [.batch 1 (repeatedBatch dropEntry)]).tables.blocklistV4Count =
      {a | (s.runAll [.batch 1 (repeatedBatch dropEntry)]).tables.dedupCache a ≠ none}.ncard := by
  refine (runAll_count_iff 1000 65536 0 (fun _ => none) _).mpr ⟨fun _ _ key => ?_, trivial⟩
  by_cases hkey : key = 0x01010101
  · subst hkey
    decide
  · have hwr : writtenBefore (fun _ => none) (repeatedBatch dropEntry) =
        (repeatedBatch dropEntry).take 2 := by decide
    have hnone : writesTo key ((repeatedBatch dropEntry).take 2) = [] := by
      simpa [repeatedBatch, writesTo, show ipv4ToUint32 [1, 1, 1, 1] = some 0x01010101 from rfl]
        using fun h => hkey h.symm
    show absentChecks none (writesTo key (writtenBefore (fun _ => none)
      (repeatedBatch dropEntry))) ≤ 1
    rw [hwr, hnone]
    exact Nat.zero_le _

/-- The first entry has an expiry that is already past, so that the second decision finds
none, and the undo takes the address off the counter twice. -/
theorem runAll_count_negative :
    let s := (newHardenedWriter 1000 65536 0 fun _ => none).runAll
      [.batch 1 (repeatedBatch { dropEntry with expireAt := 1600000000 })]
    s.tables.blocklistV4Count = -1 ∧ {a | s.tables.dedupCache a ≠ none}.ncard = 0 := by
  intro s
  have hca : s.tables.dedupCache = Function.update (Function.update (Function.update
      (Function.update (fun _ => none) [1, 1, 1, 1]
        (some (entryFingerprint { dropEntry with expireAt := 1600000000 })))
      [1, 1, 1, 1] (some (entryFingerprint { dropEntry with reason := 3 })))
      [1, 1, 1, 1] none) [1, 1, 1, 1] none := rfl
  refine ⟨by decide, ?_⟩
  simp [hca, Function.update_apply]

end Falx
