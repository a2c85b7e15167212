import Falx.WriterCount

/-! The capacity guard of the writer. A single block is refused once the counter has
reached 95 percent of the map; a batch is written without a look at the counter. -/

namespace Falx

open WriterTables

section Batches

variable {t : WriterTables} {ws : Batch} {p : BatchEnv × BlockDecision} {key : UInt32}

theorem keysOf_cons (h : Accepted p key) (ws : Batch) :
    keysOf (p :: ws) = insert key (keysOf ws) := by
  simp [keysOf, h.key_eq]

theorem recorded_write_subset (h : Accepted p key) (t : WriterTables) :
    (t.write p).recorded ∪ Set.image addressOf (keysOf ws) =
      t.recorded ∪ Set.image addressOf (keysOf (p :: ws)) := by
  rw [recorded_write h, keysOf_cons h, Finset.coe_insert, Set.image_insert_eq,
    Set.insert_union, Set.union_insert]

theorem recorded_writeAll (hws : AllAccepted ws) :
    (t.writeAll ws).recorded ⊆ t.recorded ∪ Set.image addressOf (keysOf ws) := by
  induction hws generalizing t with
  | nil => exact Set.subset_union_left
  | cons hkey hws ih =>
    rw [← recorded_write_subset hkey]
    exact ih

theorem recorded_writeAndUndo (hws : AllAccepted ws) :
    (t.writeAndUndo ws).recorded ⊆ t.recorded ∪ Set.image addressOf (keysOf ws) := by
  induction hws generalizing t with
  | nil => exact Set.subset_union_left
  | cons hkey hws ih =>
    rw [← recorded_write_subset hkey, writeAndUndo, recorded_undo hkey]
    split
    · exact Set.sdiff_subset.trans ih
    · exact ih

def newAddresses (cache : NetIP → Option UInt64) (ds : Batch) : Finset UInt32 :=
  (keysOf (writtenBefore cache ds)).filter fun key => cache (addressOf key) = none

theorem recorded_union_keysOf (t : WriterTables) (ds : Batch) :
    t.recorded ∪ Set.image addressOf (keysOf (writtenBefore t.dedupCache ds)) =
      t.recorded ∪ Set.image addressOf (newAddresses t.dedupCache ds) := by
  refine subset_antisymm (Set.union_subset Set.subset_union_left ?_)
    (Set.union_subset_union_right _ (Set.image_mono (Finset.coe_subset.mpr
      (Finset.filter_subset _ _))))
  rintro _ ⟨key, hkey, rfl⟩
  by_cases hnew : t.dedupCache (addressOf key) = none
  · exact .inr ⟨key, Finset.mem_coe.mpr (Finset.mem_filter.mpr ⟨hkey, hnew⟩), rfl⟩
  · exact .inl hnew

end Batches

section Commands

variable {s : HardenedWriter}

/-- A batch adds no more addresses than the guard leaves room for. -/
def WriterCommand.Fits (s : HardenedWriter) : WriterCommand → Prop
  | batch now ds => s.WindowAdmits now ds →
    (s.tables.recorded.ncard + (newAddresses s.tables.dedupCache ds).card : Int) ≤ s.capacityLimit
  | _ => True

theorem writeBatch_recorded (now : Int) (ds : Batch) :
    (s.writeBatch now ds).2.tables.recorded ⊆ s.tables.recorded ∪
      Set.image addressOf (newAddresses s.tables.dedupCache ds) := by
  have hws := allAccepted_writtenBefore s.tables.dedupCache ds
  by_cases hadm : s.WindowAdmits now ds
  · rw [(s.writeBatch_tables now ds).2 hadm, ← recorded_union_keysOf]
    split
    · exact recorded_writeAndUndo hws
    · exact recorded_writeAll hws
  · rw [(s.writeBatch_tables now ds).1 hadm]
    exact Set.subset_union_left

section

variable (h : s.tables.Addressed)

include h

theorem limit_of_subset {t : WriterTables}
    (hsub : t.recorded ⊆ s.tables.recorded) :
    ((s.tables.recorded.ncard : Int) ≤ s.capacityLimit →
        (t.recorded.ncard : Int) ≤ s.capacityLimit) ∧
      (s.capacityLimit ≤ s.tables.recorded.ncard → t.recorded ⊆ s.tables.recorded) := by
  have hle := Set.ncard_le_ncard hsub h.finite
  exact ⟨fun hst => by omega, fun _ => hsub⟩

theorem writeBatch_limit {now : Int} {ds : Batch}
    (hbound : (s.tables.recorded.ncard : Int) + (newAddresses s.tables.dedupCache ds).card ≤
      s.capacityLimit) :
    ((s.writeBatch now ds).2.tables.recorded.ncard : Int) ≤ s.capacityLimit ∧
      (s.capacityLimit ≤ s.tables.recorded.ncard →
        (s.writeBatch now ds).2.tables.recorded ⊆ s.tables.recorded) := by
  have hsub := writeBatch_recorded (s := s) now ds
  have hle := Set.ncard_le_ncard hsub (h.finite.union (Set.toFinite _))
  have hunion := Set.ncard_union_le s.tables.recorded
    (Set.image addressOf (newAddresses s.tables.dedupCache ds))
  have himage := Set.ncard_image_le (f := addressOf)
    (newAddresses s.tables.dedupCache ds).finite_toSet
  rw [Set.ncard_coe_finset] at himage
  refine ⟨by omega, fun hfull => ?_⟩
  have hnone : newAddresses s.tables.dedupCache ds = ∅ := Finset.card_eq_zero.mp (by omega)
  rwa [hnone, Finset.coe_empty, Set.image_empty, Set.union_empty] at hsub

theorem WriterCommand.recorded_run {c : WriterCommand}
    (hcnt : s.tables.lag = 0) (hfits : c.Fits s) :
    ((s.tables.recorded.ncard : Int) ≤ s.capacityLimit →
        ((c.run s).tables.recorded.ncard : Int) ≤ s.capacityLimit) ∧
      (s.capacityLimit ≤ s.tables.recorded.ncard →
        (c.run s).tables.recorded ⊆ s.tables.recorded) := by
  cases c with
  | block now env ip entry =>
    rcases s.blockIPv4_tables now env ip entry with heq | ⟨key, hkey, hroom, heq⟩
    · exact limit_of_subset h (by rw [run, heq])
    · rw [lag] at hcnt
      rw [run, heq, recorded_write hkey]
      have hle := Set.ncard_insert_le (addressOf key) s.tables.recorded
      exact ⟨fun _ => by omega, fun hfull => by omega⟩
  | batch now ds =>
    by_cases hadm : s.WindowAdmits now ds
    · obtain ⟨hli, hnone⟩ := writeBatch_limit h (hfits hadm)
      exact ⟨fun _ => hli, hnone⟩
    · exact limit_of_subset h (by rw [run, (s.writeBatch_tables now ds).1 hadm])
  | purge visits => exact limit_of_subset h (purgeExpiredDedup_recorded visits)
  | unblock env ip => exact limit_of_subset h (unblockIPv4_recorded env ip).1.subset
  | sweep nowSec keys => exact limit_of_subset h (subset_refl _)

end

end Commands

theorem HardenedWriter.along_append {P : HardenedWriter → WriterCommand → Prop}
    (pre post : List WriterCommand) (s : HardenedWriter) :
    s.Along P (pre ++ post) ↔ s.Along P pre ∧ (s.runAll pre).Along P post := by
  induction pre generalizing s with
  | nil => exact ⟨fun h => ⟨trivial, h⟩, fun h => h.2⟩
  | cons c pre ih =>
    rw [List.cons_append, Along, Along, ih, and_assoc]
    rfl

structure Guarded (limit : Int) (s : HardenedWriter) : Prop where
  addressed : s.tables.Addressed
  counted : s.tables.blocklistV4Count = s.tables.recorded.ncard
  capacity : s.capacityLimit = limit
  bounded : (s.tables.recorded.ncard : Int) ≤ limit

variable {limit : Int} {s : HardenedWriter}

theorem Guarded.run {c : WriterCommand} (h : Guarded limit s) (honce : c.AbsentOnce s)
    (hfits : c.Fits s) : Guarded limit (c.run s) := by
  obtain ⟨haddr, hcnt, hcap, hle⟩ := h
  have hzero : s.tables.lag = 0 := by rw [lag, hcnt, Int.sub_self]
  have hlag : (c.run s).tables.lag = 0 := ((WriterCommand.lag_run haddr c).2.mpr honce).trans hzero
  refine ⟨WriterCommand.addressed_run haddr c, ?_, ?_, ?_⟩
  · rw [lag, Int.sub_eq_zero] at hlag
    exact hlag.symm
  · have hmax : (c.run s).blocklistV4Max = s.blocklistV4Max := by
      rcases c.limits_run s with h | ⟨_, _, _, h⟩ <;> exact congrArg Prod.snd h
    rw [HardenedWriter.capacityLimit, hmax]
    exact hcap
  · rw [← hcap]
    exact (WriterCommand.recorded_run haddr hzero hfits).1 (hcap ▸ hle)

theorem Guarded.runAll {cs : List WriterCommand} (h : Guarded limit s)
    (hrun : s.Along (fun s c => c.AbsentOnce s ∧ c.Fits s) cs) :
    Guarded limit (s.runAll cs) := by
  induction cs generalizing s with
  | nil => exact h
  | cons c cs ih =>
    obtain ⟨⟨honce, hfits⟩, hrest⟩ := hrun
    exact ih (h.run honce hfits) hrest

/-- From any writer below the limit whose counter is right: the addresses stay within the
limit, and none is added at the limit. -/
theorem recorded_within_capacity {s : HardenedWriter} {cs : List WriterCommand}
    (haddr : s.tables.Addressed) (hcount : s.tables.blocklistV4Count = s.tables.recorded.ncard)
    (hstart : (s.tables.recorded.ncard : Int) ≤ s.capacityLimit)
    (hrun : s.Along (fun s c => c.AbsentOnce s ∧ c.Fits s) cs) :
    ((s.runAll cs).tables.recorded.ncard : Int) ≤ s.capacityLimit ∧
      ∀ pre c post, cs = pre ++ c :: post →
        s.capacityLimit ≤ (s.runAll pre).tables.recorded.ncard →
        (c.run (s.runAll pre)).tables.recorded ⊆ (s.runAll pre).tables.recorded := by
  have hgd : Guarded s.capacityLimit s := ⟨haddr, hcount, rfl, hstart⟩
  refine ⟨(hgd.runAll hrun).bounded, ?_⟩
  rintro pre c post rfl hfull
  obtain ⟨hpre, ⟨-, hfits⟩, -⟩ := (HardenedWriter.along_append _ _ _).mp hrun
  obtain ⟨haddr', hcnt', hcap, -⟩ := hgd.runAll hpre
  have hzero : (s.runAll pre).tables.lag = 0 := by rw [WriterTables.lag, hcnt', Int.sub_self]
  exact (WriterCommand.recorded_run haddr' hzero hfits).2 (hcap ▸ hfull)

def smallWriter : HardenedWriter := newHardenedWriter 1000 2 0 fun _ => none

theorem smallWriter_recorded : smallWriter.tables.recorded = ∅ :=
  Set.eq_empty_of_forall_notMem fun _ ha => ha rfl

def oneDecision (ip : NetIP) : BatchEnv × BlockDecision :=
  (⟨1700000000, okCall, okCall⟩, ⟨ip, dropEntry⟩)

/-- A batch of one address is within the limit, and the single block after it is refused. -/
theorem recorded_within_capacity_small :
    ((smallWriter.runAll [.batch 1 [oneDecision [1, 1, 1, 1]],
        .block 2 okCall [2, 2, 2, 2] dropEntry]).tables.recorded.ncard : Int) ≤
          smallWriter.capacityLimit ∧ smallWriter.capacityLimit = 1 := by
  have hnil := smallWriter_recorded
  refine ⟨(recorded_within_capacity ?_ ?_ ?_ ?_).1, by decide⟩
  · rw [WriterTables.Addressed, hnil]
    exact Set.empty_subset _
  · rw [hnil, Set.ncard_empty]
    rfl
  · rw [hnil, Set.ncard_empty]
    decide
  · refine ⟨⟨fun _ hno => absurd hno (by decide), fun _ => ?_⟩, ⟨trivial, trivial⟩, trivial⟩
    rw [hnil, Set.ncard_empty]
    decide

theorem recorded_beyond_capacity :
    let s := smallWriter.runAll [.batch 1 [oneDecision [1, 1, 1, 1], oneDecision [2, 2, 2, 2]]]
    smallWriter.capacityLimit = 1 ∧ smallWriter.tables.recorded.ncard = 0 ∧
      s.tables.recorded.ncard = 2 := by
  intro s
  have hca : s.tables.dedupCache = Function.update (Function.update (fun _ => none)
      [1, 1, 1, 1] (some (entryFingerprint dropEntry)))
      [2, 2, 2, 2] (some (entryFingerprint dropEntry)) := rfl
  have hrec : s.tables.recorded = {[2, 2, 2, 2], [1, 1, 1, 1]} := by
    ext a
    rw [WriterTables.recorded, hca]
    simp only [Function.update_apply, Set.mem_ofPred_eq, Set.mem_insert_iff, Set.mem_singleton_iff]
    split
    · simp_all
    · split
      · simp_all
      · simp_all
  refine ⟨by decide, ?_, ?_⟩
  · rw [smallWriter_recorded, Set.ncard_empty]
  · rw [hrec]
    exact Set.ncard_pair (by decide)

end Falx
