import Falx.DedupCache
import Falx.TumblingWindow

/-! The write window. `BlockIPv4` charges it with one operation and `WriteBatch` with as
many as the batch has decisions, each in one section under `windowMu`. A window is begun
by the first section more than 100 ms after the last one began, so that an interval of
100 ms meets at most two of them. -/

namespace Falx

open List TumblingWindow

def newHardenedWriter (maxOpsPerWindow maxEntries now : Int) (m : BlocklistV4) :
    HardenedWriter where
  tables := ⟨m, fun _ => none, 0⟩
  windowCount := 0
  windowReset := now
  windowMaxOps := if maxOpsPerWindow ≤ 0 then 1000 else maxOpsPerWindow
  blocklistV4Max := if maxEntries ≤ 0 then 65536 else maxEntries
  stats := {}
  history := []

structure WriteWindow where
  count : Int
  reset : Int
  maxOps : Int
  deriving DecidableEq

def HardenedWriter.window (s : HardenedWriter) : WriteWindow :=
  ⟨s.windowCount, s.windowReset, s.windowMaxOps⟩

namespace WriteWindow

def reopen (now : Int) (w : WriteWindow) : WriteWindow :=
  if w.reset < now then { w with count := 0, reset := now + 100000000 } else w

/-- One section under the lock: it asks for `n` operations at once. -/
def charge (now : Int) (n : Nat) (w : WriteWindow) : Bool × WriteWindow :=
  let w := w.reopen now
  if w.maxOps < w.count + n then (false, w) else (true, { w with count := w.count + n })

/-- A section: whether it resets the window, how many operations it admits, and the
`windowReset` it leaves. -/
structure Section where
  now : Int
  resets : Bool
  admitted : Nat
  reset : Int
  deriving DecidableEq

def sections : List (Int × Nat) → WriteWindow → List Section
  | [], _ => []
  | (now, n) :: cs, w =>
    let r := w.charge now n
    ⟨now, w.reset < now, if r.1 then n else 0, r.2.reset⟩ :: sections cs r.2

def operations (p : Section → Bool) (ss : List Section) : Nat :=
  ((ss.filter p).map Section.admitted).sum

end WriteWindow

section Commands

variable (s : HardenedWriter) (now : Int)

theorem HardenedWriter.window_openWindow : (s.openWindow now).window = s.window.reopen now := by
  by_cases hlate : s.windowReset < now
  · rw [openWindow, if_pos hlate, WriteWindow.reopen, if_pos (show s.window.reset < now from hlate)]
    rfl
  · rw [openWindow, if_neg hlate, WriteWindow.reopen, if_neg (show ¬ s.window.reset < now from hlate)]

theorem HardenedWriter.charge_of_openWindow (n : Nat) : s.window.charge now n =
    if (s.openWindow now).windowMaxOps < (s.openWindow now).windowCount + n then
      (false, (s.openWindow now).window)
    else (true, { (s.openWindow now).window with count := (s.openWindow now).windowCount + n }) := by
  rw [s.window_openWindow now]
  have hopen := s.window_openWindow now
  have hmax : (s.window.reopen now).maxOps = (s.openWindow now).windowMaxOps := by
    rw [← hopen]
    rfl
  have hcnt : (s.window.reopen now).count = (s.openWindow now).windowCount := by
    rw [← hopen]
    rfl
  simp only [WriteWindow.charge, hmax, hcnt]

theorem HardenedWriter.checkWindow_charge :
    ((s.checkWindow now).1, (s.checkWindow now).2.window) = s.window.charge now 1 := by
  rw [s.charge_of_openWindow now 1, checkWindow]
  by_cases hfull : (s.openWindow now).windowMaxOps ≤ (s.openWindow now).windowCount
  · rw [if_pos hfull, if_pos (by omega)]
  · rw [if_neg hfull, if_neg (by omega)]
    rfl

def HardenedWriter.limits : WriteWindow × Int := (s.window, s.blocklistV4Max)

theorem HardenedWriter.limits_logKey (ip : NetIP) (event : UInt32 → WriterEvent) :
    (s.logKey ip event).limits = s.limits := by
  rw [logKey]
  split <;> rfl

theorem HardenedWriter.limits_rollback (log : List RollbackEntry) :
    (s.rollback log).limits = s.limits := by
  induction log generalizing s with
  | nil => rfl
  | cons e log ih => exact (ih _).trans (limits_logKey _ _ _)

theorem HardenedWriter.limits_writeDecisions (ds : Batch) (log : List RollbackEntry) :
    (s.writeDecisions ds log).2.limits = s.limits := by
  induction ds generalizing log s with
  | nil => rfl
  | cons p ds ih =>
    simp only [writeDecisions]
    split
    · exact ih s.hit log
    · split
      · exact limits_rollback s log
      · exact (ih _ _).trans (limits_logKey _ _ _)

theorem HardenedWriter.max_openWindow : (s.openWindow now).blocklistV4Max = s.blocklistV4Max := by
  rw [openWindow]
  split <;> rfl

theorem HardenedWriter.limits_checkWindow :
    (s.checkWindow now).2.limits = ((s.window.charge now 1).2, s.blocklistV4Max) := by
  rw [← s.checkWindow_charge now, limits, checkWindow]
  split <;> exact congrArg _ (s.max_openWindow now)

theorem HardenedWriter.limits_blockIPv4 (env : CallEnv) (ip : NetIP) (entry : BlockEntry) :
    (s.blockIPv4 now env ip entry).2.limits = s.limits ∨
      (s.blockIPv4 now env ip entry).2.limits = ((s.window.charge now 1).2, s.blocklistV4Max) := by
  rw [← s.limits_checkWindow now, blockIPv4]
  split
  · exact .inl rfl
  · refine .inr ?_
    split
    · rename_i w hw
      rw [hw]
      rfl
    · rename_i w hw
      rw [hw]
      split
      · rfl
      · split
        · rfl
        · exact limits_logKey _ _ _

theorem HardenedWriter.limits_writeBatch (ds : Batch) :
    (s.writeBatch now ds).2.limits = s.limits ∨ (s.writeBatch now ds).2.limits =
      ((s.window.charge now ds.length).2, s.blocklistV4Max) := by
  rw [s.charge_of_openWindow now ds.length, ← s.max_openWindow now, writeBatch]
  split
  · exact .inl rfl
  · refine .inr ?_
    simp only
    split
    · rfl
    · exact limits_writeDecisions _ ds []

theorem HardenedWriter.limits_purgeExpiredDedup (visits : List (UInt64 × NetIP)) :
    (s.purgeExpiredDedup visits).limits = s.limits := by
  induction visits generalizing s with
  | nil => rfl
  | cons v visits ih =>
    refine (ih _).trans ?_
    simp only [purgeKey]
    repeat' split
    all_goals rfl

theorem HardenedWriter.limits_unblockIPv4 (env : CallEnv) (ip : NetIP) :
    (s.unblockIPv4 env ip).limits = s.limits := by
  rw [unblockIPv4]
  split
  · rfl
  · exact limits_logKey _ _ _

/-- The section that a call may run, with what it asks for. -/
def WriterCommand.asks : WriterCommand → Option (Int × Nat)
  | block now _ _ _ => some (now, 1)
  | batch now ds => some (now, ds.length)
  | purge _ | unblock _ _ | sweep _ _ => none

theorem WriterCommand.limits_run (c : WriterCommand) :
    (c.run s).limits = s.limits ∨ ∃ now n, c.asks = some (now, n) ∧
      (c.run s).limits = ((s.window.charge now n).2, s.blocklistV4Max) := by
  cases c with
  | block now env ip entry =>
    exact (s.limits_blockIPv4 now env ip entry).imp_right fun h => ⟨now, 1, rfl, h⟩
  | batch now ds =>
    exact (s.limits_writeBatch now ds).imp_right fun h => ⟨now, ds.length, rfl, h⟩
  | purge visits => exact .inl (s.limits_purgeExpiredDedup visits)
  | unblock env ip => exact .inl (s.limits_unblockIPv4 env ip)
  | sweep nowSec keys => exact .inl rfl

end Commands

namespace WriteWindow

variable {w : WriteWindow} {now base : Int} {n : Nat}

/-- Times are counted from `base`, and a window begins 100 ms before its reset is due. -/
def Section.tick (base : Int) (c : Section) : Tick where
  now := (c.now - base).toNat
  weight := c.admitted
  start := (c.reset - 100000000 - base).toNat

structure Counts (base : Int) (w : WriteWindow) : Prop where
  begun : base + 100000000 ≤ w.reset
  count_nonneg : 0 ≤ w.count
  count_le : w.count ≤ w.maxOps

theorem Counts.reopen (hw : w.Counts base) (hnow : base ≤ now) : (w.reopen now).Counts base := by
  obtain ⟨hbg, hnn, hle⟩ := hw
  rw [WriteWindow.reopen]
  split
  · exact ⟨show base + 100000000 ≤ now + 100000000 by omega, le_refl _,
      show (0 : Int) ≤ w.maxOps by omega⟩
  · exact ⟨hbg, hnn, hle⟩

theorem charge_cases (now : Int) (n : Nat) (w : WriteWindow) :
    (w.charge now n).2.reset = (w.reopen now).reset ∧ (w.charge now n).2.maxOps = w.maxOps ∧
      (w.charge now n).2.count =
        (w.reopen now).count + ((if (w.charge now n).1 then n else 0 : Nat) : Int) ∧
      ((w.charge now n).1 = true → (w.reopen now).count + n ≤ w.maxOps) := by
  have hmax : (w.reopen now).maxOps = w.maxOps := by
    rw [reopen]
    split <;> rfl
  simp only [charge]
  split
  · exact ⟨rfl, hmax, by simp, by simp⟩
  · rename_i hfits
    exact ⟨rfl, hmax, by simp, fun _ => by omega⟩

theorem Counts.charge (hw : w.Counts base) (hnow : base ≤ now) (n : Nat) :
    (w.charge now n).2.Counts base ∧ (w.charge now n).2.maxOps = w.maxOps := by
  obtain ⟨hrs, hmax, hcnt, hfits⟩ := charge_cases now n w
  obtain ⟨hbg, hnn, hle⟩ := hw.reopen hnow
  have hmax' : (w.reopen now).maxOps = w.maxOps := by
    rw [WriteWindow.reopen]
    split <;> rfl
  refine ⟨⟨by rw [hrs]; exact hbg, ?_, ?_⟩, hmax⟩
  · rw [hcnt]
    omega
  · rw [hcnt, hmax]
    split
    · rename_i hok
      exact hfits hok
    · rw [hmax'] at hle
      simpa using hle

variable {cs : List (Int × Nat)} {mid post : List Section} {p : Section → Bool}

theorem sections_admitted {last : Int} (hw : w.Counts base) (hlast : base ≤ last)
    (hclk : (last :: cs.map Prod.fst).Pairwise (· ≤ ·)) :
    Admitted 100000001 w.maxOps.toNat (last - base).toNat (w.reset - 100000000 - base).toNat
      w.count.toNat ((sections cs w).map (Section.tick base)) := by
  induction cs generalizing w last with
  | nil => exact .nil
  | cons c cs ih =>
    obtain ⟨now, n⟩ := c
    obtain ⟨hfst, hrest⟩ := pairwise_cons.mp hclk
    have hnow : last ≤ now := hfst now (by simp)
    obtain ⟨hcharged, hmax⟩ := hw.charge (hlast.trans hnow) n
    have hts := ih hcharged (hlast.trans hnow) hrest
    obtain ⟨hrs, -, hcnt, -⟩ := charge_cases now n w
    have hle := hcharged.count_le
    have hbg := hw.begun
    have hnn := hw.count_nonneg
    simp only [sections, map_cons, Section.tick]
    generalize hk : (if (w.charge now n).1 then n else 0) = k at hcnt ⊢
    rw [hmax] at hts hle
    rw [hcnt] at hle
    rw [hcnt, hrs] at hts
    rw [hrs]
    by_cases hlate : w.reset < now
    · have hopen : w.reopen now = { w with count := 0, reset := now + 100000000 } := if_pos hlate
      rw [hopen] at hts hle ⊢
      have hst : now + 100000000 - 100000000 - base = now - base := by omega
      simp only [hst, Int.zero_add, Int.toNat_natCast] at hts hle ⊢
      exact .restart (by omega) (by omega) (by omega) hts
    · have hopen : w.reopen now = w := if_neg hlate
      rw [hopen] at hts hle ⊢
      have hsum : (w.count + (k : Int)).toNat = w.count.toNat + k := by omega
      rw [hsum] at hts
      exact .stay (by omega) (by omega) (by omega) hts

theorem sections_reset (h : sections cs w = mid ++ post) (hmid : ∀ c ∈ mid, c.resets = false) :
    ∀ c ∈ mid, c.reset = w.reset := by
  induction cs generalizing w mid with
  | nil =>
    obtain ⟨rfl, -⟩ := append_eq_nil_iff.mp h.symm
    simp
  | cons c cs ih =>
    obtain ⟨now, n⟩ := c
    cases mid with
    | nil => simp
    | cons d mid =>
      obtain ⟨hd, hrest⟩ := List.cons.inj h
      obtain ⟨hhead, htail⟩ := forall_mem_cons.mp hmid
      have hlate : ¬ w.reset < now := by
        rw [← hd] at hhead
        simpa using hhead
      have hsame : (w.charge now n).2.reset = w.reset := by
        rw [(charge_cases now n w).1, reopen, if_neg hlate]
      refine forall_mem_cons.mpr ⟨by rw [← hd]; exact hsame, ?_⟩
      rw [← hsame]
      exact ih hrest htail

theorem sections_stretch {pre : List Section} (h : sections cs w = pre ++ (mid ++ post))
    (hmid : ∀ c ∈ mid.tail, c.resets = false) : ∃ r, ∀ c ∈ mid, c.reset = r := by
  induction cs generalizing w pre with
  | nil =>
    obtain ⟨-, hnil⟩ := append_eq_nil_iff.mp h.symm
    obtain ⟨rfl, -⟩ := append_eq_nil_iff.mp hnil
    simp
  | cons c cs ih =>
    cases pre with
    | cons d pre => exact ih (List.cons.inj h).2
    | nil =>
      cases mid with
      | nil => simp
      | cons d mid =>
        obtain ⟨hd, hrest⟩ := List.cons.inj h
        exact ⟨d.reset, forall_mem_cons.mpr
          ⟨rfl, by rw [← hd]; exact sections_reset hrest hmid⟩⟩

theorem sum_le_operations (h : ∀ c ∈ mid, p c = true) (pre post : List Section) :
    (mid.map Section.admitted).sum ≤ operations p (pre ++ (mid ++ post)) := by
  simp only [operations, filter_append, map_append, sum_append,
    filter_eq_self.mpr h]
  omega

variable (base) in
theorem operations_le_load {q : Tick → Bool} (ss : List Section)
    (h : ∀ c, p c = true → q (c.tick base) = true) :
    operations p ss ≤ load q (ss.map (Section.tick base)) := by
  induction ss with
  | nil => exact le_refl _
  | cons c ss ih =>
    rw [map_cons]
    cases hp : p c with
    | true =>
      rw [load_cons_of_pos (h c hp)]
      simpa [operations, hp, Section.tick] using ih
    | false =>
      have hskip : operations p (c :: ss) = operations p ss := by simp [operations, hp]
      have hgrows : load q (ss.map (Section.tick base)) ≤
          load q (c.tick base :: ss.map (Section.tick base)) := by
        cases hq : q (c.tick base) with
        | true => exact (load_cons_of_pos hq _).symm ▸ Nat.le_add_left _ _
        | false => exact (load_cons_of_neg hq _).symm ▸ le_refl _
      rw [hskip]
      exact ih.trans hgrows

variable (base) in
theorem within_tick {a b : Int} (hab : b - a ≤ 100000000) (c : Section)
    (hc : (a ≤ c.now && c.now ≤ b) = true) :
    within (a - base).toNat 100000001 (c.tick base) = true := by
  obtain ⟨hle, hge⟩ : a ≤ c.now ∧ c.now ≤ b := by simpa using hc
  have hlow : (a - base).toNat ≤ (c.now - base).toNat := by omega
  have hhigh : (c.now - base).toNat < (a - base).toNat + 100000001 := by omega
  simp [within, Section.tick, hlow, hhigh]

end WriteWindow

open WriteWindow in
theorem window_admits_at_most (maxOpsPerWindow maxEntries start : Int) (m : BlocklistV4)
    (cs : List (Int × Nat)) (hclock : (start :: cs.map Prod.fst).Pairwise (· ≤ ·)) :
    let s := newHardenedWriter maxOpsPerWindow maxEntries start m
    (∀ pre mid post, sections cs s.window = pre ++ (mid ++ post) →
        (∀ c ∈ mid.tail, c.resets = false) →
        (mid.map Section.admitted).sum ≤ s.windowMaxOps) ∧
      ∀ a b : Int, b - a ≤ 100000000 →
        operations (fun c => a ≤ c.now && c.now ≤ b) (sections cs s.window) ≤
          2 * s.windowMaxOps := by
  intro s
  have hmax : 0 ≤ s.windowMaxOps := by
    show 0 ≤ if maxOpsPerWindow ≤ 0 then (1000 : Int) else maxOpsPerWindow
    split <;> omega
  have hcast : (s.window.maxOps.toNat : Int) = s.windowMaxOps := Int.toNat_of_nonneg hmax
  have hcnts : s.window.Counts (start - 100000000) :=
    ⟨by show start - 100000000 + 100000000 ≤ start; omega, le_refl (0 : Int), hmax⟩
  have hadm := sections_admitted hcnts (by omega) hclock
  refine ⟨fun pre mid post hsp hmid => ?_, fun a b hab => ?_⟩
  · obtain ⟨r, hr⟩ := sections_stretch hsp hmid
    have hload := hadm.load_inWindow_le (by decide)
      (r - 100000000 - (start - 100000000)).toNat
    have hops := operations_le_load (start - 100000000) (p := fun c => c.reset == r)
      (q := inWindow (r - 100000000 - (start - 100000000)).toNat) (sections cs s.window)
      fun c hc => by rw [← eq_of_beq hc]; exact beq_self_eq_true _
    have hsum := sum_le_operations (p := fun c => c.reset == r)
      (fun c hc => beq_iff_eq.mpr (hr c hc)) pre post
    rw [← hsp] at hsum
    omega
  · have hload := hadm.load_within_le (by decide) (a - (start - 100000000)).toNat
    have hops := operations_le_load _ (p := fun c => a ≤ c.now && c.now ≤ b) (sections cs s.window)
      (within_tick (start - 100000000) hab)
    omega

/-- Two operations, a batch of two in the window after them, and a batch that is refused. -/
theorem window_admits_at_most_sample :
    let s := newHardenedWriter 2 0 0 fun _ => none
    let ss := WriteWindow.sections [(10, 1), (10, 1), (100000011, 2), (100000011, 1)] s.window
    WriteWindow.operations (fun c => (10 : Int) ≤ c.now && c.now ≤ (100000010 : Int)) ss ≤
        2 * s.windowMaxOps ∧
      ss.map WriteWindow.Section.admitted = [1, 1, 2, 0] := by
  refine ⟨(window_admits_at_most 2 0 0 (fun _ => none)
    [(10, 1), (10, 1), (100000011, 2), (100000011, 1)] (by decide)).2 10 100000010 (by decide), ?_⟩
  decide

end Falx
