import Falx.Interleave
import Falx.Manager

/-! The two sweeps of the control plane over the IPv4 blocklist, among the calls that block
addresses. A sweep reads the clock once, walks over the map and collects what has expired,
and deletes what it has collected. Each access to the map is one operation, and other calls
may come between any two of them. -/

namespace Falx.Sweep

open Interleave

inductive Op where
  | now
  | check
  | update (key : UInt32) (entry : BlockEntry)
  | next
  | iterErr
  | delete (key : UInt32)
  deriving DecidableEq

@[reducible] def Op.Res : Op → Type
  | now => UInt64
  | check => Bool
  | next => Option (UInt32 × BlockEntry)
  | update _ _ | iterErr | delete _ => Option GoError

abbrev Call := Prog Op Op.Res

abbrev History := List (Sigma Op.Res)

/-- What the surroundings of one operation decide. The iterator, which is not part of this
repository, walks over the keys in an order of its own. -/
structure Env where
  now : UInt64
  allowed : Bool := true
  visit : Option UInt32 := none
  mapErr : Option GoError := none
  deriving DecidableEq

def sem (e : Env) : (op : Op) → BlocklistV4 → op.Res × BlocklistV4
  | .now, m => (e.now, m)
  | .check, m => (e.allowed, m)
  | .update key entry, m =>
    match e.mapErr with
    | some err => (some err, m)
    | none => (none, Function.update m key (some entry))
  | .next, m => (e.visit.bind fun key => (m key).map (key, ·), m)
  | .iterErr, m => (e.mapErr, m)
  | .delete key, m =>
    match e.mapErr, m key with
    | some err, _ => (some err, m)
    | none, none => (some .keyNotExist, m)
    | none, some _ => (none, Function.update m key none)

def op (o : Op) : Call o.Res := .call o .ret

def absoluteExpiry (entry : BlockEntry) : Call BlockEntry :=
  if 0 < entry.expireAt ∧ entry.expireAt < 1000000000 then do
    let now ← op .now
    return { entry with expireAt := now + entry.expireAt }
  else return entry

def blockIPv4 (ip : NetIP) (entry : BlockEntry) : Call (Option GoError) := do
  match ← op .check with
  | false => return some (.wrapped "rate limited" (.rateLimitExceeded .blockIP))
  | true =>
  match ipv4ToUint32 ip with
  | none => return some (.wrapped "invalid IPv4" .notIPv4)
  | some key =>
  let entry ← absoluteExpiry entry
  match ← op (.update key entry) with
  | some err => return some (.wrapped "map update failed" err)
  | none => return none

def blockDecisions : List BlockDecision → Call (List (Option GoError))
  | [] => return []
  | d :: ds =>
    match ipv4ToUint32 d.ip with
    | none => do
      let errs ← blockDecisions ds
      return some .notIPv4 :: errs
    | some key => do
      let entry ← absoluteExpiry d.entry
      let err ← op (.update key entry)
      let errs ← blockDecisions ds
      return err :: errs

def blockIPv4Batch (ds : List BlockDecision) : Call (List (Option GoError)) := do
  match ← op .check with
  | false => return ds.map fun _ => some (.wrapped "batch rate limited" (.rateLimitExceeded .blockIP))
  | true => blockDecisions ds

def collect (nowSec : UInt64) : Nat → List UInt32 → Call (List UInt32)
  | 0, stale => return stale
  | n + 1, stale => do
    match ← op .next with
    | none => return stale
    | some (key, entry) =>
      collect nowSec n (if entry.expired nowSec then stale ++ [key] else stale)

def deleteAll : List UInt32 → Nat → Nat → Call (Nat × Nat)
  | [], removed, errs => return (removed, errs)
  | key :: keys, removed, errs => do
    match ← op (.delete key) with
    | none => deleteAll keys (removed + 1) errs
    | some _ => deleteAll keys removed (errs + 1)

/-- `ExpiryDaemon`: an iterator error ends the sweep. -/
def sweepBlocklistV4 (maxEntries : Nat) (nowSec : UInt64) : Call (Except GoError Nat) := do
  let toDelete ← collect nowSec maxEntries []
  match ← op .iterErr with
  | some err => return .error err
  | none =>
    let (removed, _) ← deleteAll toDelete 0 0
    return .ok removed

/-- `AmnestySweeeper`: an iterator error is counted. -/
def sweepBlocklist (maxEntries : Nat) (nowS : UInt64) : Call (Nat × Nat) := do
  let stale ← collect nowS maxEntries []
  match ← op .iterErr with
  | some _ => deleteAll stale 0 1
  | none => deleteAll stale 0 0

inductive Request where
  | block (ip : NetIP) (entry : BlockEntry)
  | blockBatch (ds : List BlockDecision)
  | expiry (maxEntries : Nat)
  | amnesty (maxEntries : Nat)
  deriving DecidableEq

inductive Reply where
  | block (err : Option GoError)
  | blockBatch (errs : List (Option GoError))
  | expiry (removed : Except GoError Nat)
  | amnesty (purged errs : Nat)

def serve : Request → Call Reply
  | .block ip entry => do return .block (← blockIPv4 ip entry)
  | .blockBatch ds => do return .blockBatch (← blockIPv4Batch ds)
  | .expiry maxEntries => do
    let now ← op .now
    return .expiry (← sweepBlocklistV4 maxEntries now)
  | .amnesty maxEntries => do
    let nowS ← op .now
    let (purged, errs) ← sweepBlocklist maxEntries nowS
    return .amnesty purged errs

def Collected (h : History) (key : UInt32) : Prop :=
  ∃ nowSec entry, ⟨.now, nowSec⟩ ∈ h ∧ ⟨.next, some (key, entry)⟩ ∈ h ∧
    entry.expired nowSec = true

def guar (h : History) (o : Op) : Prop := ∀ key, o = .delete key → Collected h key

section Specs

variable {h : History} {nowSec : UInt64}

theorem Collected.append {key : UInt32} (hc : Collected h key) (t : History) :
    Collected (h ++ t) key := by
  obtain ⟨nowSec, entry, hnow, hnext, hexp⟩ := hc
  exact ⟨nowSec, entry, List.mem_append_left t hnow, List.mem_append_left t hnext, hexp⟩

theorem guar_of_ne (h : History) {o : Op} (ho : ∀ key, o ≠ .delete key) : guar h o :=
  fun key hkey => absurd hkey (ho key)

theorem collect_spec (n : Nat) (stale : List UInt32) (hnow : ⟨.now, nowSec⟩ ∈ h)
    (hsl : ∀ key ∈ stale, Collected h key) :
    (collect nowSec n stale).Spec guar (fun h keys => ∀ key ∈ keys, Collected h key) h := by
  induction n generalizing h stale with
  | zero => exact hsl
  | succ n ih =>
    refine .call (guar_of_ne h (by simp)) fun r => ?_
    rcases r with _ | ⟨key, entry⟩
    · exact fun key hkey => (hsl key hkey).append _
    · refine ih _ (List.mem_append_left _ hnow) fun k hk => ?_
      by_cases hexp : entry.expired nowSec = true
      · rw [if_pos hexp] at hk
        rcases List.mem_append.mp hk with hk | hk
        · exact (hsl k hk).append _
        · obtain rfl := List.mem_singleton.mp hk
          exact ⟨nowSec, entry, List.mem_append_left _ hnow, by simp, hexp⟩
      · rw [if_neg hexp] at hk
        exact (hsl k hk).append _

theorem deleteAll_spec (keys : List UInt32) (removed errs : Nat)
    (hkeys : ∀ key ∈ keys, Collected h key) :
    (deleteAll keys removed errs).Spec guar (fun _ _ => True) h := by
  induction keys generalizing h removed errs with
  | nil => trivial
  | cons key keys ih =>
    obtain ⟨hkey, hrest⟩ := List.forall_mem_cons.mp hkeys
    refine .call ?_ fun r => ?_
    · rintro _ ⟨⟩
      exact hkey
    · have hlt := fun k hk => (hrest k hk).append [⟨.delete key, r⟩]
      rcases r with _ | err
      · exact ih _ _ hlt
      · exact ih _ _ hlt

theorem sweepBlocklistV4_spec (maxEntries : Nat) (hnow : ⟨.now, nowSec⟩ ∈ h) :
    (sweepBlocklistV4 maxEntries nowSec).Spec guar (fun _ _ => True) h := by
  refine (collect_spec maxEntries [] hnow (by simp)).andThen fun t keys hkeys => ?_
  refine .call (guar_of_ne _ (by simp)) fun r => ?_
  rcases r with _ | err
  · have hdel := deleteAll_spec keys 0 0 fun k hk => (hkeys k hk).append [⟨.iterErr, none⟩]
    exact hdel.andThen fun _ _ _ => trivial
  · trivial

theorem sweepBlocklist_spec (maxEntries : Nat) (hnow : ⟨.now, nowSec⟩ ∈ h) :
    (sweepBlocklist maxEntries nowSec).Spec guar (fun _ _ => True) h := by
  refine (collect_spec maxEntries [] hnow (by simp)).andThen fun t keys hkeys => ?_
  refine .call (guar_of_ne _ (by simp)) fun r => ?_
  have hlt := fun k hk => (hkeys k hk).append [⟨.iterErr, r⟩]
  rcases r with _ | err
  · exact deleteAll_spec keys 0 0 hlt
  · exact deleteAll_spec keys 0 1 hlt

theorem absoluteExpiry_spec (entry : BlockEntry) :
    (absoluteExpiry entry).Spec guar (fun _ _ => True) h := by
  rw [absoluteExpiry]
  split
  · exact .call (guar_of_ne _ (by simp)) fun _ => trivial
  · trivial

theorem blockIPv4_spec (ip : NetIP) (entry : BlockEntry) :
    (blockIPv4 ip entry).Spec guar (fun _ _ => True) h := by
  refine .call (guar_of_ne _ (by simp)) fun r => ?_
  cases r with
  | false => trivial
  | true =>
    split
    · trivial
    · refine (absoluteExpiry_spec entry).andThen fun t entry' _ => ?_
      refine .call (guar_of_ne _ (by simp)) fun r => ?_
      cases r <;> trivial

theorem blockDecisions_spec (ds : List BlockDecision) :
    (blockDecisions ds).Spec guar (fun _ _ => True) h := by
  induction ds generalizing h with
  | nil => trivial
  | cons d ds ih =>
    rw [blockDecisions]
    split
    · exact ih.andThen fun _ _ _ => trivial
    · refine (absoluteExpiry_spec d.entry).andThen fun t entry' _ => ?_
      refine .call (guar_of_ne _ (by simp)) fun r => ?_
      exact Prog.Spec.andThen (p := blockDecisions ds) ih fun _ _ _ => trivial

theorem blockIPv4Batch_spec (ds : List BlockDecision) :
    (blockIPv4Batch ds).Spec guar (fun _ _ => True) h := by
  refine .call (guar_of_ne _ (by simp)) fun r => ?_
  cases r with
  | false => trivial
  | true => exact blockDecisions_spec ds

theorem serve_spec (req : Request) : (serve req).Spec guar (fun _ _ => True) [] := by
  cases req with
  | block ip entry => exact (blockIPv4_spec ip entry).andThen fun _ _ _ => trivial
  | blockBatch ds => exact (blockIPv4Batch_spec ds).andThen fun _ _ _ => trivial
  | expiry maxEntries =>
    refine .call (guar_of_ne _ (by simp)) fun nowSec => ?_
    have hnow : ⟨.now, nowSec⟩ ∈ ([⟨.now, nowSec⟩] : History) := List.mem_singleton_self _
    exact (sweepBlocklistV4_spec maxEntries hnow).andThen fun _ _ _ => trivial
  | amnesty maxEntries =>
    refine .call (guar_of_ne _ (by simp)) fun nowS => ?_
    have hnow : ⟨.now, nowS⟩ ∈ ([⟨.now, nowS⟩] : History) := List.mem_singleton_self _
    exact (sweepBlocklist_spec maxEntries hnow).andThen fun _ _ _ => trivial

end Specs

section Race

variable {ι : Type} {reqs : ι → Request} {m : BlocklistV4}
  {c : Config BlocklistV4 ι Env Op.Res Reply} {pre post : List (Entry ι Env Op.Res)}
  {en : Entry ι Env Op.Res}

/-- All calls read one clock, which does not go back. -/
def OneClock (log : List (Entry ι Env Op.Res)) : Prop :=
  log.Pairwise fun a b => a.env.now ≤ b.env.now

def Op.updates : Op → Option UInt32
  | update key _ => some key
  | _ => none

def Writes (key : UInt32) (en : Entry ι Env Op.Res) : Prop :=
  en.event.1.updates = some key ∧ en.env.mapErr = none

instance (key : UInt32) (en : Entry ι Env Op.Res) : Decidable (Writes key en) :=
  inferInstanceAs (Decidable (_ ∧ _))

/-- After the call `i` has read the entry of `key`, nobody writes it. -/
def Unwritten (i : ι) (key : UInt32) (log : List (Entry ι Env Op.Res)) : Prop :=
  ∀ before r after entry, log = before ++ r :: after → r.caller = i →
    r.event = ⟨.next, some (key, entry)⟩ → ∀ w ∈ after, ¬ Writes key w

theorem sem_apply_of_not_writes {key : UInt32} {e : Env} {o : Op}
    (ho : ¬ (o.updates = some key ∧ e.mapErr = none)) :
    (sem e o m).2 key = m key ∨ (sem e o m).2 key = none := by
  cases o with
  | now | check | next | iterErr => exact .inl rfl
  | update k entry =>
    simp only [sem]
    split
    · exact .inl rfl
    · rename_i herr
      have hk : key ≠ k := fun h => ho ⟨h ▸ rfl, herr⟩
      exact .inl (Function.update_of_ne hk _ _)
  | delete k =>
    simp only [sem]
    split
    · exact .inl rfl
    · exact .inl rfl
    · by_cases hk : key = k
      · subst hk
        exact .inr (Function.update_self _ _ _)
      · exact .inl (Function.update_of_ne hk _ _)

theorem replay_apply_of_not_writes {key : UInt32} {log : List (Entry ι Env Op.Res)}
    (hlog : ∀ w ∈ log, ¬ Writes key w) :
    replay sem m log key = m key ∨ replay sem m log key = none := by
  induction log generalizing m with
  | nil => exact .inl rfl
  | cons w log ih =>
    obtain ⟨hw, hrest⟩ := List.forall_mem_cons.mp hlog
    rw [replay_cons]
    have hstep := sem_apply_of_not_writes (m := m) hw
    rcases ih (m := (sem w.env w.event.1 m).2) hrest with h | h
    · rw [h]
      exact hstep
    · exact .inr h

theorem expired_mono {entry : BlockEntry} {s t : UInt64} (h : entry.expired s = true)
    (hst : s ≤ t) : entry.expired t = true := by
  obtain ⟨hne, hle⟩ := BlockEntry.expired_iff.mp h
  exact BlockEntry.expired_iff.mpr ⟨hne, Nat.le_trans hle (UInt64.le_iff_toNat_le.mp hst)⟩

variable [DecidableEq ι]

/-- What a sweep deletes has expired, if nobody has written the entry since the sweep read it. -/
theorem sweep_deletes_expired {sched : List (ι × Env)} {key : UInt32} {entry : BlockEntry}
    (hrun : run sem (start m fun i => serve (reqs i)) sched = some c) (hclock : OneClock c.log)
    (hlog : c.log = pre ++ en :: post) (hdelete : en.event.1 = .delete key)
    (hunwritten : Unwritten en.caller key pre) (hentry : replay sem m pre key = some entry) :
    entry.expireAt ≠ 0 ∧ entry.expireAt ≤ en.env.now := by
  have hc := run_interleaving hrun
  obtain ⟨nowSec, found, hnow, hnext, hexp⟩ :=
    hc.guarantee (serve_spec (reqs en.caller)) hlog key hdelete
  obtain ⟨_, clock, _, hpre, -, -, htime⟩ := hc.answered hlog hnow
  have hle : nowSec ≤ en.env.now := by
    have hordered : OneClock (pre ++ en :: post) := hlog ▸ hclock
    rw [← htime]
    exact (List.pairwise_append.mp hordered).2.2 clock (by rw [hpre]; simp) en List.mem_cons_self
  obtain ⟨before, r, after, rfl, hby, hread, hv⟩ := hc.answered hlog hnext
  have hq := hunwritten before r after found rfl hby hread
  have hfd : replay sem m before key = some found := by
    obtain ⟨k, -, hk⟩ := Option.bind_eq_some_iff.mp hv
    obtain ⟨e, he, heq⟩ := Option.map_eq_some_iff.mp hk
    cases heq
    exact he
  have haf : replay sem m (before ++ r :: after) key = some found ∨
      replay sem m (before ++ r :: after) key = none := by
    rw [replay_append, replay_cons, hread, ← hfd]
    exact replay_apply_of_not_writes hq
  have hsame : entry = found := by
    rcases haf with h | h
    · rw [hentry] at h
      exact Option.some.inj h
    · rw [hentry] at h
      cases h
  subst hsame
  obtain ⟨hne, hexp⟩ := BlockEntry.expired_iff.mp (expired_mono hexp hle)
  exact ⟨hne, UInt64.le_iff_toNat_le.mpr hexp⟩

end Race

instance {ι : Type} (log : List (Entry ι Env Op.Res)) : Decidable (OneClock log) :=
  inferInstanceAs (Decidable (log.Pairwise _))

def staleMap : BlocklistV4 :=
  Function.update (fun _ => none) 0x01010101
    (some ⟨1700000000, Action.drop, 0, 100, 0, Reason.blocklist⟩)

def soleSweep : List (Unit × Env) :=
  [((), { now := 1700000000 }), ((), { now := 1700000000, visit := some 0x01010101 }),
    ((), { now := 1700000000 }), ((), { now := 1700000001 }), ((), { now := 1700000002 })]

def EndsInDelete (c : Config BlocklistV4 Unit Env Op.Res Reply) : Prop :=
  OneClock c.log ∧ (∀ en ∈ c.log, ¬ Writes 0x01010101 en) ∧
    (replay sem staleMap c.log.dropLast 0x01010101).isSome = true ∧
    c.log.getLast?.map (·.event.1) = some (.delete 0x01010101)

instance (c : Config BlocklistV4 Unit Env Op.Res Reply) : Decidable (EndsInDelete c) :=
  inferInstanceAs (Decidable (_ ∧ _))

theorem sweep_deletes_expired_alone : ∃ c pre en entry,
    run sem (start staleMap fun _ => serve (.expiry 100)) soleSweep = some c ∧
    c.log = pre ++ [en] ∧ en.event.1 = .delete 0x01010101 ∧
    replay sem staleMap pre 0x01010101 = some entry ∧ entry.expireAt ≠ 0 ∧
    entry.expireAt ≤ en.env.now := by
  have hrun : (run sem (start staleMap fun _ => serve (.expiry 100)) soleSweep).any
      (fun c => decide (EndsInDelete c)) = true := by decide +kernel
  obtain ⟨c, hc, hends⟩ := (Option.any_eq_true _ _).mp hrun
  obtain ⟨hclk, hwr, hsome, hlast⟩ := of_decide_eq_true hends
  obtain ⟨en, hen, hdel⟩ := Option.map_eq_some_iff.mp hlast
  obtain ⟨pre, hlog⟩ := List.getLast?_eq_some_iff.mp hen
  rw [hlog, List.dropLast_concat] at hsome
  obtain ⟨entry, hent⟩ := Option.isSome_iff_exists.mp hsome
  have hunw : Unwritten en.caller 0x01010101 pre := by
    intro before r after found hpre _ _ w hw
    exact hwr w (by rw [hlog, hpre]; simp [hw])
  exact ⟨c, pre, en, entry, hc, hlog, hdel, hent, sweep_deletes_expired hc hclk hlog hdel hunw hent⟩

def reblocked : List (Bool × Env) :=
  [(false, { now := 1700000000 }), (false, { now := 1700000000, visit := some 0x01010101 }),
    (false, { now := 1700000000 }), (false, { now := 1700000000 }),
    (true, { now := 1700000000 }), (true, { now := 1700000000 }), (true, { now := 1700000000 }),
    (false, { now := 1700000001 })]

def reblockedRun : Option (Config BlocklistV4 Bool Env Op.Res Reply) :=
  run sem (start staleMap fun i => serve (if i then
    .block [1, 1, 1, 1] ⟨3600, Action.drop, 0, 100, 0, Reason.blocklist⟩ else .expiry 100)) reblocked

theorem sweep_deletes_reblocked :
    reblockedRun.any (fun c => decide (OneClock c.log)) = true ∧
    reblockedRun.map (fun c => (replay sem staleMap c.log.dropLast 0x01010101).map (·.expireAt)) =
      some (some 1700003600) ∧
    reblockedRun.map (fun c => c.log.getLast?.map fun en =>
      (en.caller, en.event.1, en.env.now)) =
      some (some (false, Op.delete 0x01010101, 1700000001)) ∧
    reblockedRun.map (fun c => c.state 0x01010101) = some none := by
  refine ⟨?_, ?_, ?_, ?_⟩ <;> decide +kernel

end Falx.Sweep
