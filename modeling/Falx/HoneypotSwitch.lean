import Falx.HoneypotManager
import Falx.StepRun

/-! What the pool, the index of the active honeypot and the two maps say of each other after
every call. The flag of the old target is cleared before the new one is written, and a target
is disabled before its record is, so a write that fails leaves them apart. -/

namespace Falx

open Function

def HoneypotCall.error (m : HoneypotManager) : HoneypotCall → Option HoneypotError
  | registerTarget writeErr activeErr dstIP dstMAC srcMAC dstPort =>
    match (m.registerTarget writeErr activeErr dstIP dstMAC srcMAC dstPort).1 with
    | .error e => some e
    | .ok _ => none
  | setActiveTarget err id => (m.activateTarget err id).1
  | rotate _ => none
  | disableTarget err id => (m.disableTarget err id).1

namespace HoneypotManager

def newManager (maxTargets : UInt32) (targetsMap : UInt32 → Option (List UInt8))
    (activeMap : UInt32) : HoneypotManager :=
  ⟨maxTargets, [], 0, targetsMap, activeMap⟩

def next (m : HoneypotManager) : UInt32 := (m.activeIdx + 1) % UInt32.ofNat m.pool.length

def Activates (m : HoneypotManager) : HoneypotCall → Prop
  | .registerTarget writeErr activeErr dstIP dstMAC srcMAC dstPort =>
    (m.registerTarget writeErr activeErr dstIP dstMAC srcMAC dstPort).1 = .ok 0 ∧ activeErr = none
  | .setActiveTarget err id => (m.activateTarget err id).1 = none
  | .rotate err => m.pool ≠ [] ∧ (m.activateTarget err m.next).1 = none
  | .disableTarget _ _ => False

def Activated (m : HoneypotManager) : List HoneypotCall → Prop
  | [] => False
  | c :: cs => m.Activates c ∨ Activated (c.run m) cs

structure PoolInvariant (m : HoneypotManager) : Prop where
  index : m.activeIdx = m.activeMap
  recorded : ∀ (i : Nat) (hp : HoneypotPool), m.pool[i]? = some hp →
    m.targetsMap (UInt32.ofNat i) = some hp.target.bytes
  active : ∃ hp, m.pool[m.activeIdx.toNat]? = some hp ∧ hp.active = true
  only : ∀ (i : Nat) (hp : HoneypotPool), m.pool[i]? = some hp → hp.active = true →
    i = m.activeIdx.toNat
  enabled : (∃ hp ∈ m.pool, hp.target.active ≠ 0) →
    ∃ hp, m.pool[m.activeIdx.toNat]? = some hp ∧ hp.target.active ≠ 0

/-- The target is enabled, and the write of the index does not fail while another one counts
as active. -/
def Switches (m : HoneypotManager) (err : Option GoError) (id : UInt32) : Prop :=
  ∀ target ∈ m.pool[id.toNat]?, target.target.active ≠ 0 ∧
    (err = none ∨ ∀ hp ∈ m.pool, hp.active = false)

def Calm (m : HoneypotManager) : HoneypotCall → Prop
  | .registerTarget .. => True
  | .setActiveTarget err id => m.Switches err id
  | .rotate err => m.Switches err m.next
  | .disableTarget err id => ∀ hp ∈ m.pool[id.toNat]?, err = none ∧ hp.active = false

instance (m : HoneypotManager) (err : Option GoError) (id : UInt32) :
    Decidable (m.Switches err id) :=
  inferInstanceAs (Decidable (∀ target ∈ m.pool[id.toNat]?, _))

instance (m : HoneypotManager) : (c : HoneypotCall) → Decidable (m.Calm c)
  | .registerTarget .. => isTrue trivial
  | .setActiveTarget err id => inferInstanceAs (Decidable (m.Switches err id))
  | .rotate err => inferInstanceAs (Decidable (m.Switches err m.next))
  | .disableTarget _ id => inferInstanceAs (Decidable (∀ hp ∈ m.pool[id.toNat]?, _))

def Recorded (m : HoneypotManager) : Prop :=
  ∀ (i : Nat) (hp : HoneypotPool), m.pool[i]? = some hp →
    m.targetsMap (UInt32.ofNat i) = some hp.target.bytes

def Live (m : HoneypotManager) : Prop :=
  ∃ hp, m.pool[m.activeIdx.toNat]? = some hp ∧ hp.active = true ∧ hp.target.active ≠ 0

section Calls

variable {m : HoneypotManager} {err : Option GoError} {id : UInt32}

theorem Consistent.poolInvariant (hm : Consistent m) (hrec : Recorded m) (hlive : Live m) :
    PoolInvariant m := by
  obtain ⟨hp, hidx, hactive, hon⟩ := hlive
  exact {
    index := (hm.active _ hp hidx hactive).2.symm
    recorded := hrec
    active := ⟨hp, hidx, hactive⟩
    only := fun i hp' hi hact => (hm.active i hp' hi hact).1.symm
    enabled := fun _ => ⟨hp, hidx, hon⟩ }

theorem PoolInvariant.map_active (h : PoolInvariant m) :
    m.pool[m.activeIdx.toNat]?.map HoneypotPool.active = some true := by
  obtain ⟨hp, hidx, hact⟩ := h.active
  rw [hidx, Option.map_some, hact]

theorem PoolInvariant.map_enabled (h : PoolInvariant m)
    (hsome : ∃ hp ∈ m.pool, hp.target.active ≠ 0) :
    m.pool[m.activeIdx.toNat]?.map (fun hp => hp.target.active) ≠ some 0 := by
  obtain ⟨hp, hidx, hon⟩ := h.enabled hsome
  rw [hidx, Option.map_some]
  exact fun hzero => hon (Option.some.inj hzero)

variable {hp : HoneypotPool} {target : GoHoneypotTarget}

theorem getElem?_cleared {i : Nat} (h : m.cleared.pool[i]? = some hp) :
    ∃ hp₀, m.pool[i]? = some hp₀ ∧ hp.target = hp₀.target := by
  unfold cleared at h
  split at h
  · obtain ⟨hp₀, h₀, ht, -⟩ := setActive_cases h
    exact ⟨hp₀, h₀, ht⟩
  · exact ⟨hp, h, rfl⟩

theorem targetsMap_cleared (m : HoneypotManager) : m.cleared.targetsMap = m.targetsMap := by
  unfold cleared
  split <;> rfl

theorem length_cleared (m : HoneypotManager) : m.cleared.pool.length = m.pool.length := by
  unfold cleared
  split
  · exact setActive_length _ _ _
  · rfl

theorem pool_cleared (hnone : ∀ hp ∈ m.pool, hp.active = false) : m.cleared.pool = m.pool := by
  unfold cleared
  split
  · refine List.ext_getElem? fun i => ?_
    rw [setActive_getElem?]
    cases hi : m.pool[i]? with
    | none => rfl
    | some hp =>
      have hoff := hnone hp (List.mem_of_getElem? hi)
      obtain ⟨target, flag⟩ := hp
      obtain rfl : flag = false := hoff
      simp
  · rfl

theorem Recorded.cleared (hm : Recorded m) : Recorded m.cleared := by
  intro i hp h
  obtain ⟨hp₀, h₀, ht⟩ := getElem?_cleared h
  rw [targetsMap_cleared, ht]
  exact hm i hp₀ h₀

theorem Recorded.activateTarget (hm : Recorded m) (err : Option GoError) (id : UInt32) :
    Recorded (m.activateTarget err id).2 := by
  rcases m.activateTarget_cases err id with h | ⟨-, ⟨e, -, h⟩ | ⟨-, h⟩⟩ <;> rw [h]
  · exact hm
  · exact hm.cleared
  · intro i hp h
    obtain ⟨hp₀, h₀, ht, -⟩ := setActive_cases h
    rw [ht]
    exact hm.cleared i hp₀ h₀

theorem live_setActive (hid : id.toNat < m.pool.length)
    (hon : ∀ hp ∈ m.pool[id.toNat]?, hp.target.active ≠ 0) :
    Live ({ m.cleared with activeMap := id, activeIdx := id }.setActive true id) := by
  have hlt : id.toNat < m.cleared.pool.length := by
    rw [length_cleared]
    exact hid
  obtain ⟨hp, h⟩ : ∃ hp, m.cleared.pool[id.toNat]? = some hp := ⟨_, List.getElem?_eq_getElem hlt⟩
  obtain ⟨hp₀, h₀, ht⟩ := getElem?_cleared h
  refine ⟨{ hp with active := true }, ?_, rfl, ?_⟩
  · show (HoneypotManager.setActive true id { m.cleared with activeMap := id, activeIdx := id }).pool[
      id.toNat]? = _
    rw [setActive_getElem?]
    rw [h, Option.map_some, if_pos rfl]
  · show hp.target.active ≠ 0
    rw [ht]
    exact hon hp₀ h₀

theorem Switches.live (h : m.Switches err id) (hdone : (m.activateTarget err id).1 = none) :
    Live (m.activateTarget err id).2 := by
  rcases m.activateTarget_cases err id with hrun | ⟨hid, ⟨e, -, hrun⟩ | ⟨-, hrun⟩⟩ <;>
    rw [hrun] at hdone ⊢
  · cases hdone
  · cases hdone
  · exact live_setActive hid fun hp hmem => (h hp hmem).1

theorem Switches.pool (h : m.Switches err id) (hfail : (m.activateTarget err id).1 ≠ none) :
    (m.activateTarget err id).2.pool = m.pool := by
  rcases m.activateTarget_cases err id with hrun | ⟨hid, ⟨e, rfl, hrun⟩ | ⟨-, hrun⟩⟩ <;>
    rw [hrun] at hfail ⊢
  · rcases (h _ (List.getElem?_eq_getElem hid)).2 with hok | hnone
    · cases hok
    · exact pool_cleared hnone
  · exact absurd rfl hfail

theorem Switches.live_of_live (h : m.Switches err id) (hlive : Live m) :
    Live (m.activateTarget err id).2 := by
  rcases m.activateTarget_cases err id with hrun | ⟨hid, ⟨e, rfl, -⟩ | ⟨-, hrun⟩⟩
  · rw [hrun]
    exact hlive
  · obtain ⟨hp, hidx, hact, -⟩ := hlive
    rcases (h _ (List.getElem?_eq_getElem hid)).2 with hok | hnone
    · cases hok
    · rw [hnone hp (List.mem_of_getElem? hidx)] at hact
      cases hact
  · rw [hrun]
    exact live_setActive hid fun hp hmem => (h hp hmem).1

theorem Recorded.appended (hm : Consistent m) (hrec : Recorded m)
    (target : GoHoneypotTarget) : Recorded (m.appended target) := by
  intro i hp h
  rcases hm.appended_cases h with ⟨h, hmap⟩ | ⟨rfl, hmap⟩
  · rw [hmap]
    exact hrec i hp h
  · exact hmap

theorem Live.appended (h : Live m) (target : GoHoneypotTarget) : Live (m.appended target) := by
  obtain ⟨hp, hidx, hact, hon⟩ := h
  have hlt := (List.getElem?_eq_some_iff.mp hidx).1
  refine ⟨hp, ?_, hact, hon⟩
  simp only [HoneypotManager.appended]
  rw [List.getElem?_append_left hlt]
  exact hidx

theorem active_newHoneypotTarget {dstIP : NetIP} {dstMAC srcMAC : List UInt8} {dstPort : UInt16}
    (h : newHoneypotTarget dstIP dstMAC srcMAC dstPort = .ok target) : target.active = 1 := by
  unfold newHoneypotTarget at h
  split at h
  · cases h
  · split at h
    · cases h
    · split at h
      · cases h
      · cases h
        rfl

theorem pool_eq_nil (hm : Consistent m) (hid : UInt32.ofNat m.pool.length = 0) : m.pool = [] := by
  have h := congrArg UInt32.toNat hid
  rw [hm.toNat_ofNat (Nat.le_refl _)] at h
  exact List.eq_nil_of_length_eq_zero h

theorem live_first (hnil : m.pool = []) (hon : target.active ≠ 0) :
    Live ((m.appended target).activateTarget none 0).2 := by
  have hpool : (m.appended target).pool = [⟨target, false⟩] := by
    rw [HoneypotManager.appended, hnil]
    rfl
  refine Switches.live (fun hp hmem => ?_) ?_
  · rw [hpool] at hmem
    cases hmem
    exact ⟨hon, .inl rfl⟩
  · rw [activateTarget, hpool]
    rfl

/-- What a call that keeps to the conditions does to a pool in order. -/
structure Orderly (m : HoneypotManager) (c : HoneypotCall) : Prop where
  recorded : Recorded (c.run m)
  live : Live m ∨ m.Activates c → Live (c.run m)
  failed : c.error m ≠ none → (c.run m).pool = m.pool

theorem orderly_of_same {c : HoneypotCall} (hrec : Recorded m) (hsame : c.run m = m)
    (hnot : ¬ m.Activates c) : Orderly m c := by
  refine ⟨?_, fun hlive => ?_, fun _ => congrArg pool hsame⟩
  · rw [hsame]
    exact hrec
  · rw [hsame]
    exact hlive.resolve_right hnot

theorem live_registered {activeErr : Option GoError} (hm : Consistent m) (hon : target.active ≠ 0)
    (h : Live m ∨ UInt32.ofNat m.pool.length = 0 ∧ activeErr = none) :
    Live (if UInt32.ofNat m.pool.length = 0 then
      ((m.appended target).activateTarget activeErr 0).2 else m.appended target) := by
  by_cases hzero : UInt32.ofNat m.pool.length = 0
  · rw [if_pos hzero]
    have hnil := pool_eq_nil hm hzero
    rcases h with ⟨hp, hidx, -⟩ | ⟨-, hact⟩
    · rw [hnil] at hidx
      cases hidx
    · rw [hact]
      exact live_first hnil hon
  · rw [if_neg hzero]
    exact (h.resolve_right fun h0 => hzero h0.1).appended target

theorem orderly_registerTarget (hm : Consistent m) (hrec : Recorded m)
    (writeErr activeErr : Option GoError) (dstIP : NetIP) (dstMAC srcMAC : List UInt8)
    (dstPort : UInt16) :
    Orderly m (.registerTarget writeErr activeErr dstIP dstMAC srcMAC dstPort) := by
  rcases m.registerTarget_cases writeErr activeErr dstIP dstMAC srcMAC dstPort with
    ⟨e, h⟩ | ⟨target, hnew, -, h⟩
  · refine orderly_of_same hrec (congrArg Prod.snd h) ?_
    rintro ⟨hok, -⟩
    rw [h] at hok
    cases hok
  · have hrun := congrArg Prod.snd h
    refine ⟨?_, fun hlive => ?_, fun hfail => ?_⟩
    · rw [HoneypotCall.run, hrun]
      dsimp only
      split
      · exact (hrec.appended hm target).activateTarget _ _
      · exact hrec.appended hm target
    · rw [HoneypotCall.run, hrun]
      refine live_registered hm (by rw [active_newHoneypotTarget hnew]; decide) ?_
      refine hlive.imp_right fun hact => ?_
      obtain ⟨hok, hactive⟩ := hact
      rw [h] at hok
      exact ⟨Except.ok.inj hok, hactive⟩
    · rw [HoneypotCall.error, h] at hfail
      exact absurd rfl hfail

theorem orderly_rotate (hrec : Recorded m) (h : m.Switches err m.next) :
    Orderly m (.rotate err) := by
  by_cases hnil : m.pool.length = 0
  · refine orderly_of_same hrec (if_pos hnil) ?_
    rintro ⟨hne, -⟩
    exact hne (List.eq_nil_of_length_eq_zero hnil)
  · have hrun : HoneypotCall.run m (.rotate err) = (m.activateTarget err m.next).2 := if_neg hnil
    refine ⟨?_, ?_, fun hfail => absurd rfl hfail⟩
    · rw [hrun]
      exact hrec.activateTarget err m.next
    · rw [hrun]
      rintro (hlive | ⟨-, hdone⟩)
      · exact h.live_of_live hlive
      · exact h.live hdone

theorem disableTarget_ok (hm : Consistent m) (hid : m.pool[id.toNat]? = some hp) :
    m.disableTarget none id = (none, { m with
      pool := m.pool.set id.toNat ⟨hp.target.disable, false⟩
      targetsMap := update m.targetsMap id (some hp.target.disable.bytes) }) := by
  have hsize := hm.size
  have hlt := (List.getElem?_eq_some_iff.mp hid).1
  have hkey : ¬ maxHoneypotTargets ≤ id := by
    rw [UInt32.le_iff_toNat_le]
    show ¬ 16 ≤ _
    omega
  simp only [disableTarget, hid, writeTarget, if_neg hkey]

theorem Recorded.disable (hm : Consistent m) (hrec : Recorded m) (t : GoHoneypotTarget) :
    Recorded { m with
      pool := m.pool.set id.toNat ⟨t, false⟩
      targetsMap := update m.targetsMap id (some t.bytes) } := by
  intro i hp hi
  have hilt : i < m.pool.length := by
    have hilt := (List.getElem?_eq_some_iff.mp hi).1
    rwa [List.length_set] at hilt
  by_cases heq : id.toNat = i
  · have hsame : (m.pool.set id.toNat ⟨t, false⟩)[i]? = some ⟨t, false⟩ := by
      rw [heq]
      exact List.getElem?_set_self hilt
    obtain rfl := Option.some.inj (hsame.symm.trans hi)
    rw [← heq, UInt32.ofNat_toNat]
    exact update_self _ _ _
  · have ho : UInt32.ofNat i ≠ id := by
      rintro rfl
      exact heq (hm.toNat_ofNat (Nat.le_of_lt hilt))
    show update m.targetsMap id _ (UInt32.ofNat i) = _
    rw [update_of_ne ho]
    exact hrec i hp ((List.getElem?_set_ne heq).symm.trans hi)

theorem Live.disable (h : Live m) (hid : m.pool[id.toNat]? = some hp)
    (hoff : hp.active = false) (hp' : HoneypotPool) (targetsMap : UInt32 → Option (List UInt8)) :
    Live { m with pool := m.pool.set id.toNat hp', targetsMap := targetsMap } := by
  obtain ⟨active, hidx, hact, hon⟩ := h
  have hne : id.toNat ≠ m.activeIdx.toNat := by
    intro heq
    rw [← heq, hid] at hidx
    cases hidx
    rw [hoff] at hact
    cases hact
  exact ⟨active, (List.getElem?_set_ne hne).trans hidx, hact, hon⟩

theorem orderly_disableTarget (hm : Consistent m) (hrec : Recorded m)
    (h : ∀ hp ∈ m.pool[id.toNat]?, err = none ∧ hp.active = false) :
    Orderly m (.disableTarget err id) := by
  cases hid : m.pool[id.toNat]? with
  | none =>
    have hsame : m.disableTarget err id = (some (.invalidID id), m) := by
      simp only [disableTarget, hid]
    exact orderly_of_same hrec (congrArg Prod.snd hsame) fun h => h
  | some hp =>
    obtain ⟨rfl, hoff⟩ := h hp hid
    have hrun := disableTarget_ok hm hid
    refine ⟨?_, ?_, fun hfail => ?_⟩
    · rw [HoneypotCall.run, hrun]
      exact hrec.disable hm _
    · rw [HoneypotCall.run, hrun]
      exact fun hlive => hlive.elim (fun hlive => hlive.disable hid hoff _ _) False.elim
    · rw [HoneypotCall.error, hrun] at hfail
      exact absurd rfl hfail

theorem orderly_of_calm (hm : Consistent m) (hrec : Recorded m) {c : HoneypotCall}
    (hc : m.Calm c) : Orderly m c := by
  cases c with
  | registerTarget writeErr activeErr dstIP dstMAC srcMAC dstPort =>
    exact orderly_registerTarget hm hrec ..
  | setActiveTarget err id =>
    exact ⟨hrec.activateTarget err id, fun hlive => hlive.elim hc.live_of_live hc.live, hc.pool⟩
  | rotate err => exact orderly_rotate hrec hc
  | disableTarget err id => exact orderly_disableTarget hm hrec hc

end Calls

section Runs

variable {m : HoneypotManager} {c : HoneypotCall} {cs : List HoneypotCall}

def CalmRun (m : HoneypotManager) (cs : List HoneypotCall) : Prop :=
  StepRun.Along (fun m c => some (HoneypotCall.run m c)) Calm m cs

instance (m : HoneypotManager) (cs : List HoneypotCall) : Decidable (m.CalmRun cs) :=
  inferInstanceAs (Decidable (StepRun.Along _ _ _ _))

theorem runCalls_orderly (hm : Consistent m) (hrec : Recorded m) (hcalm : CalmRun m cs) :
    Recorded (m.runCalls cs) ∧ (Live m ∨ m.Activated cs → Live (m.runCalls cs)) := by
  induction cs generalizing m with
  | nil => exact ⟨hrec, fun h => h.elim id False.elim⟩
  | cons c cs ih =>
    obtain ⟨hc, hrest⟩ := hcalm
    have hstep := orderly_of_calm hm hrec hc
    obtain ⟨hrec', hlive'⟩ := ih (hm.run c).1 hstep.recorded hrest
    refine ⟨hrec', fun h => hlive' ?_⟩
    rcases h with hlive | hact | hact
    · exact .inl (hstep.live (.inl hlive))
    · exact .inl (hstep.live (.inr hact))
    · exact .inr hact

theorem CalmRun.last (h : CalmRun m (cs ++ [c])) : CalmRun m cs ∧ (m.runCalls cs).Calm c := by
  induction cs generalizing m with
  | nil => exact ⟨trivial, h.1⟩
  | cons c' cs ih =>
    obtain ⟨hc', hrest⟩ := h
    obtain ⟨hcs, hc⟩ := ih hrest
    exact ⟨⟨hc', hcs⟩, hc⟩

theorem pool_invariant {maxTargets activeMap : UInt32}
    {targetsMap : UInt32 → Option (List UInt8)} (hm : m = newManager maxTargets targetsMap activeMap)
    (hcalm : CalmRun m (cs ++ [c])) :
    (m.Activated (cs ++ [c]) → PoolInvariant (m.runCalls (cs ++ [c]))) ∧
      (c.error (m.runCalls cs) ≠ none → (m.runCalls (cs ++ [c])).pool = (m.runCalls cs).pool) := by
  have hnil : m.pool = [] := by rw [hm, newManager]
  have hm := consistent_of_empty hnil
  have hrec : Recorded m := by
    intro i hp h
    rw [hnil] at h
    cases h
  constructor
  · intro hact
    obtain ⟨hrec', hlive⟩ := runCalls_orderly hm hrec hcalm
    exact (hm.runCalls _).1.poolInvariant hrec' (hlive (.inr hact))
  · intro hfail
    obtain ⟨hcs, hc⟩ := hcalm.last
    have hrec' := (runCalls_orderly hm hrec hcs).1
    rw [runCalls, List.foldl_append]
    exact (orderly_of_calm (hm.runCalls cs).1 hrec' hc).failed hfail

def opened : HoneypotManager := newManager maxHoneypotTargets (fun _ => none) 3

def register (host : UInt8) : HoneypotCall :=
  .registerTarget none none [10, 0, 0, host] [2, 0, 0, 0, 0, host] [2, 0, 0, 0, 0, 1] 8080

theorem pool_invariant_two :
    PoolInvariant (opened.runCalls
        ([register 5, register 6, .setActiveTarget none 1, .disableTarget none 0] ++
          [.setActiveTarget none 7])) ∧
      (opened.runCalls
        ([register 5, register 6, .setActiveTarget none 1, .disableTarget none 0] ++
          [.setActiveTarget none 7])).pool =
      (opened.runCalls
        [register 5, register 6, .setActiveTarget none 1, .disableTarget none 0]).pool := by
  have hcalm : opened.CalmRun
      ([register 5, register 6, .setActiveTarget none 1, .disableTarget none 0] ++
        [.setActiveTarget none 7]) := by decide +kernel
  obtain ⟨hact, hfail⟩ := pool_invariant rfl hcalm
  exact ⟨hact (.inl ⟨rfl, rfl⟩), hfail (by decide +kernel)⟩

/-- The write of the index fails; the write of a disabled target fails; the active target is
disabled; the rotation goes to a disabled target. -/
theorem pool_diverges :
    (opened.Activated [register 5, register 6, .setActiveTarget (some (.mapOp 1)) 1] ∧
      (HoneypotCall.setActiveTarget (some (.mapOp 1)) 1).error
        (opened.runCalls [register 5, register 6]) = some (.activeUpdate (.mapOp 1)) ∧
      (opened.runCalls [register 5, register 6]).pool.map HoneypotPool.active = [true, false] ∧
      (opened.runCalls [register 5, register 6, .setActiveTarget (some (.mapOp 1)) 1]).pool.map
        HoneypotPool.active = [false, false]) ∧
    (opened.Activated [register 5, register 6, .disableTarget (some (.mapOp 1)) 1] ∧
      ¬ PoolInvariant
        (opened.runCalls [register 5, register 6, .disableTarget (some (.mapOp 1)) 1])) ∧
    (opened.Activated [register 5, register 6, .disableTarget none 0] ∧
      ¬ PoolInvariant (opened.runCalls [register 5, register 6, .disableTarget none 0])) ∧
    (opened.Activated [register 5, register 6, .disableTarget none 1, .rotate none] ∧
      ¬ PoolInvariant (opened.runCalls
        [register 5, register 6, .disableTarget none 1, .rotate none])) := by
  refine ⟨⟨.inl ⟨rfl, rfl⟩, by decide +kernel, by decide +kernel, by decide +kernel⟩,
    ⟨.inl ⟨rfl, rfl⟩, fun h => ?_⟩, ⟨.inl ⟨rfl, rfl⟩, fun h => ?_⟩,
    ⟨.inl ⟨rfl, rfl⟩, fun h => ?_⟩⟩
  · exact absurd (h.recorded 1 _ rfl) (by decide +kernel)
  · exact absurd h.map_active (by decide +kernel)
  · exact absurd (h.map_enabled (by decide +kernel)) (by decide +kernel)

end Runs

end HoneypotManager

end Falx
