import Falx.Manager

/-! The control plane's pool of honeypots. A target is written to the kernel as
the bytes of its Go struct; the manager keeps the index of the active one and
switches it by writing a second map. Every map write may fail. -/

namespace Falx

open Function Words

def copyBytes (n : Nat) (src : List UInt8) : List UInt8 := (List.range n).map fun i => src.getD i 0

theorem copyBytes_length (n : Nat) (src : List UInt8) : (copyBytes n src).length = n := by
  simp [copyBytes]

theorem copyBytes_of_length {n : Nat} {src : List UInt8} (h : src.length = n) :
    copyBytes n src = src := by
  subst h
  apply List.ext_getElem
  · exact copyBytes_length _ _
  · intro i h1 h2
    simp [copyBytes, h2]

/-- The Go side of `HoneypotTarget`; the port is kept in its big-endian bytes. -/
structure GoHoneypotTarget where
  dstIP : List UInt8
  dstMAC : List UInt8
  srcMAC : List UInt8
  dstPort : List UInt8
  active : UInt8
  dstIP_length : dstIP.length = 4
  dstMAC_length : dstMAC.length = 6
  srcMAC_length : srcMAC.length = 6
  dstPort_length : dstPort.length = 2

namespace GoHoneypotTarget

def disable (t : GoHoneypotTarget) : GoHoneypotTarget := { t with active := 0 }

def bytes (t : GoHoneypotTarget) : List UInt8 :=
  t.dstIP ++ t.dstMAC ++ t.srcMAC ++ t.dstPort ++ [0, 0] ++ [t.active] ++ [0, 0, 0]

end GoHoneypotTarget

inductive HoneypotError where
  | poolFull (size : Nat) (maxTargets : UInt32)
  | notIPv4 (ip : NetIP)
  | dstMACLength (n : Nat)
  | srcMACLength (n : Nat)
  | mapWrite (cause : GoError)
  | invalidHoneypotID (id : UInt32) (size : Nat)
  | activeUpdate (cause : GoError)
  | invalidID (id : UInt32)
  | disableWrite (cause : GoError)
  deriving DecidableEq

/-- The texts of the errors, given how an address prints. -/
def HoneypotError.message (ipText : NetIP → String) : HoneypotError → String
  | poolFull size maxTargets =>
    "honeypot pool full (" ++ toString size ++ "/" ++ toString maxTargets ++ ")"
  | notIPv4 ip => "invalid honeypot target: honeypot IP must be IPv4, got: " ++ ipText ip
  | dstMACLength n => "invalid honeypot target: invalid dst MAC length: " ++ toString n
  | srcMACLength n => "invalid honeypot target: invalid src MAC length: " ++ toString n
  | mapWrite cause => "BPF map write: " ++ cause.message
  | invalidHoneypotID id size =>
    "invalid honeypot ID: " ++ toString id ++ " (pool size: " ++ toString size ++ ")"
  | activeUpdate cause => "HONEYPOT_ACTIVE update: " ++ cause.message
  | invalidID id => "invalid ID: " ++ toString id
  | disableWrite cause => cause.message

def newHoneypotTarget (dstIP : NetIP) (dstMAC srcMAC : List UInt8) (dstPort : UInt16) :
    Except HoneypotError GoHoneypotTarget :=
  match dstIP.to4 with
  | none => .error (.notIPv4 dstIP)
  | some ip4 =>
    if dstMAC.length ≠ 6 then .error (.dstMACLength dstMAC.length)
    else if srcMAC.length ≠ 6 then .error (.srcMACLength srcMAC.length)
    else
      .ok {
        dstIP := copyBytes 4 ip4
        dstMAC := copyBytes 6 dstMAC
        srcMAC := copyBytes 6 srcMAC
        dstPort := if dstPort ≠ 0 then bytes16 (swap16 dstPort) else [0, 0]
        active := 1
        dstIP_length := copyBytes_length 4 ip4
        dstMAC_length := copyBytes_length 6 dstMAC
        srcMAC_length := copyBytes_length 6 srcMAC
        dstPort_length := by split <;> rfl }

structure HoneypotPool where
  target : GoHoneypotTarget
  active : Bool

def maxHoneypotTargets : UInt32 := 16

structure HoneypotManager where
  maxTargets : UInt32
  pool : List HoneypotPool
  activeIdx : UInt32
  targetsMap : UInt32 → Option (List UInt8)
  activeMap : UInt32

namespace HoneypotManager

def writeTarget (err : Option GoError) (idx : UInt32) (target : GoHoneypotTarget)
    (m : HoneypotManager) : Except GoError HoneypotManager :=
  match err with
  | some e => .error e
  | none =>
    if maxHoneypotTargets ≤ idx then .error (.mapOp 7)
    else .ok { m with targetsMap := Function.update m.targetsMap idx (some target.bytes) }

def setActive (isActive : Bool) (id : UInt32) (m : HoneypotManager) : HoneypotManager :=
  { m with pool := m.pool.modify id.toNat fun hp => { hp with active := isActive } }

def activateTarget (err : Option GoError) (id : UInt32) (m : HoneypotManager) :
    Option HoneypotError × HoneypotManager :=
  if m.pool.length ≤ id.toNat then (some (.invalidHoneypotID id m.pool.length), m)
  else
    let m := if m.activeIdx < UInt32.ofNat m.pool.length then m.setActive false m.activeIdx else m
    match err with
    | some e => (some (.activeUpdate e), m)
    | none => (none, { m with activeMap := id, activeIdx := id }.setActive true id)

def registerTarget (writeErr activeErr : Option GoError) (dstIP : NetIP)
    (dstMAC srcMAC : List UInt8) (dstPort : UInt16) (m : HoneypotManager) :
    Except HoneypotError UInt32 × HoneypotManager :=
  if m.maxTargets ≤ UInt32.ofNat m.pool.length then
    (.error (.poolFull m.pool.length m.maxTargets), m)
  else
    match newHoneypotTarget dstIP dstMAC srcMAC dstPort with
    | .error e => (.error e, m)
    | .ok target =>
      let id := UInt32.ofNat m.pool.length
      match m.writeTarget writeErr id target with
      | .error e => (.error (.mapWrite e), m)
      | .ok m =>
        let m := { m with pool := m.pool ++ [⟨target, false⟩] }
        -- a failed activation of the first target is only logged
        if id = 0 then (.ok id, (m.activateTarget activeErr 0).2) else (.ok id, m)

def rotate (err : Option GoError) (m : HoneypotManager) : HoneypotManager :=
  if m.pool.length = 0 then m
  else (m.activateTarget err ((m.activeIdx + 1) % UInt32.ofNat m.pool.length)).2

def disableTarget (err : Option GoError) (id : UInt32) (m : HoneypotManager) :
    Option HoneypotError × HoneypotManager :=
  match m.pool[id.toNat]? with
  | none => (some (.invalidID id), m)
  | some hp =>
    let m := { m with pool := m.pool.set id.toNat ⟨hp.target.disable, false⟩ }
    match m.writeTarget err id hp.target.disable with
    | .error e => (some (.disableWrite e), m)
    | .ok m => (none, m)

end HoneypotManager

inductive HoneypotCall where
  | registerTarget (writeErr activeErr : Option GoError) (dstIP : NetIP)
      (dstMAC srcMAC : List UInt8) (dstPort : UInt16)
  | setActiveTarget (err : Option GoError) (id : UInt32)
  | rotate (err : Option GoError)
  | disableTarget (err : Option GoError) (id : UInt32)

def HoneypotCall.run (m : HoneypotManager) : HoneypotCall → HoneypotManager
  | registerTarget writeErr activeErr dstIP dstMAC srcMAC dstPort =>
    (m.registerTarget writeErr activeErr dstIP dstMAC srcMAC dstPort).2
  | setActiveTarget err id => (m.activateTarget err id).2
  | rotate err => m.rotate err
  | disableTarget err id => (m.disableTarget err id).2

def HoneypotManager.runCalls (cs : List HoneypotCall) (m : HoneypotManager) : HoneypotManager :=
  cs.foldl HoneypotCall.run m

/-- What the wire gets to see of a target: everything but its `active` flag. -/
def GoHoneypotTarget.wire (t : GoHoneypotTarget) : List (List UInt8) :=
  [t.dstIP, t.dstMAC, t.srcMAC, t.dstPort]

namespace HoneypotManager

/-- The maps hold every target of the pool, up to its flag, and at most the
target under `activeIdx` counts as active. -/
structure Consistent (m : HoneypotManager) : Prop where
  size : m.pool.length ≤ 16
  written : ∀ (i : Nat) (hp : HoneypotPool), m.pool[i]? = some hp →
    ∃ t : GoHoneypotTarget, m.targetsMap (UInt32.ofNat i) = some t.bytes ∧
      t.wire = hp.target.wire
  active : ∀ (i : Nat) (hp : HoneypotPool), m.pool[i]? = some hp → hp.active = true →
    m.activeIdx.toNat = i ∧ m.activeMap = m.activeIdx

def Extends (m m' : HoneypotManager) : Prop :=
  ∀ (i : Nat) (hp : HoneypotPool), m.pool[i]? = some hp →
    ∃ hp' : HoneypotPool, m'.pool[i]? = some hp' ∧ hp'.target.wire = hp.target.wire

theorem Extends.refl (m : HoneypotManager) : Extends m m := fun _ hp h => ⟨hp, h, rfl⟩

theorem Extends.trans {a b c : HoneypotManager} (hab : Extends a b) (hbc : Extends b c) :
    Extends a c := by
  intro i hp h
  obtain ⟨hp', h', hw⟩ := hab i hp h
  obtain ⟨hp'', h'', hw'⟩ := hbc i hp' h'
  exact ⟨hp'', h'', hw'.trans hw⟩

section Steps

variable {m : HoneypotManager}

theorem setActive_getElem? (b : Bool) (id : UInt32) (m : HoneypotManager) (i : Nat) :
    (m.setActive b id).pool[i]? =
      m.pool[i]?.map fun hp => if id.toNat = i then { hp with active := b } else hp := by
  rw [setActive, List.getElem?_modify]
  by_cases h : id.toNat = i
  · simp [h]
  · simp [h]

variable {b : Bool} {id : UInt32} {i : Nat} {hp : HoneypotPool}
  {writeErr activeErr : Option GoError} {dstIP : NetIP} {dstMAC srcMAC : List UInt8}
  {dstPort : UInt16}

theorem setActive_cases (h : (m.setActive b id).pool[i]? = some hp) : ∃ hp₀, m.pool[i]? = some hp₀ ∧
      hp.target = hp₀.target ∧ (id.toNat = i ∧ hp.active = b ∨
        id.toNat ≠ i ∧ hp.active = hp₀.active) := by
  rw [setActive_getElem?] at h
  obtain ⟨hp₀, h₀, rfl⟩ := Option.map_eq_some_iff.mp h
  refine ⟨hp₀, h₀, ?_⟩
  by_cases hid : id.toNat = i
  · rw [if_pos hid]
    exact ⟨rfl, .inl ⟨hid, rfl⟩⟩
  · rw [if_neg hid]
    exact ⟨rfl, .inr ⟨hid, rfl⟩⟩

theorem setActive_extends (b : Bool) (id : UInt32) (m : HoneypotManager) :
    Extends m (m.setActive b id) := by
  intro i hp h
  refine ⟨if id.toNat = i then { hp with active := b } else hp, ?_, ?_⟩
  · rw [setActive_getElem?, h]
    rfl
  · split <;> rfl

theorem setActive_length (b : Bool) (id : UInt32) (m : HoneypotManager) :
    (m.setActive b id).pool.length = m.pool.length := by
  rw [setActive, List.length_modify]

section

variable (hm : Consistent m)

include hm

theorem Consistent.toNat_ofNat (hi : i ≤ m.pool.length) :
    (UInt32.ofNat i).toNat = i := by
  have hsize := hm.size
  exact UInt32.toNat_ofNat_of_lt' (by simp only [UInt32.size]; omega)

theorem Consistent.setActive {activeMap activeIdx : UInt32}
    (hact : ∀ (i : Nat) hp,
      ({ m with activeMap, activeIdx }.setActive b id).pool[i]? = some hp → hp.active = true →
      activeIdx.toNat = i ∧ activeMap = activeIdx) :
    Consistent ({ m with activeMap, activeIdx }.setActive b id) := by
  refine ⟨?_, fun i hp h => ?_, hact⟩
  · rw [setActive_length]
    exact hm.size
  · obtain ⟨hp₀, h₀, ht, -⟩ := setActive_cases h
    rw [ht]
    exact hm.written i hp₀ h₀

theorem Consistent.deactivate (id : UInt32) :
    Consistent (m.setActive false id) := by
  refine hm.setActive fun i hp h hact => ?_
  obtain ⟨hp₀, h₀, -, ⟨-, hb⟩ | ⟨-, hb⟩⟩ := setActive_cases h
  · rw [hb] at hact
    cases hact
  · exact hm.active i hp₀ h₀ (hb ▸ hact)

theorem Consistent.switch
    (hnone : ∀ (i : Nat) hp, m.pool[i]? = some hp → hp.active = false) (id : UInt32) :
    Consistent ({ m with activeMap := id, activeIdx := id }.setActive true id) := by
  refine hm.setActive fun i hp h hact => ?_
  obtain ⟨hp₀, h₀, -, ⟨hid, -⟩ | ⟨-, hb⟩⟩ := setActive_cases h
  · exact ⟨hid, rfl⟩
  · rw [hb, hnone i hp₀ h₀] at hact
    cases hact

end

def cleared (m : HoneypotManager) : HoneypotManager :=
  if m.activeIdx < UInt32.ofNat m.pool.length then m.setActive false m.activeIdx else m

theorem activateTarget_cases (m : HoneypotManager) (err : Option GoError) (id : UInt32) :
    m.activateTarget err id = (some (.invalidHoneypotID id m.pool.length), m) ∨
      id.toNat < m.pool.length ∧
        ((∃ e, err = some e ∧ m.activateTarget err id = (some (.activeUpdate e), m.cleared)) ∨
          err = none ∧ m.activateTarget err id =
            (none, { m.cleared with activeMap := id, activeIdx := id }.setActive true id)) := by
  rw [activateTarget]
  split
  · exact .inl rfl
  · rename_i hid
    refine .inr ⟨Nat.not_le.mp hid, ?_⟩
    cases err with
    | some e => exact .inl ⟨e, rfl, rfl⟩
    | none => exact .inr ⟨rfl, rfl⟩

theorem Consistent.none_active (hm : Consistent m) (i : Nat) (hp : HoneypotPool)
    (h : m.cleared.pool[i]? = some hp) : hp.active = false := by
  by_contra hact
  unfold cleared at h
  have hact : hp.active = true := by simpa using hact
  by_cases hlt : m.activeIdx < UInt32.ofNat m.pool.length
  · rw [if_pos hlt] at h
    obtain ⟨hp₀, h₀, -, ⟨-, hb⟩ | ⟨hne, hb⟩⟩ := setActive_cases h
    · rw [hb] at hact
      cases hact
    · exact hne (hm.active i hp₀ h₀ (hb ▸ hact)).1
  · rw [if_neg hlt] at h
    have hi := (List.getElem?_eq_some_iff.mp h).1
    obtain ⟨hidx, -⟩ := hm.active i hp h hact
    apply hlt
    rw [UInt32.lt_iff_toNat_lt, hm.toNat_ofNat (Nat.le_refl _)]
    omega

theorem Consistent.activateTarget (hm : Consistent m) (err : Option GoError) (id : UInt32) :
    Consistent (m.activateTarget err id).2 := by
  have hclr : Consistent m.cleared := by
    unfold cleared
    split
    · exact hm.deactivate _
    · exact hm
  rcases m.activateTarget_cases err id with h | ⟨-, ⟨e, -, h⟩ | ⟨-, h⟩⟩ <;> rw [h]
  · exact hm
  · exact hclr
  · exact hclr.switch hm.none_active id

theorem activateTarget_extends (err : Option GoError) (id : UInt32) (m : HoneypotManager) :
    Extends m (m.activateTarget err id).2 := by
  have hclr : Extends m m.cleared := by
    unfold cleared
    split
    · exact setActive_extends _ _ _
    · exact Extends.refl m
  rcases m.activateTarget_cases err id with h | ⟨-, ⟨e, -, h⟩ | ⟨-, h⟩⟩ <;> rw [h]
  · exact Extends.refl m
  · exact hclr
  · exact hclr.trans (setActive_extends true id _)

theorem writeTarget_eq_ok {err : Option GoError} {idx : UInt32} {target : GoHoneypotTarget}
    {m' : HoneypotManager} (h : m.writeTarget err idx target = .ok m') :
    idx.toNat < 16 ∧
      m' = { m with targetsMap := update m.targetsMap idx (some target.bytes) } := by
  simp only [writeTarget] at h
  split at h
  · cases h
  · split at h
    · cases h
    · rename_i hidx
      cases h
      exact ⟨by simpa [UInt32.le_iff_toNat_le, maxHoneypotTargets] using hidx, rfl⟩

def appended (m : HoneypotManager) (target : GoHoneypotTarget) : HoneypotManager :=
  { m with
    targetsMap :=
      Function.update m.targetsMap (UInt32.ofNat m.pool.length) (some target.bytes)
    pool := m.pool ++ [⟨target, false⟩] }

theorem registerTarget_cases (m : HoneypotManager) (writeErr activeErr : Option GoError)
    (dstIP : NetIP) (dstMAC srcMAC : List UInt8) (dstPort : UInt16) :
    let r := m.registerTarget writeErr activeErr dstIP dstMAC srcMAC dstPort
    let id := UInt32.ofNat m.pool.length
    (∃ e, r = (.error e, m)) ∨ ∃ target, newHoneypotTarget dstIP dstMAC srcMAC dstPort = .ok target ∧
      id.toNat < 16 ∧ r = (.ok id, if id = 0 then ((m.appended target).activateTarget activeErr 0).2
        else m.appended target) := by
  simp only [registerTarget]
  split
  · exact .inl ⟨_, rfl⟩
  split
  · exact .inl ⟨_, rfl⟩
  rename_i target hnew
  split
  · exact .inl ⟨_, rfl⟩
  rename_i m' hw
  obtain ⟨hlt, rfl⟩ := writeTarget_eq_ok hw
  refine .inr ⟨target, hnew, hlt, ?_⟩
  split <;> rfl

theorem Consistent.appended_cases (hm : Consistent m) {target : GoHoneypotTarget}
    (h : (m.appended target).pool[i]? = some hp) :
    (m.pool[i]? = some hp ∧
        (m.appended target).targetsMap (UInt32.ofNat i) = m.targetsMap (UInt32.ofNat i)) ∨
      hp = ⟨target, false⟩ ∧
        (m.appended target).targetsMap (UInt32.ofNat i) = some target.bytes := by
  simp only [HoneypotManager.appended, List.getElem?_append] at h ⊢
  by_cases hi : i < m.pool.length
  · rw [if_pos hi] at h
    refine .inl ⟨h, update_of_ne (fun heq => ?_) _ _⟩
    have hnat := congrArg UInt32.toNat heq
    rw [hm.toNat_ofNat (Nat.le_of_lt hi), hm.toNat_ofNat (Nat.le_refl _)] at hnat
    omega
  · rw [if_neg hi, List.getElem?_singleton] at h
    split at h
    · cases h
      obtain rfl : i = m.pool.length := by omega
      exact .inr ⟨rfl, update_self _ _ _⟩
    · cases h

theorem Consistent.appended (hm : Consistent m) (hsize : m.pool.length < 16)
    (target : GoHoneypotTarget) : Consistent (m.appended target) := by
  refine ⟨?_, fun i hp h => ?_, fun i hp h hact => ?_⟩
  · simp only [HoneypotManager.appended, List.length_append, List.length_singleton]
    omega
  · rcases hm.appended_cases h with ⟨h, hmap⟩ | ⟨rfl, hmap⟩
    · rw [hmap]
      exact hm.written i hp h
    · exact ⟨target, hmap, rfl⟩
  · rcases hm.appended_cases h with ⟨h, -⟩ | ⟨rfl, -⟩
    · exact hm.active i hp h hact
    · cases hact

theorem appended_extends (m : HoneypotManager) (target : GoHoneypotTarget) :
    Extends m (m.appended target) := by
  intro i hp h
  have hi := (List.getElem?_eq_some_iff.mp h).1
  refine ⟨hp, ?_, rfl⟩
  simp only [appended, List.getElem?_append]
  rw [if_pos hi]
  exact h

theorem Consistent.registerTarget (hm : Consistent m) (writeErr activeErr : Option GoError)
    (dstIP : NetIP) (dstMAC srcMAC : List UInt8) (dstPort : UInt16) :
    Consistent (m.registerTarget writeErr activeErr dstIP dstMAC srcMAC dstPort).2 ∧
      Extends m (m.registerTarget writeErr activeErr dstIP dstMAC srcMAC dstPort).2 := by
  rcases m.registerTarget_cases writeErr activeErr dstIP dstMAC srcMAC dstPort with
    ⟨e, h⟩ | ⟨target, -, hid, h⟩ <;> rw [h]
  · exact ⟨hm, Extends.refl m⟩
  · rw [hm.toNat_ofNat (Nat.le_refl _)] at hid
    have happ := hm.appended hid target
    have hext := appended_extends m target
    dsimp only
    split
    · exact ⟨happ.activateTarget _ _, hext.trans (activateTarget_extends _ _ _)⟩
    · exact ⟨happ, hext⟩

theorem Consistent.rotate (hm : Consistent m) (err : Option GoError) :
    Consistent (m.rotate err) ∧ Extends m (m.rotate err) := by
  rw [HoneypotManager.rotate]
  split
  · exact ⟨hm, Extends.refl m⟩
  · exact ⟨hm.activateTarget _ _, activateTarget_extends _ _ _⟩

theorem disabled_cases (hid : m.pool[id.toNat]? = some hp) {hp' : HoneypotPool}
    (h : (m.pool.set id.toNat ⟨hp.target.disable, false⟩)[i]? = some hp') :
    ∃ hp₀, m.pool[i]? = some hp₀ ∧ hp'.target.wire = hp₀.target.wire ∧
      (hp'.active = true → hp₀.active = true) := by
  rw [List.getElem?_set] at h
  by_cases hi : id.toNat = i
  · subst hi
    have hlt := (List.getElem?_eq_some_iff.mp hid).1
    rw [if_pos rfl, if_pos hlt] at h
    cases h
    exact ⟨hp, hid, rfl, fun hact => by cases hact⟩
  · rw [if_neg hi] at h
    exact ⟨hp', h, rfl, fun hact => hact⟩

theorem Consistent.disabled (hm : Consistent m) (hid : m.pool[id.toNat]? = some hp) :
    Consistent { m with pool := m.pool.set id.toNat ⟨hp.target.disable, false⟩ } := by
  refine ⟨?_, ?_, ?_⟩
  · rw [List.length_set]
    exact hm.size
  · intro i hp' h
    obtain ⟨hp₀, h₀, hw, -⟩ := disabled_cases hid h
    rw [hw]
    exact hm.written i hp₀ h₀
  · intro i hp' h hact
    obtain ⟨hp₀, h₀, -, hact₀⟩ := disabled_cases hid h
    exact hm.active i hp₀ h₀ (hact₀ hact)

theorem disabled_extends (hid : m.pool[id.toNat]? = some hp) :
    Extends m { m with pool := m.pool.set id.toNat ⟨hp.target.disable, false⟩ } := by
  intro i hp₀ h₀
  by_cases hi : id.toNat = i
  · subst hi
    have hlt := (List.getElem?_eq_some_iff.mp hid).1
    obtain rfl : hp = hp₀ := Option.some.inj (hid.symm.trans h₀)
    exact ⟨⟨hp.target.disable, false⟩, List.getElem?_set_self hlt, rfl⟩
  · exact ⟨hp₀, (List.getElem?_set_ne hi).trans h₀, rfl⟩

section

variable (hm : Consistent m)

include hm

theorem Consistent.overwrite {t : GoHoneypotTarget}
    (ht : ∀ hp, m.pool[id.toNat]? = some hp → t.wire = hp.target.wire) :
    Consistent { m with targetsMap := update m.targetsMap id (some t.bytes) } := by
  refine ⟨hm.size, ?_, hm.active⟩
  intro i hp h
  by_cases hi : UInt32.ofNat i = id
  · have hlt : i < m.pool.length := (List.getElem?_eq_some_iff.mp h).1
    have hnat : id.toNat = i := by
      rw [← hi]
      exact hm.toNat_ofNat (Nat.le_of_lt hlt)
    refine ⟨t, ?_, ht hp (by rw [hnat]; exact h)⟩
    rw [hi]
    exact update_self _ _ _
  · obtain ⟨t', ht', hwire⟩ := hm.written i hp h
    exact ⟨t', (update_of_ne hi _ _).trans ht', hwire⟩

theorem Consistent.disableTarget (err : Option GoError) (id : UInt32) :
    Consistent (m.disableTarget err id).2 ∧ Extends m (m.disableTarget err id).2 := by
  simp only [HoneypotManager.disableTarget]
  split
  · exact ⟨hm, Extends.refl m⟩
  · rename_i hp hid
    have hdis := hm.disabled hid
    have hext := disabled_extends hid
    split
    · exact ⟨hdis, hext⟩
    · rename_i m₂ hw
      obtain ⟨-, rfl⟩ := writeTarget_eq_ok hw
      refine ⟨hdis.overwrite ?_, hext⟩
      intro hp' h
      obtain ⟨hp₀, h₀, hwire, -⟩ := disabled_cases hid h
      obtain rfl : hp = hp₀ := Option.some.inj (hid.symm.trans h₀)
      exact hwire.symm

theorem Consistent.run (c : HoneypotCall) :
    Consistent (c.run m) ∧ Extends m (c.run m) := by
  cases c with
  | registerTarget writeErr activeErr dstIP dstMAC srcMAC dstPort =>
    exact hm.registerTarget writeErr activeErr dstIP dstMAC srcMAC dstPort
  | setActiveTarget err id => exact ⟨hm.activateTarget err id, activateTarget_extends err id m⟩
  | rotate err => exact hm.rotate err
  | disableTarget err id => exact hm.disableTarget err id

theorem Consistent.runCalls (cs : List HoneypotCall) :
    Consistent (m.runCalls cs) ∧ Extends m (m.runCalls cs) := by
  induction cs generalizing m with
  | nil => exact ⟨hm, Extends.refl m⟩
  | cons c cs ih =>
    obtain ⟨hstep, hext⟩ := hm.run c
    obtain ⟨hrun, hext'⟩ := ih hstep
    exact ⟨hrun, hext.trans hext'⟩

end

theorem consistent_of_empty (h : m.pool = []) : Consistent m := by
  refine ⟨by rw [h]; exact Nat.zero_le 16, ?_, ?_⟩
  · intro i hp hi
    rw [h] at hi
    cases hi
  · intro i hp hi
    rw [h] at hi
    cases hi

end Steps

end HoneypotManager

end Falx
