import Falx.Enforcement
import Falx.HoneypotManager
import Falx.Redirect

/-! The bytes of a registered target on their way to the wire. The port is
written in big-endian bytes, read back as a native word and converted to
big-endian once more, so it leaves with its two bytes exchanged. -/

namespace Falx

open HoneypotTarget Frame Words OnesComplement

def Frame.slice (f : Frame) (p n : Nat) : List UInt8 :=
  (List.range n).map fun i => f.u8 (p + i)

def MacAddr.load (v : List UInt8) (p : Nat) : MacAddr := ⟨Frame.slice v p 6, by simp [Frame.slice]⟩

/-- The kernel's reading of a map value, field by field at its offset. -/
def HoneypotTarget.load (v : List UInt8) : HoneypotTarget where
  dstIp := Frame.u32 v 0
  dstMac := MacAddr.load v 4
  srcMac := MacAddr.load v 10
  dstPort := Frame.u16 v 16
  active := Frame.u8 v 20

def HoneypotManager.kernelTargets (m : HoneypotManager) (idx : UInt32) : Option HoneypotTarget :=
  (m.targetsMap idx).map HoneypotTarget.load

section Transmit

variable {frame : Frame}

def TxByRedirect (frame : Frame) (x : Kernel) (v : Verdict) : Prop :=
  v.1 = .tx → tryRedirect x.honeypotTargets x.honeypotActive frame = some v

def SameTargets (x y : Kernel) : Prop :=
  y.honeypotTargets = x.honeypotTargets ∧ y.honeypotActive = x.honeypotActive

theorem sameTargets_statsBlind : StatsBlind fun x _ y => SameTargets x y where
  refl _ _ := ⟨rfl, rfl⟩
  trans _ _ _ _ hxy hyz := ⟨hyz.1.trans hxy.1, hyz.2.trans hxy.2⟩
  mapped _ _ _ _ h := h
  stat _ _ _ _ h := h

theorem checkFailsafe_sameTargets (pkt : PacketInfo) (now : UInt64) :
    Stage.Respects (fun x _ y => SameTargets x y) (checkFailsafe pkt now) := by
  intro x
  simp only [checkFailsafe]
  split
  · exact ⟨rfl, rfl⟩
  · split <;> exact ⟨rfl, rfl⟩

theorem TxByRedirect.of_drop {x : Kernel} {v : Verdict} (h : v.1 = .drop) :
    TxByRedirect frame x v := by
  intro htx
  rw [h] at htx
  cases htx

theorem checkBlocklistV4_tx (srcIp : UInt32) (now : UInt64) :
    Stage.Verdicts (TxByRedirect frame) (checkBlocklistV4 frame srcIp now) := by
  intro x v h
  simp only [checkBlocklistV4] at h
  split at h
  · cases h
  split at h
  · cases h
  split at h
  · cases h
    exact TxByRedirect.of_drop rfl
  split at h
  · obtain rfl := Option.some.inj h
    intro htx
    rw [redirectToHoneypot] at htx ⊢
    cases hr : tryRedirect x.honeypotTargets x.honeypotActive frame with
    | none =>
      rw [hr] at htx
      cases htx
    | some w => rfl
  · cases h

theorem checkBlocklistV6_drop (srcIp6 : Ipv6Addr) (now : UInt64) :
    Stage.Verdicts (fun _ v => v = .drop) (checkBlocklistV6 srcIp6 now) := by
  intro x v h
  simp only [checkBlocklistV6] at h
  split at h
  · cases h
  split at h
  · cases h
  split at h
  · cases h
    rfl
  · cases h

theorem checkSynCounter_drop (srcIp : UInt32) (flags : UInt8) (now : UInt64) :
    Stage.Verdicts (fun _ v => v = .drop) (checkSynCounter srcIp flags now) := by
  intro x v h
  simp only [checkSynCounter] at h
  repeat' split at h
  all_goals cases h
  rfl

theorem checkRateLimit_drop (srcIp : UInt32) (cfg : FalxMapConfig) (now : UInt64) :
    Stage.Verdicts (fun _ v => v = .drop) (checkRateLimit srcIp cfg now) := by
  intro x v h
  simp only [checkRateLimit, dropLimited, chargeBucket] at h
  repeat' split at h
  all_goals cases h
  rfl

theorem checkSynFlood_drop (srcIp : UInt32) (charge now : UInt64) :
    Stage.Verdicts (fun _ v => v = .drop) (checkSynFlood srcIp charge now) := by
  intro x v h
  simp only [checkSynFlood, dropLimited, chargeBucket] at h
  repeat' split at h
  all_goals cases h
  rfl

theorem limiterStages_drop (cfg : FalxMapConfig) (pkt : PacketInfo) (clk : Clock) (frame : Frame) :
    Stage.Verdicts (fun _ v => v.1 = .drop) (limiterStages cfg pkt clk frame) :=
  ((checkSynCounter_drop _ _ _).mapVerdict.onDecision.guarded).andThen
    (((checkRateLimit_drop _ _ _).mapVerdict.onDecision.guarded).andThen
      ((checkSynFlood_drop _ _ _).mapVerdict.onDecision.guarded) fun _ _ h => h) fun _ _ h => h

theorem blocklistStage_tx (pkt : PacketInfo) (clk : Clock) :
    Stage.Verdicts (TxByRedirect frame) (blocklistStage pkt clk frame) := by
  rw [blocklistStage]
  split
  · exact (checkBlocklistV4_tx _ _).onDecision.guarded
  · exact (Stage.Verdicts.mapVerdict fun x v h =>
      TxByRedirect.of_drop (checkBlocklistV6_drop _ _ x v h)).onDecision

theorem ipStages_tx (cfg : FalxMapConfig) (pkt : PacketInfo) (clk : Clock) :
    Stage.Verdicts (TxByRedirect frame) (ipStages cfg pkt clk frame) := by
  have hfailsafe : Stage.Verdicts (TxByRedirect frame) (failsafeStage cfg pkt clk frame) := by
    intro x v h
    apply TxByRedirect.of_drop
    rcases failsafeStage_verdict cfg pkt clk frame x with hv | hv
    · rw [hv] at h
      cases h
    · rw [hv] at h
      cases h
      rfl
  have hback : ∀ {s : Stage Kernel Verdict}, s.Respects (fun x _ y => SameTargets x y) →
      ∀ x v, TxByRedirect frame (s x).2 v → TxByRedirect frame x v := by
    intro s hs x v h
    obtain ⟨ht, ha⟩ := hs x
    rw [TxByRedirect, ht, ha] at h
    exact h
  have hblind := sameTargets_statsBlind
  refine hfailsafe.andThen (Stage.Verdicts.andThen (blocklistStage_tx pkt clk) ?_ ?_) ?_
  · exact fun x v h => TxByRedirect.of_drop (limiterStages_drop cfg pkt clk frame x v h)
  · exact hback (blocklistStage_respects hblind pkt clk frame)
  · exact hback (failsafeStage_respects hblind cfg frame (checkFailsafe_sameTargets pkt _))

theorem processPacket_tx {clk : Clock} {st : Kernel} {f' : Frame}
    (h : (processPacket clk frame st).1 = (.tx, f')) :
    tryRedirect st.honeypotTargets st.honeypotActive frame = some (.tx, f') := by
  by_cases hlen : frame.length < 14
  · simp [processPacket, hlen] at h
  cases hp : parsePacket frame with
  | none => simp [processPacket, hlen, hp] at h
  | some pkt =>
    by_cases hs : pkt.Screened
    · rw [processPacket_eq hp hs] at h
      cases hv : ipStages st.readConfig pkt clk frame (countReceived pkt st) with
      | mk verdict st' =>
        cases verdict with
        | none => simp [hv] at h
        | some v =>
          simp only [hv] at h
          subst h
          exact ipStages_tx st.readConfig pkt clk (countReceived pkt st) (.tx, f') (by rw [hv]) rfl
    · simp [processPacket_of_not_screened hp hs] at h

end Transmit

section Load

variable (t : GoHoneypotTarget)

theorem Frame.slice_append (xs ys zs : List UInt8) :
    slice (xs ++ ys ++ zs) xs.length ys.length = ys := by
  apply List.ext_getElem
  · simp [slice]
  · intro i h1 h2
    simp only [slice, u8, List.getElem_map, List.getElem_range, List.append_assoc]
    rw [List.getD_append_right _ _ _ _ (Nat.le_add_right _ _), Nat.add_sub_cancel_left,
      List.getD_append _ _ _ _ h2, List.getD_eq_getElem _ _ h2]

theorem slice_bytes (xs zs : List UInt8) {ys : List UInt8} {p n : Nat}
    (h : t.bytes = xs ++ ys ++ zs) (hp : xs.length = p) (hn : ys.length = n) :
    slice t.bytes p n = ys := by
  subst hp hn
  rw [h]
  exact slice_append xs ys zs

theorem load_dstMac : (load t.bytes).dstMac.bytes = t.dstMAC := by
  apply slice_bytes t t.dstIP (t.srcMAC ++ t.dstPort ++ [0, 0] ++ [t.active] ++ [0, 0, 0])
  · simp only [GoHoneypotTarget.bytes, List.append_assoc]
  · exact t.dstIP_length
  · exact t.dstMAC_length

theorem load_srcMac : (load t.bytes).srcMac.bytes = t.srcMAC := by
  apply slice_bytes t (t.dstIP ++ t.dstMAC) (t.dstPort ++ [0, 0] ++ [t.active] ++ [0, 0, 0])
  · simp only [GoHoneypotTarget.bytes, List.append_assoc]
  · rw [List.length_append, t.dstIP_length, t.dstMAC_length]
  · exact t.srcMAC_length

theorem bytes32_u32 (v : List UInt8) (p : Nat) : bytes32 (u32 v p) = slice v p 4 := by
  rw [u32, bytes32_le32]
  rfl

theorem load_dstIp : bytes32 (load t.bytes).dstIp = t.dstIP := by
  rw [load, bytes32_u32]
  apply slice_bytes t [] (t.dstMAC ++ t.srcMAC ++ t.dstPort ++ [0, 0] ++ [t.active] ++ [0, 0, 0])
  · simp only [GoHoneypotTarget.bytes, List.append_assoc, List.nil_append]
  · rfl
  · exact t.dstIP_length

theorem bytes16_u16 (v : List UInt8) (p : Nat) : bytes16 (u16 v p) = slice v p 2 := by
  have h0 := (u8 v p).toNat_lt
  have h1 := (u8 v (p + 1)).toNat_lt
  have hsc : slice v p 2 = [u8 v p, u8 v (p + 1)] := rfl
  rw [hsc]
  simp only [bytes16, u16, toNat_le16, List.cons.injEq, ← UInt8.toNat_inj,
    UInt8.toNat_ofNat', and_true]
  omega

theorem load_dstPort : bytes16 (load t.bytes).dstPort = t.dstPort := by
  rw [load, bytes16_u16]
  apply slice_bytes t (t.dstIP ++ t.dstMAC ++ t.srcMAC) ([0, 0] ++ [t.active] ++ [0, 0, 0])
  · simp only [GoHoneypotTarget.bytes, List.append_assoc]
  · rw [List.length_append, List.length_append, t.dstIP_length, t.dstMAC_length, t.srcMAC_length]
  · exact t.dstPort_length

theorem bytes16_injective {v w : UInt16} (h : bytes16 v = bytes16 w) : v = w := by
  have hv := v.toNat_lt
  have hw := w.toNat_lt
  simp only [bytes16, List.cons.injEq, ← UInt8.toNat_inj, UInt8.toNat_ofNat', and_true] at h
  rw [← UInt16.toNat_inj]
  omega

end Load

/-- The headers of a frame carry the given addresses and destination port. -/
structure OnWire (ip4 dstMAC srcMAC : List UInt8) (port : UInt16) (f : Frame) : Prop where
  dst : f.slice 30 4 = ip4
  dstMac : f.slice 0 6 = dstMAC
  srcMac : f.slice 6 6 = srcMAC
  port : beWord f (transportAt f + 2) = port.toNat

section Registered

variable {ip ip4 : NetIP} {dstMAC srcMAC : List UInt8} {port : UInt16} {t : GoHoneypotTarget}

theorem NetIP.length_of_to4 (h : ip.to4 = some ip4) : ip4.length = 4 := by
  rw [NetIP.to4] at h
  split at h
  · rename_i hlen
    cases h
    exact hlen
  · split at h
    · rename_i hlen
      cases h
      rw [List.length_drop, hlen.1]
    · cases h

theorem newHoneypotTarget_wire (hip : ip.to4 = some ip4) (hport : port ≠ 0)
    (h : newHoneypotTarget ip dstMAC srcMAC port = .ok t) :
    t.wire = [ip4, dstMAC, srcMAC, bytes16 (swap16 port)] := by
  simp only [newHoneypotTarget, hip] at h
  by_cases hdst : dstMAC.length ≠ 6
  · rw [if_pos hdst] at h
    cases h
  by_cases hsrc : srcMAC.length ≠ 6
  · rw [if_neg hdst, if_pos hsrc] at h
    cases h
  rw [if_neg hdst, if_neg hsrc] at h
  cases h
  change [copyBytes 4 ip4, copyBytes 6 dstMAC, copyBytes 6 srcMAC,
    if port ≠ 0 then bytes16 (swap16 port) else [0, 0]] = _
  rw [if_pos hport, copyBytes_of_length (NetIP.length_of_to4 hip),
    copyBytes_of_length (not_not.mp hdst), copyBytes_of_length (not_not.mp hsrc)]

theorem Redirected.wire {f f' : Frame} (hr : Redirected (load t.bytes) f f')
    (htr : IsTransport f) (hport : port ≠ 0)
    (hwire : t.wire = [ip4, dstMAC, srcMAC, bytes16 (swap16 port)]) :
    slice f' 30 4 = ip4 ∧ slice f' 0 6 = dstMAC ∧ slice f' 6 6 = srcMAC ∧
      beWord f' (transportAt f' + 2) = swap port.toNat := by
  simp only [GoHoneypotTarget.wire, List.cons.injEq, and_true] at hwire
  obtain ⟨hip, hdst, hsrc, hp⟩ := hwire
  have hnative : (load t.bytes).dstPort = swap16 port :=
    bytes16_injective ((load_dstPort t).trans hp)
  have hne : (load t.bytes).dstPort ≠ 0 := by
    intro h0
    rw [hnative, ← UInt16.toNat_inj, toNat_swap16, UInt16.toNat_zero] at h0
    apply hport
    rw [← UInt16.toNat_inj, UInt16.toNat_zero]
    omega
  have hmacs := hr.macs
  rw [load_dstMac, load_srcMac, hdst, hsrc] at hmacs
  have hd : dstMAC.length = 6 := hdst ▸ t.dstMAC_length
  have hs : srcMAC.length = 6 := hsrc ▸ t.srcMAC_length
  refine ⟨?_, ?_, ?_, ?_⟩
  · rw [← bytes32_u32, hr.dst, load_dstIp, hip]
  · apply List.ext_getElem
    · simp [slice, hd]
    · intro i h1 h2
      simp only [slice, List.getElem_map, List.getElem_range, Nat.zero_add]
      rw [hmacs i (by omega), List.getD_append _ _ _ _ h2, List.getD_eq_getElem _ _ h2]
  · apply List.ext_getElem
    · simp [slice, hs]
    · intro i h1 h2
      simp only [slice, List.getElem_map, List.getElem_range]
      rw [hmacs (6 + i) (by omega), List.getD_append_right _ _ _ _ (by omega), hd,
        Nat.add_sub_cancel_left, List.getD_eq_getElem _ _ h2]
  · rw [hr.transportAt_eq, hr.port hne htr, hnative, toNat_swap16, swap]

end Registered

def HoneypotManager.IsActive (m : HoneypotManager) (id : UInt32) : Prop :=
  ∃ hp, m.pool[id.toNat]? = some hp ∧ hp.active = true

variable {m : HoneypotManager} {id : UInt32}

theorem HoneypotManager.Consistent.activeTarget (hm : m.Consistent) {hp : HoneypotPool}
    (hid : m.pool[id.toNat]? = some hp) (hact : hp.active = true) : ∃ t : GoHoneypotTarget,
      m.kernelTargets m.activeMap = some (load t.bytes) ∧
        t.wire = hp.target.wire := by
  obtain ⟨hidx, hmap⟩ := hm.active _ hp hid hact
  obtain ⟨t, ht, hw⟩ := hm.written _ hp hid
  refine ⟨t, ?_, hw⟩
  rw [UInt32.ofNat_toNat] at ht
  rw [hmap, UInt32.toNat_inj.mp hidx, kernelTargets, ht]
  rfl

theorem HoneypotManager.Consistent.registered (hm : m.Consistent)
    {writeErr activeErr : Option GoError} {ip : NetIP} {dstMAC srcMAC : List UInt8} {port : UInt16}
    (hreg : (m.registerTarget writeErr activeErr ip dstMAC srcMAC port).1 = .ok id) :
    ∃ target hp, newHoneypotTarget ip dstMAC srcMAC port = .ok target ∧
      (m.registerTarget writeErr activeErr ip dstMAC srcMAC port).2.pool[id.toNat]? = some hp ∧
      hp.target.wire = target.wire := by
  rcases m.registerTarget_cases writeErr activeErr ip dstMAC srcMAC port with
    ⟨e, h⟩ | ⟨target, hnew, -, h⟩ <;> rw [h] at hreg <;> cases hreg
  rw [h, hm.toNat_ofNat (Nat.le_refl _)]
  have happ : (m.appended target).pool[m.pool.length]? = some ⟨target, false⟩ := by
    simp [HoneypotManager.appended]
  split
  · obtain ⟨hp, hget, hw⟩ := activateTarget_extends activeErr 0 _ _ _ happ
    exact ⟨target, hp, hnew, hget, hw⟩
  · exact ⟨target, _, hnew, happ, rfl⟩

/-- A redirected packet leaves with the registered addresses and port exactly
when the two bytes of the port are equal. -/
theorem redirect_onWire_iff {m₀ m : HoneypotManager} {before after : List HoneypotCall}
    {writeErr activeErr : Option GoError} {ip ip4 : NetIP} {dstMAC srcMAC : List UInt8}
    {port : UInt16} {id : UInt32} {clk : Clock} {f f' : Frame} {st : Kernel}
    (hempty : m₀.pool = []) (hip : ip.to4 = some ip4) (hport : port ≠ 0)
    (hreg : ((m₀.runCalls before).registerTarget writeErr activeErr ip dstMAC srcMAC port).1 =
      .ok id)
    (hm : m = ((m₀.runCalls before).registerTarget writeErr activeErr ip dstMAC srcMAC
      port).2.runCalls after)
    (hact : m.IsActive id) (htargets : st.honeypotTargets = m.kernelTargets)
    (hactive : st.honeypotActive = some m.activeMap) (htr : IsTransport f)
    (htx : (processPacket clk f st).1 = (.tx, f')) :
    OnWire ip4 dstMAC srcMAC port f' ↔ port.toNat % 256 = port.toNat / 256 := by
  have h₀ := (HoneypotManager.consistent_of_empty hempty).runCalls before
  obtain ⟨target, hp₁, hnew, hget₁, hw₁⟩ := h₀.1.registered hreg
  have h₁ := h₀.1.registerTarget writeErr activeErr ip dstMAC srcMAC port
  have h₂ := h₁.1.runCalls after
  rw [← hm] at h₂
  obtain ⟨hp, hget, hw⟩ := h₂.2 _ hp₁ hget₁
  obtain ⟨hp', hget', hflag⟩ := hact
  obtain rfl : hp = hp' := Option.some.inj (hget.symm.trans hget')
  obtain ⟨t, hload, ht⟩ := h₂.1.activeTarget hget hflag
  have hwire : t.wire = [ip4, dstMAC, srcMAC, bytes16 (swap16 port)] := by
    rw [ht, hw, hw₁, newHoneypotTarget_wire hip hport hnew]
  have hred := processPacket_tx htx
  rw [htargets, hactive] at hred
  have hload' : m.kernelTargets ((some m.activeMap).getD 0) =
      some (HoneypotTarget.load t.bytes) := hload
  have hr := tryRedirect_redirected hload' hred
  obtain ⟨hdst, hdm, hsm, hp'⟩ := hr.wire htr hport hwire
  constructor
  · intro h
    have hword := h.port
    rw [hp', swap] at hword
    omega
  · intro h
    refine ⟨hdst, hdm, hsm, ?_⟩
    rw [hp', swap]
    omega

def idleHoneypots : HoneypotManager where
  maxTargets := 16
  pool := []
  activeIdx := 0
  targetsMap idx := if idx < maxHoneypotTargets then some (List.replicate 24 0) else none
  activeMap := 0

def withDecoy (port : UInt16) : Except HoneypotError UInt32 × HoneypotManager :=
  idleHoneypots.registerTarget none none [10, 0, 0, 9] [2, 0, 0, 0, 0, 9] [2, 0, 0, 0, 0, 1] port

def markedKernel (m : HoneypotManager) : Kernel :=
  { Kernel.boot (fun k => [k.toNat]) (limits 1000 1000000) with
    blocklistV4 := fun k =>
      if k = 0x01010101 then
        some {
          expireAt := 0
          action := Action.redirect
          ruleId := 0
          threatScore := 0
          pad := 0
          reason := 0 }
      else none
    bloomFilter := ⟨fun k => [k.toNat], [0x01010101]⟩
    honeypotTargets := m.kernelTargets
    honeypotActive := some m.activeMap }

theorem withDecoy_isActive (port : UInt16) : (withDecoy port).2.IsActive 0 := ⟨_, rfl, rfl⟩

theorem redirect_onWire_equal_bytes :
    OnWire [10, 0, 0, 9] [2, 0, 0, 0, 0, 9] [2, 0, 0, 0, 0, 1] 0x1F1F
      (processPacket (.instant 1) checkedSyn (markedKernel (withDecoy 0x1F1F).2)).1.2 := by
  have htx : (processPacket (.instant 1) checkedSyn (markedKernel (withDecoy 0x1F1F).2)).1 =
      (.tx, (processPacket (.instant 1) checkedSyn (markedKernel (withDecoy 0x1F1F).2)).1.2) := by
    decide +kernel
  have hreg : ((idleHoneypots.runCalls []).registerTarget none none [10, 0, 0, 9]
      [2, 0, 0, 0, 0, 9] [2, 0, 0, 0, 0, 1] 0x1F1F).1 = .ok 0 := rfl
  have hm : (withDecoy 0x1F1F).2 = ((idleHoneypots.runCalls []).registerTarget none none
      [10, 0, 0, 9] [2, 0, 0, 0, 0, 9] [2, 0, 0, 0, 0, 1] 0x1F1F).2.runCalls [] := rfl
  exact (redirect_onWire_iff rfl rfl (by decide) hreg hm (withDecoy_isActive 0x1F1F) rfl rfl
    (by decide) htx).mpr (by decide)

theorem redirect_offWire_8080 :
    (withDecoy 8080).1 = .ok 0 ∧ (withDecoy 8080).2.IsActive 0 ∧
      (processPacket (.instant 1) checkedSyn (markedKernel (withDecoy 8080).2)).1.1 = .tx ∧
      ¬ OnWire [10, 0, 0, 9] [2, 0, 0, 0, 0, 9] [2, 0, 0, 0, 0, 1] 8080
        (processPacket (.instant 1) checkedSyn (markedKernel (withDecoy 8080).2)).1.2 := by
  refine ⟨rfl, withDecoy_isActive 8080, ?_, ?_⟩
  · decide +kernel
  · intro h
    have hport := h.port
    revert hport
    decide +kernel

end Falx
