import Falx.KeyAgreement
import Falx.System

/-! The SYN counter over whole runs. A source is banned by its fiftieth SYN-only
packet unless it has completed a handshake, and a handshake that completed after
its first SYN counts for good. -/

namespace Falx

open Words

def Event.isSynCheck (s : UInt32) : Event → Bool
  | synCheck src flags => src == s && TcpFlags.isSynOnly flags
  | _ => false

def synOnlyChecks (s : UInt32) (es : List Event) : Nat := es.countP (Event.isSynCheck s)

/-- How far the events have brought the counter of `s`: an ACK was seen, the
penalty was imposed, or the SYN-only packets are all counted below the
threshold. -/
def Watched (s : UInt32) (es : List Event) (entry : Option SynCountEntry) : Prop :=
  (∃ flags, .synCheck s flags ∈ es ∧ TcpFlags.isNonSynAck flags = true) ∨
  (∃ now r secs, .ban s now r secs ∈ es ∧ synFloodPenaltyR ≤ r) ∨
  (entry = none ∧ synOnlyChecks s es = 0) ∨
  ∃ e, entry = some e ∧ e.ackCount = 0 ∧ synOnlyChecks s es ≤ e.synCount.toNat ∧
    (synOnlyChecks s es = 0 ∨ e.synCount < synFloodThreshold)

section Watched

variable {s : UInt32} {es es' : List Event} {entry : Option SynCountEntry}

theorem Watched.settled_or_counting (h : Watched s es entry) :
    (∀ es' entry', Watched s (es' ++ es) entry') ∨ (entry = none ∧ synOnlyChecks s es = 0) ∨
    ∃ e, entry = some e ∧ e.ackCount = 0 ∧ synOnlyChecks s es ≤ e.synCount.toNat ∧
      (synOnlyChecks s es = 0 ∨ e.synCount < synFloodThreshold) := by
  rcases h with ⟨flags, hm, hack⟩ | ⟨now, r, secs, hm, hr⟩ | h
  · exact .inl fun es' _ => .inl ⟨flags, List.mem_append_right es' hm, hack⟩
  · exact .inl fun es' _ => .inr (.inl ⟨now, r, secs, List.mem_append_right es' hm, hr⟩)
  · exact .inr h

theorem Watched.append (h : Watched s es entry) (hno : synOnlyChecks s es' = 0) :
    Watched s (es' ++ es) entry := by
  have hcnt : synOnlyChecks s (es' ++ es) = synOnlyChecks s es := by
    rw [synOnlyChecks, List.countP_append, ← synOnlyChecks, hno, Nat.zero_add, synOnlyChecks]
  rcases h.settled_or_counting with hset | h
  · exact hset es' entry
  · refine .inr (.inr ?_)
    rw [hcnt]
    exact h

theorem Watched.start (h : ∀ e, entry = some e → e.ackCount = 0) : Watched s [] entry := by
  cases he : entry with
  | none => exact .inr (.inr (.inl ⟨rfl, rfl⟩))
  | some e => exact .inr (.inr (.inr ⟨e, rfl, h e he, Nat.zero_le _, .inl rfl⟩))

variable {flags : UInt8}

theorem Watched.ack (hack : TcpFlags.isNonSynAck flags = true) :
    Watched s (.synCheck s flags :: es) entry :=
  Or.inl ⟨flags, .head _, hack⟩

theorem synFloodPenaltyR_le_nextRepeatCount (prev : Option CoolingEntry) :
    synFloodPenaltyR ≤ nextRepeatCount prev synFloodPenaltyR := by
  have hcap : synFloodPenaltyR ≤ maxCoolingShift := by decide
  have hmax : ∀ r, synFloodPenaltyR ≤ if synFloodPenaltyR < r then r else synFloodPenaltyR := by
    intro r
    split
    · rename_i h
      exact UInt32.le_of_lt h
    · exact UInt32.le_refl _
  cases prev with
  | none =>
    exact UInt32.le_refl _
  | some e =>
    exact hmax _

theorem synOnlyChecks_cons (hsyn : TcpFlags.isSynOnly flags = true) :
    synOnlyChecks s (.synCheck s flags :: es) = synOnlyChecks s es + 1 := by
  simp [synOnlyChecks, Event.isSynCheck, hsyn]

theorem Watched.first (hsyn : TcpFlags.isSynOnly flags = true) (h : Watched s es none) :
    Watched s (.synCheck s flags :: es) (some { synCount := 1, ackCount := 0 }) := by
  rcases h.settled_or_counting with hset | ⟨-, h0⟩ | ⟨e, he, -⟩
  · exact hset [_] _
  · refine .inr (.inr (.inr ⟨_, rfl, rfl, ?_, .inr (by decide)⟩))
    rw [synOnlyChecks_cons hsyn, h0]
    exact Nat.le_refl _
  · cases he

theorem Watched.syn {e : SynCountEntry} (hsyn : TcpFlags.isSynOnly flags = true)
    (h : Watched s es (some e))
    (hnot : ¬ (synFloodThreshold ≤ satAdd32 e.synCount 1 ∧ e.ackCount = 0)) :
    Watched s (.synCheck s flags :: es) (some { e with synCount := satAdd32 e.synCount 1 }) := by
  rcases h.settled_or_counting with hset | ⟨h, -⟩ | ⟨e', he, hack, hle, -⟩
  · exact hset [_] _
  · cases h
  · obtain rfl := Option.some.inj he
    have hlt : satAdd32 e.synCount 1 < synFloodThreshold :=
      UInt32.not_le.mp fun hge => hnot ⟨hge, hack⟩
    have hlt' : (satAdd32 e.synCount 1).toNat < 50 := UInt32.lt_iff_toNat_lt.mp hlt
    refine .inr (.inr (.inr ⟨_, rfl, hack, ?_, .inr hlt⟩))
    rw [synOnlyChecks_cons hsyn]
    rw [toNat_satAdd32] at hlt' ⊢
    simp only [UInt32.reduceToNat] at hlt' ⊢
    omega

end Watched

def Tracked (s : UInt32) (base : List Event) (x : Kernel) : Prop :=
  ∃ es, x.history = es ++ base ∧ Watched s es (x.synCounter s)

section Tracked

variable {s : UInt32} {base : List Event} {x y : Kernel}

theorem statsFree_tracked (s : UInt32) (base : List Event) : StatsFree (Tracked s base) :=
  ⟨fun _ _ h => h, fun _ _ h => h⟩

theorem Tracked.append (h : Tracked s base x) {es' : List Event}
    (hsyn : y.synCounter s = x.synCounter s) (hes : y.history = es' ++ x.history)
    (hno : synOnlyChecks s es' = 0) : Tracked s base y := by
  obtain ⟨es, he, hw⟩ := h
  refine ⟨es' ++ es, ?_, ?_⟩
  · rw [hes, he, List.append_assoc]
  · rw [hsyn]
    exact hw.append hno

theorem Effect.synCounter_of_ne {src : UInt32} {b : Bool} (h : Effect src x b y) (hne : s ≠ src) :
    y.synCounter s = x.synCounter s := by
  cases h with
  | quiet h => exact h.synCounter s hne
  | ban now minR before after => exact (after.synCounter s hne).trans (before.synCounter s hne)

theorem Tracked.other {src : UInt32} {b : Bool} (h : Tracked s base x) (heff : Effect src x b y)
    (hne : s ≠ src) : Tracked s base y := by
  obtain ⟨es', hes⟩ := heff.history_suffix
  refine h.append (heff.synCounter_of_ne hne) hes ?_
  rw [synOnlyChecks, List.countP_eq_zero]
  intro e hm
  have hsrc := heff.src_of_mem hes hm
  cases e with
  | synCheck src' flags =>
    have hne' : src' ≠ s := by
      rintro rfl
      exact hne hsrc
    simp [Event.isSynCheck, hne']
  | _ => exact Bool.false_ne_true

theorem Tracked.aside (h : Tracked s base x) (hsyn : y.synCounter = x.synCounter)
    (hes : ∃ es', y.history = es' ++ x.history ∧ ∀ e ∈ es', e.isSynCheck s = false) :
    Tracked s base y := by
  obtain ⟨es', hes, hno⟩ := hes
  refine h.append (congrFun hsyn s) hes ?_
  rw [synOnlyChecks, List.countP_eq_zero]
  intro e hm
  rw [hno e hm]
  exact Bool.false_ne_true

theorem checkFailsafe_tracked (pkt : PacketInfo) (now : UInt64) (h : Tracked s base x) :
    Tracked s base (checkFailsafe pkt now x).2 := by
  simp only [checkFailsafe]
  split
  · exact h
  · split
    · exact h
    · exact h

theorem dropLimited_tracked (src : UInt32) (now : UInt64) (bucket : RateBucket)
    (h : Tracked s base x) : Tracked s base (dropLimited src now bucket x).2 :=
  h.aside rfl ⟨[_], rfl, by simp [Event.isSynCheck]⟩

theorem chargeBucket_tracked (src : UInt32) (now cost : UInt64) (bucket : RateBucket)
    (h : Tracked s base x) : Tracked s base (chargeBucket src now cost bucket x).2 :=
  h.aside rfl ⟨[_], rfl, by simp [Event.isSynCheck]⟩

theorem checkRateLimit_tracked (src : UInt32) (cfg : FalxMapConfig) (now : UInt64)
    (h : Tracked s base x) : Tracked s base (checkRateLimit src cfg now x).2 := by
  simp only [checkRateLimit]
  split
  · split
    · apply dropLimited_tracked
      exact h.aside rfl ⟨[_], rfl, by simp [Event.isSynCheck]⟩
    · exact chargeBucket_tracked src now 1 _ h
  · exact h.aside rfl ⟨[_], rfl, by simp [Event.isSynCheck]⟩

theorem checkSynFlood_tracked (src : UInt32) (charge now : UInt64) (h : Tracked s base x) :
    Tracked s base (checkSynFlood src charge now x).2 := by
  simp only [checkSynFlood]
  split
  · split
    · exact dropLimited_tracked src now _ h
    · exact chargeBucket_tracked src charge 10 _ h
  · exact h

theorem checkSynCounter_tracked (flags : UInt8) (now : UInt64) (h : Tracked s base x) :
    Tracked s base (checkSynCounter s flags now x).2 := by
  obtain ⟨es, he, hw⟩ := h
  have hlog : (x.log (.synCheck s flags)).history = (.synCheck s flags :: es) ++ base := by
    rw [Kernel.log, he, List.cons_append]
  by_cases hack : TcpFlags.isNonSynAck flags = true
  · simp only [checkSynCounter, if_pos hack]
    split
    · exact ⟨_, hlog, Watched.ack hack⟩
    · exact ⟨_, hlog, Watched.ack hack⟩
  · by_cases hsyn : TcpFlags.isSynOnly flags = true
    · cases hen : x.synCounter s with
      | none =>
        rw [hen] at hw
        have hx : (x.log (.synCheck s flags)).synCounter s = none := hen
        simp only [checkSynCounter, if_neg hack, if_pos hsyn, hx]
        refine ⟨_, hlog, ?_⟩
        simpa only [Function.update_self] using hw.first hsyn
      | some e =>
        rw [hen] at hw
        have hx : (x.log (.synCheck s flags)).synCounter s = some e := hen
        simp only [checkSynCounter, if_neg hack, if_pos hsyn, hx]
        split
        · have hban := applyCoolingBan_history s now synFloodPenaltyR (x.log (.synCheck s flags))
          rw [hlog, ← List.cons_append] at hban
          exact ⟨_, hban, .inr (.inl ⟨now, _, _, .head _,
            synFloodPenaltyR_le_nextRepeatCount _⟩)⟩
        · rename_i hnot
          refine ⟨_, hlog, ?_⟩
          simpa only [Function.update_self] using hw.syn hsyn hnot
    · simp only [checkSynCounter, if_neg hack, if_neg hsyn]
      exact Tracked.aside ⟨es, he, hw⟩ rfl ⟨[_], rfl, by simp [Event.isSynCheck, hsyn]⟩

theorem processPacket_tracked (clk : Clock) (frame : Frame) (h : Tracked s base x) :
    Tracked s base (processPacket clk frame x).2 := by
  have hchecks : ∀ pkt, parsePacket frame = some pkt → pkt.Screened → ChecksRespect
      (fun x _ y => Tracked s base x → Tracked s base y) x.readConfig pkt clk := by
    intro pkt _ _
    refine ⟨fun x hx => checkFailsafe_tracked pkt _ hx, ?_,
      fun _ x hx => checkRateLimit_tracked _ _ _ hx, fun _ x hx => checkSynFlood_tracked _ _ _ hx⟩
    intro _ y hy
    by_cases hsrc : s = pkt.srcIp
    · rw [← hsrc]
      exact checkSynCounter_tracked _ _ hy
    · exact hy.other (checkSynCounter_effect pkt.srcIp _ _ y) hsrc
  obtain ⟨_, hpost⟩ := processPacket_respects (statsFree_tracked s base).blind hchecks
  exact hpost h

theorem runPackets_tracked (ps : List (Clock × Frame)) (h : Tracked s base x) :
    Tracked s base (runPackets ps x) := by
  induction ps generalizing x with
  | nil => exact h
  | cons p ps ih => exact ih (processPacket_tracked p.1 p.2 h)

end Tracked

/-- Fifty SYN-only packets without an ACK between them bring the penalty ban, if no
handshake of the source has been counted before. -/
theorem synFlood_banned {s : UInt32} {st : Kernel} {ps : List (Clock × Frame)} {es : List Event}
    (hstart : ∀ e, st.synCounter s = some e → e.ackCount = 0)
    (hes : (runPackets ps st).history = es ++ st.history) (hsyn : 50 ≤ synOnlyChecks s es)
    (hack : ∀ flags, .synCheck s flags ∈ es → TcpFlags.isNonSynAck flags = false) :
    ∃ now r secs, .ban s now r secs ∈ es ∧ 8 ≤ r := by
  have hinit : Tracked s st.history st := ⟨[], rfl, Watched.start hstart⟩
  obtain ⟨es', hes', hw⟩ := runPackets_tracked ps hinit
  obtain rfl : es' = es := List.append_cancel_right (hes'.symm.trans hes)
  rcases hw with ⟨flags, hm, hyes⟩ | hban | ⟨-, h0⟩ | ⟨e, -, -, hle, h0 | hlt⟩
  · rw [hack flags hm] at hyes
    cases hyes
  · exact hban
  · omega
  · omega
  · have hlt' : e.synCount.toNat < 50 := UInt32.lt_iff_toNat_lt.mp hlt
    omega

def tcpFrame (flags : UInt8) : Frame :=
  List.replicate 12 0 ++ [0x08, 0x00] ++
    [0x45, 0, 0, 40, 0, 0, 0, 0, 64, 6, 0, 0] ++ [1, 1, 1, 1] ++ [10, 0, 0, 1] ++
    [0x30, 0x39, 0, 80, 0, 0, 0, 0, 0, 0, 0, 0, 0x50, flags, 0, 0, 0, 0, 0, 0]

def quietKernel : Kernel := Kernel.boot (fun k => [k.toNat]) (limits 1000 1000000)

def synBurst : List (Clock × Frame) := List.replicate 50 (.instant 1, tcpFrame TcpFlags.syn)

def ackedKernel : Kernel :=
  runPackets [(.instant 1, tcpFrame TcpFlags.syn), (.instant 1, tcpFrame TcpFlags.ack)] quietKernel

def Event.isAckCheck : Event → Bool
  | synCheck _ flags => TcpFlags.isNonSynAck flags
  | _ => false

theorem not_ack_of_none {es : List Event} (h : es.filter Event.isAckCheck = []) (s : UInt32)
    (flags : UInt8) (hm : .synCheck s flags ∈ es) : TcpFlags.isNonSynAck flags = false :=
  Bool.eq_false_iff.mpr (List.filter_eq_nil_iff.mp h _ hm)

theorem synFlood_banned_synBurst :
    ∃ now r secs, .ban 0x01010101 now r secs ∈ (runPackets synBurst quietKernel).history ∧
      8 ≤ r := by
  have hnone : (runPackets synBurst quietKernel).history.filter Event.isAckCheck = [] := by
    decide +kernel
  have hst : ∀ e, quietKernel.synCounter 0x01010101 = some e → e.ackCount = 0 := nofun
  exact synFlood_banned hst (List.append_nil _).symm (by decide +kernel)
    (not_ack_of_none hnone 0x01010101)

/-- After one completed handshake fifty SYN-only packets in a row bring no ban. -/
theorem synFlood_unbanned_after_ack :
    ∃ es, (runPackets synBurst ackedKernel).history = es ++ ackedKernel.history ∧
      50 ≤ synOnlyChecks 0x01010101 es ∧
      (∀ flags, .synCheck 0x01010101 flags ∈ es → TcpFlags.isNonSynAck flags = false) ∧
      ∀ now r secs, .ban 0x01010101 now r secs ∉ (runPackets synBurst ackedKernel).history := by
  have hnone : ((runPackets synBurst ackedKernel).history.take 150).filter
      Event.isAckCheck = [] := by decide +kernel
  have hban : (runPackets synBurst ackedKernel).history.filter Event.isBan = [] := by decide +kernel
  refine ⟨(runPackets synBurst ackedKernel).history.take 150, by decide +kernel,
    by decide +kernel, not_ack_of_none hnone 0x01010101, ?_⟩
  intro now r secs hm
  exact List.filter_eq_nil_iff.mp hban _ hm rfl

end Falx
