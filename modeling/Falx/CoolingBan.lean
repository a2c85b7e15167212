import Falx.BloomGate

/-! A cooling ban holds for its whole length. While it is unexpired every packet
of the banned source is dropped before any stage that writes the source's
entries, and packets of other sources do not touch them. An entry that was not
there from the start is the control plane's or a ban of its own source. -/

namespace Falx

open Words

def Chronological : UInt64 → List Command → Prop
  | _, [] => True
  | t, .packet clk _ :: cs => t ≤ clk.failsafe ∧ clk.Ordered ∧ Chronological clk.synFlood cs
  | t, _ :: cs => Chronological t cs

/-- The command is not a write of the control plane to the entry of `s`. -/
def Command.Spares (s : UInt32) : Command → Prop
  | block _ ip _ => ipv4ToUint32 ip ≠ some s
  | blockBatch _ ds => ∀ p ∈ ds, ipv4ToUint32 p.2.ip ≠ some s
  | unblock _ ip => ipv4ToUint32 ip ≠ some s
  | sweep _ keys _ => s ∉ keys
  | evict key => key ≠ s
  | _ => True

structure Banned (st : Kernel) (s : UInt32) (limit : Nat) : Prop where
  nonzero : s ≠ 0
  bloom : st.bloomFilter.contains s = true
  entry : ∃ entry, st.blocklistV4 s = some entry ∧ entry.action = Action.drop ∧
    ∀ nowS : UInt64, nowS.toNat < limit → entry.expired nowS = false

variable {st : Kernel} {s r : UInt32} {limit : Nat} {clk : Clock} {frame : Frame} {t : UInt64}
  {cs : List Command}

theorem Banned.congr {st' : Kernel} (h : Banned st s limit) (hb : st'.bloomFilter.contains s = true)
    (he : st'.blocklistV4 s = st.blocklistV4 s) : Banned st' s limit := by
  refine ⟨h.nonzero, hb, ?_⟩
  rw [he]
  exact h.entry

theorem Banned.drop (h : Banned st s limit) {pkt : PacketInfo} (hp : parsePacket frame = some pkt)
    (h4 : pkt.isIpv6 = false) (hsrc : pkt.srcIp = s)
    (hnow : (clk.blocklist / nsPerSec).toNat < limit) :
    (processPacket clk frame st).1.1 = .drop ∧ Quiet s st (processPacket clk frame st).2 := by
  subst hsrc
  obtain ⟨entry, he, ha, hx⟩ := h.entry
  exact processPacket_drop_of_entry hp h4 h.nonzero h.bloom he ha (hx _ hnow)

theorem Banned.packet (h : Banned st s limit) (frame : Frame)
    (hnow : (clk.blocklist / nsPerSec).toNat < limit) :
    Banned (processPacket clk frame st).2 s limit := by
  have quiet : ∀ st', Quiet s st st' → Banned st' s limit := by
    intro st' hq
    exact h.congr (by rw [hq.bloomFilter]; exact h.bloom) (by rw [hq.blocklistV4])
  rcases processPacket_effect clk frame st with hq | ⟨pkt, b, hp, h4, -, he⟩
  · exact quiet _ (hq s)
  · by_cases hs : pkt.srcIp = s
    · exact quiet _ (h.drop hp h4 hs hnow).2
    · exact h.congr (he.bloom_mono h.bloom) (he.blocklistV4_of_ne (Ne.symm hs))

theorem Command.Spares.blocklistV4 {c : Command} (hc : c.Spares s) (st : Kernel)
    (hp : ∀ clk frame, c ≠ .packet clk frame) : (c.run st).blocklistV4 s = st.blocklistV4 s := by
  cases c with
  | packet clk frame => exact absurd rfl (hp clk frame)
  | block env ip entry =>
    rcases blockIPv4_apply env ip entry s with h | ⟨hk, -⟩
    · exact h
    · exact absurd hk hc
  | blockBatch allowed ds =>
    rcases blockIPv4Batch_apply allowed ds s with h | ⟨p, hp, hk, -⟩
    · exact h
    · exact absurd hk (hc p hp)
  | unblock env ip =>
    rcases unblockIPv4_apply env ip s with h | ⟨hk, -⟩
    · exact h
    · exact absurd hk hc
  | sweep nowSec keys keys6 =>
    exact (sweepBlocklist_apply nowSec keys st.blocklistV4 s).trans (if_neg fun h => hc h.1)
  | evict key => exact Function.update_of_ne (Ne.symm hc) _ _
  | resetRateBucket ip =>
    simp only [Command.run]
    split
    · rfl
    · rfl
  | _ => rfl

theorem Chronological.le_last {clk' : Clock} {frame' : Frame}
    (h : Chronological t (cs ++ [.packet clk' frame'])) : t ≤ clk'.blocklist ∧
      ∀ clk frame, .packet clk frame ∈ cs → clk.blocklist ≤ clk'.blocklist := by
  induction cs generalizing t with
  | nil =>
    obtain ⟨h1, h2, -⟩ := h
    exact ⟨UInt64.le_trans h1 h2.blocklist, by simp⟩
  | cons c cs ih =>
    by_cases hp : ∃ clk frame, c = .packet clk frame
    · obtain ⟨clk, frame, rfl⟩ := hp
      obtain ⟨h1, h2, h3⟩ := h
      obtain ⟨hlast, hall⟩ := ih h3
      have hb : clk.blocklist ≤ clk'.blocklist := UInt64.le_trans h2.synCounter
        (UInt64.le_trans h2.rateLimit (UInt64.le_trans h2.synFlood hlast))
      refine ⟨UInt64.le_trans h1 (UInt64.le_trans h2.blocklist hb), ?_⟩
      intro clk₁ frame₁ hm
      rcases List.mem_cons.mp hm with he | hm
      · cases he
        exact hb
      · exact hall clk₁ frame₁ hm
    · have h' : Chronological t (cs ++ [.packet clk' frame']) := by
        cases c with
        | packet clk frame => exact absurd ⟨clk, frame, rfl⟩ hp
        | _ => exact h
      obtain ⟨hlast, hall⟩ := ih h'
      refine ⟨hlast, ?_⟩
      intro clk₁ frame₁ hm
      rcases List.mem_cons.mp hm with he | hm
      · exact absurd ⟨clk₁, frame₁, he.symm⟩ hp
      · exact hall clk₁ frame₁ hm

theorem Banned.runAll (h : Banned st s limit) (hsp : ∀ c ∈ cs, c.Spares s)
    (hnow : ∀ clk frame, .packet clk frame ∈ cs → (clk.blocklist / nsPerSec).toNat < limit) :
    Banned (runAll cs st) s limit := by
  induction cs generalizing st with
  | nil => exact h
  | cons c cs ih =>
    have hstep : Banned (c.run st) s limit := by
      by_cases hp : ∃ clk frame, c = .packet clk frame
      · obtain ⟨clk, frame, rfl⟩ := hp
        exact h.packet frame (hnow clk frame (by simp))
      · have hne : ∀ clk frame, c ≠ .packet clk frame := fun clk frame he => hp ⟨clk, frame, he⟩
        refine h.congr ?_ ((hsp c (by simp)).blocklistV4 st hne)
        rw [(c.run_blocklistV4 st s hne).1]
        exact h.bloom
    exact ih hstep (fun c hc => hsp c (by simp [hc]))
      (fun clk frame hm => hnow clk frame (by simp [hm]))

theorem banEntry_unexpired {nowS : UInt64} (hsm : nowS.toNat < 2 ^ 64 - 1)
    (h : nowS.toNat < (t / nsPerSec).toNat + (coolingBaseS <<< r.toUInt64).toNat) :
    (banEntry t r).expired nowS = false := by
  rw [← Bool.not_eq_true, BlockEntry.expired_iff]
  rintro ⟨-, hle⟩
  simp only [banEntry, toNat_satAdd] at hle
  omega

theorem banned_of_history {es : List Event}
    (hes : (processPacket clk frame st).2.history = es ++ st.history) {d : UInt64}
    (hban : Event.ban s t r d ∈ es) :
    Banned (processPacket clk frame st).2 s (min ((t / nsPerSec).toNat + d.toNat) (2 ^ 64 - 1)) := by
  rcases processPacket_effect clk frame st with hq | ⟨pkt, b, -, -, h0, he⟩
  · obtain ⟨es', he', hno⟩ := (hq s).history
    have hm := hno _ (List.append_cancel_right (hes.symm.trans he') ▸ hban)
    simp [Event.isBan] at hm
  · obtain ⟨hen, rfl, hbl⟩ := he.entry_of_ban hes hban
    refine ⟨?_, hbl, banEntry t r, hen, rfl, ?_⟩
    · have hs : s = pkt.srcIp := he.src_of_mem hes hban
      rw [hs]
      exact h0
    · intro nowS hnow
      exact banEntry_unexpired (by omega) (by omega)

/-- After a cooling ban of `d` seconds at time `t`, whatever other packets and
control-plane calls come in between, a packet of the source is dropped as long
as the second counter is below that of `t` plus `d`. -/
theorem coolingBan_enforced {st : Kernel} {clk : Clock} {frame : Frame} {es : List Event}
    {s : UInt32} {t : UInt64} {r : UInt32} {d : UInt64} {cs : List Command} {clk' : Clock}
    {frame' : Frame} {pkt' : PacketInfo}
    (hes : (processPacket clk frame st).2.history = es ++ st.history)
    (hban : Event.ban s t r d ∈ es) (hspare : ∀ c ∈ cs, c.Spares s)
    (hclock : Chronological clk.synFlood (cs ++ [.packet clk' frame']))
    (hp : parsePacket frame' = some pkt') (h4 : pkt'.isIpv6 = false) (hsrc : pkt'.srcIp = s)
    (hnow : (clk'.blocklist / nsPerSec).toNat < (t / nsPerSec).toNat + d.toNat) :
    (processPacket clk' frame' (runAll cs (processPacket clk frame st).2)).1.1 = .drop := by
  have hsec : ∀ c : UInt64, (c / nsPerSec).toNat = c.toNat / 1000000000 := fun c =>
    UInt64.toNat_div _ _
  have hlt := clk'.blocklist.toNat_lt
  have hli : (clk'.blocklist / nsPerSec).toNat <
      min ((t / nsPerSec).toNat + d.toNat) (2 ^ 64 - 1) := by
    rw [hsec] at hnow ⊢
    omega
  have hrun := (banned_of_history hes hban).runAll hspare fun clk₁ frame₁ hm => by
    have hle := UInt64.le_iff_toNat_le.mp (hclock.le_last.2 clk₁ frame₁ hm)
    rw [hsec] at hli ⊢
    omega
  exact (hrun.drop hp h4 hsrc hli).1

def spentKernel : Kernel :=
  (processPacket (.instant 1) (icmpFrame 1 1 1 1)
    (Kernel.boot (fun k => [k.toNat]) zeroCapacity)).2

theorem coolingBan_enforced_spentKernel :
    (processPacket (.instant 9999999999) (icmpFrame 1 1 1 1)
      (runAll [.packet (.instant 7) (icmpFrame 9 9 9 9)]
        (processPacket (.instant 2) (icmpFrame 1 1 1 1) spentKernel).2)).1.1 = .drop := by
  have hes : (processPacket (.instant 2) (icmpFrame 1 1 1 1) spentKernel).2.history =
      [.ban 0x01010101 2 0 10, .limited 0x01010101 2] ++ spentKernel.history := by decide +kernel
  have hban : Event.ban 0x01010101 2 0 10 ∈
      [Event.ban 0x01010101 2 0 10, .limited 0x01010101 2] := by simp
  have hsp : ∀ c ∈ [Command.packet (.instant 7) (icmpFrame 9 9 9 9)],
      c.Spares 0x01010101 := by
    intro c hc
    obtain rfl := List.mem_singleton.mp hc
    trivial
  exact coolingBan_enforced hes hban hsp
    ⟨by decide, Clock.instant_ordered 7, by decide, Clock.instant_ordered 9999999999, trivial⟩
    (parsePacket_icmpFrame 1 1 1 1) rfl (by decide) (by decide)

section Origins

variable {cs' : List Command} {c : Command} {k : UInt32} {e : BlockEntry}

/-- Commands that put an entry for `k` into the block list. -/
inductive Origin (cs : List Command) (k : UInt32) : BlockEntry → Prop
  | block (env : CallEnv) (ip : NetIP) (entry : BlockEntry) (hc : .block env ip entry ∈ cs)
      (hk : ipv4ToUint32 ip = some k) : Origin cs k (absoluteExpiry env.now entry)
  | decision (allowed : Bool) (ds : List (CallEnv × BlockDecision)) (p : CallEnv × BlockDecision)
      (hc : .blockBatch allowed ds ∈ cs) (hp : p ∈ ds) (hk : ipv4ToUint32 p.2.ip = some k) :
      Origin cs k (absoluteExpiry p.1.now p.2.entry)
  | ban (clk : Clock) (frame : Frame) (now : UInt64) (r : UInt32) (hc : .packet clk frame ∈ cs)
      (hk : ipv4Source frame = some k) : Origin cs k (banEntry now r)

theorem Origin.mono (hsub : cs ⊆ cs') (h : Origin cs k e) : Origin cs' k e := by
  cases h with
  | block env ip entry hc hk => exact .block env ip entry (hsub hc) hk
  | decision allowed ds p hc hp hk => exact .decision allowed ds p (hsub hc) hp hk
  | ban clk frame now r hc hk => exact .ban clk frame now r (hsub hc) hk

theorem Command.run_origin (h : (c.run st).blocklistV4 k = some e) :
    st.blocklistV4 k = some e ∨ Origin [c] k e := by
  by_cases hc : ∃ clk frame, c = .packet clk frame
  · obtain ⟨clk, frame, rfl⟩ := hc
    rcases processPacket_effect clk frame st with hq | ⟨pkt, b, hp, h4, h0, he⟩
    · exact .inl (by rwa [Command.run, (hq k).blocklistV4] at h)
    · by_cases hk : k = pkt.srcIp
      · subst hk
        cases he with
        | quiet hq => exact .inl (by rwa [Command.run, hq.blocklistV4] at h)
        | ban now minR before after =>
          rw [Command.run, after.blocklistV4] at h
          cases (Function.update_self ..).symm.trans h
          exact .inr (.ban clk frame now _ (.head _) (ipv4Source_of_parsed hp h4 h0))
      · exact .inl (by rwa [Command.run, he.blocklistV4_of_ne hk] at h)
  · rcases (c.run_blocklistV4 st k fun clk frame hp => hc ⟨clk, frame, hp⟩).2 with
      hr | hr | ⟨env, ip, entry, rfl, hk, hr⟩ | ⟨allowed, ds, p, rfl, hp, hk, hr⟩
    all_goals rw [hr] at h
    · exact .inl h
    · cases h
    · cases h
      exact .inr (.block env ip entry (.head _) hk)
    · cases h
      exact .inr (.decision allowed ds p (.head _) hp hk)

end Origins

end Falx
