import Falx.ProcessPacket

/-! What one packet can do to the maps. Apart from the circuit breaker and the
statistics it touches only the entries of its own source, and it changes the
blocklist only by a cooling ban, after which the pipeline stops. -/

namespace Falx

open Function Words

namespace Event

def src : Event → UInt32
  | synCheck src _ => src
  | ban src _ _ _ => src
  | opened src _ => src
  | charged src _ _ _ => src
  | limited src _ => src

def isBan : Event → Bool
  | ban .. => true
  | _ => false

end Event

structure Quiet (src : UInt32) (x y : Kernel) : Prop where
  blocklistV4 : y.blocklistV4 = x.blocklistV4
  blocklistV6 : y.blocklistV6 = x.blocklistV6
  bloomFilter : y.bloomFilter = x.bloomFilter
  coolingTracker : y.coolingTracker = x.coolingTracker
  synCounter : ∀ s, s ≠ src → y.synCounter s = x.synCounter s
  rateLimit : ∀ s, s ≠ src → y.rateLimit s = x.rateLimit s
  config : y.config = x.config
  history : ∃ es, y.history = es ++ x.history ∧ ∀ e ∈ es, e.src = src ∧ e.isBan = false

variable {src : UInt32} {x y z : Kernel} {b : Bool}

theorem Quiet.of_eq (h4 : y.blocklistV4 = x.blocklistV4) (h6 : y.blocklistV6 = x.blocklistV6)
    (hb : y.bloomFilter = x.bloomFilter) (hc : y.coolingTracker = x.coolingTracker)
    (hs : y.synCounter = x.synCounter) (hr : y.rateLimit = x.rateLimit) (hcfg : y.config = x.config)
    (hh : y.history = x.history) : Quiet src x y :=
  ⟨h4, h6, hb, hc, fun _ _ => congrFun hs _, fun _ _ => congrFun hr _, hcfg,
    [], by simpa using hh, by simp⟩

theorem Quiet.refl (src : UInt32) (x : Kernel) : Quiet src x x :=
  .of_eq rfl rfl rfl rfl rfl rfl rfl rfl

theorem Quiet.trans (h : Quiet src x y) (h' : Quiet src y z) : Quiet src x z := by
  obtain ⟨es, he, hes⟩ := h.history
  obtain ⟨es', he', hes'⟩ := h'.history
  refine ⟨h'.blocklistV4.trans h.blocklistV4, h'.blocklistV6.trans h.blocklistV6,
    h'.bloomFilter.trans h.bloomFilter, h'.coolingTracker.trans h.coolingTracker,
    fun s hs => (h'.synCounter s hs).trans (h.synCounter s hs),
    fun s hs => (h'.rateLimit s hs).trans (h.rateLimit s hs),
    h'.config.trans h.config, es' ++ es, ?_, ?_⟩
  · rw [he', he, List.append_assoc]
  · intro e hm
    rcases List.mem_append.mp hm with hm | hm
    · exact hes' e hm
    · exact hes e hm

theorem Quiet.log (x : Kernel) (e : Event) (hsrc : e.src = src) (he : e.isBan = false) :
    Quiet src x (x.log e) :=
  ⟨rfl, rfl, rfl, rfl, fun _ _ => rfl, fun _ _ => rfl, rfl, [e], rfl, by simp [hsrc, he]⟩

theorem Quiet.setSynCounter (src : UInt32) (x : Kernel) (e : Option SynCountEntry) :
    Quiet src x { x with synCounter := update x.synCounter src e } :=
  ⟨rfl, rfl, rfl, rfl, fun _ hs => update_of_ne hs _ _, fun _ _ => rfl, rfl,
    [], rfl, by simp⟩

theorem Quiet.setRateLimit (src : UInt32) (x : Kernel) (b : Option RateBucket) :
    Quiet src x { x with rateLimit := update x.rateLimit src b } :=
  ⟨rfl, rfl, rfl, rfl, fun _ _ => rfl, fun _ hs => update_of_ne hs _ _, rfl,
    [], rfl, by simp⟩

theorem Quiet.bumpStat (src : UInt32) (x : Kernel) (f : XdpStats → XdpStats) :
    Quiet src x (x.bumpStat f) :=
  .of_eq rfl rfl rfl rfl rfl rfl rfl rfl

theorem Quiet.bumpMapped (src : UInt32) (x : Kernel) (f : MappedXdpStats → MappedXdpStats) :
    Quiet src x (x.bumpMapped f) :=
  .of_eq rfl rfl rfl rfl rfl rfl rfl rfl

theorem quiet_statsBlind (src : UInt32) : StatsBlind (fun x _ y => Quiet src x y) where
  refl x _ := Quiet.refl src x
  trans _ _ _ _ h h' := h.trans h'
  mapped _ _ _ _ h := h.trans (Quiet.bumpMapped src _ _)
  stat _ _ _ _ h := h.trans (Quiet.bumpStat src _ _)

/-- The effect of a stage on a packet of `src`; the flag says whether the stage
decided. -/
inductive Effect (src : UInt32) (x : Kernel) : Bool → Kernel → Prop
  | quiet {b : Bool} {y : Kernel} (h : Quiet src x y) : Effect src x b y
  | ban {y z : Kernel} (now : UInt64) (minR : UInt32) (before : Quiet src x z)
      (after : Quiet src (applyCoolingBan src now minR z) y) : Effect src x true y

theorem Effect.trans (h : Effect src x false y) (h' : Effect src y b z) : Effect src x b z := by
  cases h with
  | quiet h =>
    cases h' with
    | quiet h' => exact .quiet (h.trans h')
    | ban now minR before after => exact .ban now minR (h.trans before) after

theorem Effect.andQuiet (h : Effect src x b y) (h' : Quiet src y z) : Effect src x b z := by
  cases h with
  | quiet h => exact .quiet (h.trans h')
  | ban now minR before after => exact .ban now minR before (after.trans h')

theorem effect_statsBlind (src : UInt32) : StatsBlind (Effect src) where
  refl x _ := .quiet (Quiet.refl src x)
  trans _ _ _ _ h h' := h.trans h'
  mapped _ _ _ _ h := h.andQuiet (Quiet.bumpMapped src _ _)
  stat _ _ _ _ h := h.andQuiet (Quiet.bumpStat src _ _)

theorem checkFailsafe_quiet (src : UInt32) (pkt : PacketInfo) (now : UInt64) (x : Kernel) :
    Quiet src x (checkFailsafe pkt now x).2 := by
  simp only [checkFailsafe]
  split
  · exact Quiet.refl src x
  · split
    · exact .of_eq rfl rfl rfl rfl rfl rfl rfl rfl
    · exact .of_eq rfl rfl rfl rfl rfl rfl rfl rfl

theorem checkSynCounter_effect (src : UInt32) (flags : UInt8) (now : UInt64) (x : Kernel) :
    Effect src x (checkSynCounter src flags now x).1.isSome
      (checkSynCounter src flags now x).2 := by
  have hlog : Quiet src x (x.log (.synCheck src flags)) := Quiet.log x _ rfl rfl
  simp only [checkSynCounter]
  split
  · split
    · exact .quiet (hlog.trans (Quiet.setSynCounter src _ _))
    · exact .quiet hlog
  · split
    · split
      · split
        · exact .ban now synFloodPenaltyR hlog
            ((Quiet.bumpStat src _ _).trans (Quiet.setSynCounter src _ _))
        · exact .quiet (hlog.trans (Quiet.setSynCounter src _ _))
      · exact .quiet (hlog.trans (Quiet.setSynCounter src _ _))
    · exact .quiet hlog

theorem dropLimited_effect (h : Quiet src x y) (now : UInt64)
    (bucket : RateBucket) : Effect src x (dropLimited src now bucket y).1.isSome
      (dropLimited src now bucket y).2 :=
  .ban now 0 (h.trans (Quiet.setRateLimit src _ _)) (Quiet.refl src _)

theorem chargeBucket_effect (src : UInt32) (now cost : UInt64) (bucket : RateBucket)
    (x : Kernel) : Effect src x (chargeBucket src now cost bucket x).1.isSome
      (chargeBucket src now cost bucket x).2 :=
  .quiet ((Quiet.setRateLimit src x _).trans
    (Quiet.log _ (.charged src now bucket.tokens cost) rfl rfl))

theorem checkRateLimit_effect (src : UInt32) (cfg : FalxMapConfig) (now : UInt64) (x : Kernel) :
    Effect src x (checkRateLimit src cfg now x).1.isSome (checkRateLimit src cfg now x).2 := by
  simp only [checkRateLimit]
  split
  · split
    · exact dropLimited_effect (Quiet.log x (.limited src now) rfl rfl) now _
    · exact chargeBucket_effect src now 1 _ x
  · exact .quiet ((Quiet.setRateLimit src x _).trans (Quiet.log _ (.opened src now) rfl rfl))

theorem checkSynFlood_effect (src : UInt32) (charge now : UInt64) (x : Kernel) :
    Effect src x (checkSynFlood src charge now x).1.isSome (checkSynFlood src charge now x).2 := by
  simp only [checkSynFlood]
  split
  · split
    · exact dropLimited_effect (Quiet.refl src x) now _
    · exact chargeBucket_effect src charge 10 _ x
  · exact .quiet (Quiet.refl src x)

theorem checks_effect (cfg : FalxMapConfig) (pkt : PacketInfo) (clk : Clock) :
    ChecksRespect (Effect pkt.srcIp) cfg pkt clk where
  failsafe x := .quiet (checkFailsafe_quiet _ _ _ x)
  synCounter _ := checkSynCounter_effect _ _ _
  rateLimit _ := checkRateLimit_effect _ _ _
  synFlood _ := checkSynFlood_effect _ _ _

/-- A packet changes tables keyed by IPv4 addresses only if it is an IPv4 packet
that passes the test for non-IP traffic, and then only for its source. -/
theorem processPacket_effect (clk : Clock) (frame : Frame) (st : Kernel) :
    (∀ src, Quiet src st (processPacket clk frame st).2) ∨
    ∃ pkt b, parsePacket frame = some pkt ∧ pkt.isIpv6 = false ∧ pkt.srcIp ≠ 0 ∧
      Effect pkt.srcIp st b (processPacket clk frame st).2 := by
  by_cases h4 : ∃ pkt, parsePacket frame = some pkt ∧ pkt.isIpv6 = false ∧ pkt.srcIp ≠ 0
  · obtain ⟨pkt, hp, h4, h0⟩ := h4
    have hc : ∀ pkt', parsePacket frame = some pkt' → pkt'.Screened →
        ChecksRespect (Effect pkt.srcIp) st.readConfig pkt' clk := by
      intro pkt' hp' _
      obtain rfl : pkt = pkt' := Option.some.inj (hp.symm.trans hp')
      exact checks_effect _ _ _
    obtain ⟨b, h⟩ := processPacket_respects (effect_statsBlind pkt.srcIp) hc
    exact .inr ⟨pkt, b, hp, h4, h0, h⟩
  · refine .inl fun src => ?_
    have hc : ∀ pkt, parsePacket frame = some pkt → pkt.Screened →
        ChecksRespect (fun x (_ : Bool) y => Quiet src x y) st.readConfig pkt clk := by
      intro pkt hp hs
      have h6 : pkt.isIpv6 = true := by
        by_contra hn
        have hn := Bool.eq_false_iff.mpr hn
        exact h4 ⟨pkt, hp, hn, fun h0 => hs ⟨h0, hn⟩⟩
      exact ⟨checkFailsafe_quiet src pkt _, by simp [h6], by simp [h6], by simp [h6]⟩
    obtain ⟨_, h⟩ := processPacket_respects (quiet_statsBlind src) hc
    exact h

theorem Quiet.history_suffix (h : Quiet src x y) : ∃ es, y.history = es ++ x.history := by
  obtain ⟨es, he, -⟩ := h.history
  exact ⟨es, he⟩

theorem applyCoolingBan_history (src : UInt32) (now : UInt64) (minR : UInt32) (z : Kernel) :
    (applyCoolingBan src now minR z).history =
      .ban src now (nextRepeatCount (z.coolingTracker src) minR)
        (coolingBaseS <<< (nextRepeatCount (z.coolingTracker src) minR).toUInt64) ::
      z.history := rfl

section Consequences

variable {src : UInt32} {x y : Kernel} {b : Bool}

theorem Effect.config (h : Effect src x b y) : y.config = x.config := by
  cases h with
  | quiet h => exact h.config
  | ban now minR before after => exact after.config.trans before.config

theorem Effect.history_suffix (h : Effect src x b y) : ∃ es, y.history = es ++ x.history := by
  cases h with
  | quiet h => exact h.history_suffix
  | ban now minR before after =>
    obtain ⟨es₁, he₁⟩ := before.history_suffix
    obtain ⟨es₂, he₂⟩ := after.history_suffix
    rw [applyCoolingBan_history, he₁] at he₂
    exact ⟨es₂ ++ _ :: es₁, by rw [he₂, List.append_assoc, List.cons_append]⟩

theorem processPacket_config (clk : Clock) (frame : Frame) (st : Kernel) :
    (processPacket clk frame st).2.readConfig = st.readConfig := by
  have hcfg : (processPacket clk frame st).2.config = st.config := by
    rcases processPacket_effect clk frame st with hq | ⟨pkt, b, -, -, -, he⟩
    · exact (hq 0).config
    · exact he.config
  rw [Kernel.readConfig, hcfg, Kernel.readConfig]

theorem processPacket_history (clk : Clock) (frame : Frame) (st : Kernel) :
    ∃ es, (processPacket clk frame st).2.history = es ++ st.history := by
  rcases processPacket_effect clk frame st with hq | ⟨pkt, b, -, -, -, he⟩
  · exact (hq 0).history_suffix
  · exact he.history_suffix

variable {s : UInt32} {es : List Event} {e : Event}

section

variable (h : Effect src x b y)

include h

theorem Effect.blocklistV4_of_ne (hs : s ≠ src) : y.blocklistV4 s = x.blocklistV4 s := by
  cases h with
  | quiet h => rw [h.blocklistV4]
  | ban now minR before after =>
    rw [after.blocklistV4, ← before.blocklistV4]
    exact update_of_ne hs _ _

theorem Effect.bloom_mono (hs : x.bloomFilter.contains s = true) :
    y.bloomFilter.contains s = true := by
  cases h with
  | quiet h => rw [h.bloomFilter]; exact hs
  | ban now minR before after =>
    rw [after.bloomFilter]
    apply BloomFilter.contains_insert_of_contains src
    rw [before.bloomFilter]
    exact hs

section

variable (hes : y.history = es ++ x.history)

include hes

theorem Effect.mem_cases (he : e ∈ es) :
    (e.src = src ∧ e.isBan = false) ∨
    ∃ now minR z, Quiet src (applyCoolingBan src now minR z) y ∧
      e = .ban src now (nextRepeatCount (z.coolingTracker src) minR)
        (coolingBaseS <<< (nextRepeatCount (z.coolingTracker src) minR).toUInt64) := by
  cases h with
  | quiet h =>
    obtain ⟨es', he', hq⟩ := h.history
    exact .inl (hq e (List.append_cancel_right (hes.symm.trans he') ▸ he))
  | @ban _ z now minR before after =>
    obtain ⟨es₁, he₁, hq₁⟩ := before.history
    obtain ⟨es₂, he₂, hq₂⟩ := after.history
    rw [applyCoolingBan_history, he₁, hes, ← List.cons_append, ← List.append_assoc] at he₂
    rw [List.append_cancel_right he₂] at he
    rcases List.mem_append.mp he with hm | hm
    · exact .inl (hq₂ e hm)
    · rcases List.mem_cons.mp hm with rfl | hm
      · exact .inr ⟨now, minR, z, after, rfl⟩
      · exact .inl (hq₁ e hm)

theorem Effect.src_of_mem (he : e ∈ es) : e.src = src := by
  rcases h.mem_cases hes he with ⟨hsrc, -⟩ | ⟨now, minR, z, -, rfl⟩
  · exact hsrc
  · rfl

theorem Effect.entry_of_ban {t : UInt64}
    {r : UInt32} {d : UInt64} (hban : Event.ban s t r d ∈ es) :
    y.blocklistV4 s = some (banEntry t r) ∧ d = coolingBaseS <<< r.toUInt64 ∧
      y.bloomFilter.contains s = true := by
  rcases h.mem_cases hes hban with ⟨-, hno⟩ | ⟨now, minR, z, after, heq⟩
  · cases hno
  · cases heq
    rw [after.blocklistV4, after.bloomFilter]
    exact ⟨update_self _ _ _, rfl, BloomFilter.contains_insert_self _ _⟩

end

end

end Consequences

end Falx
