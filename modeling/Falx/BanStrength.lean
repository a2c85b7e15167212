import Falx.CoolingBan

/-! A drop entry of the IPv4 blocklist is not replaced by one that expires earlier, as long
as the Bloom filter contains its address: until the entry expires the packets of the
source do not reach the stages that ban, and a later ban outlasts it. -/

namespace Falx

open Words

def BlockEntry.ExpiresBefore (e e' : BlockEntry) : Prop :=
  e.expireAt ≠ 0 ∧ (e'.expireAt = 0 ∨ e.expireAt < e'.expireAt)

theorem BlockEntry.not_expiresBefore_self (e : BlockEntry) : ¬ e.ExpiresBefore e := by
  rintro ⟨hne, h | h⟩
  · exact hne h
  · exact UInt64.lt_irrefl _ h

variable {e : BlockEntry} {key : UInt32} {st : Kernel}

theorem BlockEntry.not_expiresBefore_trans {e' e'' : BlockEntry} (h : ¬ e'.ExpiresBefore e)
    (h' : ¬ e''.ExpiresBefore e') : ¬ e''.ExpiresBefore e := by
  simp only [ExpiresBefore, ne_eq, not_and, not_or, UInt64.not_lt, ← UInt64.toNat_inj,
    UInt64.le_iff_toNat_le, UInt64.toNat_zero] at h h' ⊢
  intro hne
  have h₂ := h' hne
  omega

section BanTimes

def BansAt (times : UInt64 → Prop) (key : UInt32) (x : Kernel) (_ : Bool) (y : Kernel) : Prop :=
  y.blocklistV4 key = x.blocklistV4 key ∨
    ∃ now r, times now ∧ y.blocklistV4 key = some (banEntry now r)

variable {times : UInt64 → Prop} {key : UInt32}

theorem bansAt_statsBlind (times : UInt64 → Prop) (key : UInt32) :
    StatsBlind (BansAt times key) where
  refl _ _ := Or.inl rfl
  trans _ _ _ _ hxy hyz := by
    rcases hyz with h | h
    · rw [BansAt, h]
      exact hxy
    · exact .inr h
  mapped _ _ _ _ h := h
  stat _ _ _ _ h := h

variable {now : UInt64}

theorem bansAt_of_ban {srcIp : UInt32} {minR : UInt32} {x y z : Kernel} {b : Bool}
    (hnow : times now) (hx : z.blocklistV4 = x.blocklistV4)
    (hy : y.blocklistV4 = (applyCoolingBan srcIp now minR z).blocklistV4) :
    BansAt times key x b y := by
  rw [BansAt, hy, ← hx]
  by_cases hkey : key = srcIp
  · subst hkey
    exact .inr ⟨now, _, hnow, Function.update_self _ _ _⟩
  · exact .inl (Function.update_of_ne hkey _ _)

theorem checkSynCounter_bansAt (srcIp : UInt32) (flags : UInt8) (hnow : times now) :
    Stage.Respects (BansAt times key) (checkSynCounter srcIp flags now) := by
  intro x
  simp only [checkSynCounter]
  split
  · split <;> exact .inl rfl
  split
  · split
    · split
      · exact bansAt_of_ban hnow rfl rfl
      · exact .inl rfl
    · exact .inl rfl
  · exact .inl rfl

theorem checkRateLimit_bansAt (srcIp : UInt32) (cfg : FalxMapConfig) (hnow : times now) :
    Stage.Respects (BansAt times key) (checkRateLimit srcIp cfg now) := by
  intro x
  simp only [checkRateLimit, dropLimited, chargeBucket]
  split
  · split
    · exact bansAt_of_ban hnow rfl rfl
    · exact .inl rfl
  · exact .inl rfl

theorem checkSynFlood_bansAt (srcIp : UInt32) (charge : UInt64) (hnow : times now) :
    Stage.Respects (BansAt times key) (checkSynFlood srcIp charge now) := by
  intro x
  simp only [checkSynFlood, dropLimited, chargeBucket]
  split
  · split
    · exact bansAt_of_ban hnow rfl rfl
    · exact .inl rfl
  · exact .inl rfl

theorem processPacket_bansAt {clk : Clock} (hclk : clk.Ordered) (frame : Frame) (st : Kernel)
    (key : UInt32) : ∃ b, BansAt (clk.blocklist ≤ ·) key st b (processPacket clk frame st).2 := by
  have hrate := UInt64.le_trans hclk.synCounter hclk.rateLimit
  refine processPacket_respects (bansAt_statsBlind _ key) fun pkt _ _ => ⟨?_, ?_, ?_, ?_⟩
  · exact fun x => .inl (congrFun (checkFailsafe_quiet pkt.srcIp pkt _ x).blocklistV4 key)
  · exact fun _ => checkSynCounter_bansAt _ _ hclk.synCounter
  · exact fun _ => checkRateLimit_bansAt _ _ hrate
  · exact fun _ => checkSynFlood_bansAt _ _ (UInt64.le_trans hrate hclk.synFlood)

end BanTimes

theorem banEntry_not_expiresBefore {t now : UInt64} (r : UInt32)
    (hexp : e.expired (t / nsPerSec) = true) (hle : t ≤ now) :
    ¬ (banEntry now r).ExpiresBefore e := by
  obtain ⟨hne, hold⟩ := BlockEntry.expired_iff.mp hexp
  have hsec : ∀ c : UInt64, (c / nsPerSec).toNat = c.toNat / 1000000000 := fun c =>
    UInt64.toNat_div _ _
  have hnow := UInt64.le_iff_toNat_le.mp hle
  have hlt := now.toNat_lt
  rintro ⟨-, hz | hpre⟩
  · exact hne hz
  · have hban := UInt64.lt_iff_toNat_lt.mp hpre
    simp only [banEntry, toNat_satAdd] at hban
    rw [hsec] at hold hban
    omega

/-- The filter contains the address, and its drop entry does not expire before `e`. -/
structure HeldUntil (key : UInt32) (e : BlockEntry) (st : Kernel) : Prop where
  bloom : st.bloomFilter.contains key = true
  entry : ∃ e', st.blocklistV4 key = some e' ∧ e'.action = Action.drop ∧ ¬ e'.ExpiresBefore e

theorem HeldUntil.packet (h : HeldUntil key e st)
    {clk : Clock} (hclk : clk.Ordered) (frame : Frame) :
    HeldUntil key e (processPacket clk frame st).2 := by
  obtain ⟨e', he', hdrop, hpre⟩ := h.entry
  have hbl : (processPacket clk frame st).2.bloomFilter.contains key = true := by
    rcases processPacket_effect clk frame st with hq | ⟨pkt, b, -, -, -, he⟩
    · rw [(hq key).bloomFilter]
      exact h.bloom
    · exact he.bloom_mono h.bloom
  obtain ⟨b, hsame | ⟨now, r, hnow, hban⟩⟩ := processPacket_bansAt hclk frame st key
  · exact ⟨hbl, e', hsame.trans he', hdrop, hpre⟩
  · refine ⟨hbl, banEntry now r, hban, rfl, ?_⟩
    by_cases hexp : e'.expired (clk.blocklist / nsPerSec) = true
    · exact BlockEntry.not_expiresBefore_trans hpre (banEntry_not_expiresBefore r hexp hnow)
    · -- the packet is another source's, or it is dropped before it can be banned
      have hkept : (processPacket clk frame st).2.blocklistV4 key = some e' := by
        rcases processPacket_effect clk frame st with hq | ⟨pkt, b, hp, h4, h0, he⟩
        · rw [(hq key).blocklistV4, he']
        · by_cases hkey : key = pkt.srcIp
          · subst hkey
            have hq := (processPacket_drop_of_entry hp h4 h0 h.bloom he' hdrop
              (Bool.eq_false_iff.mpr hexp)).2
            rw [hq.blocklistV4, he']
          · rw [he.blocklistV4_of_ne hkey, he']
      obtain rfl := Option.some.inj (hban.symm.trans hkept)
      exact hpre

def blockThenPacket : List Command :=
  [.block okEnv [1, 1, 1, 1] permanentDrop, .packet (.instant 1) (icmpFrame 1 1 1 1)]

end Falx
