import Falx.Redirect

/-! The transport checksum of a redirected frame. The incremental update takes
the address halves in native order and the ports in host order, subtracts on
32-bit words without an end-around borrow, and is left out when the port is kept. -/

namespace Falx

open Words OnesComplement

/-- The TCP length is what the IPv4 header leaves of the total length; a UDP
header carries its own. -/
def transportLen (f : Frame) : Nat :=
  if ipProtocol f = Proto.tcp then beWord f 16 - ipHdrLen f else beWord f (transportAt f + 4)

def segmentByte (f : Frame) (i : Nat) : Nat :=
  if i < transportLen f then (f.u8 (transportAt f + i)).toNat else 0

def segmentWord (f : Frame) (i : Nat) : Nat := segmentByte f (2 * i) * 256 + segmentByte f (2 * i + 1)

def segmentWords (f : Frame) : List Nat :=
  (List.range ((transportLen f + 1) / 2)).map (segmentWord f)

def pseudoHeaderWords (f : Frame) : List Nat :=
  [beWord f 26, beWord f 28, beWord f 30, beWord f 32, (ipProtocol f).toNat, transportLen f]

def transportWords (f : Frame) : List Nat := pseudoHeaderWords f ++ segmentWords f

/-- A TCP segment or UDP datagram that is complete within the frame. -/
structure TransportSegment (f : Frame) : Prop where
  protocol : IsTransport f
  header : transportHdrSize f ≤ transportLen f
  inFrame : transportAt f + transportLen f ≤ f.length

def NoChecksum (f : Frame) : Prop := ipProtocol f = Proto.udp ∧ f.u16 (checkAt f) = 0

def ChecksumValid (f : Frame) : Prop :=
  ¬ NoChecksum f ∧ OnesComplement.sum (transportWords f) = 0xFFFF

instance (f : Frame) : Decidable (NoChecksum f) := inferInstanceAs (Decidable (_ ∧ _))

instance (f : Frame) : Decidable (ChecksumValid f) := inferInstanceAs (Decidable (_ ∧ _))

structure ChecksumKept (f f' : Frame) : Prop where
  absent : NoChecksum f → NoChecksum f'
  valid : ChecksumValid f → ChecksumValid f'

section Update

theorem toNat_add_mod {a b : UInt32} {x : Nat} (h : a.toNat = x % 2 ^ 32) :
    (a + b).toNat = (x + b.toNat) % 2 ^ 32 := by
  rw [UInt32.toNat_add, h]
  omega

theorem toNat_sub_mod {a b : UInt32} {x : Nat} (h : a.toNat = x % 2 ^ 32) (hle : b.toNat ≤ x) :
    (a - b).toNat = (x - b.toNat) % 2 ^ 32 := by
  have hb := b.toNat_lt
  rw [UInt32.toNat_sub, h]
  omega

theorem checksum_regroup {c o n p q : Nat} (hc : c < 2 ^ 16) (ho : o < 2 ^ 32) (hp : p < 2 ^ 16) :
    2 ^ 32 + (65535 - c) - o / 65536 - o % 65536 + n / 65536 + n % 65536 - p + q =
      2 ^ 32 + (65535 + fold n + q) - (c + fold o + p) := by
  simp only [fold]
  omega

theorem toNat_updateL4Checksum (c : UInt16) (oldIp newIp : UInt32) (oldPort newPort : UInt16) :
    (updateL4Checksum c oldIp newIp oldPort newPort).toNat =
      65535 - fold (fold ((2 ^ 32 + (65535 + fold newIp.toNat + swap newPort.toNat) -
        (c.toNat + fold oldIp.toNat + swap oldPort.toNat)) % 2 ^ 32)) := by
  have hc := c.toNat_lt
  have hold := oldIp.toNat_lt
  have hoh := toNat_shiftRight_16 oldIp
  have hol := toNat_and_ffff oldIp
  have hnh := toNat_shiftRight_16 newIp
  have hnl := toNat_and_ffff newIp
  have hpo : (swap16 oldPort).toUInt32.toNat = swap oldPort.toNat := by
    rw [UInt16.toNat_toUInt32, toNat_swap16, swap]
  have hpn : (swap16 newPort).toUInt32.toNat = swap newPort.toNat := by
    rw [UInt16.toNat_toUInt32, toNat_swap16, swap]
  have hport := (swap16 oldPort).toNat_lt
  rw [← UInt16.toNat_toUInt32, hpo] at hport
  -- 2 ^ 32 is added up front so that no intermediate difference is negative
  have h0 : (~~~ c).toUInt32.toNat = (2 ^ 32 + (65535 - c.toNat)) % 2 ^ 32 := by
    rw [UInt16.toNat_toUInt32, UInt16.toNat_not, UInt16.size]
    omega
  have h1 := toNat_sub_mod (b := oldIp >>> (16 : UInt32)) h0 (by omega)
  have h2 := toNat_sub_mod (b := oldIp &&& (0xFFFF : UInt32)) h1 (by omega)
  have h3 := toNat_add_mod (b := newIp >>> (16 : UInt32)) h2
  have h4 := toNat_add_mod (b := newIp &&& (0xFFFF : UInt32)) h3
  have h5 := toNat_sub_mod (b := (swap16 oldPort).toUInt32) h4 (by omega)
  have h6 := toNat_add_mod (b := (swap16 newPort).toUInt32) h5
  rw [hoh, hol, hnh, hnl, hpo, hpn] at h6
  rw [checksum_regroup hc hold hport] at h6
  have hle := fold_fold_le (Nat.mod_lt (2 ^ 32 + (65535 + fold newIp.toNat + swap newPort.toNat) -
    (c.toNat + fold oldIp.toNat + swap oldPort.toNat)) (by decide : 0 < 2 ^ 32))
  simp only [updateL4Checksum]
  rw [UInt16.toNat_not, UInt32.toNat_toUInt16, toNat_foldCarry, toNat_foldCarry, h6,
    Nat.mod_eq_of_lt (by omega)]
  rfl

end Update

section Words

variable {f f' : Frame} {target : HoneypotTarget}

theorem checkOffset_cases (f : Frame) :
    checkOffset f = 16 ∧ transportHdrSize f = 20 ∨ checkOffset f = 6 ∧ transportHdrSize f = 8 := by
  by_cases h : ipProtocol f = Proto.tcp
  · exact .inl ⟨if_pos h, if_pos h⟩
  · exact .inr ⟨if_neg h, if_neg h⟩

theorem segmentWord_eq_beWord {i : Nat} (h : 2 * i + 1 < transportLen f) :
    segmentWord f i = beWord f (transportAt f + 2 * i) := by
  rw [segmentWord, segmentByte, segmentByte, if_pos (by omega), if_pos h]
  rfl

theorem segmentWord_le (f : Frame) (i : Nat) : segmentWord f i ≤ 65535 := by
  have hbyte : ∀ j, segmentByte f j ≤ 255 := by
    intro j
    rw [segmentByte]
    split
    · have := (f.u8 (transportAt f + j)).toNat_lt
      omega
    · omega
  have h0 := hbyte (2 * i)
  have h1 := hbyte (2 * i + 1)
  rw [segmentWord]
  omega

theorem transportLen_le (f : Frame) : transportLen f ≤ 65535 := by
  have h16 := beWord_le f 16
  have h4 := beWord_le f (transportAt f + 4)
  rw [transportLen]
  split <;> omega

theorem transportWords_le (f : Frame) : ∀ w ∈ transportWords f, w ≤ 65535 := by
  intro w hw
  rcases List.mem_append.mp hw with hw | hw
  · have hpr := (ipProtocol f).toNat_lt
    have hlen := transportLen_le f
    simp only [pseudoHeaderWords, List.mem_cons, List.not_mem_nil, or_false] at hw
    rcases hw with rfl | rfl | rfl | rfl | rfl | rfl
    · exact beWord_le f _
    · exact beWord_le f _
    · exact beWord_le f _
    · exact beWord_le f _
    · omega
    · exact hlen
  · obtain ⟨i, -, rfl⟩ := List.mem_map.mp hw
    exact segmentWord_le f i

theorem transportWords_sum (f : Frame) : (transportWords f).sum =
    beWord f 26 + beWord f 28 + (beWord f 30 + beWord f 32) + (ipProtocol f).toNat +
      transportLen f + (segmentWords f).sum := by
  simp only [transportWords, pseudoHeaderWords, List.sum_append, List.sum_cons, List.sum_nil]
  omega

theorem transportWords_sum_ne_zero (h : IsTransport f) : (transportWords f).sum ≠ 0 := by
  have hpr : (ipProtocol f).toNat ≠ 0 := by rcases h with h | h <;> rw [h] <;> decide
  rw [transportWords_sum]
  omega

theorem checksumValid_iff (h : IsTransport f) :
    ChecksumValid f ↔ ¬ NoChecksum f ∧ (transportWords f).sum % 65535 = 0 := by
  rw [ChecksumValid, sum_eq_ffff_iff (transportWords_le f)]
  have hne := transportWords_sum_ne_zero h
  tauto

theorem fold_u32_mod (f : Frame) (p : Nat) :
    fold (f.u32 p).toNat % 65535 = 256 * (beWord f p + beWord f (p + 2)) % 65535 := by
  have h3 : p + 2 + 1 = p + 3 := rfl
  rw [fold_mod, Frame.u32, toNat_le32, beWord, beWord, h3]
  omega

theorem swap_beWord (f : Frame) (p : Nat) : swap (beWord f p) = (f.u16 p).toNat := by
  have h1 := (f.u8 (p + 1)).toNat_lt
  rw [Frame.u16, toNat_le16, beWord, swap]
  omega

end Words

section Redirected

variable {f f' : Frame} {target : HoneypotTarget}

section

variable (hr : Redirected target f f')

include hr

theorem Redirected.ipProtocol_eq : ipProtocol f' = ipProtocol f :=
  hr.low (by omega) (by omega) (by omega) (by omega)

theorem Redirected.checkAt_eq : checkAt f' = checkAt f := by
  rw [checkAt, checkOffset, hr.transportAt_eq, hr.ipProtocol_eq, checkAt, checkOffset]

theorem Redirected.segment {i : Nat}
    (h : i ≠ 2 ∧ i ≠ 3 ∧ i ≠ checkOffset f ∧ i ≠ checkOffset f + 1 ∨ target.dstPort = 0) :
    f'.u8 (transportAt f + i) = f.u8 (transportAt f + i) := by
  have hihl := hr.ihl
  have hat : 34 ≤ transportAt f := by
    rw [transportAt, ethHdrSize]
    omega
  apply hr.kept _ (by omega) (by omega) (by omega) (by omega)
  rw [checkAt]
  rcases h with h | h
  · left
    omega
  · exact .inr (.inl h)

theorem Redirected.transportLen_eq : transportLen f' = transportLen f := by
  have hlow : ∀ p, 12 ≤ p → p < 24 → f'.u8 p = f.u8 p := fun p h12 h24 =>
    hr.low h12 (by omega) (by omega) (by omega)
  have hihl : ipHdrLen f' = ipHdrLen f := ipHdrLen_congr (hlow 14 (by omega) (by omega))
  have htot : beWord f' 16 = beWord f 16 :=
    beWord_congr (hlow 16 (by omega) (by omega)) (hlow 17 (by omega) (by omega))
  rw [transportLen, transportLen, hr.transportAt_eq, hr.ipProtocol_eq, hihl, htot]
  by_cases htcp : ipProtocol f = Proto.tcp
  · rw [if_pos htcp, if_pos htcp]
  · have hoff : checkOffset f = 6 := if_neg htcp
    rw [if_neg htcp, if_neg htcp]
    exact beWord_congr (hr.segment (i := 4) (by omega)) (hr.segment (i := 5) (by omega))

theorem Redirected.segmentWord_eq {i : Nat}
    (h : i ≠ 1 ∧ i ≠ checkOffset f / 2 ∨ target.dstPort = 0) :
    segmentWord f' i = segmentWord f i := by
  have hoff := checkOffset_cases f
  simp only [segmentWord, segmentByte, hr.transportAt_eq, hr.transportLen_eq]
  rcases h with ⟨h1, hk⟩ | hzero
  · rw [hr.segment (i := 2 * i) (.inl (by omega)), hr.segment (i := 2 * i + 1) (.inl (by omega))]
  · rw [hr.segment (.inr hzero), hr.segment (.inr hzero)]

theorem Redirected.segmentWords_sum (hseg : TransportSegment f) :
    (segmentWords f').sum + (beWord f (transportAt f + 2) + beWord f (checkAt f)) =
      (segmentWords f).sum + (beWord f' (transportAt f + 2) + beWord f' (checkAt f)) := by
  have hoff := checkOffset_cases f
  have hhdr := hseg.header
  have hlen := hr.transportLen_eq
  have hat := hr.transportAt_eq
  let n := (transportLen f + 1) / 2
  let mid (i : Nat) : Nat := if i = 1 then segmentWord f' i else segmentWord f i
  have hport : ((List.range n).map mid).sum + segmentWord f 1 =
      ((List.range n).map (segmentWord f)).sum + mid 1 :=
    sum_map_range_single (by omega) fun j hj => if_neg hj
  have hck : ((List.range n).map (segmentWord f')).sum + mid (checkOffset f / 2) =
      ((List.range n).map mid).sum + segmentWord f' (checkOffset f / 2) := by
    apply sum_map_range_single (by omega)
    intro j hj
    by_cases h1 : j = 1
    · exact (if_pos h1).symm
    · exact (hr.segmentWord_eq (.inl ⟨h1, hj⟩)).trans (if_neg h1).symm
  have hmid1 : mid 1 = segmentWord f' 1 := if_pos rfl
  have hmidk : mid (checkOffset f / 2) = segmentWord f (checkOffset f / 2) := if_neg (by omega)
  have hk : checkAt f = transportAt f + 2 * (checkOffset f / 2) := by
    rw [checkAt]
    omega
  have hw1 := segmentWord_eq_beWord (f := f) (i := 1) (by omega)
  have hwk := segmentWord_eq_beWord (f := f) (i := checkOffset f / 2) (by omega)
  have hw1' := segmentWord_eq_beWord (f := f') (i := 1) (by omega)
  have hwk' := segmentWord_eq_beWord (f := f') (i := checkOffset f / 2) (by omega)
  rw [hat] at hw1' hwk'
  have hs : (segmentWords f).sum = ((List.range n).map (segmentWord f)).sum := rfl
  have hs' : (segmentWords f').sum = ((List.range n).map (segmentWord f')).sum := by
    rw [segmentWords, hlen]
  rw [hs, hs', hk]
  simp only [Nat.mul_one] at hw1 hw1'
  omega

end

def removedSum (f : Frame) : Nat :=
  (f.u16 (checkAt f)).toNat + fold (f.u32 30).toNat + beWord f (transportAt f + 2)

def addedSum (target : HoneypotTarget) : Nat :=
  65535 + fold target.dstIp.toNat + target.dstPort.toNat

section

variable (hr : Redirected target f f')

include hr

theorem Redirected.check_toNat (hseg : TransportSegment f)
    (hport : target.dstPort ≠ 0) : (f'.u16 (checkAt f)).toNat =
      65535 - fold (fold ((2 ^ 32 + addedSum target - removedSum f) % 2 ^ 32)) := by
  have hold : swap (f.u16 (transportAt f + 2)).toNat = beWord f (transportAt f + 2) := by
    rw [swap, ← toNat_swap16, toNat_swap16_u16]
  have hnew : swap (swap16 target.dstPort).toNat = target.dstPort.toNat := by
    rw [toNat_swap16]
    exact swap_swap target.dstPort.toNat_lt
  rw [hr.check hport hseg.protocol, toNat_updateL4Checksum, hold, hnew, addedSum, removedSum]

theorem Redirected.sum_updated (hseg : TransportSegment f) :
    (256 * (transportWords f').sum + fold (f.u32 30).toNat +
        256 * beWord f (transportAt f + 2) + (f.u16 (checkAt f)).toNat) % 65535 =
      (256 * (transportWords f).sum + fold target.dstIp.toNat +
        256 * beWord f' (transportAt f + 2) + (f'.u16 (checkAt f)).toNat) % 65535 := by
  have hsegs := hr.segmentWords_sum hseg
  have hsum := transportWords_sum f
  have hsum' := transportWords_sum f'
  have hlow : ∀ p, 26 ≤ p → p < 30 → f'.u8 p = f.u8 p := fun p h26 h30 =>
    hr.low (by omega) (by omega) (by omega) h30
  have h26 : beWord f' 26 = beWord f 26 :=
    beWord_congr (hlow 26 (by omega) (by omega)) (hlow 27 (by omega) (by omega))
  have h28 : beWord f' 28 = beWord f 28 :=
    beWord_congr (hlow 28 (by omega) (by omega)) (hlow 29 (by omega) (by omega))
  rw [h26, h28, hr.ipProtocol_eq, hr.transportLen_eq] at hsum'
  have hold : fold (f.u32 30).toNat % 65535 = 256 * (beWord f 30 + beWord f 32) % 65535 :=
    fold_u32_mod f 30
  have hnew : fold (f'.u32 30).toNat % 65535 =
      256 * (beWord f' 30 + beWord f' 32) % 65535 := fold_u32_mod f' 30
  rw [hr.dst] at hnew
  have hc := swap_mod (beWord f (checkAt f))
  have hc' := swap_mod (beWord f' (checkAt f))
  rw [swap_beWord] at hc hc'
  omega

theorem Redirected.check_kept (hport : target.dstPort = 0) :
    f'.u16 (checkAt f) = f.u16 (checkAt f) :=
  Frame.u16_congr (hr.segment (i := checkOffset f) (.inr hport))
    (hr.segment (i := checkOffset f + 1) (.inr hport))

theorem Redirected.sum_of_no_port (hseg : TransportSegment f) (hport : target.dstPort = 0) :
    (256 * (transportWords f').sum + (f.u32 30).toNat) % 65535 =
      (256 * (transportWords f).sum + target.dstIp.toNat) % 65535 := by
  have hsum := hr.sum_updated hseg
  have hp : beWord f' (transportAt f + 2) = beWord f (transportAt f + 2) :=
    beWord_congr (hr.segment (i := 2) (.inr hport)) (hr.segment (i := 3) (.inr hport))
  have hold := fold_mod (f.u32 30).toNat
  have hnew := fold_mod target.dstIp.toNat
  rw [hp, hr.check_kept hport] at hsum
  omega

end

theorem removedSum_lt (f : Frame) : removedSum f < 2 ^ 32 := by
  have hc := (f.u16 (checkAt f)).toNat_lt
  have ho := (f.u32 30).toNat_lt
  have hp := beWord_le f (transportAt f + 2)
  rw [removedSum, fold]
  omega

theorem addedSum_lt (target : HoneypotTarget) : addedSum target < 2 ^ 32 := by
  have hn := target.dstIp.toNat_lt
  have hp := target.dstPort.toNat_lt
  rw [addedSum, fold]
  omega

section

variable (hr : Redirected target f f')

include hr

theorem Redirected.check_eq_zero_iff (hseg : TransportSegment f)
    (hport : target.dstPort ≠ 0) : f'.u16 (checkAt f) = 0 ↔
      removedSum f < addedSum target ∧ (addedSum target - removedSum f) % 65535 = 0 ∨
        addedSum target < removedSum f ∧ (removedSum f - addedSum target) % 65535 = 1 := by
  have hle := fold_fold_le
    (Nat.mod_lt (2 ^ 32 + addedSum target - removedSum f) (by decide : 0 < 2 ^ 32))
  rw [← fold_fold_sub_eq_ffff (addedSum_lt target) (removedSum_lt f), ← UInt16.toNat_inj,
    UInt16.toNat_zero, hr.check_toNat hseg hport]
  omega

theorem Redirected.noChecksum_iff :
    NoChecksum f' ↔ ipProtocol f = Proto.udp ∧ f'.u16 (checkAt f) = 0 := by
  rw [NoChecksum, hr.ipProtocol_eq, hr.checkAt_eq]

theorem Redirected.checksumValid_iff_of_no_port
    (hseg : TransportSegment f) (hport : target.dstPort = 0) (hva : ChecksumValid f) :
    ChecksumValid f' ↔ target.dstIp.toNat % 65535 = (f.u32 30).toNat % 65535 := by
  have htr : IsTransport f' := by
    rw [IsTransport, hr.ipProtocol_eq]
    exact hseg.protocol
  obtain ⟨hno, hsum⟩ := (checksumValid_iff hseg.protocol).mp hva
  have hno' : ¬ NoChecksum f' := by
    rw [hr.noChecksum_iff, hr.check_kept hport]
    exact hno
  have hsum' := hr.sum_of_no_port hseg hport
  rw [checksumValid_iff htr]
  constructor
  · rintro ⟨-, h⟩
    omega
  · intro h
    exact ⟨hno', by omega⟩

end

/-- When the redirect of `f` to `target` keeps the checksum. A kept port leaves
the checksum untouched; a new one is right when the 32-bit subtraction needs no
borrow and the two ports agree in the difference of their bytes modulo 257. -/
structure ChecksumSurvives (target : HoneypotTarget) (f : Frame) : Prop where
  absent : NoChecksum f → target.dstPort ≠ 0 →
    removedSum f < addedSum target ∧ (addedSum target - removedSum f) % 65535 = 0 ∨
      addedSum target < removedSum f ∧ (removedSum f - addedSum target) % 65535 = 1
  keptPort : ChecksumValid f → target.dstPort = 0 →
    target.dstIp.toNat % 65535 = (f.u32 30).toNat % 65535
  newPort : ChecksumValid f → target.dstPort ≠ 0 → removedSum f ≤ addedSum target ∧
    (target.dstPort.toNat % 256 + beWord f (transportAt f + 2) / 256) % 257 =
      (beWord f (transportAt f + 2) % 256 + target.dstPort.toNat / 256) % 257 ∧
    (ipProtocol f = Proto.udp → removedSum f = addedSum target ∨
      (addedSum target - removedSum f) % 65535 ≠ 0)

theorem Redirected.checksumValid_iff_of_port (hr : Redirected target f f')
    (hseg : TransportSegment f) (hport : target.dstPort ≠ 0) (hva : ChecksumValid f) :
    ChecksumValid f' ↔ removedSum f ≤ addedSum target ∧
      (target.dstPort.toNat % 256 + beWord f (transportAt f + 2) / 256) % 257 =
        (beWord f (transportAt f + 2) % 256 + target.dstPort.toNat / 256) % 257 ∧
      (ipProtocol f = Proto.udp → removedSum f = addedSum target ∨
        (addedSum target - removedSum f) % 65535 ≠ 0) := by
  have htr : IsTransport f' := by
    rw [IsTransport, hr.ipProtocol_eq]
    exact hseg.protocol
  obtain ⟨-, hsum⟩ := (checksumValid_iff hseg.protocol).mp hva
  have hupd := hr.sum_updated hseg
  rw [hr.port hport hseg.protocol] at hupd
  have hfold : ∀ w : UInt32, fold w.toNat ≤ 131070 := by
    intro w
    have hw := w.toNat_lt
    rw [fold]
    omega
  have hiff := incremental_update_iff (s := 256 * (transportWords f).sum) (by omega)
    (Nat.lt_succ_of_le (beWord_le f _)) target.dstPort.toNat_lt
    (f.u16 (checkAt f)).toNat_lt (hfold (f.u32 30)) (hfold target.dstIp)
    (hr.check_toNat hseg hport) hupd
  have hscale : (256 * (transportWords f').sum) % 65535 = 0 ↔
      (transportWords f').sum % 65535 = 0 := by omega
  have hzero := hr.check_eq_zero_iff hseg hport
  rw [checksumValid_iff htr, ← hscale, hiff, hr.noChecksum_iff, hzero]
  change _ ∧ removedSum f ≤ addedSum target ∧ _ ↔ _
  constructor
  · rintro ⟨hno, hle, hby⟩
    refine ⟨hle, hby, fun hudp => ?_⟩
    by_contra hzero
    exact hno ⟨hudp, .inl ⟨by omega, by omega⟩⟩
  · rintro ⟨hle, hby, hudp⟩
    refine ⟨?_, hle, hby⟩
    rintro ⟨hpr, hz⟩
    have := hudp hpr
    omega

end Redirected

/-- The redirect keeps the transport checksum of a segment exactly on the
frames of `ChecksumSurvives`. -/
theorem redirect_checksum_kept_iff {targets : UInt32 → Option HoneypotTarget}
    {active : Option UInt32} {target : HoneypotTarget} {f f' : Frame} (hseg : TransportSegment f)
    (ht : targets (active.getD 0) = some target)
    (h : tryRedirect targets active f = some (.tx, f')) :
    ChecksumKept f f' ↔ ChecksumSurvives target f := by
  have hr := tryRedirect_redirected ht h
  have habsent : NoChecksum f → target.dstPort = 0 → NoChecksum f' := by
    intro hno hport
    rw [hr.noChecksum_iff, hr.check_kept hport]
    exact hno
  constructor
  · rintro ⟨hno, hva⟩
    refine ⟨?_, ?_, ?_⟩
    · intro hf hport
      exact (hr.check_eq_zero_iff hseg hport).mp (hr.noChecksum_iff.mp (hno hf)).2
    · intro hf hport
      exact (hr.checksumValid_iff_of_no_port hseg hport hf).mp (hva hf)
    · intro hf hport
      exact (hr.checksumValid_iff_of_port hseg hport hf).mp (hva hf)
  · intro hs
    refine ⟨?_, ?_⟩
    · intro hf
      by_cases hport : target.dstPort = 0
      · exact habsent hf hport
      · exact hr.noChecksum_iff.mpr
          ⟨hf.1, (hr.check_eq_zero_iff hseg hport).mpr (hs.absent hf hport)⟩
    · intro hf
      by_cases hport : target.dstPort = 0
      · exact (hr.checksumValid_iff_of_no_port hseg hport hf).mpr (hs.keptPort hf hport)
      · exact (hr.checksumValid_iff_of_port hseg hport hf).mpr (hs.newPort hf hport)

theorem transportSegment_checkedSyn : TransportSegment checkedSyn :=
  ⟨by decide +kernel, by decide +kernel, by decide +kernel⟩

def shiftedDecoyTargets (i : UInt32) : Option HoneypotTarget :=
  if i = 0 then some { decoy with dstPort := 337 } else none

theorem redirect_checksum_kept_shifted : ChecksumKept checkedSyn
    (redirectToHoneypot shiftedDecoyTargets none checkedSyn).2 := by
  have h : tryRedirect shiftedDecoyTargets none checkedSyn =
      some (.tx, (redirectToHoneypot shiftedDecoyTargets none checkedSyn).2) := by decide +kernel
  have hsurvives : ChecksumSurvives { decoy with dstPort := 337 } checkedSyn := by
    refine ⟨fun hno => ?_, fun _ hport => ?_, fun _ _ => ?_⟩
    · exact absurd hno (by decide +kernel)
    · exact absurd hport (by decide)
    · decide +kernel
  have ht : shiftedDecoyTargets ((none : Option UInt32).getD 0) =
      some { decoy with dstPort := 337 } := rfl
  exact (redirect_checksum_kept_iff transportSegment_checkedSyn ht h).mpr hsurvives

theorem redirect_checksum_broken :
    TransportSegment checkedSyn ∧ ChecksumValid checkedSyn ∧
      tryRedirect decoyTargets none checkedSyn =
        some (.tx, (redirectToHoneypot decoyTargets none checkedSyn).2) ∧
      ¬ ChecksumValid (redirectToHoneypot decoyTargets none checkedSyn).2 := by
  refine ⟨transportSegment_checkedSyn, ?_, ?_, ?_⟩
  · decide +kernel
  · decide +kernel
  · decide +kernel

end Falx
