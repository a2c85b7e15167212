import Falx.HeaderChecksum
import Mathlib.Data.List.GetD

/-! What a redirected frame looks like on the wire: which bytes are replaced and
by what. Everything else is carried over from the frame that came in. -/

namespace Falx

open Frame Words OnesComplement

def ipProtocol (f : Frame) : UInt8 := f.u8 23

def transportAt (f : Frame) : Nat := ethHdrSize + ipHdrLen f

def IsTransport (f : Frame) : Prop := ipProtocol f = Proto.tcp ∨ ipProtocol f = Proto.udp

instance (f : Frame) : Decidable (IsTransport f) := inferInstanceAs (Decidable (_ ∨ _))

def transportHdrSize (f : Frame) : Nat :=
  if ipProtocol f = Proto.tcp then tcpHdrSize else udpHdrSize

def checkOffset (f : Frame) : Nat := if ipProtocol f = Proto.tcp then 16 else 6

def checkAt (f : Frame) : Nat := transportAt f + checkOffset f

section Store

variable {f : Frame} {p : Nat}

theorem Frame.u8_store_outside (bs : List UInt8) {i : Nat} (h : i < p ∨ p + bs.length ≤ i) :
    u8 (f.store p bs) i = f.u8 i := by
  rcases h with h | h
  · exact u8_store_of_lt bs h
  · exact u8_store_of_ge bs h

theorem Frame.u8_store_bytes16_of_ne (w : UInt16) {i : Nat} (h0 : i ≠ p) (h1 : i ≠ p + 1) :
    u8 (f.store p (bytes16 w)) i = f.u8 i := by
  apply u8_store_outside
  have hlen : (bytes16 w).length = 2 := rfl
  omega

theorem Frame.u32_store_bytes32 (w : UInt32) (hlen : p + 3 < f.length) :
    u32 (f.store p (bytes32 w)) p = w := by
  have hw := w.toNat_lt
  have hbyte : ∀ i, i < 4 → u8 (f.store p (bytes32 w)) (p + i) = (bytes32 w).getD i 0 :=
    fun i hi => u8_store_of_mem _ hi (by omega)
  have h0 := hbyte 0 (by omega)
  have h1 := hbyte 1 (by omega)
  have h2 := hbyte 2 (by omega)
  have h3 := hbyte 3 (by omega)
  simp only [Nat.add_zero, bytes32, List.getD_cons_zero, List.getD_cons_succ] at h0 h1 h2 h3
  rw [u32, bytes32, h0, h1, h2, h3, ← UInt32.toNat_inj, toNat_le32, UInt8.toNat_ofNat',
    UInt8.toNat_ofNat', UInt8.toNat_ofNat', UInt8.toNat_ofNat']
  omega

theorem Frame.u16_congr {g : Frame} (h0 : g.u8 p = f.u8 p)
    (h1 : g.u8 (p + 1) = f.u8 (p + 1)) : g.u16 p = f.u16 p := by
  rw [u16, h0, h1, u16]

theorem Frame.u32_congr {g : Frame} (h : ∀ i < 4, g.u8 (p + i) = f.u8 (p + i)) :
    g.u32 p = f.u32 p := by
  have h0 := h 0 (by omega)
  rw [Nat.add_zero] at h0
  rw [u32, h0, h 1 (by omega), h 2 (by omega), h 3 (by omega), u32]

theorem beWord_congr {g : Frame} (h0 : g.u8 p = f.u8 p)
    (h1 : g.u8 (p + 1) = f.u8 (p + 1)) : beWord g p = beWord f p := by
  rw [beWord, h0, h1, beWord]

end Store

structure PortRewritten (target : HoneypotTarget) (oldDst : UInt32) (l4 size check : Nat)
    (g f' : Frame) : Prop where
  fits : l4 + size ≤ g.length
  length : f'.length = g.length
  kept : ∀ p, p ≠ l4 + 2 → p ≠ l4 + 3 → p ≠ l4 + check → p ≠ l4 + check + 1 →
    f'.u8 p = g.u8 p
  port : beWord f' (l4 + 2) = target.dstPort.toNat
  check : f'.u16 (l4 + check) = updateL4Checksum (g.u16 (l4 + check)) oldDst
    target.dstIp (g.u16 (l4 + 2)) (swap16 target.dstPort)

variable {f g f' : Frame} {target : HoneypotTarget} {oldDst : UInt32}

theorem beWord_store_swap16 {p : Nat} (w : UInt16) (hlen : p + 1 < f.length) :
    beWord (f.store p (bytes16 (swap16 w))) p = w.toNat := by
  rw [beWord_store_bytes16 _ hlen, toNat_swap16]
  exact swap_swap w.toNat_lt

theorem rewriteDestPort_spec {l4 size check : Nat} (hck : 4 ≤ check) (hsize : check + 2 ≤ size)
    (h : rewriteDestPort target oldDst l4 size check g = some f') :
    PortRewritten target oldDst l4 size check g f' := by
  simp only [rewriteDestPort, Option.bind_eq_bind, Option.bind_eq_some_iff, ptrAt_eq_some] at h
  obtain ⟨p, ⟨hfits, hp⟩, h⟩ := h
  obtain rfl := hp.symm
  cases h
  have hport := beWord_store_swap16 (f := g) (p := l4 + 2) target.dstPort (by omega)
  refine ⟨hfits, ?_, ?_, ?_, ?_⟩
  · rw [store_length, store_length]
  · intro p h2 h3 hc hc1
    rw [u8_store_bytes16_of_ne _ hc hc1, u8_store_bytes16_of_ne _ h2 h3]
  · rw [← hport]
    apply beWord_congr
    · exact u8_store_bytes16_of_ne _ (by omega) (by omega)
    · exact u8_store_bytes16_of_ne _ (by omega) (by omega)
  · rw [u16_store_bytes16 _ (by rw [store_length]; omega)]
    have hold : u16 (g.store (l4 + 2) (bytes16 (swap16 target.dstPort))) (l4 + check) =
        g.u16 (l4 + check) := by
      apply u16_congr
      · exact u8_store_bytes16_of_ne _ (by omega) (by omega)
      · exact u8_store_bytes16_of_ne _ (by omega) (by omega)
    rw [hold]

structure Redirected (target : HoneypotTarget) (f f' : Frame) : Prop where
  header : 34 ≤ f.length
  ihl : 20 ≤ ipHdrLen f
  length : f'.length = f.length
  macs : ∀ i, i < 12 → f'.u8 i = (target.dstMac.bytes ++ target.srcMac.bytes).getD i 0
  dst : f'.u32 30 = target.dstIp
  kept : ∀ p, 12 ≤ p → p ≠ 24 → p ≠ 25 → (p < 30 ∨ 34 ≤ p) →
    (p ≠ transportAt f + 2 ∧ p ≠ transportAt f + 3 ∧ p ≠ checkAt f ∧ p ≠ checkAt f + 1 ∨
      target.dstPort = 0 ∨ ¬ IsTransport f) → f'.u8 p = f.u8 p
  fits : target.dstPort ≠ 0 → IsTransport f → transportAt f + transportHdrSize f ≤ f.length
  port : target.dstPort ≠ 0 → IsTransport f →
    beWord f' (transportAt f + 2) = target.dstPort.toNat
  check : target.dstPort ≠ 0 → IsTransport f →
    f'.u16 (checkAt f) = updateL4Checksum (f.u16 (checkAt f)) (f.u32 30)
      target.dstIp (f.u16 (transportAt f + 2)) (swap16 target.dstPort)

theorem rewritePort_spec {ihl : Nat} (h : rewritePort target oldDst ethHdrSize ihl g = some f') :
    (target.dstPort = 0 ∨ ¬ IsTransport g) ∧ f' = g ∨
      target.dstPort ≠ 0 ∧ IsTransport g ∧ PortRewritten target oldDst (ethHdrSize + ihl)
        (transportHdrSize g) (checkOffset g) g f' := by
  have hpr : g.u8 (ethHdrSize + 9) = ipProtocol g := rfl
  rw [rewritePort, hpr] at h
  by_cases hport : target.dstPort = 0
  · rw [if_pos hport] at h
    cases h
    exact .inl ⟨.inl hport, rfl⟩
  rw [if_neg hport] at h
  by_cases htcp : ipProtocol g = Proto.tcp
  · rw [if_pos htcp] at h
    rw [transportHdrSize, if_pos htcp, checkOffset, if_pos htcp]
    exact .inr ⟨hport, .inl htcp, rewriteDestPort_spec (by omega) (by decide) h⟩
  rw [if_neg htcp] at h
  by_cases hudp : ipProtocol g = Proto.udp
  · rw [if_pos hudp] at h
    rw [transportHdrSize, if_neg htcp, checkOffset, if_neg htcp]
    exact .inr ⟨hport, .inr hudp, rewriteDestPort_spec (by omega) (by decide) h⟩
  · rw [if_neg hudp] at h
    cases h
    exact .inl ⟨.inr fun hg => hg.elim htcp hudp, rfl⟩

section Readdressed

variable (target : HoneypotTarget) {f : Frame}

theorem u8_readdressed_of_kept (f : Frame) {p : Nat} (h12 : 12 ≤ p) (h24 : p ≠ 24) (h25 : p ≠ 25)
    (h30 : p < 30 ∨ 34 ≤ p) : u8 (readdressed target f) p = f.u8 p := by
  have hsize : (bytes32 target.dstIp).length = 4 := rfl
  rw [readdressed, rewriteDst, u8_store_bytes16_of_ne (p := ethHdrSize + 10) _ h24 h25,
    u8_store_outside _ (by simp only [ethHdrSize]; omega), u8_store_macs _ _ h12]

theorem u8_readdressed_macs (hlen : 34 ≤ f.length) {i : Nat} (hi : i < 12) :
    u8 (readdressed target f) i =
      (target.dstMac.bytes ++ target.srcMac.bytes).getD i 0 := by
  have hdst := target.dstMac.length_eq
  have hsrc := target.srcMac.length_eq
  rw [readdressed, rewriteDst, u8_store_of_lt _ (by simp only [ethHdrSize]; omega),
    u8_store_of_lt _ (by simp only [ethHdrSize]; omega)]
  by_cases h6 : i < 6
  · have hmem := u8_store_of_mem (f := f) (p := 0) (i := i) target.dstMac.bytes (by omega)
      (by omega)
    rw [Nat.zero_add] at hmem
    rw [u8_store_of_lt _ h6, hmem, List.getD_append _ _ _ _ (by omega)]
  · obtain ⟨j, rfl⟩ : ∃ j, i = 6 + j := ⟨i - 6, by omega⟩
    rw [u8_store_of_mem _ (by omega) (by rw [store_length]; omega),
      List.getD_append_right _ _ _ _ (by omega), hdst, Nat.add_sub_cancel_left]

theorem u32_readdressed_dst (hlen : 34 ≤ f.length) :
    u32 (readdressed target f) 30 = target.dstIp := by
  have hstore := u32_store_bytes32 (p := 30)
    (f := (f.store 0 target.dstMac.bytes).store 6 target.srcMac.bytes) target.dstIp
    (by rw [store_length, store_length]; omega)
  refine (u32_congr fun i hi => ?_).trans hstore
  exact u8_store_bytes16_of_ne _ (by simp only [ethHdrSize]; omega)
    (by simp only [ethHdrSize]; omega)

end Readdressed

structure AddressedTo (target : HoneypotTarget) (f g : Frame) : Prop where
  length : g.length = f.length
  macs : ∀ i, i < 12 → g.u8 i = (target.dstMac.bytes ++ target.srcMac.bytes).getD i 0
  dst : g.u32 30 = target.dstIp
  kept : ∀ p, 12 ≤ p → p ≠ 24 → p ≠ 25 → (p < 30 ∨ 34 ≤ p) → g.u8 p = f.u8 p

section AddressedTo

variable {target : HoneypotTarget} {f g f' : Frame}

theorem addressedTo_readdressed (target : HoneypotTarget) (hlen : 34 ≤ f.length) (check : UInt16) :
    AddressedTo target f ((readdressed target f).store 24 (bytes16 check)) := by
  have hg8 : ∀ p, p ≠ 24 → p ≠ 25 →
      u8 ((readdressed target f).store 24 (bytes16 check)) p =
        u8 (readdressed target f) p :=
    fun p h0 h1 => u8_store_bytes16_of_ne check h0 h1
  refine ⟨?_, fun i hi => ?_, ?_, fun p h12 h24 h25 h30 => ?_⟩
  · rw [store_length, readdressed_length]
  · exact (hg8 i (by omega) (by omega)).trans (u8_readdressed_macs target hlen hi)
  · rw [← u32_readdressed_dst target hlen]
    exact u32_congr fun i hi => hg8 (30 + i) (by omega) (by omega)
  · exact (hg8 p h24 h25).trans (u8_readdressed_of_kept target f h12 h24 h25 h30)

section

variable (hg : AddressedTo target f g)

include hg

theorem AddressedTo.ipProtocol_eq : ipProtocol g = ipProtocol f :=
  hg.kept 23 (by omega) (by omega) (by omega) (by omega)

theorem AddressedTo.isTransport_iff : IsTransport g ↔ IsTransport f := by
  rw [IsTransport, hg.ipProtocol_eq, IsTransport]

theorem AddressedTo.u16_eq {q : Nat} (hq : 34 ≤ q) : g.u16 q = f.u16 q :=
  u16_congr (hg.kept q (by omega) (by omega) (by omega) (by omega))
    (hg.kept (q + 1) (by omega) (by omega) (by omega) (by omega))

theorem AddressedTo.redirected_of_portKept (hlen : 34 ≤ f.length)
    (hihl : 20 ≤ ipHdrLen f) (hnone : target.dstPort = 0 ∨ ¬ IsTransport f) :
    Redirected target f g := by
  have hno : target.dstPort ≠ 0 → IsTransport f → False := fun hne htr =>
    hnone.elim hne fun hn => hn htr
  exact ⟨hlen, hihl, hg.length, hg.macs, hg.dst, fun p h12 h24 h25 h30 _ => hg.kept p h12 h24 h25 h30,
    fun hne htr => (hno hne htr).elim, fun hne htr => (hno hne htr).elim,
    fun hne htr => (hno hne htr).elim⟩

theorem AddressedTo.redirected_of_portRewritten (hlen : 34 ≤ f.length) (hihl : 20 ≤ ipHdrLen f)
    (hne : target.dstPort ≠ 0) (htr : IsTransport f)
    (hrew : PortRewritten target (f.u32 30) (transportAt f) (transportHdrSize f)
      (checkOffset f) g f') : Redirected target f f' := by
  have hat34 : 34 ≤ transportAt f := by
    rw [transportAt, ethHdrSize]
    omega
  have hlow : ∀ p, p < 34 → f'.u8 p = g.u8 p := fun p hp =>
    hrew.kept p (by omega) (by omega) (by omega) (by omega)
  refine ⟨hlen, hihl, hrew.length.trans hg.length, fun i hi => ?_, ?_, ?_,
    fun _ _ => hg.length ▸ hrew.fits, fun _ _ => hrew.port, fun _ _ => ?_⟩
  · rw [hlow i (by omega), hg.macs i hi]
  · rw [← hg.dst]
    exact u32_congr fun i hi => hlow (30 + i) (by omega)
  · intro p h12 h24 h25 h30 htch
    have hp : p ≠ transportAt f + 2 ∧ p ≠ transportAt f + 3 ∧ p ≠ checkAt f ∧
        p ≠ checkAt f + 1 := by
      rcases htch with hp | hz | hn
      · exact hp
      · exact absurd hz hne
      · exact absurd htr hn
    obtain ⟨h2, h3, hc, hc1⟩ := hp
    exact (hrew.kept p h2 h3 hc hc1).trans (hg.kept p h12 h24 h25 h30)
  · have hck := hrew.check
    rw [hg.u16_eq (by omega), hg.u16_eq (by omega)] at hck
    exact hck

end

end AddressedTo

theorem tryRedirect_redirected {targets : UInt32 → Option HoneypotTarget} {active : Option UInt32}
    {action : XdpAction} (ht : targets (active.getD 0) = some target)
    (h : tryRedirect targets active f = some (action, f')) : Redirected target f f' := by
  obtain ⟨hlen, hihl, check, -, hport⟩ := tryRedirect_spec ht h
  have hg := addressedTo_readdressed target hlen check
  rcases rewritePort_spec hport with ⟨hnone, rfl⟩ | ⟨hne, htr, hrew⟩
  · exact hg.redirected_of_portKept hlen hihl (hnone.imp_right (mt hg.isTransport_iff.mpr))
  · have hsize : transportHdrSize ((readdressed target f).store 24 (bytes16 check)) =
        transportHdrSize f := by rw [transportHdrSize, hg.ipProtocol_eq, transportHdrSize]
    have hoff : checkOffset ((readdressed target f).store 24 (bytes16 check)) = checkOffset f := by
      rw [checkOffset, hg.ipProtocol_eq, checkOffset]
    rw [hsize, hoff] at hrew
    exact hg.redirected_of_portRewritten hlen hihl hne (hg.isTransport_iff.mp htr) hrew

section Redirected

variable {f f' : Frame} {target : HoneypotTarget}

theorem Redirected.low (hr : Redirected target f f') {p : Nat} (h12 : 12 ≤ p) (h24 : p ≠ 24)
    (h25 : p ≠ 25) (h30 : p < 30) : f'.u8 p = f.u8 p := by
  have hihl := hr.ihl
  apply hr.kept p h12 h24 h25 (.inl h30)
  left
  rw [checkAt, transportAt, ethHdrSize]
  omega

theorem Redirected.transportAt_eq (hr : Redirected target f f') : transportAt f' = transportAt f := by
  have hbyte := hr.low (p := 14) (by omega) (by omega) (by omega) (by omega)
  rw [transportAt, ipHdrLen_congr hbyte, transportAt]

end Redirected

section Succeeds

variable {targets : UInt32 → Option HoneypotTarget} {active : Option UInt32}
  {target : HoneypotTarget} {f : Frame}

theorem sumIpWords_isSome {off words : Nat} (hfits : off + words * 2 ≤ f.length) (n i : Nat)
    (sum : UInt32) : (sumIpWords f off words n i sum).isSome = true := by
  induction n generalizing i sum with
  | zero => rfl
  | succ n ih =>
    rw [sumIpWords]
    by_cases hi : words ≤ i
    · rw [if_pos hi]
      rfl
    · have hptr : ptrAt f (off + i * 2) 2 = some (off + i * 2) := ptrAt_eq_some.mpr ⟨by omega, rfl⟩
      rw [if_neg hi, hptr]
      exact ih _ _

theorem computeIpChecksum_isSome {off ihl : Nat} (hfits : off + ihl ≤ f.length) :
    (computeIpChecksum f off ihl).isSome = true := by
  have hwd : off + ihl / 2 * 2 ≤ f.length := by omega
  obtain ⟨sum, hsum⟩ := Option.isSome_iff_exists.mp (sumIpWords_isSome hwd 30 0 0)
  rw [computeIpChecksum, hsum]
  rfl

theorem rewriteDestPort_isSome {oldDst : UInt32} {l4 size check : Nat}
    (hfits : l4 + size ≤ f.length) :
    (rewriteDestPort target oldDst l4 size check f).isSome = true := by
  rw [rewriteDestPort, ptrAt_eq_some.mpr ⟨hfits, rfl⟩]
  rfl

theorem rewritePort_isSome {oldDst : UInt32} {ihl : Nat}
    (hfits : IsTransport f → ethHdrSize + ihl + transportHdrSize f ≤ f.length) :
    (rewritePort target oldDst ethHdrSize ihl f).isSome = true := by
  have hpr : f.u8 (ethHdrSize + 9) = ipProtocol f := rfl
  rw [rewritePort, hpr]
  rw [transportHdrSize] at hfits
  by_cases hport : target.dstPort = 0
  · rw [if_pos hport]
    rfl
  rw [if_neg hport]
  by_cases htcp : ipProtocol f = Proto.tcp
  · rw [if_pos htcp] at hfits ⊢
    exact rewriteDestPort_isSome (hfits (.inl htcp))
  rw [if_neg htcp] at hfits ⊢
  by_cases hudp : ipProtocol f = Proto.udp
  · rw [if_pos hudp]
    exact rewriteDestPort_isSome (hfits (.inr hudp))
  · rw [if_neg hudp]
    rfl

theorem tryRedirect_isSome (ht : targets (active.getD 0) = some target) (hact : target.active ≠ 0)
    (hdst : target.dstIp ≠ 0) (htype : etherType f = EtherType.ipv4) (hlen : 34 ≤ f.length)
    (hihl : 20 ≤ ipHdrLen f) (hhdr : transportAt f ≤ f.length)
    (hfits : IsTransport f → transportAt f + transportHdrSize f ≤ f.length) :
    (tryRedirect targets active f).isSome = true := by
  have heth : ptrAt f 0 ethHdrSize = some 0 :=
    ptrAt_eq_some.mpr ⟨by simp only [ethHdrSize]; omega, rfl⟩
  have hip : ptrAt f ethHdrSize ipv4HdrSize = some ethHdrSize := ptrAt_eq_some.mpr ⟨hlen, rfl⟩
  have hck : (computeIpChecksum (readdressed target f) ethHdrSize (ipHdrLen f)).isSome = true :=
    computeIpChecksum_isSome (by rw [readdressed_length]; exact hhdr)
  obtain ⟨check, hck⟩ := Option.isSome_iff_exists.mp hck
  have hg := addressedTo_readdressed target hlen check
  have hport : (rewritePort target (f.u32 30) ethHdrSize (ipHdrLen f)
      ((readdressed target f).store 24 (bytes16 check))).isSome = true := by
    apply rewritePort_isSome
    rw [hg.isTransport_iff, transportHdrSize, hg.ipProtocol_eq, hg.length]
    exact hfits
  obtain ⟨f', hport⟩ := Option.isSome_iff_exists.mp hport
  rw [← u32_store_macs target f] at hport
  have hsm : ¬ (f.u8 ethHdrSize &&& 0x0F).toNat * 4 < 20 := Nat.not_lt.mpr hihl
  have hrun : tryRedirect targets active f = some (.tx, f') := by
    simp only [tryRedirect, ht, Option.bind_eq_bind, Option.bind_some, heth, hip]
    rw [if_neg (not_or.mpr ⟨hact, hdst⟩), if_neg (not_not.mpr htype), if_neg hsm]
    exact Option.bind_eq_some_iff.mpr ⟨check, hck, Option.bind_eq_some_iff.mpr ⟨f', hport, rfl⟩⟩
  rw [hrun]
  rfl

end Succeeds

def checkedSyn : Frame :=
  List.replicate 12 0 ++ [0x08, 0x00] ++
    [0x45, 0, 0, 40, 0, 0, 0, 0, 64, 6, 0, 0] ++ [1, 1, 1, 1] ++ [10, 0, 0, 1] ++
    [0x30, 0x39, 0, 80, 0, 0, 0, 0, 0, 0, 0, 0, 0x50, 0x02, 0, 0, 0x73, 0x57, 0, 0]

/-- The offset of a fragment within its datagram, in units of eight bytes. -/
def fragmentOffset (f : Frame) : Nat := beWord f 20 % 8192

/-- The bytes that a redirect is to change: the MAC addresses, the header checksum, the
destination and, behind the header of a first fragment, the destination port and checksum. -/
def IsAddressing (f : Frame) (p : Nat) : Prop :=
  p < 12 ∨ p = 24 ∨ p = 25 ∨ (30 ≤ p ∧ p < 34) ∨
    (fragmentOffset f = 0 ∧ IsTransport f) ∧
      (p = transportAt f + 2 ∨ p = transportAt f + 3 ∨ p = checkAt f ∨ p = checkAt f + 1)

def laterFragment : Frame := checkedSyn.set 21 1

end Falx
