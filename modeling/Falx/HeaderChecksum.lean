import Falx.Honeypot
import Falx.KeyAgreement
import Falx.OnesComplement
import Mathlib.Algebra.Order.BigOperators.Group.List
import Mathlib.Algebra.Order.Group.Nat

/-! The checksum of a redirected header. The header is summed in big-endian words
but the complement is stored in native order, so its two bytes end up exchanged.
The header verifies only where the exchange makes no difference. -/

namespace Falx

open Frame Words OnesComplement

def beWord (f : Frame) (p : Nat) : Nat := (f.u8 p).toNat * 256 + (f.u8 (p + 1)).toNat

def headerWords (f : Frame) : List Nat :=
  (List.range (ipHdrLen f / 2)).map fun i => beWord f (ethHdrSize + i * 2)

def evenByteSum (f : Frame) : Nat :=
  ((List.range (ipHdrLen f / 2)).map fun i => (f.u8 (ethHdrSize + i * 2)).toNat).sum

def oddByteSum (f : Frame) : Nat :=
  ((List.range (ipHdrLen f / 2)).map fun i => (f.u8 (ethHdrSize + i * 2 + 1)).toNat).sum

theorem beWord_le (f : Frame) (p : Nat) : beWord f p ≤ 65535 := by
  have h0 := (f.u8 p).toNat_lt
  have h1 := (f.u8 (p + 1)).toNat_lt
  simp only [beWord]
  omega

theorem toNat_swap16_u16 (f : Frame) (p : Nat) : (swap16 (f.u16 p)).toNat = beWord f p := by
  rw [u16, swap16_le16, toNat_le16, beWord]
  omega

theorem headerWords_sum (f : Frame) : (headerWords f).sum = 256 * evenByteSum f + oddByteSum f := by
  simp only [headerWords, evenByteSum, oddByteSum]
  induction List.range (ipHdrLen f / 2) with
  | nil => rfl
  | cons i is ih =>
    simp only [List.map_cons, List.sum_cons, beWord] at ih ⊢
    omega

theorem headerWords_congr {f g : Frame} (hlen : ipHdrLen g = ipHdrLen f)
    (h : ∀ p, ethHdrSize ≤ p → p < ethHdrSize + ipHdrLen f → g.u8 p = f.u8 p) :
    headerWords g = headerWords f := by
  rw [headerWords, headerWords, hlen]
  apply List.map_congr_left
  intro i hi
  have hi' := List.mem_range.mp hi
  rw [beWord, beWord, h _ (by omega) (by omega), h _ (by omega) (by omega)]

section Sum

variable {f : Frame} {off : Nat}

theorem sumIpWords_spec {n k i : Nat} {sum total : UInt32}
    (h : sumIpWords f off (i + k) n i sum = some total) (hk : k ≤ n)
    (hbound : sum.toNat + k * 65535 < 2 ^ 32) :
    total.toNat = sum.toNat + ((List.range' i k).map fun j => beWord f (off + j * 2)).sum := by
  induction n generalizing i k sum with
  | zero =>
    obtain rfl : k = 0 := by omega
    cases h
    rfl
  | succ n ih =>
    rw [sumIpWords] at h
    cases k with
    | zero =>
      rw [if_pos (by omega)] at h
      cases h
      rfl
    | succ k =>
      rw [if_neg (by omega)] at h
      cases hp : ptrAt f (off + i * 2) 2 with
      | none => simp [hp] at h
      | some p =>
        obtain rfl := (ptrAt_eq_some.mp hp).2
        have hword := toNat_swap16_u16 f (off + i * 2)
        have hle := beWord_le f (off + i * 2)
        have hadd : (sum + (swap16 (f.u16 (off + i * 2))).toUInt32).toNat =
            sum.toNat + beWord f (off + i * 2) := by
          rw [UInt32.toNat_add, UInt16.toNat_toUInt32, hword]
          exact Nat.mod_eq_of_lt (by omega)
        simp only [hp] at h
        rw [show i + (k + 1) = i + 1 + k by omega] at h
        have hrest := ih h (by omega) (by rw [hadd]; omega)
        rw [hrest, hadd, List.range'_succ, List.map_cons, List.sum_cons]
        omega

theorem toNat_and_ffff (w : UInt32) : (w &&& (0xFFFF : UInt32)).toNat = w.toNat % 65536 := by
  exact Nat.and_two_pow_sub_one_eq_mod w.toNat 16

theorem toNat_shiftRight_16 (w : UInt32) : (w >>> (16 : UInt32)).toNat = w.toNat / 65536 := by
  exact Nat.shiftRight_eq_div_pow _ _

theorem toNat_foldCarry {sum : UInt32} : (foldCarry sum).toNat = fold sum.toNat := by
  have hsum := sum.toNat_lt
  rw [foldCarry, UInt32.toNat_add, toNat_and_ffff, toNat_shiftRight_16, fold]
  exact Nat.mod_eq_of_lt (by omega)

theorem toNat_computeIpChecksum {ihl : Nat} {check : UInt16}
    (h : computeIpChecksum f off ihl = some check) (hihl : ihl ≤ 60) :
    check.toNat = 65535 - fold (fold
      ((List.range (ihl / 2)).map fun j => beWord f (off + j * 2)).sum) := by
  obtain ⟨total, hto, hck⟩ := Option.bind_eq_some_iff.mp h
  have hspec := sumIpWords_spec (i := 0) (by simpa using hto) (by omega)
    (by simp only [UInt32.toNat_zero]; omega)
  rw [UInt32.toNat_zero, Nat.zero_add, ← List.range_eq_range'] at hspec
  have hle := fold_fold_le total.toNat_lt
  rw [← Option.some.inj hck, UInt16.toNat_not, UInt32.toNat_toUInt16, toNat_foldCarry,
    toNat_foldCarry, Nat.mod_eq_of_lt (by omega), hspec]
  rfl

end Sum

section Store

variable {f f' : Frame}

theorem sum_map_range_single {n a : Nat} (ha : a < n) {g h : Nat → Nat}
    (hne : ∀ j, j ≠ a → g j = h j) :
    ((List.range n).map g).sum + h a = ((List.range n).map h).sum + g a := by
  induction n with
  | zero => omega
  | succ n ih =>
    simp only [List.range_succ, List.map_append, List.sum_append, List.map_cons, List.map_nil,
      List.sum_cons, List.sum_nil, Nat.add_zero]
    by_cases han : a = n
    · subst han
      have hrest : (List.range a).map g = (List.range a).map h := by
        apply List.map_congr_left
        intro j hj
        exact hne j (Nat.ne_of_lt (List.mem_range.mp hj))
      rw [hrest]
      omega
    · have hrest := ih (by omega)
      have hlast := hne n (Ne.symm han)
      omega

theorem ipHdrLen_congr (h : f'.u8 ethHdrSize = f.u8 ethHdrSize) : ipHdrLen f' = ipHdrLen f := by
  rw [ipHdrLen, h, ipHdrLen]

theorem ipHdrLen_le (f : Frame) : ipHdrLen f ≤ 60 := by
  have hmask : (f.u8 ethHdrSize &&& 0x0F).toNat ≤ 15 := by exact Nat.and_le_right
  rw [ipHdrLen]
  omega

variable {p : Nat} {target : HoneypotTarget} {oldDst : UInt32}

theorem Frame.u16_store_bytes16 (w : UInt16) (hlen : p + 1 < f.length) :
    u16 (f.store p (bytes16 w)) p = w := by
  have hw := w.toNat_lt
  have hlow := u8_store_of_mem (f := f) (p := p) (i := 0) (bytes16 w) (by simp [bytes16])
    (by omega)
  have hhigh := u8_store_of_mem (f := f) (p := p) (i := 1) (bytes16 w) (by simp [bytes16])
    (by omega)
  simp only [Nat.add_zero, bytes16, List.getD_cons_zero, List.getD_cons_succ] at hlow hhigh
  rw [u16, bytes16, hlow, hhigh, ← UInt16.toNat_inj, toNat_le16, UInt8.toNat_ofNat',
    UInt8.toNat_ofNat']
  omega

theorem beWord_store_bytes16 (check : UInt16) (hlen : p + 1 < f.length) :
    beWord (f.store p (bytes16 check)) p = swap check.toNat := by
  rw [← toNat_swap16_u16, u16_store_bytes16 check hlen, toNat_swap16, swap]

theorem headerWords_store_sum (check : UInt16) (hlen : 34 ≤ f.length) (hihl : 20 ≤ ipHdrLen f)
    (hclear : beWord f 24 = 0) :
    (headerWords (f.store 24 (bytes16 check))).sum = (headerWords f).sum + swap check.toNat := by
  have hsize : (bytes16 check).length = 2 := rfl
  have hhdr : ipHdrLen (f.store 24 (bytes16 check)) = ipHdrLen f :=
    ipHdrLen_congr (u8_store_of_lt _ (by decide))
  have hword := beWord_store_bytes16 (f := f) (p := 24) check (by omega)
  have ho : ∀ j, j ≠ 5 → beWord (f.store 24 (bytes16 check)) (ethHdrSize + j * 2) =
      beWord f (ethHdrSize + j * 2) := by
    intro j hj
    have hbyte : ∀ p, p < 24 ∨ 26 ≤ p →
        u8 (f.store 24 (bytes16 check)) p = f.u8 p := by
      rintro p (hp | hp)
      · exact u8_store_of_lt _ hp
      · exact u8_store_of_ge _ (by omega)
    simp only [ethHdrSize, beWord]
    rw [hbyte _ (by omega), hbyte _ (by omega)]
  have hsum := sum_map_range_single (n := ipHdrLen f / 2) (a := 5) (by omega) ho
  simp only [ethHdrSize, Nat.reduceMul, Nat.reduceAdd, hword, hclear, Nat.add_zero] at hsum
  rw [headerWords, hhdr, headerWords]
  exact hsum

theorem rewriteDestPort_u8 {l4 size check : Nat}
    (h : rewriteDestPort target oldDst l4 size check f = some f') (hp : p < l4) :
    f'.u8 p = f.u8 p := by
  simp only [rewriteDestPort, Option.bind_eq_bind, Option.bind_eq_some_iff, ptrAt_eq_some] at h
  obtain ⟨l4', ⟨-, rfl⟩, h⟩ := h
  cases h
  rw [u8_store_of_lt _ (by omega), u8_store_of_lt _ (by omega)]

theorem rewritePort_u8 {ip ihl : Nat} (h : rewritePort target oldDst ip ihl f = some f')
    (hp : p < ip + ihl) : f'.u8 p = f.u8 p := by
  simp only [rewritePort] at h
  split at h
  · cases h
    rfl
  · split at h
    · exact rewriteDestPort_u8 h hp
    · split at h
      · exact rewriteDestPort_u8 h hp
      · cases h
        rfl

end Store

section Redirect

variable {targets : UInt32 → Option HoneypotTarget} {active : Option UInt32}
  {target : HoneypotTarget} {f f' : Frame} {action : XdpAction}

def readdressed (target : HoneypotTarget) (f : Frame) : Frame :=
  rewriteDst target ethHdrSize ((f.store 0 target.dstMac.bytes).store 6 target.srcMac.bytes)

theorem u8_store_macs (target : HoneypotTarget) (f : Frame) {p : Nat} (hp : 12 ≤ p) :
    u8 ((f.store 0 target.dstMac.bytes).store 6 target.srcMac.bytes) p = f.u8 p := by
  have hdst := target.dstMac.length_eq
  have hsrc := target.srcMac.length_eq
  rw [u8_store_of_ge _ (by omega), u8_store_of_ge _ (by omega)]

theorem u32_store_macs (target : HoneypotTarget) (f : Frame) :
    u32 ((f.store 0 target.dstMac.bytes).store 6 target.srcMac.bytes) (ethHdrSize + 16) =
      f.u32 30 := by
  simp only [u32, ethHdrSize, Nat.reduceAdd]
  rw [u8_store_macs _ _ (by omega), u8_store_macs _ _ (by omega), u8_store_macs _ _ (by omega),
    u8_store_macs _ _ (by omega)]

theorem tryRedirect_spec (ht : targets (active.getD 0) = some target)
    (h : tryRedirect targets active f = some (action, f')) :
    34 ≤ f.length ∧ 20 ≤ ipHdrLen f ∧ ∃ check,
      computeIpChecksum (readdressed target f) ethHdrSize (ipHdrLen f) = some check ∧
      rewritePort target (f.u32 30) ethHdrSize (ipHdrLen f)
        ((readdressed target f).store 24 (bytes16 check)) = some f' := by
  simp only [tryRedirect, ht, Option.bind_eq_bind, Option.bind_some] at h
  split at h
  · cases h
  obtain ⟨eth, -, h⟩ := Option.bind_eq_some_iff.mp h
  split at h
  · cases h
  obtain ⟨ip, hip, h⟩ := Option.bind_eq_some_iff.mp h
  obtain ⟨hlen, rfl⟩ := ptrAt_eq_some.mp hip
  split at h
  · cases h
  rename_i hihl
  obtain ⟨check, hck, h⟩ := Option.bind_eq_some_iff.mp h
  obtain ⟨g, hport, h⟩ := Option.bind_eq_some_iff.mp h
  cases h
  rw [u32_store_macs] at hport
  exact ⟨hlen, Nat.le_of_not_lt hihl, check, hck, hport⟩

theorem readdressed_length (target : HoneypotTarget) (f : Frame) :
    (readdressed target f).length = f.length := by
  simp only [readdressed, rewriteDst, store_length]

theorem ipHdrLen_readdressed (target : HoneypotTarget) (f : Frame) :
    ipHdrLen (readdressed target f) = ipHdrLen f := by
  apply ipHdrLen_congr
  rw [readdressed, rewriteDst, u8_store_of_lt _ (by decide),
    u8_store_of_lt _ (by decide), u8_store_macs _ _ (by decide)]

theorem beWord_readdressed_check (target : HoneypotTarget) {f : Frame} (hlen : 34 ≤ f.length) :
    beWord (readdressed target f) 24 = 0 := by
  exact beWord_store_bytes16 0 (by simp only [store_length, ethHdrSize]; omega)

theorem headerWords_le (f : Frame) : ∀ w ∈ headerWords f, w ≤ 65535 := by
  intro w hw
  obtain ⟨i, -, rfl⟩ := List.mem_map.mp hw
  exact beWord_le f _

theorem headerWords_sum_lt (f : Frame) : (headerWords f).sum < 2 ^ 32 := by
  have hle := List.sum_le_card_nsmul (headerWords f) 65535 (headerWords_le f)
  have hlen : (headerWords f).length ≤ 30 := by
    have := ipHdrLen_le f
    rw [headerWords, List.length_map, List.length_range]
    omega
  rw [Nat.nsmul_eq_mul] at hle
  omega

theorem headerWords_sum_ne_zero (hihl : 20 ≤ ipHdrLen f) : (headerWords f).sum ≠ 0 := by
  intro h0
  have hmem : beWord f ethHdrSize ∈ headerWords f :=
    List.mem_map.mpr ⟨0, List.mem_range.mpr (by omega), rfl⟩
  have hword := List.sum_eq_zero_iff_forall_eq_nat.mp h0 _ hmem
  have hbyte : f.u8 ethHdrSize = 0 := by
    rw [← UInt8.toNat_inj]
    rw [beWord] at hword
    exact (by omega : (f.u8 ethHdrSize).toNat = 0)
  rw [ipHdrLen, hbyte] at hihl
  exact absurd hihl (by decide)

/-- The redirected header verifies exactly when its bytes at even and at odd
offsets, before the checksum is stored, have the same sum modulo 257. -/
theorem redirect_header_valid_iff (ht : targets (active.getD 0) = some target)
    (h : tryRedirect targets active f = some (.tx, f')) :
    OnesComplement.sum (headerWords f') = 0xFFFF ↔
      evenByteSum (readdressed target f) % 257 = oddByteSum (readdressed target f) % 257 := by
  obtain ⟨hlen, hihl, check, hck, hport⟩ := tryRedirect_spec ht h
  have hhdr := ipHdrLen_readdressed target f
  have hby := fun p (hp : p < ethHdrSize + ipHdrLen f) => rewritePort_u8 hport hp
  have hhdr₁ : ipHdrLen ((readdressed target f).store 24 (bytes16 check)) = ipHdrLen f :=
    (ipHdrLen_congr (Frame.u8_store_of_lt _ (by decide))).trans hhdr
  have hwd : headerWords f' = headerWords ((readdressed target f).store 24 (bytes16 check)) := by
    apply headerWords_congr
    · exact ipHdrLen_congr (hby _ (by omega))
    · intro p _ hp
      exact hby p (by omega)
  have hsum := headerWords_store_sum check (by rw [readdressed_length]; exact hlen)
    (by rw [hhdr]; exact hihl) (beWord_readdressed_check target hlen)
  have hv := toNat_computeIpChecksum hck (ipHdrLen_le f)
  rw [← hhdr, ← headerWords] at hv
  have hne := headerWords_sum_ne_zero (f := readdressed target f) (by rw [hhdr]; exact hihl)
  have hparts := headerWords_sum (readdressed target f)
  rw [hv, ← hwd] at hsum
  rw [sum_eq_ffff_iff (headerWords_le f'), hsum,
    swapped_complement_iff (headerWords_sum_lt _) hne, hparts]
  omega

def decoy : HoneypotTarget where
  dstIp := le32 10 0 0 9
  dstMac := ⟨[2, 0, 0, 0, 0, 9], rfl⟩
  srcMac := ⟨[2, 0, 0, 0, 0, 1], rfl⟩
  dstPort := 8080
  active := 1

def decoyTargets (i : UInt32) : Option HoneypotTarget := if i = 0 then some decoy else none

theorem redirect_header_valid_balanced :
    OnesComplement.sum (headerWords
      (redirectToHoneypot decoyTargets none (icmpFrame 1 100 1 15)).2) = 0xFFFF := by
  have h : tryRedirect decoyTargets none (icmpFrame 1 100 1 15) =
      some (.tx, (redirectToHoneypot decoyTargets none (icmpFrame 1 100 1 15)).2) := by
    decide +kernel
  have hbalanced : evenByteSum (readdressed decoy (icmpFrame 1 100 1 15)) % 257 =
      oddByteSum (readdressed decoy (icmpFrame 1 100 1 15)) % 257 := by decide +kernel
  have ht : decoyTargets ((none : Option UInt32).getD 0) = some decoy := rfl
  exact (redirect_header_valid_iff ht h).mpr hbalanced

theorem redirect_header_invalid :
    tryRedirect decoyTargets none (icmpFrame 1 1 1 1) =
        some (.tx, (redirectToHoneypot decoyTargets none (icmpFrame 1 1 1 1)).2) ∧
      OnesComplement.sum (headerWords
        (redirectToHoneypot decoyTargets none (icmpFrame 1 1 1 1)).2) ≠ 0xFFFF := by
  constructor
  · decide +kernel
  · decide +kernel

end Redirect

end Falx
