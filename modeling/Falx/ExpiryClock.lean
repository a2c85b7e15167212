import Falx.System

/-! The two clocks that read `expire_at`. The pipeline counts seconds since boot,
the control plane counts seconds since 1970, and the entries carry whichever
count their writer used. `off` is the Unix time at boot, in nanoseconds. -/

namespace Falx

open Words

def kernelSec (t : UInt64) : UInt64 := t / nsPerSec

def unixSec (off t : UInt64) : UInt64 := UInt64.ofNat ((t.toNat + off.toNat) / 1000000000)

def BlockEntry.RelativeTtl (entry : BlockEntry) : Prop :=
  0 < entry.expireAt ∧ entry.expireAt < 1000000000

/-- Every reading of the Unix clock belongs to an instant, and every block has a
relative TTL. -/
def Command.Timed (off : UInt64) : Command → Prop
  | block env _ entry => (∃ t, env.now = unixSec off t) ∧ entry.RelativeTtl
  | blockBatch _ ds => ∀ p ∈ ds, (∃ t, p.1.now = unixSec off t) ∧ p.2.entry.RelativeTtl
  | blockV6 env _ entry => (∃ t, env.now = unixSec off t) ∧ entry.RelativeTtl
  | sweep nowSec _ _ => ∃ t, nowSec = unixSec off t
  | _ => True

def Reached (off : UInt64) (st : Kernel) : Prop :=
  ∃ st₀ cs, (∀ k, st₀.blocklistV4 k = none) ∧ (∀ k, st₀.blocklistV6 k = none) ∧
    (∀ c ∈ cs, Command.Timed off c) ∧ st = runAll cs st₀

structure ClockAgreement (off : UInt64) : Prop where
  expiryV4 : ∀ st, Reached off st → ∀ k entry, st.blocklistV4 k = some entry →
    ∀ t, entry.expired (kernelSec t) = entry.expired (unixSec off t)
  expiryV6 : ∀ st, Reached off st → ∀ k entry, st.blocklistV6 k = some entry →
    ∀ t, entry.expired (kernelSec t) = entry.expired (unixSec off t)
  sweepV4 : ∀ st, Reached off st → ∀ k entry, st.blocklistV4 k = some entry →
    ∀ t keys, entry.expired (kernelSec t) = false →
      sweepBlocklistV4 (unixSec off t) keys st.blocklistV4 k = some entry
  sweepV6 : ∀ st, Reached off st → ∀ k entry, st.blocklistV6 k = some entry →
    ∀ t keys, entry.expired (kernelSec t) = false →
      sweepBlocklistV6 (unixSec off t) keys st.blocklistV6 k = some entry
  ttl : ∀ (entry : BlockEntry) t₀ t, entry.RelativeTtl →
    (unixSec off t₀).toNat + entry.expireAt.toNat ≤ (unixSec off t).toNat →
    (absoluteExpiry (unixSec off t₀) entry).expired (kernelSec t) = true

theorem toNat_kernelSec (t : UInt64) : (kernelSec t).toNat = t.toNat / 1000000000 :=
  UInt64.toNat_div _ _

theorem toNat_unixSec (off t : UInt64) :
    (unixSec off t).toNat = (t.toNat + off.toNat) / 1000000000 := by
  have ht := t.toNat_lt
  have ho := off.toNat_lt
  rw [unixSec, UInt64.toNat_ofNat']
  omega

theorem unixSec_zero (t : UInt64) : unixSec 0 t = kernelSec t := by
  rw [← UInt64.toNat_inj, toNat_unixSec, toNat_kernelSec]
  simp

variable {entry : BlockEntry}

theorem toNat_absoluteExpiry (h : entry.RelativeTtl) (off t : UInt64) :
    (absoluteExpiry (unixSec off t) entry).expireAt.toNat =
      (unixSec off t).toNat + entry.expireAt.toNat := by
  have ht := t.toNat_lt
  have ho := off.toNat_lt
  have hu := toNat_unixSec off t
  have he : entry.expireAt.toNat < 1000000000 := UInt64.lt_iff_toNat_lt.mp h.2
  rw [absoluteExpiry, if_pos (show _ ∧ _ from h), UInt64.toNat_add]
  omega

theorem sweepBlocklist_of_unexpired {κ : Type} [DecidableEq κ] {nowSec : UInt64} (keys : List κ)
    {m : κ → Option BlockEntry} {k : κ} (hk : m k = some entry) (hx : entry.expired nowSec = false) :
    sweepBlocklist nowSec keys m k = some entry := by
  rw [sweepBlocklist_apply, if_neg, hk]
  rintro ⟨-, h⟩
  simp [isExpiredIn, hk, hx] at h

theorem clockAgreement_zero : ClockAgreement 0 := by
  refine ⟨?_, ?_, ?_, ?_, ?_⟩
  · intro st _ k entry _ t
    rw [unixSec_zero]
  · intro st _ k entry _ t
    rw [unixSec_zero]
  · intro st _ k entry hk t keys hx
    rw [unixSec_zero]
    exact sweepBlocklist_of_unexpired keys hk hx
  · intro st _ k entry hk t keys hx
    rw [unixSec_zero]
    exact sweepBlocklist_of_unexpired keys hk hx
  · intro entry t₀ t hrel hle
    have he := toNat_absoluteExpiry hrel 0 t₀
    rw [← unixSec_zero, BlockEntry.expired_iff]
    refine ⟨?_, by omega⟩
    intro h0
    have hpos : 0 < entry.expireAt.toNat := UInt64.lt_iff_toNat_lt.mp hrel.1
    rw [h0, UInt64.toNat_zero] at he
    omega

theorem reached_block (off t₀ : UInt64) {ip : NetIP} {key : UInt32}
    (hkey : ipv4ToUint32 ip = some key) (hrel : entry.RelativeTtl) :
    ∃ st, Reached off st ∧
      st.blocklistV4 key = some (absoluteExpiry (unixSec off t₀) entry) := by
  let st₀ := Kernel.boot (fun k => [k.toNat]) ⟨1, 1, 1, 0, 1000, 1000000, 0, 0⟩
  let env : CallEnv := ⟨true, unixSec off t₀, none⟩
  refine ⟨Command.run st₀ (.block env ip entry), ⟨st₀, [.block env ip entry], fun _ => rfl,
    fun _ => rfl, ?_, rfl⟩, ?_⟩
  · intro c hc
    rw [List.mem_singleton.mp hc]
    exact ⟨⟨t₀, rfl⟩, hrel⟩
  · have hrun : (Command.run st₀ (.block env ip entry)).blocklistV4 =
        (blockIPv4 env ip entry st₀.blocklistV4).2 := rfl
    rw [hrun, blockIPv4_of_ok (show env.allowed = true from rfl) hkey rfl]
    exact Function.update_self _ _ _

def shortBlock : BlockEntry := ⟨1, Action.drop, 0, 100, 0, Reason.blocklist⟩

/-- A block of one second, written one nanosecond before the second second since
boot begins, runs out on the Unix clock a second later; the count since boot is
then still below it. -/
theorem not_clockAgreement {off : UInt64} (hoff : off ≠ 0) : ¬ ClockAgreement off := by
  intro h
  have hpos : off.toNat ≠ 0 := fun h0 => hoff (UInt64.toNat_inj.mp h0)
  have hrel : shortBlock.RelativeTtl := ⟨by decide, by decide⟩
  have hkey : ipv4ToUint32 [1, 2, 3, 4] = some (le32 4 3 2 1) := ipv4ToUint32_of_to4 rfl
  obtain ⟨st, hrc, hen⟩ := reached_block off 999999999 hkey hrel
  have hx := h.expiryV4 st hrc _ _ hen 1999999999
  have he := toNat_absoluteExpiry hrel off 999999999
  have hu₀ := toNat_unixSec off 999999999
  have hu := toNat_unixSec off 1999999999
  have hm := toNat_kernelSec 1999999999
  have h1 : shortBlock.expireAt.toNat = 1 := rfl
  simp only [UInt64.reduceToNat] at hu₀ hu hm
  have hne : (absoluteExpiry (unixSec off 999999999) shortBlock).expireAt ≠ 0 := by
    intro h0
    rw [h0, UInt64.toNat_zero] at he
    omega
  have hunix : (absoluteExpiry (unixSec off 999999999) shortBlock).expired
      (unixSec off 1999999999) = true := by
    rw [BlockEntry.expired_iff]
    exact ⟨hne, by omega⟩
  rw [hunix, BlockEntry.expired_iff] at hx
  omega

/-- Kernel and control plane agree on expiry exactly when the machine was booted
at Unix time 0. -/
theorem clockAgreement_iff (off : UInt64) : ClockAgreement off ↔ off = 0 := by
  constructor
  · intro h
    by_contra hoff
    exact not_clockAgreement hoff h
  · rintro rfl
    exact clockAgreement_zero

theorem clockAgreement_fails : ¬ ClockAgreement 1700000000000000000 :=
  not_clockAgreement (by decide)

end Falx
