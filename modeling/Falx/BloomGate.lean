import Falx.Enforcement
import Falx.KeyAgreement

/-! The Bloom filter in front of the IPv4 blocklist. A cooling ban enters its key
in both maps; the control plane writes only the blocklist. The filter therefore
stays complete along a run exactly as long as the control plane blocks keys that
an earlier ban has already put into the filter. -/

namespace Falx

structure BloomGate (st : Kernel) : Prop where
  complete : ∀ key entry, st.blocklistV4 key = some entry → st.bloomFilter.contains key = true
  drops : ∀ clk frame pkt entry, parsePacket frame = some pkt →
    etherType frame = EtherType.ipv4 → st.blocklistV4 pkt.srcIp = some entry →
    entry.action = Action.drop → entry.expired (clk.blocklist / nsPerSec) = false →
    (processPacket clk frame st).1.1 = .drop

def keyGated (st : Kernel) (ip : NetIP) : Bool :=
  match ipv4ToUint32 ip with
  | some key => st.bloomFilter.contains key && key != 0
  | none => true

def Command.gated (st : Kernel) : Command → Bool
  | block _ ip _ => keyGated st ip
  | blockBatch _ ds => ds.all fun p => keyGated st p.2.ip
  | _ => true

/-- Every block of the run is for a key that the filter contains by then, and
not for 0.0.0.0. -/
def gatedRun : Kernel → List Command → Bool
  | _, [] => true
  | st, c :: cs => c.gated st && gatedRun (c.run st) cs

def Gated (st : Kernel) : Prop :=
  ∀ key, st.blocklistV4 key ≠ none → st.bloomFilter.contains key = true ∧ key ≠ 0

variable {st : Kernel}

theorem keyGated_iff {ip : NetIP} {key : UInt32} (hk : ipv4ToUint32 ip = some key) :
    keyGated st ip = true ↔ st.bloomFilter.contains key = true ∧ key ≠ 0 := by
  simp [keyGated, hk]

theorem Gated.packet (h : Gated st) (clk : Clock) (frame : Frame) :
    Gated (processPacket clk frame st).2 := by
  rcases processPacket_effect clk frame st with hq | ⟨pkt, b, -, -, h0, he⟩
  · intro key hkey
    rw [(hq key).blocklistV4] at hkey
    rw [(hq key).bloomFilter]
    exact h key hkey
  · intro key hkey
    by_cases hk : key = pkt.srcIp
    · subst hk
      cases he with
      | quiet hq =>
        rw [hq.blocklistV4] at hkey
        rw [hq.bloomFilter]
        exact h _ hkey
      | ban now minR before after =>
        rw [after.bloomFilter]
        exact ⟨BloomFilter.contains_insert_self _ _, h0⟩
    · rw [he.blocklistV4_of_ne hk] at hkey
      exact ⟨he.bloom_mono (h key hkey).1, (h key hkey).2⟩

theorem Gated.run (h : Gated st) {c : Command} (hc : c.gated st = true) : Gated (c.run st) := by
  by_cases hp : ∃ clk frame, c = .packet clk frame
  · obtain ⟨clk, frame, rfl⟩ := hp
    exact h.packet clk frame
  · intro key hkey
    have hne : ∀ clk frame, c ≠ .packet clk frame := fun clk frame he => hp ⟨clk, frame, he⟩
    obtain ⟨hbl, hcase⟩ := c.run_blocklistV4 st key hne
    rw [hbl]
    rcases hcase with hsame | hnone | ⟨env, ip, entry, rfl, hk, -⟩ |
      ⟨allowed, ds, p, rfl, hp, hk, -⟩
    · exact h key (by rwa [hsame] at hkey)
    · exact absurd hnone hkey
    · exact (keyGated_iff hk).mp hc
    · exact (keyGated_iff hk).mp (List.all_eq_true.mp hc p hp)

theorem Gated.runAll (h : Gated st) {cs : List Command} (hcs : gatedRun st cs = true) :
    Gated (runAll cs st) := by
  induction cs generalizing st with
  | nil => exact h
  | cons c cs ih =>
    simp only [gatedRun, Bool.and_eq_true] at hcs
    exact ih (h.run hcs.1) hcs.2

theorem Gated.bloomGate (h : Gated st) : BloomGate st := by
  constructor
  · intro key entry he
    exact (h key (by simp [he])).1
  · intro clk frame pkt entry hp hipv4 he ha hx
    have hg := h pkt.srcIp (by simp [he])
    rcases parsePacket_cases hp with ⟨-, h4, -⟩ | ⟨h6, -⟩ | ⟨h4, -, -⟩
    · exact (processPacket_drop_of_entry hp h4 hg.2 hg.1 he ha hx).1
    · rw [h6] at hipv4
      simp [EtherType.ipv4, EtherType.ipv6] at hipv4
    · exact absurd hipv4 h4

/-- From an empty blocklist, every state of a gated run has a complete filter. -/
theorem bloomGate_of_gatedRun {st : Kernel} (h0 : ∀ key, st.blocklistV4 key = none)
    {cs : List Command} (hcs : gatedRun st cs = true) : BloomGate (runAll cs st) := by
  have h : Gated st := fun key hkey => absurd (h0 key) hkey
  exact (h.runAll hcs).bloomGate

def zeroCapacity : FalxMapConfig := limits 0 1000000

def permanentDrop : BlockEntry := ⟨0, Action.drop, 0, 100, 0, Reason.blocklist⟩

def okEnv : CallEnv := ⟨true, 1700000000, none⟩

def banThenBlock : List Command :=
  [.packet (.instant 1) (icmpFrame 1 1 1 1), .packet (.instant 2) (icmpFrame 1 1 1 1),
    .block okEnv [1, 1, 1, 1] permanentDrop]

theorem bloomGate_banThenBlock :
    gatedRun (Kernel.boot (fun k => [k.toNat]) zeroCapacity) banThenBlock = true ∧
      BloomGate (runAll banThenBlock (Kernel.boot (fun k => [k.toNat]) zeroCapacity)) :=
  ⟨by decide +kernel, bloomGate_of_gatedRun (fun _ => rfl) (by decide +kernel)⟩

/-- A block by the control plane alone leaves the filter empty. -/
theorem bloomGate_fails_after_block :
    ¬ BloomGate (runAll [.block okEnv [1, 1, 1, 1] permanentDrop]
      (Kernel.boot (fun k => [k.toNat]) zeroCapacity)) := by
  intro h
  have hc := h.complete 0x01010101 permanentDrop (by decide +kernel)
  revert hc
  decide +kernel

end Falx
