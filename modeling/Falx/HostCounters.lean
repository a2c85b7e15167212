import Falx.Accounting
import Falx.BloomGate
import Falx.CappedSum
import Falx.FloodDetector
import Falx.FrameMeta
import Falx.System

/-! The counters of a machine with several CPUs. Each CPU has its own statistics, all share
the other maps, and `ReadStats` adds the statistics up. Frames arrive on any CPU, and
between two frames the control plane may change the shared maps as it likes. -/

namespace Falx

open Function Words

structure CpuStats where
  hot : MappedXdpStats
  cold : XdpStats
  deriving DecidableEq

def CpuStats.zero : CpuStats := ⟨⟨0, 0, 0, 0, 0, 0⟩, ⟨0, 0, 0, 0, 0, 0, 0, 0, 0, 0, 0, 0⟩⟩

def CpuStats.count (s : CpuStats) : Counter → UInt64
  | .rxPackets => s.hot.rxPackets
  | .passed => s.hot.passed
  | .dropped => s.hot.dropped
  | .rateLimited => s.cold.rateLimited
  | .redirected => s.cold.redirected
  | .failsafeDrops => s.cold.failsafeDrops

def XdpStats.count (s : XdpStats) : Counter → UInt64
  | .rxPackets => s.rxPackets
  | .passed => s.passed
  | .dropped => s.dropped
  | .rateLimited => s.rateLimited
  | .redirected => s.redirected
  | .failsafeDrops => s.failsafeDrops

structure Host (n : Nat) where
  maps : Kernel
  stats : Fin n → CpuStats

inductive HostEvent (n : Nat) where
  | frame (cpu : Fin n) (clk : Clock) (f : Frame)
  | write (g : Kernel → Kernel)

namespace Host

variable {n : Nat}

def view (h : Host n) (cpu : Fin n) : Kernel :=
  { h.maps with mappedXdpStats := some (h.stats cpu).hot, xdpStats := some (h.stats cpu).cold }

def store (h : Host n) (cpu : Fin n) (st : Kernel) : Host n where
  maps := st
  stats := Function.update h.stats cpu
    ⟨st.mappedXdpStats.getD (h.stats cpu).hot, st.xdpStats.getD (h.stats cpu).cold⟩

def next (h : Host n) : HostEvent n → Host n
  | .frame cpu clk f => h.store cpu (processPacket clk f (h.view cpu)).2
  | .write g => { h with maps := g h.maps }

def verdicts (h : Host n) : HostEvent n → List (Frame × XdpAction)
  | .frame cpu clk f => [(f, (processPacket clk f (h.view cpu)).1.1)]
  | .write _ => []

def run (h : Host n) (evs : List (HostEvent n)) : Host n := evs.foldl next h

def trace (h : Host n) : List (HostEvent n) → List (Frame × XdpAction)
  | [] => []
  | ev :: evs => h.verdicts ev ++ (h.next ev).trace evs

def Along (P : Clock → Frame → Kernel → Prop) (h : Host n) : List (HostEvent n) → Prop
  | [] => True
  | .frame cpu clk f :: evs => P clk f (h.view cpu) ∧ (h.next (.frame cpu clk f)).Along P evs
  | .write g :: evs => (h.next (.write g)).Along P evs

def readStats (h : Host n) : XdpStats :=
  Falx.readStats (List.ofFn fun cpu => (h.stats cpu).cold) (List.ofFn fun cpu => (h.stats cpu).hot)

end Host

theorem toNat_safeAdd (a b : UInt64) :
    (safeAdd a b).toNat = min (a.toNat + b.toNat) (2 ^ 64 - 1) := by
  have hb := b.toNat_lt
  rw [safeAdd]
  split <;> rename_i h <;>
    simp only [gt_iff_lt, UInt64.lt_iff_toNat_lt, UInt64.toNat_not, UInt64.size] at h
  · rw [UInt64.toNat_not, UInt64.toNat_zero, UInt64.size]
    omega
  · rw [UInt64.toNat_add]
    omega

section Merge

variable {n : Nat} (h : Host n)

theorem foldl_ofFn_toNat {α : Type} {add : α → α → α} {zero : α} (g : α → UInt64)
    (hz : g zero = 0) (hg : ∀ a b, g (add a b) = safeAdd (g a) (g b)) (v : Fin n → α) :
    (g ((List.ofFn v).foldl add zero)).toNat = min (∑ i, (g (v i)).toNat) (2 ^ 64 - 1) := by
  have hfold := CappedSum.foldl_add (f := fun s => (g s).toNat)
    (fun a b => by rw [hg, toNat_safeAdd]) (List.ofFn v) zero (by rw [hz]; decide)
  rw [hfold, hz, UInt64.toNat_zero, Nat.zero_add, List.map_ofFn, List.sum_ofFn]
  rfl

theorem Host.readStats_count (c : Counter) :
    (h.readStats.count c).toNat =
      min (∑ cpu, ((h.stats cpu).count c).toNat) (2 ^ 64 - 1) := by
  cases c with
  | rxPackets => exact foldl_ofFn_toNat MappedXdpStats.rxPackets rfl (fun _ _ => rfl) _
  | passed => exact foldl_ofFn_toNat MappedXdpStats.passed rfl (fun _ _ => rfl) _
  | dropped => exact foldl_ofFn_toNat MappedXdpStats.dropped rfl (fun _ _ => rfl) _
  | rateLimited => exact foldl_ofFn_toNat XdpStats.rateLimited rfl (fun _ _ => rfl) _
  | redirected => exact foldl_ofFn_toNat XdpStats.redirected rfl (fun _ _ => rfl) _
  | failsafeDrops => exact foldl_ofFn_toNat XdpStats.failsafeDrops rfl (fun _ _ => rfl) _

theorem Host.view_count (cpu : Fin n) (c : Counter) :
    (h.view cpu).count c = some ((h.stats cpu).count c) := by
  cases c <;> rfl

theorem Host.store_count {cpu : Fin n} {st : Kernel} {c : Counter} {w : UInt64}
    (hw : st.count c = some w) : ((h.store cpu st).stats cpu).count c = w := by
  have hsame : (h.store cpu st).stats cpu =
      ⟨st.mappedXdpStats.getD (h.stats cpu).hot, st.xdpStats.getD (h.stats cpu).cold⟩ :=
    update_self _ _ _
  rw [hsame]
  cases c <;> obtain ⟨s, hs, rfl⟩ := Option.map_eq_some_iff.mp hw <;>
    simp only [CpuStats.count, hs, Option.getD_some]

theorem Host.store_readStats {cpu : Fin n} {st : Kernel} {cs : List Counter}
    (hadds : Adds cs (h.view cpu) st) (c : Counter) :
    ((h.store cpu st).readStats.count c).toNat =
      min ((h.readStats.count c).toNat + cs.count c) (2 ^ 64 - 1) := by
  obtain ⟨w, hw, hwv⟩ := hadds c _ (h.view_count cpu c)
  have hupd : (fun i => (((h.store cpu st).stats i).count c).toNat) =
      update (fun i => ((h.stats i).count c).toNat) cpu
        (min (((h.stats cpu).count c).toNat + cs.count c) (2 ^ 64 - 1)) := by
    funext i
    by_cases hi : i = cpu
    · subst hi
      rw [h.store_count hw, update_self, hwv]
    · have ho : (h.store cpu st).stats i = h.stats i := update_of_ne hi _ _
      rw [update_of_ne hi, ho]
  rw [Host.readStats_count, Host.readStats_count, hupd]
  exact CappedSum.min_sum_update (fun i => ((h.stats i).count c).toNat) cpu _ _

end Merge

section Runs

variable {n : Nat}

def Fits (p : Frame × XdpAction) (o : Outcome) : Prop :=
  p.2 = o.action ∧ (o = .unparsed ↔ parsePacket p.1 = none)

def tally (os : List Outcome) (c : Counter) : Nat := (os.flatMap Outcome.counts).count c

theorem tally_cons (o : Outcome) (os : List Outcome) (c : Counter) :
    tally (o :: os) c = o.counts.count c + tally os c := by
  rw [tally, List.flatMap_cons, List.count_append]
  rfl

theorem Host.run_outcomes {P : Clock → Frame → Kernel → Prop} {Q : Outcome → Prop}
    (hPQ : ∀ clk f st o, P clk f st → Accounted clk f st o → Q o) (h : Host n)
    (evs : List (HostEvent n)) :
    ∃ os : List Outcome, List.Forall₂ Fits (h.trace evs) os ∧ (h.Along P evs → ∀ o ∈ os, Q o) ∧
      ∀ c, ((h.run evs).readStats.count c).toNat =
        min ((h.readStats.count c).toNat + tally os c) (2 ^ 64 - 1) := by
  induction evs generalizing h with
  | nil =>
    refine ⟨[], .nil, by simp, fun c => ?_⟩
    have hlt := (h.readStats.count c).toNat_lt
    rw [Host.run, List.foldl_nil, show tally [] c = 0 from rfl]
    omega
  | cons ev evs ih =>
    cases ev with
    | write g => exact ih { h with maps := g h.maps }
    | frame cpu clk f =>
      obtain ⟨o, ho⟩ := processPacket_accounted clk f (h.view cpu)
      obtain ⟨os, hfits, hQ, hcnt⟩ := ih (h.next (.frame cpu clk f))
      refine ⟨o :: os, .cons ⟨ho.action, ho.unparsed_iff⟩ hfits, fun halong => ?_, fun c => ?_⟩
      · exact List.forall_mem_cons.mpr ⟨hPQ clk f _ o halong.1 ho, hQ halong.2⟩
      · have hstep := h.store_readStats ho.adds c
        have hrest := hcnt c
        rw [Host.run, List.foldl_cons, ← Host.run, tally_cons]
        rw [Host.next, hstep] at hrest
        rw [Host.next, hrest]
        omega

def parsedFrames (tr : List (Frame × XdpAction)) : Nat :=
  tr.countP fun p => (parsePacket p.1).isSome

def passedFrames (tr : List (Frame × XdpAction)) : Nat :=
  tr.countP fun p => (parsePacket p.1).isSome && decide (p.2 = .pass)

variable {p : Frame × XdpAction} {o : Outcome} {f : Frame} {clk : Clock} {st : Kernel}

theorem Fits.count_rxPackets (h : Fits p o) :
    o.counts.count .rxPackets = if (parsePacket p.1).isSome = true then 1 else 0 := by
  obtain ⟨-, hiff⟩ := h
  by_cases ho : o = .unparsed
  · rw [hiff.mp ho, ho]
    rfl
  · have hsome : (parsePacket p.1).isSome = true :=
      Option.isSome_iff_ne_none.mpr fun hp => ho (hiff.mpr hp)
    rw [if_pos hsome]
    cases o <;> first | rfl | exact absurd rfl ho

theorem Fits.count_passed (h : Fits p o) :
    o.counts.count .passed =
      if ((parsePacket p.1).isSome && decide (p.2 = .pass)) = true then 1 else 0 := by
  obtain ⟨hact, hiff⟩ := h
  rw [hact]
  cases hp : parsePacket p.1 with
  | none =>
    rw [hiff.mpr hp]
    rfl
  | some pkt =>
    cases o <;> rfl

section Tallies

variable {tr : List (Frame × XdpAction)} {os : List Outcome}

theorem tally_rxPackets (h : List.Forall₂ Fits tr os) : tally os .rxPackets = parsedFrames tr := by
  induction h with
  | nil => rfl
  | cons hfits _ ih =>
    rw [tally_cons, ih, hfits.count_rxPackets, parsedFrames, parsedFrames, List.countP_cons,
      Nat.add_comm]

theorem tally_passed (h : List.Forall₂ Fits tr os) : tally os .passed = passedFrames tr := by
  induction h with
  | nil => rfl
  | cons hfits _ ih =>
    rw [tally_cons, ih, hfits.count_passed, passedFrames, passedFrames, List.countP_cons,
      Nat.add_comm]

theorem tally_le_rxPackets (os : List Outcome) (c : Counter) :
    tally os c ≤ tally os .rxPackets := by
  induction os with
  | nil => exact Nat.le_refl _
  | cons o os ih =>
    have hone : o.counts.count c ≤ o.counts.count .rxPackets := by cases o <;> cases c <;> decide
    rw [tally_cons, tally_cons]
    omega

theorem tally_balance (h : ∀ o ∈ os, o ≠ .refused) :
    tally os .rxPackets = tally os .passed + tally os .dropped + tally os .rateLimited +
      tally os .redirected := by
  induction os with
  | nil => rfl
  | cons o os ih =>
    obtain ⟨ho, hos⟩ := List.forall_mem_cons.mp h
    have hone : o.counts.count .rxPackets = o.counts.count .passed + o.counts.count .dropped +
        o.counts.count .rateLimited + o.counts.count .redirected := by
      cases o <;> first | rfl | exact absurd rfl ho
    have hrest := ih hos
    simp only [tally_cons]
    omega

theorem tally_drops_le (h : ∀ o ∈ os, o ≠ .tripped) :
    tally os .dropped + tally os .rateLimited + tally os .failsafeDrops ≤
      tally os .rxPackets := by
  induction os with
  | nil => exact Nat.le_refl _
  | cons o os ih =>
    obtain ⟨ho, hos⟩ := List.forall_mem_cons.mp h
    have hone : o.counts.count .dropped + o.counts.count .rateLimited +
        o.counts.count .failsafeDrops ≤ o.counts.count .rxPackets := by
      cases o <;> first | decide | exact absurd rfl ho
    have hrest := ih hos
    simp only [tally_cons]
    omega

end Tallies

def Host.Zeroed (h : Host n) : Prop := ∀ cpu, h.stats cpu = .zero

theorem Host.Zeroed.readStats_count {h : Host n} (hz : h.Zeroed) (c : Counter) :
    (h.readStats.count c).toNat = 0 := by
  have hcpu : ∀ cpu, ((h.stats cpu).count c).toNat = 0 := by
    intro cpu
    rw [hz cpu]
    cases c <;> rfl
  rw [h.readStats_count, Finset.sum_eq_zero fun cpu _ => hcpu cpu]
  exact Nat.zero_min _

/-- A source that is to be redirected meets an active honeypot, and the frame holds its
IPv4 header with all options. -/
def RedirectServed (clk : Clock) (f : Frame) (st : Kernel) : Prop :=
  ∀ pkt e, parsePacket f = some pkt → pkt.Screened → pkt.isIpv6 = false →
    st.blocklistV4 pkt.srcIp = some e → e.expired (clk.blocklist / nsPerSec) = false →
    e.action = Action.redirect →
    (∃ target, st.honeypotTargets (st.honeypotActive.getD 0) = some target ∧
      target.active ≠ 0 ∧ target.dstIp ≠ 0) ∧ transportAt f ≤ f.length

/-- The breaker is off, or it is closed and the packet keeps within its thresholds. -/
def BreakerSpares (clk : Clock) (f : Frame) (st : Kernel) : Prop :=
  ∀ pkt, parsePacket f = some pkt → pkt.Screened → ¬ Trips st.readConfig pkt clk.failsafe st

theorem ipv4WellFormed_of_screened {pkt : PacketInfo} (hp : parsePacket f = some pkt)
    (hs : pkt.Screened) (hv4 : pkt.isIpv6 = false) :
    etherType f = EtherType.ipv4 ∧ Ipv4WellFormed f := by
  have hlen : 14 ≤ f.length := Nat.le_of_not_lt (parsePacket_length hp)
  have htype : etherType f = EtherType.ipv4 := by
    rcases parsePacket_cases hp with ⟨h, -⟩ | ⟨-, hv6⟩ | ⟨-, -, rfl⟩
    · exact h
    · rw [hv4] at hv6
      cases hv6
    · exact absurd ⟨rfl, rfl⟩ hs
  have h4 : beWord f 12 = 0x0800 := (etherType_eq_iff f _).mp htype
  have hwf : WellFormed f := (parsePacket_isSome_iff hlen).mp (by rw [hp]; rfl)
  refine ⟨htype, ?_⟩
  rcases hwf with ⟨hne, -⟩ | ⟨-, h⟩ | ⟨h6, -⟩
  · exact absurd h4 hne
  · exact h
  · rw [h4] at h6
    cases h6

theorem RedirectServed.ne_refused (h : RedirectServed clk f st) (ho : Accounted clk f st o) :
    o ≠ .refused := by
  intro hno
  obtain ⟨pkt, hp, hs, hv4, ⟨e, he, hexp, haction⟩, hnone⟩ := ho.refuses hno
  obtain ⟨⟨target, ht, hact, hdst⟩, hhdr⟩ := h pkt e hp hs hv4 he hexp haction
  obtain ⟨htype, hlen, hwd, htcp, hudp⟩ := ipv4WellFormed_of_screened hp hs hv4
  have hihl : ipHdrLen f = 4 * ihlWords f := by
    rw [ipHdrLen, toNat_and_lowNibble, Nat.mul_comm, ihlWords, ethHdrSize]
  have hat : transportAt f = ipv4Transport f := by rw [transportAt, hihl, ipv4Transport, ethHdrSize]
  have hfits : IsTransport f → transportAt f + transportHdrSize f ≤ f.length := by
    intro htr
    rw [hat, transportHdrSize]
    split
    · exact (htcp ((eq_tcp_iff _).mp ‹_›)).1
    · exact hudp ((eq_udp_iff _).mp (htr.resolve_left ‹_›))
  have hsome := tryRedirect_isSome ht hact hdst htype hlen (by omega) hhdr hfits
  rw [hnone] at hsome
  cases hsome

theorem BreakerSpares.ne_tripped (h : BreakerSpares clk f st) (ho : Accounted clk f st o) :
    o ≠ .tripped := by
  intro htripped
  obtain ⟨pkt, hp, hs, htrips⟩ := ho.trips htripped
  exact h pkt hp hs htrips

/-- Every frame that parses is counted as received, and what is counted as passed was passed.
As long as no redirect fails, each received packet is counted as passed, dropped, rate limited
or redirected. -/
theorem readStats_accounts (h : Host n) (evs : List (HostEvent n)) (hz : h.Zeroed)
    (hfew : parsedFrames (h.trace evs) < 2 ^ 64) :
    (h.Along RedirectServed evs → (h.run evs).readStats.rxPackets.toNat =
      (h.run evs).readStats.passed.toNat + (h.run evs).readStats.dropped.toNat +
      (h.run evs).readStats.rateLimited.toNat + (h.run evs).readStats.redirected.toNat) ∧
    (h.run evs).readStats.rxPackets.toNat = parsedFrames (h.trace evs) ∧
    (h.run evs).readStats.passed.toNat = passedFrames (h.trace evs) := by
  obtain ⟨os, hfits, hne, hcnt⟩ := h.run_outcomes (P := RedirectServed)
    (Q := fun o => o ≠ .refused) (fun _ _ _ _ hP ho => hP.ne_refused ho) evs
  have hrx := tally_rxPackets hfits
  have hex : ∀ c, ((h.run evs).readStats.count c).toNat = tally os c := by
    intro c
    have hle := tally_le_rxPackets os c
    rw [hcnt c, hz.readStats_count c]
    omega
  refine ⟨fun hsrv => ?_, (hex .rxPackets).trans hrx, (hex .passed).trans (tally_passed hfits)⟩
  have hbal := tally_balance (hne hsrv)
  simp only [← hex] at hbal
  exact hbal

def permanentRedirect : BlockEntry := ⟨0, Action.redirect, 0, 100, 0, Reason.blocklist⟩

def decoyHost : Host 2 where
  maps := { Kernel.boot (fun k => [k.toNat]) (limits 1000 1000000) with
    blocklistV4 := Function.update (fun _ => none) 0x01010101 (some permanentRedirect)
    bloomFilter := ⟨fun k => [k.toNat], [0x01010101]⟩
    honeypotTargets := decoyTargets }
  stats _ := .zero

def decoyFrames : List (HostEvent 2) :=
  [.frame ⟨0, by decide⟩ (.instant 1) (icmpFrame 1 1 1 1),
    .frame ⟨1, by decide⟩ (.instant 2) (icmpFrame 9 9 9 9)]

theorem readStats_accounts_decoyHost :
    (decoyHost.run decoyFrames).readStats.rxPackets.toNat =
      (decoyHost.run decoyFrames).readStats.passed.toNat +
      (decoyHost.run decoyFrames).readStats.dropped.toNat +
      (decoyHost.run decoyFrames).readStats.rateLimited.toNat +
      (decoyHost.run decoyFrames).readStats.redirected.toNat ∧
    (decoyHost.run decoyFrames).readStats.passed.toNat = 1 ∧
    (decoyHost.run decoyFrames).readStats.redirected.toNat = 1 := by
  have hz : decoyHost.Zeroed := fun _ => rfl
  have hfew : parsedFrames (decoyHost.trace decoyFrames) < 2 ^ 64 := by decide +kernel
  have hsrv : decoyHost.Along RedirectServed decoyFrames :=
    ⟨fun _ _ _ _ _ _ _ _ => ⟨⟨decoy, rfl, by decide, by decide⟩, by decide⟩,
      fun _ _ _ _ _ _ _ _ => ⟨⟨decoy, rfl, by decide, by decide⟩, by decide⟩, trivial⟩
  refine ⟨(readStats_accounts decoyHost decoyFrames hz hfew).1 hsrv, ?_, ?_⟩
  · decide +kernel
  · decide +kernel

def bootHost (cfg : FalxMapConfig) : Host 1 where
  maps := Kernel.boot (fun k => [k.toNat]) cfg
  stats _ := .zero

/-- A source is banned for its rate and then marked for redirection by an operator. There is
no honeypot, so its next packet is counted as redirected and as dropped. -/
def markedFrames : List (HostEvent 1) :=
  [.frame ⟨0, by decide⟩ (.instant 1) (icmpFrame 1 1 1 1),
    .frame ⟨0, by decide⟩ (.instant 2) (icmpFrame 1 1 1 1),
    .write fun st => Command.run st (.block okEnv [1, 1, 1, 1] permanentRedirect),
    .frame ⟨0, by decide⟩ (.instant 3) (icmpFrame 1 1 1 1)]

theorem readStats_counts_refused_twice :
    (bootHost zeroCapacity).Zeroed ∧ parsedFrames ((bootHost zeroCapacity).trace markedFrames) = 3 ∧
    ((bootHost zeroCapacity).run markedFrames).readStats.rxPackets = 3 ∧
    ((bootHost zeroCapacity).run markedFrames).readStats.passed = 1 ∧
    ((bootHost zeroCapacity).run markedFrames).readStats.dropped = 1 ∧
    ((bootHost zeroCapacity).run markedFrames).readStats.rateLimited = 1 ∧
    ((bootHost zeroCapacity).run markedFrames).readStats.redirected = 1 := by
  refine ⟨fun _ => rfl, ?_, ?_, ?_, ?_, ?_, ?_⟩ <;> decide +kernel

theorem totalDrops_le_rxPackets (h : Host n) (evs : List (HostEvent n)) (hz : h.Zeroed)
    (hspares : h.Along BreakerSpares evs) :
    Detector.totalDrops (h.run evs).readStats ≤ (h.run evs).readStats.rxPackets := by
  obtain ⟨os, -, hne, hcnt⟩ := h.run_outcomes (P := BreakerSpares)
    (Q := fun o => o ≠ .tripped) (fun _ _ _ _ hP ho => hP.ne_tripped ho) evs
  have hdrops := tally_drops_le (hne hspares)
  have hrx := hcnt .rxPackets
  have hd := hcnt .dropped
  have hl := hcnt .rateLimited
  have hf := hcnt .failsafeDrops
  rw [hz.readStats_count, Nat.zero_add] at hrx hd hl hf
  simp only [XdpStats.count] at hrx hd hl hf
  rw [UInt64.le_iff_toNat_le, Detector.totalDrops, UInt64.toNat_add, UInt64.toNat_add]
  omega

theorem totalDrops_le_rxPackets_icmpFrame :
    Detector.totalDrops ((bootHost zeroCapacity).run
        [.frame ⟨0, by decide⟩ (.instant 1) (icmpFrame 1 1 1 1)]).readStats ≤
      ((bootHost zeroCapacity).run
        [.frame ⟨0, by decide⟩ (.instant 1) (icmpFrame 1 1 1 1)]).readStats.rxPackets := by
  refine totalDrops_le_rxPackets _ _ (fun _ => rfl) ⟨?_, trivial⟩
  rintro pkt hp - ⟨-, s, hs, htrips⟩
  obtain rfl := Option.some.inj hp
  obtain rfl := Option.some.inj hs
  revert htrips
  decide +kernel

def droppedFrames : List (HostEvent 1) :=
  [.write fun st => Command.run st (.setCircuitOpen true 1),
    .frame ⟨0, by decide⟩ (.instant 2) (icmpFrame 1 1 1 1)]

theorem totalDrops_exceeds_rxPackets :
    (bootHost zeroCapacity).Zeroed ∧
    ((bootHost zeroCapacity).run droppedFrames).readStats.rxPackets = 1 ∧
    Detector.totalDrops ((bootHost zeroCapacity).run droppedFrames).readStats = 2 := by
  refine ⟨fun _ => rfl, ?_, ?_⟩ <;> decide +kernel

end Runs

end Falx
