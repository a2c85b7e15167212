import Falx.CounterDeltas
import Falx.Manager
import Mathlib.Algebra.Order.BigOperators.Group.List

/-! What the collector exports against what it reads. The XDP statistics are added as
differences, the counts of the rate limiter as they are, at every call anew. -/

namespace Falx

open List Function

@[ext] structure OpCounts where
  accepted : Nat
  dropped : Nat
  deriving DecidableEq

def MapOpType.all : List MapOpType := [.blockIP, .unblockIP, .updateConfig, .failsafe, .rateLimit]

/-- The sources at one call. The counts are under the operations of the rate limiter, which
`Stats` goes through in an order of its own. -/
structure Sources where
  stats : XdpStats
  counts : MapOpType → OpCounts
  order : List MapOpType
  perm : order.Perm MapOpType.all

namespace Sources

def rateLimiterStats (src : Sources) : List (String × OpCounts) :=
  src.order.map fun op => (op.name, src.counts op)

def Grows (src src' : Sources) : Prop :=
  (∀ x, src.stats.get x ≤ src'.stats.get x) ∧
    ∀ op, (src.counts op).accepted ≤ (src'.counts op).accepted ∧
      (src.counts op).dropped ≤ (src'.counts op).dropped

end Sources

/-- The counters of the collector that Prometheus reads, with those of a vector under their
labels. -/
structure Exporter where
  xdp : Collector
  mapOpsAccepted : String → Nat
  mapOpsDropped : String → Nat

namespace Exporter

def initial : Exporter := ⟨Collector.initial, fun _ => 0, fun _ => 0⟩

def add (vec : String → Nat) (label : String) (n : Nat) : String → Nat :=
  Function.update vec label (vec label + n)

def addOp (c : Exporter) (entry : String × OpCounts) : Exporter :=
  { c with
    mapOpsAccepted := add c.mapOpsAccepted entry.1 entry.2.accepted
    mapOpsDropped := add c.mapOpsDropped entry.1 entry.2.dropped }

def collect (c : Exporter) (read : Option XdpStats) (limiter : List (String × OpCounts)) :
    Exporter :=
  limiter.foldl addOp { c with xdp := c.xdp.collect read }

def collectAll (c : Exporter) (calls : List Sources) : Exporter :=
  calls.foldl (fun c src => c.collect (some src.stats) src.rateLimiterStats) c

section Counts

variable {c : Exporter} {op : MapOpType}

theorem name_injective {op op' : MapOpType} (h : op.name = op'.name) : op = op' := by
  cases op <;> cases op' <;> first | rfl | exact absurd h (by decide)

theorem foldl_addOp_xdp (limiter : List (String × OpCounts)) (c : Exporter) :
    (limiter.foldl addOp c).xdp = c.xdp := by
  induction limiter generalizing c with
  | nil => rfl
  | cons entry limiter ih => exact ih (c.addOp entry)

variable {ops : List MapOpType} {calls : List Sources}

theorem foldl_addOp (op : MapOpType) (hnd : ops.Nodup) (counts : MapOpType → OpCounts)
    (c : Exporter) :
    ((ops.map fun op => (op.name, counts op)).foldl addOp c).mapOpsAccepted op.name =
        c.mapOpsAccepted op.name + (if op ∈ ops then (counts op).accepted else 0) ∧
      ((ops.map fun op => (op.name, counts op)).foldl addOp c).mapOpsDropped op.name =
        c.mapOpsDropped op.name + (if op ∈ ops then (counts op).dropped else 0) := by
  induction ops generalizing c with
  | nil => simp
  | cons o ops ih =>
    obtain ⟨hfr, hnd⟩ := nodup_cons.mp hnd
    obtain ⟨hacc, hdrop⟩ := ih hnd (c.addOp (o.name, counts o))
    rw [map_cons, foldl_cons, hacc, hdrop]
    by_cases ho : op = o
    · subst ho
      simp [addOp, add, hfr]
    · have hname : op.name ≠ o.name := mt name_injective ho
      simp [addOp, add, update_of_ne hname, ho]

theorem collect_counts (c : Exporter) (read : Option XdpStats) (src : Sources) (op : MapOpType) :
    (c.collect read src.rateLimiterStats).mapOpsAccepted op.name =
        c.mapOpsAccepted op.name + (src.counts op).accepted ∧
      (c.collect read src.rateLimiterStats).mapOpsDropped op.name =
        c.mapOpsDropped op.name + (src.counts op).dropped := by
  have hop : op ∈ src.order := by
    rw [src.perm.mem_iff]
    cases op <;> decide
  have hnd : src.order.Nodup := src.perm.nodup_iff.mpr (by decide)
  have hall := foldl_addOp op hnd src.counts (c.collect read [])
  rwa [if_pos hop, if_pos hop] at hall

theorem collectAll_xdp (calls : List Sources) (c : Exporter) :
    (c.collectAll calls).xdp = c.xdp.collectAll (calls.map fun src => some src.stats) := by
  induction calls generalizing c with
  | nil => rfl
  | cons src calls ih =>
    have hstep := ih (c.collect (some src.stats) src.rateLimiterStats)
    rw [collect, foldl_addOp_xdp] at hstep
    exact hstep

theorem collectAll_counts (calls : List Sources) (c : Exporter) (op : MapOpType) :
    (c.collectAll calls).mapOpsAccepted op.name =
        c.mapOpsAccepted op.name + (calls.map fun src => (src.counts op).accepted).sum ∧
      (c.collectAll calls).mapOpsDropped op.name =
        c.mapOpsDropped op.name + (calls.map fun src => (src.counts op).dropped).sum := by
  induction calls generalizing c with
  | nil => exact ⟨rfl, rfl⟩
  | cons src calls ih =>
    obtain ⟨hacc, hdrop⟩ := ih (c.collect (some src.stats) src.rateLimiterStats)
    obtain ⟨hacc', hdrop'⟩ := c.collect_counts (some src.stats) src op
    rw [map_cons, sum_cons, map_cons, sum_cons, ← Nat.add_assoc,
      ← Nat.add_assoc, ← hacc', ← hdrop']
    exact ⟨hacc, hdrop⟩

theorem growing_of_pairwise (hgrow : calls.Pairwise Sources.Grows) {prev : XdpStats}
    (hprev : ∀ src ∈ calls, ∀ x, prev.get x ≤ src.stats.get x) :
    Collector.Growing prev (calls.map fun src => some src.stats) := by
  induction calls generalizing prev with
  | nil => trivial
  | cons src calls ih =>
    obtain ⟨hsrc, hcs⟩ := pairwise_cons.mp hgrow
    exact ⟨hprev src (.head _), ih hcs fun src' h => (hsrc src' h).1⟩

theorem collectAll_prev (calls : List Sources) (last : Sources) (c : Collector) :
    (c.collectAll ((calls ++ [last]).map fun src => some src.stats)).prev = last.stats := by
  rw [Collector.collectAll, map_append, foldl_append]
  rfl

theorem xdp_equal {last : Sources} (hgrow : (calls ++ [last]).Pairwise Sources.Grows)
    (x : XdpCounter) :
    (initial.collectAll (calls ++ [last])).xdp.total x = (last.stats.get x).toNat := by
  have hzero : ∀ src ∈ calls ++ [last], ∀ x,
      Collector.initial.prev.get x ≤ src.stats.get x := by
    intro src _ x
    cases x <;> exact UInt64.zero_le
  have hto := Collector.collectAll_total (growing_of_pairwise hgrow hzero) x
  have hst : (Collector.initial.prev.get x).toNat = 0 := by cases x <;> rfl
  rw [collectAll_prev, hst] at hto
  rw [collectAll_xdp]
  exact hto.trans (Nat.zero_add _)

end Counts

/-- The exported XDP counters are those of the source after the last call. For the rate
limiter this holds if and only if it had counted nothing at the calls before. -/
theorem exported_equal {calls : List Sources} {last : Sources}
    (hgrow : (calls ++ [last]).Pairwise Sources.Grows) :
    (∀ x, (initial.collectAll (calls ++ [last])).xdp.total x = (last.stats.get x).toNat) ∧
      ((∀ op, (initial.collectAll (calls ++ [last])).mapOpsAccepted op.name =
          (last.counts op).accepted ∧
        (initial.collectAll (calls ++ [last])).mapOpsDropped op.name =
          (last.counts op).dropped) ↔
        ∀ src ∈ calls, ∀ op, src.counts op = ⟨0, 0⟩) := by
  have hsum : ∀ get : OpCounts → Nat, ∀ op,
      0 + ((calls ++ [last]).map fun src => get (src.counts op)).sum = get (last.counts op) ↔
        ∀ src ∈ calls, get (src.counts op) = 0 := by
    intro get op
    rw [List.map_append, List.sum_append, List.map_singleton, List.sum_singleton, Nat.zero_add,
      Nat.add_eq_right, List.sum_eq_zero_iff, List.forall_mem_map]
  refine ⟨xdp_equal hgrow, ?_⟩
  constructor
  · intro h src hsrc op
    obtain ⟨hacc, hdrop⟩ := collectAll_counts (calls ++ [last]) initial op
    have ha := (hsum OpCounts.accepted op).mp (hacc.symm.trans (h op).1) src hsrc
    have hd := (hsum OpCounts.dropped op).mp (hdrop.symm.trans (h op).2) src hsrc
    exact OpCounts.ext ha hd
  · intro h op
    obtain ⟨hacc, hdrop⟩ := collectAll_counts (calls ++ [last]) initial op
    rw [hacc, hdrop]
    exact ⟨(hsum OpCounts.accepted op).mpr fun src hsrc => by rw [h src hsrc op],
      (hsum OpCounts.dropped op).mpr fun src hsrc => by rw [h src hsrc op]⟩

def afterBlocks (packets : UInt64) (accepted : Nat) : Sources where
  stats := ⟨packets, 0, 0, 0, 0, 0, 0, 0, 0, 0, 0, 0⟩
  counts op := if op = .blockIP then ⟨accepted, 0⟩ else ⟨0, 0⟩
  order := MapOpType.all
  perm := .refl _

theorem afterBlocks_grows {packets packets' : UInt64} {accepted accepted' : Nat}
    (hpkts : packets ≤ packets') (hacc : accepted ≤ accepted') :
    (afterBlocks packets accepted).Grows (afterBlocks packets' accepted') := by
  refine ⟨fun x => ?_, fun op => ?_⟩
  · cases x <;> first | exact hpkts | exact UInt64.le_refl _
  · cases op <;> simp [afterBlocks, hacc]

theorem exported_equal_two :
    (initial.collectAll [afterBlocks 5 0, afterBlocks 9 7]).xdp.total .rxPackets = 9 ∧
      (initial.collectAll [afterBlocks 5 0, afterBlocks 9 7]).mapOpsAccepted "block_ip" = 7 := by
  have hgrow : ([afterBlocks 5 0] ++ [afterBlocks 9 7]).Pairwise Sources.Grows := by
    simpa using afterBlocks_grows (by decide) (by decide)
  obtain ⟨hxdp, hops⟩ := exported_equal hgrow
  exact ⟨hxdp .rxPackets, (hops.mpr (by simp [afterBlocks]) .blockIP).1⟩

/-- One call to block an address has been accepted, nothing happens after it, and the collector
runs twice. -/
theorem exported_doubled :
    [afterBlocks 5 1, afterBlocks 5 1].Pairwise Sources.Grows ∧
      (initial.collectAll [afterBlocks 5 1]).mapOpsAccepted "block_ip" = 1 ∧
      (initial.collectAll [afterBlocks 5 1, afterBlocks 5 1]).mapOpsAccepted "block_ip" = 2 ∧
      ((afterBlocks 5 1).counts .blockIP).accepted = 1 := by
  refine ⟨?_, rfl, rfl, rfl⟩
  simpa using afterBlocks_grows (UInt64.le_refl 5) (Nat.le_refl 1)

end Exporter

end Falx
