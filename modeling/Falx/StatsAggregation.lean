import Falx.HostCounters

/-! How the statistics of the CPUs are added up, by the control plane and by the loader. -/

namespace Falx

open Words

/-- The summed fields stop at the largest word, and it does not matter in which order or in
which groups the records are added. -/
structure Aggregates {α : Type} (add : α → α → α) (zero : α) (summed : List (α → UInt64)) :
    Prop where
  sum : ∀ field ∈ summed, ∀ cpus : List α, (field (cpus.foldl add zero)).toNat =
    min (cpus.map fun s => (field s).toNat).sum (2 ^ 64 - 1)
  order : ∀ cpus cpus' : List α, cpus.Perm cpus' → cpus.foldl add zero = cpus'.foldl add zero
  grouping : ∀ groups : List (List α),
    (groups.map fun cpus => cpus.foldl add zero).foldl add zero = groups.flatten.foldl add zero

theorem Aggregates.of_add {α : Type} {add : α → α → α} {zero : α} {summed : List (α → UInt64)}
    [Std.Associative add] [Std.Commutative add] (hzero : ∀ a, add a zero = a)
    (hsummed : ∀ field ∈ summed,
      field zero = 0 ∧ ∀ a b, field (add a b) = safeAdd (field a) (field b)) :
    Aggregates add zero summed where
  sum field hmem cpus := by
    obtain ⟨hz, hadd⟩ := hsummed field hmem
    have hfold := CappedSum.foldl_add (f := fun s => (field s).toNat)
      (fun a b => by rw [hadd, toNat_safeAdd]) cpus zero (by rw [hz]; decide)
    rw [hfold, hz, UInt64.toNat_zero, Nat.zero_add]
  order cpus cpus' h := h.foldl_op_eq
  grouping groups := by
    rw [List.foldl_flatten, List.foldl_map]
    congr 1
    funext acc cpus
    have hassoc : cpus.foldl add (add acc zero) = add acc (cpus.foldl add zero) := List.foldl_assoc
    rw [← hassoc, hzero]

theorem safeAdd_comm (a b : UInt64) : safeAdd a b = safeAdd b a := by
  rw [← UInt64.toNat_inj, toNat_safeAdd, toNat_safeAdd, Nat.add_comm]

theorem safeAdd_assoc (a b c : UInt64) : safeAdd (safeAdd a b) c = safeAdd a (safeAdd b c) := by
  rw [← UInt64.toNat_inj]
  simp only [toNat_safeAdd]
  omega

theorem safeAdd_zero (a : UInt64) : safeAdd a 0 = a := by
  rw [← UInt64.toNat_inj, toNat_safeAdd, UInt64.toNat_zero]
  have := a.toNat_lt
  omega

theorem safeAdd_eq_satAdd (a b : UInt64) : safeAdd a b = satAdd a b := by
  rw [← UInt64.toNat_inj, toNat_safeAdd, toNat_satAdd]

def maxU64 (a b : UInt64) : UInt64 := if a > b then a else b

theorem toNat_maxU64 (a b : UInt64) : (maxU64 a b).toNat = max a.toNat b.toNat := by
  rw [maxU64]
  split <;> rename_i h <;> rw [gt_iff_lt, UInt64.lt_iff_toNat_lt] at h <;> omega

theorem maxU64_comm (a b : UInt64) : maxU64 a b = maxU64 b a := by
  rw [← UInt64.toNat_inj, toNat_maxU64, toNat_maxU64, Nat.max_comm]

theorem maxU64_assoc (a b c : UInt64) : maxU64 (maxU64 a b) c = maxU64 a (maxU64 b c) := by
  simp only [← UInt64.toNat_inj, toNat_maxU64, Nat.max_assoc]

theorem maxU64_zero (a : UInt64) : maxU64 a 0 = a := by
  rw [← UInt64.toNat_inj, toNat_maxU64, UInt64.toNat_zero, Nat.max_zero]

namespace XdpStats

def zero : XdpStats := ⟨0, 0, 0, 0, 0, 0, 0, 0, 0, 0, 0, 0⟩

def summed : List (XdpStats → UInt64) :=
  [rxPackets, rxBytes, dropped, rateLimited, passed, redirected, failsafeDrops, parseErrors,
    mapErrors, coolingBans, synFloodBans]

instance : Std.Commutative XdpStats.add where
  comm a b := by
    simp only [XdpStats.add, safeAdd_comm, XdpStats.mk.injEq, true_and]
    exact maxU64_comm a.lastResetNs b.lastResetNs

instance : Std.Associative XdpStats.add where
  assoc a b c := by
    simp only [XdpStats.add, safeAdd_assoc, XdpStats.mk.injEq, true_and]
    exact maxU64_assoc a.lastResetNs b.lastResetNs c.lastResetNs

theorem add_zero (a : XdpStats) : a.add zero = a := by
  simp only [XdpStats.add, zero, safeAdd_zero]
  exact congrArg (fun t => { a with lastResetNs := t }) (maxU64_zero a.lastResetNs)

theorem aggregates : Aggregates XdpStats.add zero summed :=
  .of_add add_zero (by simp [summed, XdpStats.add, zero])

end XdpStats

namespace MappedXdpStats

def zero : MappedXdpStats := ⟨0, 0, 0, 0, 0, 0⟩

def summed : List (MappedXdpStats → UInt64) :=
  [rxPackets, rxBytes, dropped, droppedBytes, passed, passedBytes]

instance : Std.Commutative MappedXdpStats.add where
  comm a b := by simp only [MappedXdpStats.add, safeAdd_comm]

instance : Std.Associative MappedXdpStats.add where
  assoc a b c := by simp only [MappedXdpStats.add, safeAdd_assoc]

theorem aggregates : Aggregates MappedXdpStats.add zero summed :=
  .of_add (fun a => by simp only [MappedXdpStats.add, zero, safeAdd_zero])
    (by simp [summed, MappedXdpStats.add, zero])

end MappedXdpStats

namespace Loader

structure XdpStats where
  rxPackets : UInt64
  rxBytes : UInt64
  dropped : UInt64
  rateLimited : UInt64
  passed : UInt64
  redirected : UInt64
  failsafeDrops : UInt64
  parseErrors : UInt64
  mapErrors : UInt64
  lastResetNs : UInt64
  deriving DecidableEq

def XdpStats.zero : XdpStats := ⟨0, 0, 0, 0, 0, 0, 0, 0, 0, 0⟩

def XdpStats.add (a b : XdpStats) : XdpStats where
  rxPackets := satAdd a.rxPackets b.rxPackets
  rxBytes := satAdd a.rxBytes b.rxBytes
  dropped := satAdd a.dropped b.dropped
  rateLimited := satAdd a.rateLimited b.rateLimited
  passed := satAdd a.passed b.passed
  redirected := satAdd a.redirected b.redirected
  failsafeDrops := satAdd a.failsafeDrops b.failsafeDrops
  parseErrors := satAdd a.parseErrors b.parseErrors
  mapErrors := satAdd a.mapErrors b.mapErrors
  lastResetNs := if a.lastResetNs > b.lastResetNs then a.lastResetNs else b.lastResetNs

end Loader

/-- The fields that the loader has too. -/
def XdpStats.shared (s : XdpStats) : Loader.XdpStats where
  rxPackets := s.rxPackets
  rxBytes := s.rxBytes
  dropped := s.dropped
  rateLimited := s.rateLimited
  passed := s.passed
  redirected := s.redirected
  failsafeDrops := s.failsafeDrops
  parseErrors := s.parseErrors
  mapErrors := s.mapErrors
  lastResetNs := s.lastResetNs

theorem XdpStats.shared_add (a b : XdpStats) : a.shared.add b.shared = (a.add b).shared := by
  simp only [shared, Loader.XdpStats.add, add, safeAdd_eq_satAdd]
  rfl

/-- The statistics of any CPUs add up to their sums, as far as a word can hold them, and to the
latest reset; the loader has the same values. -/
theorem stats_aggregate :
    Aggregates XdpStats.add .zero XdpStats.summed ∧
      Aggregates MappedXdpStats.add .zero MappedXdpStats.summed ∧
      ∀ cpus : List XdpStats,
        (cpus.foldl XdpStats.add .zero).lastResetNs.toNat =
          (cpus.map fun s => s.lastResetNs.toNat).foldl max 0 ∧
        (cpus.map XdpStats.shared).foldl Loader.XdpStats.add .zero =
          (cpus.foldl XdpStats.add .zero).shared := by
  refine ⟨XdpStats.aggregates, MappedXdpStats.aggregates, fun cpus => ⟨?_, ?_⟩⟩
  · rw [List.foldl_map]
    refine (List.foldl_hom (fun s : XdpStats => s.lastResetNs.toNat) fun a b => ?_).symm
    exact (toNat_maxU64 a.lastResetNs b.lastResetNs).symm
  · have hzero : Loader.XdpStats.zero = XdpStats.zero.shared := rfl
    rw [List.foldl_map, hzero]
    exact List.foldl_hom XdpStats.shared fun a b => XdpStats.shared_add a b

end Falx
