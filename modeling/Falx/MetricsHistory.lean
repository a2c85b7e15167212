import Mathlib.Data.List.Basic

/-! The last sixty metrics snapshots, with which the server seeds a new WebSocket connection. -/

namespace Falx

structure MetricsRingBuffer where
  buf : Vector (List UInt8) 60
  head : Nat
  size : Nat
  head_lt : head < 60
  size_le : size ≤ 60

namespace MetricsRingBuffer

def empty : MetricsRingBuffer := ⟨.replicate 60 [], 0, 0, Nat.zero_lt_succ 59, by decide⟩

def add (rb : MetricsRingBuffer) (data : List UInt8) : MetricsRingBuffer where
  buf := rb.buf.set rb.head data rb.head_lt
  head := (rb.head + 1) % 60
  size := if rb.size < 60 then rb.size + 1 else rb.size
  head_lt := Nat.mod_lt _ (by decide)
  size_le := by
    have := rb.size_le
    split <;> omega

/-- The oldest frame comes first. -/
def snapshot (rb : MetricsRingBuffer) : List (List UInt8) :=
  if rb.size = 0 then []
  else
    let start := (((rb.head : Int) - rb.size + 60).tmod 60).toNat
    (List.range rb.size).map fun i => rb.buf.get ⟨(start + i) % 60, Nat.mod_lt _ (by decide)⟩

/-- The slot of every one of the last sixty frames is that of its number. -/
structure Holds (rb : MetricsRingBuffer) (frames : List (List UInt8)) : Prop where
  head : rb.head = frames.length % 60
  size : rb.size = min frames.length 60
  slot : ∀ i frame, frames[i]? = some frame → frames.length ≤ i + 60 →
    rb.buf[i % 60]? = some frame

theorem Holds.empty : Holds empty [] := ⟨rfl, rfl, fun i frame h => by cases h⟩

open List

variable {rb : MetricsRingBuffer} {frames : List (List UInt8)}

theorem Holds.add (h : rb.Holds frames) (data : List UInt8) :
    (rb.add data).Holds (frames ++ [data]) := by
  obtain ⟨hhead, hsize, hslot⟩ := h
  refine ⟨?_, ?_, fun i frame hi hlast => ?_⟩
  · simp only [MetricsRingBuffer.add, hhead, length_append, length_singleton]
    omega
  · simp only [MetricsRingBuffer.add, hsize, length_append, length_singleton]
    split <;> omega
  · rw [length_append, length_singleton] at hlast
    have hlt := (List.getElem?_eq_some_iff.mp hi).1
    rw [length_append, length_singleton] at hlt
    simp only [MetricsRingBuffer.add, Vector.getElem?_set, hhead]
    by_cases hnew : i = frames.length
    · subst hnew
      rw [List.getElem?_concat_length] at hi
      simpa [Nat.mod_lt] using hi
    · rw [if_neg (by omega)]
      rw [List.getElem?_append_left (by omega)] at hi
      exact hslot i frame hi (by omega)

theorem Holds.run {older : List (List UInt8)} (h : rb.Holds older) (frames : List (List UInt8)) :
    (frames.foldl MetricsRingBuffer.add rb).Holds (older ++ frames) := by
  induction frames generalizing rb older with
  | nil =>
    rw [append_nil]
    exact h
  | cons data frames ih =>
    rw [append_cons]
    exact ih (h.add data)

theorem Holds.snapshot (h : rb.Holds frames) :
    rb.snapshot = frames.drop (frames.length - min frames.length 60) := by
  obtain ⟨hhead, hsize, hslot⟩ := h
  by_cases hzero : rb.size = 0
  · have hnil : frames = [] := eq_nil_of_length_eq_zero (by omega)
    rw [MetricsRingBuffer.snapshot, if_pos hzero, hnil]
    rfl
  rw [MetricsRingBuffer.snapshot, if_neg hzero]
  refine ext_getElem (by simp; omega) fun i hi hi' => ?_
  have hlt : i < rb.size := by simpa using hi
  have hlast := hslot (frames.length - min frames.length 60 + i) _
    (List.getElem?_eq_getElem (by omega)) (by omega)
  have hst : ((((rb.head : Int) - rb.size + 60).tmod 60).toNat + i) % 60 =
      (frames.length - min frames.length 60 + i) % 60 := by
    rw [Int.tmod_eq_emod_of_nonneg (by omega)]
    omega
  simp only [getElem_map, getElem_range, hst, getElem_drop]
  exact (Vector.getElem?_eq_some_iff.mp hlast).2

/-- After any number of frames, the snapshot has the last sixty of them in their order. -/
theorem snapshot_eq_last (frames : List (List UInt8)) :
    (frames.foldl add empty).snapshot = frames.drop (frames.length - min frames.length 60) :=
  (Holds.empty.run frames).snapshot

end MetricsRingBuffer

end Falx
