import Mathlib.Data.List.Basic

/-! Readers of a byte string that record the indices they touch. A read beyond the
end of the string gives 0 and is recorded like any other, so that the record shows
whether it happened. -/

namespace ByteReader

/-- What the reader gives, if it does not fail, and what it has read until then. -/
def Reader (α : Type) := List UInt8 → Option α × List Nat

namespace Reader

variable {α β : Type}

def pure (a : α) : Reader α := fun _ => (some a, [])

def bind (r : Reader α) (k : α → Reader β) : Reader β := fun bs =>
  match r bs with
  | (none, ps) => (none, ps)
  | (some a, ps) => ((k a bs).1, ps ++ (k a bs).2)

instance : Monad Reader where
  pure := pure
  bind := bind

def fail : Reader α := fun _ => (none, [])

def size : Reader Nat := fun bs => (some bs.length, [])

def window (p n : Nat) : Reader { bytes : List UInt8 // bytes.length = n } := fun bs =>
  (some ⟨(List.range n).map fun i => bs.getD (p + i) 0, by simp⟩, (List.range n).map (p + ·))

def value (r : Reader α) (bs : List UInt8) : Option α := (r bs).1

def reads (r : Reader α) (bs : List UInt8) : List Nat := (r bs).2

section Value

variable {bs : List UInt8}

@[simp] theorem value_pure (a : α) : value (Pure.pure a) bs = some a := rfl

@[simp] theorem value_fail : value (fail : Reader α) bs = none := rfl

@[simp] theorem value_size : value size bs = some bs.length := rfl

@[simp] theorem value_bind (r : Reader α) (k : α → Reader β) :
    value (r >>= k) bs = (value r bs).bind fun a => value (k a) bs := by
  show (bind r k bs).1 = (r bs).1.bind fun a => (k a bs).1
  rcases h : r bs with ⟨_ | a, ps⟩
  · simp [bind, h]
  · simp [bind, h]

theorem reads_bind (r : Reader α) (k : α → Reader β) : reads (r >>= k) bs =
    reads r bs ++ ((value r bs).map fun a => reads (k a) bs).getD [] := by
  show (bind r k bs).2 = (r bs).2 ++ ((r bs).1.map fun a => (k a bs).2).getD []
  rcases h : r bs with ⟨_ | a, ps⟩
  · simp [bind, h]
  · simp [bind, h]

end Value

def InBounds (r : Reader α) (bs : List UInt8) : Prop := ∀ p ∈ reads r bs, p < bs.length

section InBounds

variable {bs : List UInt8}

theorem inBounds_pure (a : α) : InBounds (Pure.pure a) bs := by
  intro p hp
  cases hp

theorem inBounds_fail : InBounds (fail : Reader α) bs := by
  intro p hp
  cases hp

theorem inBounds_size : InBounds size bs := by
  intro p hp
  cases hp

theorem inBounds_window {p n : Nat} (h : p + n ≤ bs.length) : InBounds (window p n) bs := by
  intro q hq
  obtain ⟨i, hi, rfl⟩ := List.mem_map.mp hq
  have hlt := List.mem_range.mp hi
  omega

theorem InBounds.bind {r : Reader α} {k : α → Reader β} (hr : InBounds r bs)
    (hk : ∀ a, value r bs = some a → InBounds (k a) bs) : InBounds (r >>= k) bs := by
  intro p hp
  rw [reads_bind] at hp
  rcases List.mem_append.mp hp with hp | hp
  · exact hr p hp
  · cases hv : value r bs with
    | none => simp [hv] at hp
    | some a => exact hk a hv p (by simpa [hv] using hp)

theorem inBounds_field {p n : Nat} (h : p + n ≤ bs.length)
    (decode : { bytes : List UInt8 // bytes.length = n } → α) :
    InBounds (do return decode (← window p n)) bs :=
  (inBounds_window h).bind fun _ _ => inBounds_pure _

end InBounds

end Reader

end ByteReader
