import Mathlib.Data.List.Basic

/-! Go channels as their users see them: a bounded buffer, receivers that wait while it is
empty, and sends that fail at once when nobody waits and the buffer is full. What has been
taken from a channel is kept, oldest first. -/

structure GoChannel (α : Type) where
  capacity : Nat
  buffer : List α
  waiting : Nat
  closed : Bool
  taken : List α
  buffer_le : buffer.length ≤ capacity
  buffer_nil : 0 < waiting → buffer = []

namespace GoChannel

variable {α : Type}

def make (capacity : Nat) : GoChannel α :=
  ⟨capacity, [], 0, false, [], Nat.zero_le capacity, fun _ => rfl⟩

/-- A `select` with a send and a default. A send on a closed channel panics; for a sender that
recovers it has failed too. -/
def trySend (a : α) (c : GoChannel α) : Option (GoChannel α) :=
  if c.closed then none
  else if hw : 0 < c.waiting then
    some { c with
      waiting := c.waiting - 1
      taken := c.taken ++ [a]
      buffer_nil := fun _ => c.buffer_nil hw }
  else if hb : c.buffer.length < c.capacity then
    some { c with
      buffer := c.buffer ++ [a]
      buffer_le := by
        rw [List.length_append, List.length_singleton]
        exact hb
      buffer_nil := fun h => absurd h hw }
  else none

theorem tail_le (c : GoChannel α) {a : α} {rest : List α} (hb : c.buffer = a :: rest) :
    rest.length ≤ c.capacity := by
  have h := c.buffer_le
  rw [hb, List.length_cons] at h
  exact Nat.le_of_succ_le h

theorem not_waiting (c : GoChannel α) {a : α} {rest : List α} (hb : c.buffer = a :: rest) :
    ¬ 0 < c.waiting := by
  intro h
  have hnil := c.buffer_nil h
  rw [hb] at hnil
  cases hnil

def receive (c : GoChannel α) : GoChannel α :=
  match hb : c.buffer with
  | [] =>
    if c.closed then c
    else { c with waiting := c.waiting + 1, buffer_nil := fun _ => hb }
  | a :: rest =>
    { c with
      buffer := rest
      taken := c.taken ++ [a]
      buffer_le := c.tail_le hb
      buffer_nil := fun h => absurd h (c.not_waiting hb) }

def giveUp (c : GoChannel α) : GoChannel α :=
  { c with
    waiting := c.waiting - 1
    buffer_nil := fun h => c.buffer_nil (Nat.lt_of_lt_of_le h (Nat.sub_le c.waiting 1)) }

/-- The oldest value is received and thrown away. A receive from a closed channel does not
wait. -/
def discard (c : GoChannel α) : Option (GoChannel α) :=
  match hb : c.buffer with
  | [] => if c.closed then some c else none
  | _ :: rest =>
    some { c with
      buffer := rest
      buffer_le := c.tail_le hb
      buffer_nil := fun h => absurd h (c.not_waiting hb) }

def close (c : GoChannel α) : Option (GoChannel α) :=
  if c.closed then none
  else some { c with
    closed := true
    waiting := 0
    buffer_nil := fun h => absurd h (Nat.lt_irrefl 0) }

def passed (c : GoChannel α) : List α := c.taken ++ c.buffer

variable {a : α} {c c' : GoChannel α}

@[simp] theorem passed_make (capacity : Nat) : (make capacity : GoChannel α).passed = [] := rfl

theorem passed_trySend (h : c.trySend a = some c') : c'.passed = c.passed ++ [a] := by
  rw [trySend] at h
  split_ifs at h with _ hw hb
  · cases h
    simp [passed, c.buffer_nil hw]
  · cases h
    simp [passed]

theorem trySend_of_closed (h : c.closed = true) : c.trySend a = none := if_pos h

theorem buffer_trySend (hne : c.buffer ≠ []) (h : c.trySend a = some c') : c'.buffer ≠ [] := by
  rw [trySend] at h
  split_ifs at h with _ hw hb
  · exact absurd (c.buffer_nil hw) hne
  · cases h
    exact List.append_ne_nil_of_left_ne_nil hne [a]

theorem capacity_trySend (h : c.trySend a = some c') : c'.capacity = c.capacity := by
  rw [trySend] at h
  split_ifs at h <;> cases h <;> rfl

@[simp] theorem passed_receive : c.receive.passed = c.passed := by
  unfold receive
  split
  · split <;> rfl
  · rename_i a rest hb
    simp [passed, hb]

@[simp] theorem capacity_receive : c.receive.capacity = c.capacity := by
  unfold receive
  split
  · split <;> rfl
  · rfl

@[simp] theorem closed_receive : c.receive.closed = c.closed := by
  unfold receive
  split
  · split <;> rfl
  · rfl

theorem closed_discard (h : c.discard = some c') : c'.closed = c.closed := by
  unfold discard at h
  split at h
  · split_ifs at h
    cases h
    rfl
  · cases h
    rfl

theorem closed_close (h : c.close = some c') : c'.closed = true := by
  rw [close] at h
  split_ifs at h
  cases h
  rfl

theorem buffer_close (h : c.close = some c') : c'.buffer = c.buffer := by
  rw [close] at h
  split_ifs at h
  cases h
  rfl

theorem buffer_receive_ne (h : 2 ≤ c.buffer.length) : c.receive.buffer ≠ [] := by
  unfold receive
  split
  · rename_i hb
    rw [hb] at h
    exact absurd h (by simp)
  · rename_i a rest hb
    rw [hb, List.length_cons] at h
    exact List.ne_nil_of_length_pos (Nat.le_of_succ_le_succ h)

@[simp] theorem passed_giveUp : c.giveUp.passed = c.passed := rfl

@[simp] theorem capacity_giveUp : c.giveUp.capacity = c.capacity := rfl

end GoChannel
