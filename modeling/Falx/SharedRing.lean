import Falx.Words
import Mathlib.Logic.Function.Basic

/-! Rings of a power of two of slots between a producer and a consumer that share two 32-bit
indices. The calls of the two sides are taken apart into their loads and stores, and a call
works with what it has loaded, which may be out of date. -/

namespace SharedRing

open UInt32 Function

structure SlotRing (δ : Type) where
  order : Nat
  order_lt : order < 32
  producer : UInt32
  consumer : UInt32
  desc : UInt32 → δ

namespace SlotRing

variable {δ : Type} (r : SlotRing δ)

def size : UInt32 := UInt32.ofNat (2 ^ r.order)

def mask : UInt32 := r.size - 1

def slot (i : UInt32) : UInt32 := i &&& r.mask

def used : Nat := (r.producer - r.consumer).toNat

def peek (i : Nat) : δ := r.desc (r.slot (r.consumer + UInt32.ofNat i))

def contents : List δ := (List.range r.used).map r.peek

end SlotRing

/-- Where a call is that produces descriptors; it returns how many of them it has added. -/
inductive ProduceCall (δ : Type) where
  | idle
  | started (frames : List δ)
  | loaded (frames : List δ) (prod : UInt32)
  | sized (frames : List δ) (n : UInt32)
  | writing (frames : List δ) (n prod i : UInt32)
  | returned (frames : List δ) (n : UInt32)
  deriving DecidableEq

/-- Where a call is that consumes up to a number of descriptors. -/
inductive ConsumeCall (δ : Type) where
  | idle
  | started (max : Nat)
  | loaded (max : Nat) (prod : UInt32)
  | sized (n : UInt32)
  | reading (n cons : UInt32) (out : List δ)
  | returned (out : List δ)
  deriving DecidableEq

def atMost (want : Nat) (room : UInt32) : UInt32 :=
  if UInt32.ofNat want > room then room else UInt32.ofNat want

theorem toNat_atMost_le_room (want : Nat) (room : UInt32) :
    (atMost want room).toNat ≤ room.toNat := by
  unfold atMost
  split
  · exact Nat.le_refl _
  · rename_i hle
    exact Nat.le_of_not_lt fun hlt => hle (lt_iff_toNat_lt.mpr hlt)

theorem toNat_atMost_le_want (want : Nat) (room : UInt32) : (atMost want room).toNat ≤ want := by
  have hwant : (UInt32.ofNat want).toNat ≤ want := by exact Nat.mod_le _ _
  unfold atMost
  split
  · rename_i hlt
    exact Nat.le_trans (Nat.le_of_lt (lt_iff_toNat_lt.mp hlt)) hwant
  · exact hwant

namespace SlotRing

variable {δ : Type}

def produceStep (r : SlotRing δ) : ProduceCall δ → SlotRing δ × ProduceCall δ
  | .started frames => (r, .loaded frames r.producer)
  | .loaded frames prod =>
    let free := r.size - (prod - r.consumer)
    let n := atMost frames.length free
    if n = 0 then (r, .returned frames 0) else (r, .sized frames n)
  | .sized frames n => (r, .writing frames n r.producer 0)
  | .writing frames n prod i =>
    if i < n then
      match frames[i.toNat]? with
      | some d => ({ r with desc := Function.update r.desc (r.slot (prod + i)) d },
          .writing frames n prod (i + 1))
      | none => (r, .writing frames n prod i)
    else ({ r with producer := prod + n }, .returned frames n)
  | .idle => (r, .idle)
  | .returned frames n => (r, .returned frames n)

def consumeStep (r : SlotRing δ) : ConsumeCall δ → SlotRing δ × ConsumeCall δ
  | .started max => (r, .loaded max r.producer)
  | .loaded max prod =>
    let avail := prod - r.consumer
    let n := atMost max avail
    if n = 0 then (r, .returned []) else (r, .sized n)
  | .sized n => (r, .reading n r.consumer [])
  | .reading n cons out =>
    if out.length < n.toNat then
      (r, .reading n cons (out ++ [r.desc (r.slot (cons + UInt32.ofNat out.length))]))
    else ({ r with consumer := cons + n }, .returned out)
  | .idle => (r, .idle)
  | .returned out => (r, .returned out)

section Indices

variable (r : SlotRing δ)

theorem two_pow_order_le : 2 ^ r.order ≤ 2 ^ 31 :=
  Nat.pow_le_pow_right (by decide) (Nat.le_of_lt_succ r.order_lt)

theorem toNat_size : r.size.toNat = 2 ^ r.order := by
  have hle := r.two_pow_order_le
  rw [size, toNat_ofNat', Nat.mod_eq_of_lt (by omega)]

theorem toNat_mask : r.mask.toNat = 2 ^ r.order - 1 := by
  have hpos : 0 < 2 ^ r.order := Nat.two_pow_pos r.order
  have hle : (1 : UInt32) ≤ r.size := by
    rw [UInt32.le_iff_toNat_le, toNat_size]
    exact hpos
  rw [mask, UInt32.toNat_sub_of_le _ _ hle, toNat_size]
  rfl

theorem toNat_slot (i : UInt32) : (r.slot i).toNat = i.toNat % 2 ^ r.order := by
  rw [slot, UInt32.toNat_and, toNat_mask, Nat.and_two_pow_sub_one_eq_mod]

theorem toNat_slot_add (c : UInt32) (i : Nat) :
    (r.slot (c + UInt32.ofNat i)).toNat = (c.toNat + i) % 2 ^ r.order := by
  have hdvd : 2 ^ r.order ∣ 2 ^ 32 := Nat.pow_dvd_pow 2 (Nat.le_of_lt r.order_lt)
  rw [toNat_slot, UInt32.toNat_add, UInt32.toNat_ofNat', Nat.mod_mod_of_dvd _ hdvd,
    Nat.add_mod, Nat.mod_mod_of_dvd _ hdvd, ← Nat.add_mod]

theorem slot_add_ne (c : UInt32) {i j : Nat} (hlt : i < j) (hrd : j < i + 2 ^ r.order) :
    r.slot (c + UInt32.ofNat i) ≠ r.slot (c + UInt32.ofNat j) := by
  intro he
  have hmod : (c.toNat + i) % 2 ^ r.order = (c.toNat + j) % 2 ^ r.order := by
    rw [← toNat_slot_add, ← toNat_slot_add, he]
  have hdvd : 2 ^ r.order ∣ (c.toNat + j) - (c.toNat + i) :=
    Nat.dvd_of_mod_eq_zero (Nat.sub_mod_eq_zero_of_mod_eq hmod.symm)
  have hle := Nat.le_of_dvd (by omega) hdvd
  omega

theorem producer_eq : r.producer = r.consumer + UInt32.ofNat r.used := by
  rw [used, UInt32.ofNat_toNat, UInt32.add_comm, UInt32.sub_add_cancel]

theorem producer_add (i : Nat) :
    r.producer + UInt32.ofNat i = r.consumer + UInt32.ofNat (r.used + i) := by
  rw [producer_eq, UInt32.ofNat_add, UInt32.add_assoc]

end Indices

def ProduceOk (r : SlotRing δ) : ProduceCall δ → Prop
  | .idle | .started _ | .returned _ _ => True
  | .loaded _ prod => prod = r.producer
  | .sized frames n => r.used + n.toNat ≤ 2 ^ r.order ∧ n.toNat ≤ frames.length
  | .writing frames n prod i => prod = r.producer ∧ r.used + n.toNat ≤ 2 ^ r.order ∧
    n.toNat ≤ frames.length ∧ i.toNat ≤ n.toNat ∧
    ∀ j < i.toNat, frames[j]? = some (r.peek (r.used + j))

def ConsumeOk (r : SlotRing δ) : ConsumeCall δ → Prop
  | .idle | .started _ | .returned _ => True
  | .loaded _ prod => (prod - r.consumer).toNat ≤ r.used
  | .sized n => n.toNat ≤ r.used
  | .reading n cons out => cons = r.consumer ∧ n.toNat ≤ r.used ∧ out.length ≤ n.toNat ∧
    out = r.contents.take out.length

/-- At most a ringful is in the ring, and what each side has loaded is still good for it. -/
structure Sound (r : SlotRing δ) (p : ProduceCall δ) (c : ConsumeCall δ) : Prop where
  used_le : r.used ≤ 2 ^ r.order
  producer : r.ProduceOk p
  consumer : r.ConsumeOk c

def publishes : ProduceCall δ → List δ
  | .writing frames n _ i => if i < n then [] else frames.take n.toNat
  | _ => []

def takes : ConsumeCall δ → List δ
  | .reading n _ out => if out.length < n.toNat then [] else out
  | _ => []

/-- The descriptors that are in the hands of the producer: all of them until they become
visible, and then those that did not fit. -/
def offered : ProduceCall δ → List δ
  | .idle => []
  | .started frames | .loaded frames _ | .sized frames _ | .writing frames _ _ _ => frames
  | .returned frames n => frames.drop n.toNat

def received : ConsumeCall δ → List δ
  | .returned out => out
  | .idle | .started _ | .loaded _ _ | .sized _ | .reading _ _ _ => []

def writes (r : SlotRing δ) : ProduceCall δ → Option UInt32
  | .writing _ n prod i => if i < n then some (r.slot (prod + i)) else none
  | _ => none

variable {r : SlotRing δ} {p : ProduceCall δ} {c : ConsumeCall δ}

theorem length_contents (r : SlotRing δ) : r.contents.length = r.used := by simp [contents]

section

variable (h : r.producer = r.consumer)

include h

theorem used_eq_zero : r.used = 0 := by
  rw [used, h, UInt32.sub_self]
  rfl

theorem contents_eq_nil : r.contents = [] := by
  rw [contents, used_eq_zero h]
  rfl

theorem Sound.of_empty (hp : r.ProduceOk p) (hc : r.ConsumeOk c) : Sound r p c := by
  refine ⟨?_, hp, hc⟩
  rw [used_eq_zero h]
  exact Nat.zero_le _

end

theorem getElem?_contents {i : Nat} (hi : i < r.used) : r.contents[i]? = some (r.peek i) := by
  rw [contents, List.getElem?_map, List.getElem?_range hi]
  rfl

section Write

variable {i : Nat} {d : δ}

def write (r : SlotRing δ) (i : Nat) (d : δ) : SlotRing δ :=
  { r with desc := Function.update r.desc (r.slot (r.producer + UInt32.ofNat i)) d }

@[simp] theorem used_write : (r.write i d).used = r.used := rfl

theorem peek_write_self : (r.write i d).peek (r.used + i) = d := by
  show update r.desc (r.slot (r.producer + UInt32.ofNat i)) d
    (r.slot (r.consumer + UInt32.ofNat (r.used + i))) = d
  rw [producer_add, update_self]

theorem peek_write_of_lt {j : Nat} (hlt : j < r.used + i) (hroom : r.used + i < 2 ^ r.order) :
    (r.write i d).peek j = r.peek j := by
  show update r.desc (r.slot (r.producer + UInt32.ofNat i)) d
    (r.slot (r.consumer + UInt32.ofNat j)) = r.peek j
  rw [producer_add]
  exact update_of_ne (r.slot_add_ne _ hlt (by omega)) d r.desc

theorem contents_write (hroom : r.used + i < 2 ^ r.order) : (r.write i d).contents = r.contents := by
  refine List.map_congr_left fun j hj => peek_write_of_lt ?_ hroom
  have hlt := List.mem_range.mp hj
  rw [used_write] at hlt
  omega

end Write

section Move

variable {n : UInt32}

def publish (r : SlotRing δ) (n : UInt32) : SlotRing δ := { r with producer := r.producer + n }

def release (r : SlotRing δ) (n : UInt32) : SlotRing δ := { r with consumer := r.consumer + n }

theorem used_publish (hn : r.used + n.toNat < 2 ^ 32) : (r.publish n).used = r.used + n.toNat := by
  simp only [used, publish, UInt32.toNat_sub, UInt32.toNat_add] at hn ⊢
  omega

theorem used_release (hn : n.toNat ≤ r.used) : (r.release n).used = r.used - n.toNat := by
  have hcon := r.consumer.toNat_lt
  simp only [used, release, UInt32.toNat_sub, UInt32.toNat_add] at hn ⊢
  omega

theorem peek_release (i : Nat) : (r.release n).peek i = r.peek (n.toNat + i) := by
  show r.desc (r.slot (r.consumer + n + UInt32.ofNat i)) = _
  rw [peek, UInt32.ofNat_add, UInt32.ofNat_toNat, UInt32.add_assoc]

theorem contents_publish {frames : List δ} (hn : r.used + n.toNat < 2 ^ 32)
    (hframes : ∀ j < n.toNat, frames[j]? = some (r.peek (r.used + j))) :
    (r.publish n).contents = r.contents ++ frames.take n.toNat := by
  have hnew : frames.take n.toNat = (List.range n.toNat).map fun j => r.peek (r.used + j) := by
    refine List.ext_getElem? fun j => ?_
    by_cases hj : j < n.toNat
    · rw [List.getElem?_take_of_lt hj, hframes j hj, List.getElem?_map, List.getElem?_range hj]
      rfl
    · rw [List.getElem?_take_eq_none (Nat.le_of_not_lt hj), List.getElem?_eq_none]
      simpa using Nat.le_of_not_lt hj
  rw [hnew, contents, contents, used_publish hn, List.range_add, List.map_append, List.map_map]
  rfl

theorem contents_release (hn : n.toNat ≤ r.used) :
    (r.release n).contents = r.contents.drop n.toNat := by
  refine List.ext_getElem? fun j => ?_
  rw [List.getElem?_drop]
  by_cases hj : j < r.used - n.toNat
  · rw [getElem?_contents (by rw [used_release hn]; exact hj), getElem?_contents (by omega),
      peek_release]
  · rw [List.getElem?_eq_none, List.getElem?_eq_none]
    · rw [length_contents]
      omega
    · rw [length_contents, used_release hn]
      omega

end Move

theorem ConsumeOk.of_append {r' : SlotRing δ} {new : List δ} (h : r.ConsumeOk c)
    (hcon : r'.consumer = r.consumer) (hcts : r'.contents = r.contents ++ new) :
    r'.ConsumeOk c := by
  have hused : r.used ≤ r'.used := by
    rw [← length_contents, ← length_contents r', hcts, List.length_append]
    omega
  cases c with
  | idle | started max | returned out => trivial
  | loaded max prod =>
    show (prod - r'.consumer).toNat ≤ r'.used
    rw [hcon]
    exact Nat.le_trans h hused
  | sized n => exact Nat.le_trans h hused
  | reading n cons out =>
    obtain ⟨hcons, hn, hlen, hout⟩ := h
    refine ⟨hcons.trans hcon.symm, Nat.le_trans hn hused, hlen, ?_⟩
    rw [hcts, List.take_append_of_le_length]
    · exact hout
    · rw [length_contents]
      omega

variable {n prod i : UInt32} {frames : List δ} {d : δ}

theorem ProduceOk.release (h : r.ProduceOk p) (hn : n.toNat ≤ r.used) :
    (r.release n).ProduceOk p := by
  have hused := used_release hn
  cases p with
  | idle | started frames | returned frames m => trivial
  | loaded frames prod => exact h
  | sized frames m =>
    obtain ⟨hroom, hm⟩ := h
    refine ⟨?_, hm⟩
    exact Nat.le_trans (by omega) hroom
  | writing frames m prod i =>
    obtain ⟨hprod, hroom, hm, hi, hwr⟩ := h
    refine ⟨hprod, ?_, hm, hi, fun j hj => ?_⟩
    · rw [hused]
      exact Nat.le_trans (by omega) hroom
    · rw [hused, peek_release, hwr j hj]
      congr 2
      omega

theorem toNat_free (hle : r.used ≤ 2 ^ r.order) :
    (r.size - (r.producer - r.consumer)).toNat = 2 ^ r.order - r.used := by
  have hsub : r.producer - r.consumer ≤ r.size := by
    rw [UInt32.le_iff_toNat_le, toNat_size]
    exact hle
  rw [UInt32.toNat_sub_of_le _ _ hsub, toNat_size]
  rfl

theorem Sound.produce_loaded (h : Sound r (.loaded frames prod) c) :
    Sound (r.produceStep (.loaded frames prod)).1 (r.produceStep (.loaded frames prod)).2 c ∧
      (r.produceStep (.loaded frames prod)).1 = r := by
  obtain rfl : prod = r.producer := h.producer
  simp only [produceStep]
  split
  · exact ⟨⟨h.used_le, trivial, h.consumer⟩, rfl⟩
  · have hroom := toNat_atMost_le_room frames.length (r.size - (r.producer - r.consumer))
    have hle := h.used_le
    rw [toNat_free hle] at hroom
    have hsz : r.ProduceOk
        (.sized frames (atMost frames.length (r.size - (r.producer - r.consumer)))) :=
      ⟨by omega, toNat_atMost_le_want ..⟩
    exact ⟨⟨hle, hsz, h.consumer⟩, rfl⟩

theorem produceStep_write (hprod : prod = r.producer)
    (hi : i < n) (hd : frames[i.toNat]? = some d) :
    r.produceStep (.writing frames n prod i) =
      (r.write i.toNat d, .writing frames n prod (i + 1)) := by
  simp only [produceStep, if_pos hi, hd, write, hprod, UInt32.ofNat_toNat]

theorem produceStep_publish (hprod : prod = r.producer) (hi : ¬ i < n) :
    r.produceStep (.writing frames n prod i) = (r.publish n, .returned frames n) := by
  simp only [produceStep, if_neg hi, publish, hprod]

theorem toNat_succ (hi : i < n) : (i + 1).toNat = i.toNat + 1 := by
  have hlt := UInt32.lt_iff_toNat_lt.mp hi
  have hn := n.toNat_lt
  have hone : (1 : UInt32).toNat = 1 := rfl
  rw [UInt32.toNat_add, hone]
  omega

theorem Sound.produce_write (h : Sound r (.writing frames n prod i) c) (hi : i < n)
    (hd : frames[i.toNat]? = some d) :
    Sound (r.write i.toNat d) (.writing frames n prod (i + 1)) c ∧
      (r.write i.toNat d).contents = r.contents := by
  obtain ⟨hprod, hroom, hn, -, hwr⟩ := h.producer
  have hlt : i.toNat < n.toNat := lt_iff_toNat_lt.mp hi
  have hcts : (r.write i.toNat d).contents = r.contents := contents_write (by omega)
  refine ⟨⟨h.used_le, ⟨hprod, hroom, hn, ?_, fun j hj => ?_⟩, ?_⟩, hcts⟩
  · rw [toNat_succ hi]
    exact hlt
  · rw [toNat_succ hi] at hj
    rw [used_write]
    rcases Nat.lt_or_ge j i.toNat with hold | hnew
    · rw [peek_write_of_lt (by omega) (by omega)]
      exact hwr j hold
    · obtain rfl : j = i.toNat := by omega
      rw [peek_write_self, hd]
  · exact h.consumer.of_append rfl (hcts.trans (List.append_nil _).symm)

theorem Sound.produce_publish (h : Sound r (.writing frames n prod i) c) (hi : ¬ i < n) :
    Sound (r.publish n) (.returned frames n) c ∧
      (r.publish n).contents = r.contents ++ frames.take n.toNat := by
  obtain ⟨-, hroom, -, hin, hwr⟩ := h.producer
  have hge : n.toNat ≤ i.toNat := Nat.le_of_not_lt fun hlt => hi (lt_iff_toNat_lt.mpr hlt)
  have hbound := r.two_pow_order_le
  have hlt : r.used + n.toNat < 2 ^ 32 := by omega
  have hcts := contents_publish hlt fun j hj => hwr j (Nat.lt_of_lt_of_le hj hge)
  refine ⟨⟨?_, trivial, h.consumer.of_append rfl hcts⟩, hcts⟩
  rw [used_publish hlt]
  exact hroom

theorem Sound.produce (h : Sound r p c) : Sound (r.produceStep p).1 (r.produceStep p).2 c ∧
    (r.produceStep p).1.contents = r.contents ++ publishes p := by
  cases p with
  | idle | returned frames n => exact ⟨h, (List.append_nil _).symm⟩
  | started frames => exact ⟨⟨h.used_le, rfl, h.consumer⟩, (List.append_nil _).symm⟩
  | loaded frames prod =>
    obtain ⟨hsd, hring⟩ := h.produce_loaded
    exact ⟨hsd, (congrArg contents hring).trans (List.append_nil _).symm⟩
  | sized frames n =>
    obtain ⟨hroom, hn⟩ := h.producer
    refine ⟨⟨h.used_le, ⟨rfl, hroom, hn, Nat.zero_le _, fun j hj => ?_⟩, h.consumer⟩,
      (List.append_nil _).symm⟩
    exact absurd hj (Nat.not_lt_zero j)
  | writing frames n prod i =>
    obtain ⟨hprod, -, hn, -, -⟩ := h.producer
    by_cases hi : i < n
    · have hlt : i.toNat < frames.length := Nat.lt_of_lt_of_le (lt_iff_toNat_lt.mp hi) hn
      have hd := List.getElem?_eq_getElem hlt
      obtain ⟨hsd, hcts⟩ := h.produce_write hi hd
      rw [produceStep_write hprod hi hd, publishes, if_pos hi, List.append_nil]
      exact ⟨hsd, hcts⟩
    · rw [produceStep_publish hprod hi, publishes, if_neg hi]
      exact h.produce_publish hi

theorem Sound.consume_reading {cons : UInt32} {out : List δ} (h : Sound r p (.reading n cons out)) :
    Sound (r.consumeStep (.reading n cons out)).1 p (r.consumeStep (.reading n cons out)).2 ∧
      r.contents = takes (.reading n cons out) ++
        (r.consumeStep (.reading n cons out)).1.contents := by
  obtain ⟨rfl, hn, hlen, hout⟩ := h.consumer
  by_cases hlt : out.length < n.toNat
  · rw [takes, if_pos hlt, consumeStep, if_pos hlt]
    have hreading : r.ConsumeOk
        (.reading n r.consumer (out ++ [r.desc (r.slot (r.consumer + UInt32.ofNat out.length))])) := by
      refine ⟨rfl, hn, ?_, ?_⟩
      · rw [List.length_append]
        exact hlt
      · rw [List.length_append, List.length_singleton, List.take_add_one, ← hout,
          getElem?_contents (Nat.lt_of_lt_of_le hlt hn)]
        rfl
    exact ⟨⟨h.used_le, h.producer, hreading⟩, rfl⟩
  · have heq : out.length = n.toNat := by omega
    rw [takes, if_neg hlt, consumeStep, if_neg hlt]
    refine ⟨⟨?_, h.producer.release hn, trivial⟩, ?_⟩
    · show (r.release n).used ≤ 2 ^ r.order
      rw [used_release hn]
      exact Nat.le_trans (Nat.sub_le _ _) h.used_le
    · show r.contents = out ++ (r.release n).contents
      rw [contents_release hn, hout, heq, List.take_append_drop]

theorem Sound.consume (h : Sound r p c) : Sound (r.consumeStep c).1 p (r.consumeStep c).2 ∧
    r.contents = takes c ++ (r.consumeStep c).1.contents := by
  cases c with
  | idle | returned out => exact ⟨h, rfl⟩
  | started max => exact ⟨⟨h.used_le, h.producer, Nat.le_refl _⟩, rfl⟩
  | loaded max prod =>
    have havail : (prod - r.consumer).toNat ≤ r.used := h.consumer
    simp only [consumeStep]
    split
    · exact ⟨⟨h.used_le, h.producer, trivial⟩, rfl⟩
    · have hsz : r.ConsumeOk (.sized (atMost max (prod - r.consumer))) :=
        Nat.le_trans (toNat_atMost_le_room ..) havail
      exact ⟨⟨h.used_le, h.producer, hsz⟩, rfl⟩
  | sized n => exact ⟨⟨h.used_le, h.producer, ⟨rfl, h.consumer, Nat.zero_le _, rfl⟩⟩, rfl⟩
  | reading n cons out => exact h.consume_reading

theorem Sound.writes_ne (h : Sound r p c) {target : UInt32} (hw : r.writes p = some target) {i : Nat}
    (hi : i < r.used) : r.slot (r.consumer + UInt32.ofNat i) ≠ target := by
  cases p with
  | writing frames n prod k =>
    obtain ⟨rfl, hroom, -, -, -⟩ := h.producer
    obtain ⟨hk, hw⟩ := Option.ite_none_right_eq_some.mp hw
    cases hw
    have hlt := UInt32.lt_iff_toNat_lt.mp hk
    have htgt : r.producer + k = r.consumer + UInt32.ofNat (r.used + k.toNat) := by
      rw [← producer_add, UInt32.ofNat_toNat]
    rw [htgt]
    exact r.slot_add_ne _ (by omega) (by omega)
  | _ => cases hw

theorem produceStep_spec (r : SlotRing δ) (p : ProduceCall δ) :
    offered p = publishes p ++ offered (r.produceStep p).2 ∧ (r.produceStep p).1.order = r.order ∧
      (p ≠ .idle → (r.produceStep p).2 ≠ .idle) := by
  cases p with
  | idle => exact ⟨rfl, rfl, id⟩
  | started frames | sized frames n | returned frames n => exact ⟨rfl, rfl, fun _ => nofun⟩
  | loaded frames prod =>
    simp only [produceStep]
    split <;> exact ⟨rfl, rfl, fun _ => nofun⟩
  | writing frames n prod i =>
    simp only [produceStep, publishes]
    split
    · split <;> exact ⟨rfl, rfl, fun _ => nofun⟩
    · exact ⟨(List.take_append_drop n.toNat frames).symm, rfl, fun _ => nofun⟩

theorem consumeStep_spec (r : SlotRing δ) (c : ConsumeCall δ) :
    received (r.consumeStep c).2 = received c ++ takes c ∧ (r.consumeStep c).1.order = r.order := by
  cases c with
  | idle | started max | sized n => exact ⟨rfl, rfl⟩
  | returned out => exact ⟨(List.append_nil out).symm, rfl⟩
  | loaded max prod =>
    simp only [consumeStep]
    split <;> exact ⟨rfl, rfl⟩
  | reading n cons out =>
    simp only [consumeStep, takes]
    split <;> exact ⟨rfl, rfl⟩

theorem Sound.contents_append_offered (h : Sound r p c) :
    (r.produceStep p).1.contents ++ offered (r.produceStep p).2 = r.contents ++ offered p := by
  rw [h.produce.2, List.append_assoc, ← (r.produceStep_spec p).1]

theorem Sound.received_append_contents (h : Sound r p c) :
    received (r.consumeStep c).2 ++ (r.consumeStep c).1.contents = received c ++ r.contents := by
  rw [h.consume.2, (r.consumeStep_spec c).1, List.append_assoc]

def remaining : ProduceCall δ → Nat
  | .idle | .returned _ _ => 0
  | .started frames => frames.length + 4
  | .loaded frames _ => frames.length + 3
  | .sized _ n => n.toNat + 2
  | .writing _ n _ i => n.toNat - i.toNat + 1

theorem Sound.remaining_lt (h : Sound r p c) (hp : remaining p ≠ 0) :
    remaining (r.produceStep p).2 < remaining p := by
  cases p with
  | idle | returned frames n => exact absurd rfl hp
  | started frames => exact Nat.lt_succ_self _
  | loaded frames prod =>
    have hwant := toNat_atMost_le_want frames.length (r.size - (prod - r.consumer))
    simp only [produceStep]
    split
    · exact Nat.succ_pos _
    · show _ + 2 < _ + 3
      omega
  | sized frames n =>
    show n.toNat - 0 + 1 < n.toNat + 2
    omega
  | writing frames n prod i =>
    obtain ⟨hprod, -, hn, -, -⟩ := h.producer
    by_cases hi : i < n
    · have hlt := lt_iff_toNat_lt.mp hi
      have hd := List.getElem?_eq_getElem (Nat.lt_of_lt_of_le hlt hn)
      rw [produceStep_write hprod hi hd]
      show n.toNat - (i + 1).toNat + 1 < n.toNat - i.toNat + 1
      rw [toNat_succ hi]
      omega
    · rw [produceStep_publish hprod hi]
      exact Nat.succ_pos _

theorem produceStep_full (hfull : r.used = 2 ^ r.order) (frames : List δ) :
    r.produceStep (.loaded frames r.producer) = (r, .returned frames 0) := by
  have hfree := toNat_free (Nat.le_of_eq hfull)
  have hnone := toNat_atMost_le_room frames.length (r.size - (r.producer - r.consumer))
  have hzero : atMost frames.length (r.size - (r.producer - r.consumer)) = 0 := by
    refine UInt32.toNat_inj.mp ?_
    show _ = 0
    omega
  simp only [produceStep, hzero, if_true]

def Whole : ProduceCall δ → Prop
  | .sized frames n | .writing frames n _ _ | .returned frames n => n.toNat = frames.length
  | .idle | .started _ | .loaded _ _ => True

theorem offered_of_whole (h : Whole (.returned frames n)) : offered (.returned frames n) = [] :=
  List.drop_eq_nil_of_le (Nat.le_of_eq h.symm)

theorem toNat_atMost_of_le {want : Nat} {room : UInt32} (h : want ≤ room.toNat) :
    (atMost want room).toNat = want := by
  have hroom := room.toNat_lt
  have hwant : (UInt32.ofNat want).toNat = want := by
    rw [toNat_ofNat', Nat.mod_eq_of_lt]
    omega
  have hle : ¬ UInt32.ofNat want > room := by
    rw [gt_iff_lt, lt_iff_toNat_lt, hwant]
    omega
  rw [atMost, if_neg hle, hwant]

theorem Sound.whole (h : Sound r p c) (hp : Whole p)
    (hroom : r.used + (offered p).length ≤ 2 ^ r.order) : Whole (r.produceStep p).2 := by
  cases p with
  | idle | started frames => trivial
  | sized frames n | returned frames n => exact hp
  | loaded frames prod =>
    obtain rfl : prod = r.producer := h.producer
    have hfree := toNat_free h.used_le
    have hroom : r.used + frames.length ≤ 2 ^ r.order := hroom
    have hn : (atMost frames.length (r.size - (r.producer - r.consumer))).toNat = frames.length :=
      toNat_atMost_of_le (by omega)
    simp only [produceStep]
    split
    · rename_i hzero
      rw [hzero] at hn
      exact hn
    · exact hn
  | writing frames n prod i =>
    simp only [produceStep]
    split
    · split <;> exact hp
    · exact hp

end SlotRing

end SharedRing
