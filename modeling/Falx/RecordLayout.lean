import Mathlib.Algebra.Ring.Nat
import Mathlib.Data.List.Basic

/-! Records in memory. A field starts at the next multiple of its alignment, numbers are
stored with the low byte first, and a record is filled up to a multiple of its own
alignment. Two definitions of a record agree on a field that they place alike. -/

namespace RecordLayout

open List

inductive FieldType where
  | uint (width : Nat)
  | bytes (n : Nat)
  deriving DecidableEq

namespace FieldType

def size : FieldType → Nat
  | uint width => width
  | bytes n => n

def alignment : FieldType → Nat
  | uint width => width
  | bytes _ => 1

end FieldType

inductive Value where
  | num (n : Nat)
  | bytes (bs : List UInt8)
  deriving DecidableEq

def littleEndian : Nat → Nat → List UInt8
  | 0, _ => []
  | w + 1, n => UInt8.ofNat n :: littleEndian w (n / 256)

def ofLittleEndian : List UInt8 → Nat
  | [] => 0
  | b :: bs => b.toNat + 256 * ofLittleEndian bs

theorem length_littleEndian (w n : Nat) : (littleEndian w n).length = w := by
  induction w generalizing n with
  | zero => rfl
  | succ w ih => rw [littleEndian, length_cons, ih]

theorem ofLittleEndian_littleEndian {w n : Nat} (h : n < 256 ^ w) :
    ofLittleEndian (littleEndian w n) = n := by
  induction w generalizing n with
  | zero =>
    rw [littleEndian, ofLittleEndian]
    omega
  | succ w ih =>
    have hdiv : n / 256 < 256 ^ w := Nat.div_lt_of_lt_mul (by rwa [Nat.pow_succ'] at h)
    rw [littleEndian, ofLittleEndian, ih hdiv, UInt8.toNat_ofNat']
    omega

namespace FieldType

def Holds : FieldType → Value → Prop
  | uint width, .num n => n < 256 ^ width
  | bytes n, .bytes bs => bs.length = n
  | _, _ => False

instance : (t : FieldType) → (v : Value) → Decidable (t.Holds v)
  | uint width, .num n => inferInstanceAs (Decidable (n < 256 ^ width))
  | bytes n, .bytes bs => inferInstanceAs (Decidable (bs.length = n))
  | uint _, .bytes _ => inferInstanceAs (Decidable False)
  | bytes _, .num _ => inferInstanceAs (Decidable False)

def encode : FieldType → Value → List UInt8
  | uint width, .num n => littleEndian width n
  | bytes _, .bytes bs => bs
  | t, _ => List.replicate t.size 0

def decode : FieldType → List UInt8 → Value
  | uint _, bs => .num (ofLittleEndian bs)
  | bytes _, bs => .bytes bs

theorem length_encode {t : FieldType} {v : Value} (h : t.Holds v) :
    (t.encode v).length = t.size := by
  cases t with
  | uint width =>
    cases v with
    | num n => exact length_littleEndian width n
    | bytes bs => exact h.elim
  | bytes n =>
    cases v with
    | num k => exact h.elim
    | bytes bs => exact h

theorem decode_encode {t : FieldType} {v : Value} (h : t.Holds v) : t.decode (t.encode v) = v := by
  cases t with
  | uint width =>
    cases v with
    | num n => exact congrArg Value.num (ofLittleEndian_littleEndian h)
    | bytes bs => exact h.elim
  | bytes n =>
    cases v with
    | num k => exact h.elim
    | bytes bs => rfl

end FieldType

def roundUp (n a : Nat) : Nat := n + (a - n % a) % a

theorem le_roundUp (n a : Nat) : n ≤ roundUp n a := Nat.le_add_right _ _

variable {ν : Type}

abbrev Layout (ν : Type) := List (ν × FieldType)

namespace Layout

def places : Layout ν → Nat → List (ν × FieldType × Nat)
  | [], _ => []
  | (x, t) :: fields, off =>
    (x, t, roundUp off t.alignment) :: places fields (roundUp off t.alignment + t.size)

def fieldsEnd : Layout ν → Nat → Nat
  | [], off => off
  | (_, t) :: fields, off => fieldsEnd fields (roundUp off t.alignment + t.size)

def alignment (fields : Layout ν) : Nat := (fields.map (·.2.alignment)).foldl max 1

def size (fields : Layout ν) : Nat := roundUp (fieldsEnd fields 0) (alignment fields)

def encodeFields (r : ν → Value) : Layout ν → Nat → List UInt8
  | [], _ => []
  | (x, t) :: fields, off =>
    List.replicate (roundUp off t.alignment - off) 0 ++ t.encode (r x) ++
      encodeFields r fields (roundUp off t.alignment + t.size)

def encode (fields : Layout ν) (r : ν → Value) : List UInt8 :=
  encodeFields r fields 0 ++ List.replicate (size fields - fieldsEnd fields 0) 0

def place [DecidableEq ν] (fields : Layout ν) (x : ν) : Option (FieldType × Nat) :=
  ((places fields 0).find? (·.1 = x)).map Prod.snd

def decode [DecidableEq ν] (fields : Layout ν) (bs : List UInt8) (x : ν) : Option Value :=
  (place fields x).map fun q => q.1.decode ((bs.drop q.2).take q.1.size)

def Holds (fields : Layout ν) (r : ν → Value) : Prop := ∀ f ∈ fields, f.2.Holds (r f.1)

section Encode

variable {fields : Layout ν} {r : ν → Value}

theorem length_encodeFields (h : Holds fields r) (off : Nat) :
    off + (encodeFields r fields off).length = fieldsEnd fields off := by
  induction fields generalizing off with
  | nil => rfl
  | cons f fields ih =>
    obtain ⟨x, t⟩ := f
    obtain ⟨hf, hrest⟩ := forall_mem_cons.mp h
    have hle := le_roundUp off t.alignment
    have hlen : (t.encode (r x)).length = t.size := FieldType.length_encode hf
    have hend := ih hrest (roundUp off t.alignment + t.size)
    rw [fieldsEnd, ← hend, encodeFields, length_append, length_append,
      length_replicate, hlen]
    omega

theorem length_encode (h : Holds fields r) : (encode fields r).length = size fields := by
  have hend := length_encodeFields h 0
  have hle := le_roundUp (fieldsEnd fields 0) (alignment fields)
  rw [encode, length_append, length_replicate, size]
  omega

variable {x : ν} {t : FieldType} {p off : Nat}

theorem le_of_mem_places (h : (x, t, p) ∈ places fields off) : off ≤ p := by
  induction fields generalizing off with
  | nil => simp [places] at h
  | cons f fields ih =>
    obtain ⟨y, u⟩ := f
    have hle := le_roundUp off u.alignment
    rcases mem_cons.mp h with heq | hmem
    · cases heq
      exact hle
    · have hlt := ih hmem
      omega

theorem holds_of_mem_places (hr : Holds fields r) (h : (x, t, p) ∈ places fields off) :
    t.Holds (r x) := by
  induction fields generalizing off with
  | nil => simp [places] at h
  | cons f fields ih =>
    obtain ⟨hf, hrest⟩ := forall_mem_cons.mp hr
    rcases mem_cons.mp h with heq | hmem
    · cases heq
      exact hf
    · exact ih hrest hmem

theorem map_fst_places (fields : Layout ν) (off : Nat) :
    (places fields off).map Prod.fst = fields.map Prod.fst := by
  induction fields generalizing off with
  | nil => rfl
  | cons f fields ih => rw [places, map_cons, map_cons, ih]

theorem slice_encodeFields (hr : Holds fields r) (h : (x, t, p) ∈ places fields off)
    (tail : List UInt8) :
    ((encodeFields r fields off ++ tail).drop (p - off)).take t.size = t.encode (r x) := by
  induction fields generalizing off with
  | nil => simp [places] at h
  | cons f fields ih =>
    obtain ⟨y, u⟩ := f
    obtain ⟨hf, hrest⟩ := forall_mem_cons.mp hr
    have hle := le_roundUp off u.alignment
    have hlen : (u.encode (r y)).length = u.size := FieldType.length_encode hf
    rw [encodeFields, append_assoc, append_assoc]
    rcases mem_cons.mp h with heq | hmem
    · cases heq
      rw [drop_left' (length_replicate ..), take_left' hlen]
    · have hlt := le_of_mem_places hmem
      have hsp : p - off = (roundUp off u.alignment - off) +
          (u.size + (p - (roundUp off u.alignment + u.size))) := by omega
      rw [hsp, ← drop_drop, drop_left' (length_replicate ..), ← drop_drop,
        drop_left' hlen]
      exact ih hrest hmem

end Encode

section Agreement

variable [DecidableEq ν] {fields mirror : Layout ν} {r : ν → Value} {x : ν}

theorem mem_places_of_place {t : FieldType} {p : Nat} (h : place fields x = some (t, p)) :
    (x, t, p) ∈ places fields 0 := by
  obtain ⟨f, hfind, hf⟩ := Option.map_eq_some_iff.mp h
  have hx : f.1 = x := by simpa using List.find?_some hfind
  have hmem := mem_of_find?_eq_some hfind
  obtain ⟨y, u⟩ := f
  cases hf
  cases hx
  exact hmem

theorem exists_place (h : x ∈ fields.map Prod.fst) : ∃ t p, place fields x = some (t, p) := by
  rw [← map_fst_places fields 0] at h
  obtain ⟨f, hf, hx⟩ := mem_map.mp h
  have hfd : ((places fields 0).find? (·.1 = x)).isSome = true :=
    List.find?_isSome.mpr ⟨f, hf, by simpa using hx⟩
  obtain ⟨⟨y, t, p⟩, hg⟩ := Option.isSome_iff_exists.mp hfd
  exact ⟨t, p, Option.map_eq_some_iff.mpr ⟨_, hg, rfl⟩⟩

/-- A field that both layouts place alike is read back by the one as the other stored it. -/
theorem decode_encode {t : FieldType} {p : Nat} (hr : Holds fields r)
    (hfield : place fields x = some (t, p)) (hmirror : place mirror x = some (t, p)) :
    decode mirror (encode fields r) x = some (r x) := by
  have hmem := mem_places_of_place hfield
  have hsc := slice_encodeFields hr hmem (List.replicate (size fields - fieldsEnd fields 0) 0)
  rw [decode, hmirror, Option.map_some, encode]
  rw [Nat.sub_zero] at hsc
  rw [hsc, FieldType.decode_encode (holds_of_mem_places hr hmem)]

end Agreement

end Layout

end RecordLayout
