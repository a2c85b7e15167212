import Falx.Words

/-! The MMDB data format: values as trees, the bytes that stand for them, and what it
means for a section of data to hold a tree. A pointer carries the tree it points to, so
that looking something up needs no data. -/

namespace MmdbFormat

def sizeLimit : Nat := 65821 + 2 ^ 24

def sizeBytes (size : Nat) : Nat × List UInt8 :=
  if size < 29 then (size, [])
  else if size < 285 then (29, [UInt8.ofNat (size - 29)])
  else if size < 65821 then
    (30, [UInt8.ofNat ((size - 285) / 256), UInt8.ofNat ((size - 285) % 256)])
  else
    (31, [UInt8.ofNat ((size - 65821) / 65536), UInt8.ofNat ((size - 65821) / 256 % 256),
      UInt8.ofNat ((size - 65821) % 256)])

def ctrlBytes (type size : Nat) : List UInt8 :=
  if type < 8 then UInt8.ofNat (type * 32 + (sizeBytes size).1) :: (sizeBytes size).2
  else UInt8.ofNat (sizeBytes size).1 :: UInt8.ofNat (type - 7) :: (sizeBytes size).2

/-- Values that are their payload: numbers, and bytes with no structure. -/
inductive Scalar where
  | double
  | bytes
  | uint16
  | uint32
  | int32
  | uint64
  | uint128
  | float
  deriving DecidableEq

namespace Scalar

def type : Scalar → Nat
  | double => 3
  | bytes => 4
  | uint16 => 5
  | uint32 => 6
  | int32 => 8
  | uint64 => 9
  | uint128 => 10
  | float => 15

def Fits : Scalar → Nat → Prop
  | double, n => n = 8
  | bytes, n => n < sizeLimit
  | uint16, n => n ≤ 2
  | uint32, n => n ≤ 4
  | int32, n => n ≤ 4
  | uint64, n => n ≤ 8
  | uint128, n => n ≤ 16
  | float, n => n = 4

def unsigned : Scalar → Bool
  | uint16 | uint32 | uint64 | uint128 => true
  | _ => false

end Scalar

def bigEndian (bs : List UInt8) : Nat := bs.foldl (fun v b => v * 256 + b.toNat) 0

/-- A control byte of the form 001SSVVV and SS + 1 bytes behind it. -/
structure Pointer where
  low : Fin 8
  tail : List UInt8
  pos : 0 < tail.length
  le : tail.length ≤ 4

namespace Pointer

def bytes (p : Pointer) : List UInt8 :=
  UInt8.ofNat (32 + (p.tail.length - 1) * 8 + p.low.val) :: p.tail

def offset (p : Pointer) : Nat :=
  match p.tail.length with
  | 1 => p.low.val * 2 ^ 8 + bigEndian p.tail
  | 2 => p.low.val * 2 ^ 16 + bigEndian p.tail + 2048
  | 3 => p.low.val * 2 ^ 24 + bigEndian p.tail + 526336
  | _ => bigEndian p.tail

end Pointer

mutual

inductive Node where
  | utf8 (s : List UInt8)
  | scalar (t : Scalar) (payload : List UInt8)
  | bool (b : Bool)
  | array (items : Nodes)
  | map (entries : Entries)
  | pointer (p : Pointer) (target : Node)

inductive Nodes where
  | nil
  | cons (n : Node) (ns : Nodes)

inductive Entries where
  | nil
  | cons (key value : Node) (es : Entries)

end

def Nodes.length : Nodes → Nat
  | .nil => 0
  | .cons _ ns => ns.length + 1

def Entries.length : Entries → Nat
  | .nil => 0
  | .cons _ _ es => es.length + 1

mutual

def Node.bytes : Node → List UInt8
  | .utf8 s => ctrlBytes 2 s.length ++ s
  | .scalar t payload => ctrlBytes t.type payload.length ++ payload
  | .bool b => ctrlBytes 14 b.toNat
  | .array items => ctrlBytes 11 items.length ++ items.bytes
  | .map entries => ctrlBytes 7 entries.length ++ entries.bytes
  | .pointer p _ => p.bytes

def Nodes.bytes : Nodes → List UInt8
  | .nil => []
  | .cons n ns => n.bytes ++ ns.bytes

def Entries.bytes : Entries → List UInt8
  | .nil => []
  | .cons key value es => key.bytes ++ (value.bytes ++ es.bytes)

end

/-- The value behind a pointer; there are no pointers to pointers. -/
def Node.deref : Node → Node
  | .pointer _ target => target
  | n => n

def Node.text : Node → Option (List UInt8)
  | .utf8 s => some s
  | .pointer _ (.utf8 s) => some s
  | _ => none

def Entries.keys : Entries → List (Option (List UInt8))
  | .nil => []
  | .cons key _ es => key.text :: es.keys

def Entries.get (name : List UInt8) : Entries → Option Node
  | .nil => none
  | .cons key value es => if key.text = some name then some value.deref else es.get name

def Node.isPointer : Node → Bool
  | .pointer _ _ => true
  | _ => false

def Node.type : Node → Nat
  | .utf8 _ => 2
  | .scalar t _ => t.type
  | .bool _ => 14
  | .array _ => 11
  | .map _ => 7
  | .pointer _ _ => 1

def Node.size : Node → Nat
  | .utf8 s => s.length
  | .scalar _ payload => payload.length
  | .bool b => b.toNat
  | .array items => items.length
  | .map entries => entries.length
  | .pointer p _ => p.tail.length

def Node.payload : Node → List UInt8
  | .utf8 s => s
  | .scalar _ payload => payload
  | .bool _ => []
  | .array items => items.bytes
  | .map entries => entries.bytes
  | .pointer p _ => p.tail

/-- The control bytes give the size. For a pointer they do so by chance: it is the one
byte 0x21, with one byte behind it. -/
def Node.Sized : Node → Prop
  | .pointer p _ => p.tail.length = 1 ∧ p.low = 1
  | _ => True

mutual

/-- Sizes are right, keys are strings that differ, and every pointer of the tree points
to its target in the data section that starts at `base`. -/
def Node.Valid (data : List UInt8) (base : Nat) : Node → Prop
  | .utf8 s => s.length < sizeLimit
  | .scalar t payload => t.Fits payload.length
  | .bool _ => True
  | .array items => items.length < sizeLimit ∧ items.Valid data base
  | .map entries =>
    entries.length < sizeLimit ∧ entries.Valid data base ∧ none ∉ entries.keys ∧
      entries.keys.Nodup
  | .pointer p target =>
    target.isPointer = false ∧ target.bytes <+: data.drop (base + p.offset) ∧
      target.Valid data base

def Nodes.Valid (data : List UInt8) (base : Nat) : Nodes → Prop
  | .nil => True
  | .cons n ns => n.Valid data base ∧ ns.Valid data base

def Entries.Valid (data : List UInt8) (base : Nat) : Entries → Prop
  | .nil => True
  | .cons key value es => key.Valid data base ∧ value.Valid data base ∧ es.Valid data base

end

theorem ctrlBytes_ne_nil (type size : Nat) : ctrlBytes type size ≠ [] := by
  unfold ctrlBytes
  split <;> exact List.cons_ne_nil _ _

variable {n : Node} {t : Scalar} {bs data : List UInt8}

theorem Node.bytes_eq (h : n.Sized) : n.bytes = ctrlBytes n.type n.size ++ n.payload := by
  cases n with
  | bool b => exact (List.append_nil _).symm
  | pointer p target =>
    obtain ⟨hlen, hlow⟩ := h
    simp only [Node.bytes, Pointer.bytes, Node.type, Node.size, Node.payload, hlen, hlow]
    rfl
  | _ => rfl

theorem Node.bytes_ne_nil (n : Node) : n.bytes ≠ [] := by
  cases n with
  | pointer p target => exact List.cons_ne_nil _ _
  | _ =>
    rw [Node.bytes_eq (by trivial)]
    exact List.append_ne_nil_of_left_ne_nil (ctrlBytes_ne_nil _ _) _

theorem Node.type_pos (n : Node) : 0 < n.type := by
  cases n with
  | scalar t payload => cases t <;> simp [Node.type, Scalar.type]
  | _ => simp [Node.type]

theorem Node.type_lt (n : Node) : n.type < 16 := by
  cases n with
  | scalar t payload => cases t <;> simp [Node.type, Scalar.type]
  | _ => simp [Node.type]

theorem Node.type_eq_utf8 (h : n.type = 2) : ∃ s, n = .utf8 s := by
  cases n with
  | utf8 s => exact ⟨s, rfl⟩
  | scalar t payload => cases t <;> cases h
  | _ => cases h

theorem Node.type_eq_map (h : n.type = 7) : ∃ entries, n = .map entries := by
  cases n with
  | map entries => exact ⟨entries, rfl⟩
  | scalar t payload => cases t <;> cases h
  | _ => cases h

theorem Node.type_eq_scalar (h : n.type = t.type) : ∃ payload, n = .scalar t payload := by
  cases n with
  | scalar t' payload =>
    have ht : t' = t := by
      cases t' <;> cases t <;> first | rfl | cases h
    exact ⟨payload, by rw [ht]⟩
  | _ => cases t <;> cases h

theorem Node.type_eq_bool (h : n.type = 14) : ∃ b, n = .bool b := by
  cases n with
  | bool b => exact ⟨b, rfl⟩
  | scalar t payload => cases t <;> cases h
  | _ => cases h

theorem Node.type_eq_array (h : n.type = 11) : ∃ items, n = .array items := by
  cases n with
  | array items => exact ⟨items, rfl⟩
  | scalar t payload => cases t <;> cases h
  | _ => cases h

theorem Node.type_eq_pointer (h : n.type = 1) : ∃ p target, n = .pointer p target := by
  cases n with
  | pointer p target => exact ⟨p, target, rfl⟩
  | scalar t payload => cases t <;> cases h
  | _ => cases h

theorem eq_of_prefixes_of_length {cs : List UInt8} (h : bs <+: data) (h' : cs <+: data)
    (hlen : bs.length = cs.length) : bs = cs :=
  (List.prefix_of_prefix_length_le h h' (Nat.le_of_eq hlen)).eq_of_length hlen

theorem Pointer.eq_of_stored {p p' : Pointer} (h : p.bytes <+: bs) (h' : p'.bytes <+: bs) :
    p = p' := by
  obtain ⟨low, tail, hpos, hle⟩ := p
  obtain ⟨low', tail', hpos', hle'⟩ := p'
  cases bs with
  | nil => exact absurd (List.prefix_nil.mp h) (List.cons_ne_nil _ _)
  | cons b bs =>
    obtain ⟨hb, htail⟩ := List.cons_prefix_cons.mp h
    obtain ⟨hb', htail'⟩ := List.cons_prefix_cons.mp h'
    have hbyte := congrArg UInt8.toNat (hb.trans hb'.symm)
    simp only [UInt8.toNat_ofNat'] at hbyte
    have hlen : tail.length = tail'.length := by omega
    have heq : tail = tail' := eq_of_prefixes_of_length htail htail' hlen
    have hlo : low = low' := Fin.ext (by omega)
    subst heq hlo
    rfl

theorem Entries.get_eq_none {name : List UInt8} :
    (es : Entries) → some name ∉ es.keys → es.get name = none
  | .nil, _ => rfl
  | .cons key value es, h => by
    rw [Entries.keys, List.mem_cons, not_or] at h
    rw [Entries.get, if_neg (Ne.symm h.1)]
    exact Entries.get_eq_none es h.2

theorem Scalar.Fits.lt {n : Nat} (h : t.Fits n) : n < sizeLimit := by
  rw [sizeLimit]
  cases t <;> simp only [Scalar.Fits, sizeLimit] at h <;> omega

theorem Node.Valid.size_lt {base : Nat} (h : n.Valid data base) : n.size < sizeLimit := by
  cases n with
  | utf8 s =>
    exact h
  | scalar t payload =>
    exact h.lt
  | bool b => exact Nat.lt_of_le_of_lt (Bool.toNat_le b) (by decide)
  | array items | map entries =>
    exact h.1
  | pointer p target => exact Nat.lt_of_le_of_lt p.le (by decide)

end MmdbFormat
