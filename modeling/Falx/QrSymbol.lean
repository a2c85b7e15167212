import Falx.Codewords
import Mathlib.Tactic.IntervalCases

/-! The modules of a QR code, and a reader of the symbol. The format information is written with
its least significant bit where the reader expects the most significant one. -/

namespace Falx.Qr

open Codewords

structure QrMatrix where
  mod : Nat → Nat → Bool
  fn : Nat → Nat → Bool

def qrAlignPos : List (List Nat) :=
  [[], [6, 18], [6, 22], [6, 26], [6, 30], [6, 34], [6, 22, 38], [6, 24, 42], [6, 26, 46],
    [6, 28, 50]]

def qrFmtInfo : List Nat := [0x5412, 0x5125, 0x5E7C, 0x5B4B, 0x45F9, 0x40CE, 0x4F97, 0x4AA0]

def qrRemBits : List Nat := [0, 7, 7, 7, 7, 7, 0, 0, 0, 0]

def setCell (m : Nat → Nat → Bool) (p : Nat × Nat) (v : Bool) : Nat → Nat → Bool :=
  fun r c => if r = p.1 ∧ c = p.2 then v else m r c

def put (N : Nat) (m : QrMatrix) (cell : Int × Int × Bool) : QrMatrix :=
  let (r, c, v) := cell
  if r < 0 ∨ N ≤ r ∨ c < 0 ∨ N ≤ c then m
  else ⟨setCell m.mod (r.toNat, c.toNat) v, setCell m.fn (r.toNat, c.toNat) true⟩

def square (size : Nat) (tr tc : Int) (v : Int → Int → Bool) : List (Int × Int × Bool) :=
  (List.range size).flatMap fun (r : Nat) => (List.range size).map fun (c : Nat) =>
    (tr + r, tc + c, v r c)

def finder (tr tc : Int) : List (Int × Int × Bool) :=
  square 9 (tr - 1) (tc - 1) fun r c =>
    let (r, c) := (r - 1, c - 1)
    !(r < 0 || r > 6 || c < 0 || c > 6) &&
      (r == 0 || r == 6 || c == 0 || c == 6 || (2 ≤ r && r ≤ 4 && 2 ≤ c && c ≤ 4))

def timing (N : Nat) : List (Int × Int × Bool) :=
  (List.range N).flatMap fun i => [(6, i, i % 2 == 0), (i, 6, i % 2 == 0)]

def alignment (r c : Nat) : List (Int × Int × Bool) :=
  square 5 (r - 2) (c - 2) fun dr dc =>
    (dr == 2 && dc == 2) || dr == 0 || dr == 4 || dc == 0 || dc == 4

/-- The cells of the two copies of the format information, in the order of the source. -/
def copy1 : List (Nat × Nat) :=
  [(8, 0), (8, 1), (8, 2), (8, 3), (8, 4), (8, 5), (8, 7), (8, 8), (7, 8), (5, 8), (4, 8), (3, 8),
    (2, 8), (1, 8), (0, 8)]

def copy2 (N : Nat) : List (Nat × Nat) :=
  [(N - 1, 8), (N - 2, 8), (N - 3, 8), (N - 4, 8), (N - 5, 8), (N - 6, 8), (N - 7, 8), (8, N - 8),
    (8, N - 7), (8, N - 6), (8, N - 5), (8, N - 4), (8, N - 3), (8, N - 2), (8, N - 1)]

/-- The cells in the order of the zigzag scan: pairs of columns from the right, without the
timing column, every other one upward. -/
def zigzag (N : Nat) : List (Nat × Nat) :=
  (List.range ((N - 1) / 2)).flatMap fun k =>
    let right := if N - 1 - 2 * k ≤ 6 then N - 2 - 2 * k else N - 1 - 2 * k
    (List.range N).flatMap fun row =>
      let r := if k % 2 = 0 then N - 1 - row else row
      [(r, right), (r, right - 1)]

def placeBits (m : QrMatrix) : List (Nat × Nat) → List Bool → QrMatrix
  | [], _ => m
  | p :: ps, bits =>
    if m.fn p.1 p.2 then placeBits m ps bits
    else match bits with
      | [] => placeBits m ps []
      | b :: bits => placeBits ⟨setCell m.mod p b, m.fn⟩ ps bits

def qrBuildMatrix (version : Nat) (codewords : List UInt8) : QrMatrix :=
  let N := version * 4 + 17
  let pos := qrAlignPos.getD (version - 1) []
  let m := (finder 0 0 ++ finder 0 (N - 7) ++ finder (N - 7) 0 ++ timing N ++
    [((N : Int) - 8, 8, true)]).foldl (put N) ⟨fun _ _ => false, fun _ _ => false⟩
  let m := (pos.flatMap fun r => pos.map fun c => (r, c)).foldl
    (fun m p => if m.fn p.1 p.2 then m else (alignment p.1 p.2).foldl (put N) m) m
  let m := (copy1 ++ copy2 N).foldl (fun m p => put N m (p.1, p.2, false)) m
  let bits := codewords.flatMap (fun b => toBits b.toNat 8) ++
    List.replicate (qrRemBits.getD (version - 1) 0) false
  placeBits m (zigzag N) bits

def qrMasks (m r c : Nat) : Bool :=
  match m with
  | 0 => (r + c) % 2 == 0
  | 1 => r % 2 == 0
  | 2 => c % 3 == 0
  | 3 => (r + c) % 3 == 0
  | 4 => (r / 2 + c / 3) % 2 == 0
  | 5 => r * c % 2 + r * c % 3 == 0
  | 6 => (r * c % 2 + r * c % 3) % 2 == 0
  | _ => ((r + c) % 2 + r * c % 3) % 2 == 0

def qrApplyMask (m : QrMatrix) (mask : Nat) : Nat → Nat → Bool := fun r c =>
  m.mod r c != (!m.fn r c && qrMasks mask r c)

def qrWriteFormat (mod : Nat → Nat → Bool) (N mask : Nat) : Nat → Nat → Bool :=
  ((copy1.zip (copy2 N)).zipIdx).foldl (fun mod (p, i) =>
    let v := (qrFmtInfo.getD mask 0).testBit i
    setCell (setCell mod p.1 v) p.2 v) mod

def qrSymbol (version : Nat) (codewords : List UInt8) (mask : Nat) : Nat → Nat → Bool :=
  qrWriteFormat (qrApplyMask (qrBuildMatrix version codewords) mask) (version * 4 + 17) mask

inductive EcLevel where
  | L | M | Q | H
  deriving DecidableEq

/-- The word of a level and a mask: five bits, their remainder by the generator of the code, and
the fixed pattern over both. -/
def formatWord (d : Nat) : Nat :=
  let rem := [4, 3, 2, 1, 0].foldl
    (fun v i => if v.testBit (i + 10) then v ^^^ (0x537 <<< i) else v) (d <<< 10)
  ((d <<< 10) ||| rem) ^^^ 0x5412

/-- The level and the mask of the word that differs in at most three bits. -/
def readFormat (bits : List Bool) : Option (EcLevel × Nat) :=
  ((List.range 32).find? fun d =>
    (List.zipWith (· != ·) bits (toBits (formatWord d) 15)).count true ≤ 3).map fun d =>
      (match d / 8 with
        | 0 => .M
        | 1 => .L
        | 2 => .H
        | _ => .Q, d % 8)

/-- The modules that are not for data by the standard, those of the version information among
them. -/
def isFunction (version r c : Nat) : Bool :=
  let N := version * 4 + 17
  let pos := qrAlignPos.getD (version - 1) []
  let corner (r c : Nat) := (r ≤ 8 && c ≤ 8) || (r ≤ 8 && N - 8 ≤ c) || (N - 8 ≤ r && c ≤ 8)
  corner r c || r == 6 || c == 6 ||
    (pos.any fun y => pos.any fun x =>
      !corner y x && (y ≤ r + 2 && r ≤ y + 2 && x ≤ c + 2 && c ≤ x + 2)) ||
    (7 ≤ version && ((r < 6 && N - 11 ≤ c && c < N - 8) || (c < 6 && N - 11 ≤ r && r < N - 8)))

/-- What a reader finds: the format in the first copy, or else in the second, the most
significant bit first, and the codewords under its mask. -/
def readSymbol (version : Nat) (mod : Nat → Nat → Bool) : Option (EcLevel × Nat × List UInt8) := do
  let N := version * 4 + 17
  let word cells := readFormat (cells.map fun (p : Nat × Nat) => mod p.1 p.2)
  let (level, mask) ← word copy1 <|> word (copy2 N)
  let cells := (zigzag N).filter fun p => !isFunction version p.1 p.2
  let bits := cells.map fun p => mod p.1 p.2 != qrMasks mask p.1 p.2
  return (level, mask, (List.range (bits.length / 8)).map fun i =>
    UInt8.ofNat (ofBits ((bits.drop (8 * i)).take 8)))

theorem copy1_qrWriteFormat {version : Nat} (hver : 1 ≤ version ∧ version ≤ 10)
    (mod : Nat → Nat → Bool) (mask : Nat) :
    copy1.map (fun p => qrWriteFormat mod (version * 4 + 17) mask p.1 p.2) =
      (toBits (qrFmtInfo.getD mask 0) 15).reverse := by
  obtain ⟨hmin, hmax⟩ := hver
  interval_cases version <;> rfl

/-- The reader never finds the level and the mask in the format information. -/
theorem symbol_misread {version mask : Nat} (hversion : 1 ≤ version ∧ version ≤ 10)
    (hmask : mask < 8) (codewords : List UInt8) :
    readSymbol version (qrSymbol version codewords mask) ≠ some (.M, mask, codewords) := by
  have hwrong : ∀ mask < 8, (readFormat (toBits (qrFmtInfo.getD mask 0) 15).reverse).any
      (· ≠ (.M, mask)) = true := by decide +kernel
  obtain ⟨⟨level, found⟩, hfd, hne⟩ := (Option.any_eq_true _ _).mp (hwrong mask hmask)
  have hread := copy1_qrWriteFormat hversion
    (qrApplyMask (qrBuildMatrix version codewords) mask) mask
  intro h
  rw [readSymbol, qrSymbol] at h
  beta_reduce at h
  rw [hread, hfd] at h
  obtain ⟨hlv, hrest⟩ := Prod.mk.inj (Option.some.inj h)
  obtain ⟨hfd, -⟩ := Prod.mk.inj hrest
  exact of_decide_eq_true hne (by rw [hlv, hfd])

theorem symbol_misread_six : readSymbol 6 (qrSymbol 6 (List.replicate 172 0) 5) ≠
    some (.M, 5, List.replicate 172 0) :=
  symbol_misread (by decide) (by decide) _

theorem symbol_misread_first : (readSymbol 1 (qrSymbol 1 (List.replicate 26 0) 0)).map
    (fun r => (r.1, r.2.1)) = some (.Q, 4) := by
  decide +kernel

end Falx.Qr
