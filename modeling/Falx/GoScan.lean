import Mathlib.Algebra.Ring.Nat
import Mathlib.Data.List.Basic

/-! How `fmt.Sscanf` reads unsigned numbers with `%d`: blanks are skipped, a newline is
an error, the longest run of digits is the token, and what follows it is not looked at.
A scan that fails leaves its variable as it was. -/

namespace GoScan

def isSpace (c : Char) : Bool :=
  let n := c.toNat
  (0x09 ≤ n && n ≤ 0x0D) || n == 0x20 || n == 0x85 || n == 0xA0 || n == 0x1680 ||
    (0x2000 ≤ n && n ≤ 0x200A) || n == 0x2028 || n == 0x2029 || n == 0x202F || n == 0x205F ||
    n == 0x3000

def skipSpace : List Char → Option (List Char)
  | [] => some []
  | c :: cs => if c = '\n' then none else if isSpace c then skipSpace cs else some (c :: cs)

def digitValue (c : Char) : Nat := c.toNat - '0'.toNat

def decimalValue (digits : List Char) : Nat := digits.foldl (fun v c => 10 * v + digitValue c) 0

def scanUint (bits : Nat) (cs : List Char) : Option (Nat × List Char) :=
  match skipSpace cs with
  | none => none
  | some cs =>
    let tok := cs.takeWhile Char.isDigit
    if tok = [] then none
    else if decimalValue tok < 2 ^ bits then some (decimalValue tok, cs.dropWhile Char.isDigit)
    else none

/-- A variable that was 0 after `Sscanf` with the format `%d`. -/
def sscanUint (bits : Nat) (cs : List Char) : Nat :=
  match scanUint bits cs with
  | some (v, _) => v
  | none => 0

/-- Two variables that were 0 after `Sscanf` with the format `%d-%d`. -/
def sscanRange (bits : Nat) (cs : List Char) : Nat × Nat :=
  match scanUint bits cs with
  | none => (0, 0)
  | some (low, '-' :: rest) => (low, sscanUint bits rest)
  | some (low, _) => (low, 0)

def parseUint (bits : Nat) (cs : List Char) : Option Nat :=
  if cs ≠ [] ∧ cs.all Char.isDigit = true ∧ decimalValue cs < 2 ^ bits then some (decimalValue cs)
  else none

def parseRange (bits : Nat) (cs : List Char) : Option (Nat × Nat) :=
  match cs.dropWhile Char.isDigit with
  | '-' :: rest =>
    match parseUint bits (cs.takeWhile Char.isDigit), parseUint bits rest with
    | some low, some high => some (low, high)
    | _, _ => none
  | _ => none

def parseList (bits : Nat) (cs : List Char) : Option (List Nat) :=
  (cs.splitOn ',').mapM (parseUint bits)

section Parse

variable {bits : Nat} {cs : List Char} {v : Nat}

theorem parseUint_eq_some (h : parseUint bits cs = some v) :
    cs ≠ [] ∧ cs.all Char.isDigit = true ∧ decimalValue cs = v ∧ v < 2 ^ bits := by
  rw [parseUint] at h
  split_ifs at h with hc
  cases h
  exact ⟨hc.1, hc.2.1, rfl, hc.2.2⟩

theorem toList_toString (n : Nat) : (toString n).toList = Nat.toDigits 10 n := by
  show n.repr.toList = _
  rw [Nat.repr_eq_ofList_toDigits, String.toList_ofList]

theorem decimalValue_toDigits (n : Nat) : decimalValue (Nat.toDigits 10 n) = n := by
  have hv : decimalValue (Nat.toDigits 10 n) = Nat.ofDigitChars 10 (Nat.toDigits 10 n) 0 := by
    rfl
  rw [hv, Nat.ofDigitChars_ten_toDigits]

theorem parseUint_toString {n : Nat} (h : n < 2 ^ bits) :
    parseUint bits (toString n).toList = some n := by
  have hne : Nat.toDigits 10 n ≠ [] := List.ne_nil_of_length_pos Nat.length_toDigits_pos
  have hdigs : (Nat.toDigits 10 n).all Char.isDigit = true :=
    List.all_eq_true.mpr fun c hc => Nat.isDigit_of_mem_toDigits (by decide) (by decide) hc
  rw [toList_toString, parseUint, decimalValue_toDigits, if_pos ⟨hne, hdigs, h⟩]

theorem not_isSpace_of_isDigit {c : Char} (h : c.isDigit = true) : c ≠ '\n' ∧ isSpace c = false := by
  have hc : 48 ≤ c.toNat ∧ c.toNat ≤ 57 := by simpa [Char.isDigit, UInt32.le_iff_toNat_le] using h
  constructor
  · rintro rfl
    simp at hc
  · simp only [isSpace, Bool.or_eq_false_iff, Bool.and_eq_false_iff, decide_eq_false_iff_not,
      beq_eq_false_iff_ne]
    omega

theorem scanUint_append {digits r : List Char} (hne : digits ≠ [])
    (hdigs : digits.all Char.isDigit = true) (hr : r.takeWhile Char.isDigit = [])
    (hlt : decimalValue digits < 2 ^ bits) :
    scanUint bits (digits ++ r) = some (decimalValue digits, r) := by
  have hall : ∀ c ∈ digits, Char.isDigit c = true := List.all_eq_true.mp hdigs
  have hskip : skipSpace (digits ++ r) = some (digits ++ r) := by
    cases digits with
    | nil => exact absurd rfl hne
    | cons c cs =>
      obtain ⟨hnl, hspace⟩ := not_isSpace_of_isDigit (hall c (.head _))
      simp [skipSpace, hnl, hspace]
  have htake : (digits ++ r).takeWhile Char.isDigit = digits := by
    rw [List.takeWhile_append_of_pos hall, hr, List.append_nil]
  have hdrop : (digits ++ r).dropWhile Char.isDigit = r := by
    have hsp := List.takeWhile_append_dropWhile (p := Char.isDigit) (l := r)
    rw [hr, List.nil_append] at hsp
    rw [List.dropWhile_append_of_pos hall, hsp]
  simp only [scanUint, hskip, htake, hdrop, if_neg hne, if_pos hlt]

theorem sscanUint_of_parseUint {w : Nat} (hw : bits ≤ w) (h : parseUint bits cs = some v) :
    sscanUint w cs = v := by
  obtain ⟨hne, hdigs, rfl, hlt⟩ := parseUint_eq_some h
  have hwide : decimalValue cs < 2 ^ w :=
    Nat.lt_of_lt_of_le hlt (Nat.pow_le_pow_right (by omega) hw)
  have hscan := scanUint_append hne hdigs (r := []) rfl hwide
  rw [List.append_nil] at hscan
  rw [sscanUint, hscan]

theorem sscanRange_of_parseRange {low high : Nat} (h : parseRange bits cs = some (low, high)) :
    sscanRange bits cs = (low, high) := by
  have hsp := List.takeWhile_append_dropWhile (p := Char.isDigit) (l := cs)
  rw [parseRange] at h
  split at h
  · rename_i rest hdrop
    split at h
    · rename_i low' high' hlow hhigh
      cases h
      obtain ⟨hne, hdigs, rfl, hlt⟩ := parseUint_eq_some hlow
      have hscan := scanUint_append hne hdigs (r := '-' :: rest) (by simp [Char.isDigit]) hlt
      rw [← hdrop, hsp, hdrop] at hscan
      rw [sscanRange, hscan]
      exact congrArg (Prod.mk _) (sscanUint_of_parseUint (Nat.le_refl bits) hhigh)
    · cases h
  · cases h

theorem sscanUint_lt (bits : Nat) (cs : List Char) : sscanUint bits cs < 2 ^ bits := by
  rw [sscanUint]
  split
  · rename_i v rest hscan
    rw [scanUint] at hscan
    split at hscan
    · cases hscan
    · simp only at hscan
      split_ifs at hscan with hnil hlt
      cases hscan
      exact hlt
  · exact Nat.two_pow_pos bits

theorem sscanRange_lt (bits : Nat) (cs : List Char) :
    (sscanRange bits cs).1 < 2 ^ bits ∧ (sscanRange bits cs).2 < 2 ^ bits := by
  have hpos := Nat.two_pow_pos bits
  have hlow := sscanUint_lt bits cs
  rw [sscanUint] at hlow
  rw [sscanRange]
  split
  · exact ⟨hpos, hpos⟩
  · rename_i low rest hscan
    rw [hscan] at hlow
    exact ⟨hlow, sscanUint_lt bits rest⟩
  · rename_i low rest hnot hscan
    rw [hscan] at hlow
    exact ⟨hlow, hpos⟩

end Parse

end GoScan
