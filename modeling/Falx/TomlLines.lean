import Falx.GoScan
import Mathlib.Data.List.TakeWhile

/-! TOML documents with one statement a line: blank lines and comments, table headers, and
assignments whose value ends on its line. Integers are read in all their spellings; any
other value is kept as its text. -/

namespace TomlLines

open List

abbrev Key := List Char

abbrev Path := List Key

inductive Value where
  | integer (n : Int)
  | other (text : List Char)
  deriving DecidableEq

inductive Statement where
  | blank
  | table (path : Path)
  | assign (path : Path) (value : Value)
  deriving DecidableEq

def isBlank (c : Char) : Bool := c == ' ' || c == '\t' || c == '\r' || c == '\x0c'

def isBare (c : Char) : Bool := c.isAlphanum || c == '_' || c == '-'

def skip (cs : List Char) : List Char := cs.dropWhile isBlank

def trim (cs : List Char) : List Char := (skip (skip cs).reverse).reverse

def isComment (cs : List Char) : Bool :=
  match (skip cs).head? with
  | none => true
  | some c => c == '#'

/-- The key before the closing quote. Escapes in keys are not read. -/
def readQuoted (quote : Char) (cs : List Char) : Option (Key × List Char) :=
  let key := cs.takeWhile (· != quote)
  match cs.dropWhile (· != quote) with
  | [] => none
  | _ :: rest => if key.contains '\\' then none else some (key, rest)

def readKey (cs : List Char) : Option (Key × List Char) :=
  match cs with
  | [] => none
  | c :: rest =>
    if c = '\x22' ∨ c = '\x27' then readQuoted c rest
    else
      let key := cs.takeWhile isBare
      if key = [] then none else some (key, cs.dropWhile isBare)

def readPath : Nat → List Char → Option (Path × List Char)
  | 0, _ => none
  | fuel + 1, cs =>
    match readKey (skip cs) with
    | none => none
    | some (key, rest) =>
      if (skip rest).head? = some '.' then
        (readPath fuel (skip rest).tail).map fun r => (key :: r.1, r.2)
      else some ([key], skip rest)

inductive Mode where
  | plain
  | basic
  | escaped
  | literal
  deriving DecidableEq

/-- The text of a value up to a comment or the end of the line, where every string and every
bracket is closed. -/
def scanValue : Mode → Nat → List Char → Option (List Char)
  | mode, depth, [] => if mode = .plain ∧ depth = 0 then some [] else none
  | .plain, depth, c :: cs =>
    if c = '#' then if depth = 0 then some [] else none
    else if c = '\x22' then (scanValue .basic depth cs).map (c :: ·)
    else if c = '\x27' then (scanValue .literal depth cs).map (c :: ·)
    else if c = '[' ∨ c = '\x7b' then (scanValue .plain (depth + 1) cs).map (c :: ·)
    else if c = ']' ∨ c = '\x7d' then
      if depth = 0 then none else (scanValue .plain (depth - 1) cs).map (c :: ·)
    else (scanValue .plain depth cs).map (c :: ·)
  | .basic, depth, c :: cs =>
    let mode := if c = '\x22' then .plain else if c = '\\' then .escaped else .basic
    (scanValue mode depth cs).map (c :: ·)
  | .escaped, depth, c :: cs => (scanValue .basic depth cs).map (c :: ·)
  | .literal, depth, c :: cs =>
    (scanValue (if c = '\x27' then .plain else .literal) depth cs).map (c :: ·)

def digitValue (c : Char) : Nat :=
  if c.isDigit then c.toNat - '0'.toNat else if c.isUpper then c.toNat - 55 else c.toNat - 87

def isDigitOf (base : Nat) (c : Char) : Bool :=
  (c.isDigit || c.isAlpha) && decide (digitValue c < base)

def readDigits (base : Nat) : Nat → Bool → List Char → Option Nat
  | n, afterDigit, [] => if afterDigit then some n else none
  | n, afterDigit, c :: cs =>
    if c = '_' then if afterDigit then readDigits base n false cs else none
    else if isDigitOf base c then readDigits base (base * n + digitValue c) true cs
    else none

def readDecimal (cs : List Char) : Option Nat :=
  match cs with
  | '0' :: _ :: _ => none
  | _ => readDigits 10 0 false cs

def readInteger (cs : List Char) : Option Int :=
  match cs with
  | '0' :: 'x' :: cs => (readDigits 16 0 false cs).map Int.ofNat
  | '0' :: 'o' :: cs => (readDigits 8 0 false cs).map Int.ofNat
  | '0' :: 'b' :: cs => (readDigits 2 0 false cs).map Int.ofNat
  | '+' :: cs => (readDecimal cs).map Int.ofNat
  | '-' :: cs => (readDecimal cs).map fun n => -Int.ofNat n
  | cs => (readDecimal cs).map Int.ofNat

/-- An integer that is no 64-bit number is an error. -/
def classify (text : List Char) : Option Value :=
  match readInteger text with
  | some n =>
    if -9223372036854775808 ≤ n ∧ n ≤ 9223372036854775807 then some (.integer n) else none
  | none => if text = [] then none else some (.other text)

def readValue (cs : List Char) : Option Value :=
  match scanValue .plain 0 cs with
  | none => none
  | some text => classify (trim text)

def readTable (cs : List Char) : Option Statement :=
  match readPath cs.length cs with
  | none => none
  | some (path, rest) =>
    if rest.head? = some ']' ∧ isComment rest.tail = true then some (.table path) else none

def readAssign (cs : List Char) : Option Statement :=
  match readPath cs.length cs with
  | none => none
  | some (path, rest) =>
    if rest.head? = some '=' then (readValue rest.tail).map (.assign path) else none

def readLine (line : List Char) : Option Statement :=
  if isComment line then some .blank
  else if (skip line).head? = some '[' then readTable (skip line).tail
  else readAssign (skip line)

def nextTable (table : Path) (line : List Char) : Path :=
  match readLine line with
  | some (.table path) => path
  | _ => table

def placed (table : Path) : List (List Char) → List (Path × List Char)
  | [] => []
  | line :: lines => (table, line) :: placed (nextTable table line) lines

def entry (p : Path × List Char) : Option (Path × Value) :=
  match readLine p.2 with
  | some (.assign path value) => some (p.1 ++ path, value)
  | _ => none

abbrev Doc := List (Path × Value)

def lines (text : List Char) : List (List Char) := text.splitOn '\n'

/-- Every line is a statement and no key is assigned twice. -/
def read (text : List Char) : Option Doc :=
  let doc := (placed [] (lines text)).filterMap entry
  if (∀ line ∈ lines text, (readLine line).isSome = true) ∧ (doc.map Prod.fst).Nodup then some doc
  else none

section Keys

variable {key x y : List Char} {c : Char}

theorem ne_of_isBare {d : Char} (h : isBare c = true) (hd : isBare d = false) : c ≠ d := by
  rintro rfl
  rw [h] at hd
  cases hd

theorem not_isBlank_of_isBare (h : isBare c = true) : isBlank c = false := by
  by_contra hc
  simp only [isBlank, Bool.not_eq_false, Bool.or_eq_true, beq_iff_eq] at hc
  rcases hc with ((rfl | rfl) | rfl) | rfl <;> revert h <;> decide

theorem skip_cons (h : isBlank c = false) (cs : List Char) : skip (c :: cs) = c :: cs := by
  simp [skip, h]

def EndsKey (x : List Char) : Prop := ∀ c, x.head? = some c → isBare c = false

theorem endsKey_of_skip (h : EndsKey (skip x)) : EndsKey x := by
  intro c hc
  cases x with
  | nil => cases hc
  | cons d ds =>
    cases hc
    cases hbare : isBare c with
    | false => rfl
    | true =>
      rw [skip_cons (not_isBlank_of_isBare hbare)] at h
      exact hbare.symm.trans (h c rfl)

section

variable (hne : key ≠ []) (hkey : ∀ c ∈ key, isBare c = true)

include hne hkey

theorem readKey_bare (hx : EndsKey x) : readKey (key ++ x) = some (key, x) := by
  have htake : (key ++ x).takeWhile isBare = key := by
    rw [takeWhile_append_of_pos hkey]
    cases x with
    | nil => simp
    | cons c cs => simp [hx c rfl]
  have hdrop : (key ++ x).dropWhile isBare = x := by
    rw [dropWhile_append_of_pos hkey]
    cases x with
    | nil => rfl
    | cons c cs => simp [hx c rfl]
  obtain ⟨k, ks, rfl⟩ := exists_cons_of_ne_nil hne
  have hk := hkey k (.head _)
  have hquote : ¬ (k = '\x22' ∨ k = '\x27') := by
    rintro (heq | heq)
    · exact ne_of_isBare hk (by decide) heq
    · exact ne_of_isBare hk (by decide) heq
  rw [cons_append] at htake hdrop ⊢
  simp only [readKey, if_neg hquote, htake, hdrop, if_neg hne]

theorem skip_bare (x : List Char) : skip (key ++ x) = key ++ x := by
  obtain ⟨k, ks, rfl⟩ := exists_cons_of_ne_nil hne
  exact skip_cons (not_isBlank_of_isBare (hkey k (.head _))) _

theorem head?_bare {d : Char} (hd : isBare d = false) : (key ++ x).head? ≠ some d := by
  obtain ⟨k, ks, rfl⟩ := exists_cons_of_ne_nil hne
  intro hhead
  exact ne_of_isBare (hkey k (.head _)) hd (Option.some.inj hhead)

section

variable (hx : EndsKey (skip x)) (hdot : (skip x).head? ≠ some '.')

include hx hdot

theorem readPath_bare (fuel : Nat) :
    readPath (fuel + 1) (key ++ x) = some ([key], skip x) := by
  simp only [readPath, skip_bare hne hkey, readKey_bare hne hkey (endsKey_of_skip hx), if_neg hdot]

theorem readLine_bare :
    readLine (key ++ x) = if (skip x).head? = some '=' then
      (readValue (skip x).tail).map (.assign [key]) else none := by
  have hskip := skip_bare hne hkey x
  have hcomment : isComment (key ++ x) = false := by
    obtain ⟨k, ks, rfl⟩ := exists_cons_of_ne_nil hne
    rw [isComment, hskip]
    exact beq_eq_false_iff_ne.mpr (ne_of_isBare (hkey k (.head _)) (by decide))
  have hlen : (key ++ x).length = ((key ++ x).length - 1) + 1 := by
    have := length_pos_iff.mpr hne
    simp only [length_append]
    omega
  rw [readLine, hcomment, if_neg Bool.false_ne_true, hskip,
    if_neg (head?_bare hne hkey (by decide)), readAssign, hlen, readPath_bare hne hkey hx hdot]

end

theorem readLine_assign (hx : skip x = '=' :: y) :
    readLine (key ++ x) = (readValue y).map (.assign [key]) := by
  have hends : EndsKey (skip x) := by
    intro c hc
    rw [hx] at hc
    cases hc
    decide
  have hdot : (skip x).head? ≠ some '.' := by simp [hx]
  rw [readLine_bare hne hkey hends hdot, hx]
  exact if_pos rfl

theorem readLine_key_alone (hx : skip x = []) : readLine (key ++ x) = none := by
  have hends : EndsKey (skip x) := by
    intro c hc
    rw [hx] at hc
    cases hc
  have hdot : (skip x).head? ≠ some '.' := by simp [hx]
  rw [readLine_bare hne hkey hends hdot, hx]
  rfl

end

end Keys

section Values

variable {w r : List Char} {c : Char} {n : Nat}

def isPlain (c : Char) : Bool :=
  !(['#', '\x22', '\x27', '[', ']', '\x7b', '\x7d'].contains c)

theorem scanValue_plain (h : isPlain c = true) (r : List Char) :
    scanValue .plain 0 (c :: r) = (scanValue .plain 0 r).map (c :: ·) := by
  simp only [isPlain, contains_cons, contains_nil, Bool.or_false, Bool.not_eq_true',
    Bool.or_eq_false_iff, beq_eq_false_iff_ne] at h
  simp [scanValue, h]

theorem scanValue_append (hw : ∀ c ∈ w, isPlain c = true) (r : List Char) :
    scanValue .plain 0 (w ++ r) = (scanValue .plain 0 r).map (w ++ ·) := by
  induction w with
  | nil => simp
  | cons c w ih =>
    rw [cons_append, scanValue_plain (hw c mem_cons_self),
      ih fun d hd => hw d (mem_cons_of_mem c hd), Option.map_map]
    rfl

theorem isPlain_of_isBlank (h : isBlank c = true) : isPlain c = true := by
  simp only [isBlank, Bool.or_eq_true, beq_iff_eq] at h
  rcases h with ((rfl | rfl) | rfl) | rfl <;> decide

theorem isBare_of_isDigit (h : c.isDigit = true) : isBare c = true := by
  simp [isBare, Char.isAlphanum, h]

theorem isPlain_of_isDigit (h : c.isDigit = true) : isPlain c = true := by
  have hbare := isBare_of_isDigit h
  simp only [isPlain, contains_cons, contains_nil, Bool.or_false, Bool.not_eq_true',
    Bool.or_eq_false_iff, beq_eq_false_iff_ne]
  refine ⟨?_, ?_, ?_, ?_, ?_, ?_, ?_⟩ <;> exact ne_of_isBare hbare (by decide)

theorem scanValue_comment (h : isComment r = true) :
    ∃ blanks, (∀ c ∈ blanks, isBlank c = true) ∧ scanValue .plain 0 r = some blanks := by
  induction r with
  | nil => exact ⟨[], by simp, rfl⟩
  | cons c r ih =>
    cases hb : isBlank c with
    | true =>
      have hrest : isComment r = true := by simpa [isComment, skip, hb] using h
      obtain ⟨blanks, hblanks, hscan⟩ := ih hrest
      refine ⟨c :: blanks, ?_, ?_⟩
      · intro d hd
        rcases mem_cons.mp hd with rfl | hd
        · exact hb
        · exact hblanks d hd
      · rw [scanValue_plain (isPlain_of_isBlank hb), hscan]
        rfl
    | false =>
      rw [isComment, skip_cons hb, List.head?_cons] at h
      rw [beq_iff_eq.mp h]
      exact ⟨[], by simp, rfl⟩

theorem skip_append (h : ∀ c ∈ w, isBlank c = true) (r : List Char) : skip (w ++ r) = skip r :=
  dropWhile_append_of_pos h

theorem trim_eq {pre post : List Char} (hpre : ∀ c ∈ pre, isBlank c = true)
    (hpost : ∀ c ∈ post, isBlank c = true) (hw : ∀ c ∈ w, isBlank c = false) :
    trim (pre ++ w ++ post) = w := by
  have hnil : ∀ {b : List Char}, (∀ c ∈ b, isBlank c = true) → skip b = [] := by
    intro b hb
    have h := skip_append hb []
    rwa [append_nil] at h
  cases w with
  | nil =>
    have hall : ∀ c ∈ pre ++ [] ++ post, isBlank c = true := by
      intro c hc
      rw [append_nil] at hc
      rcases mem_append.mp hc with hc | hc
      · exact hpre c hc
      · exact hpost c hc
    rw [trim, hnil hall]
    rfl
  | cons c w =>
    have hfront : skip (pre ++ (c :: w) ++ post) = (c :: w) ++ post := by
      rw [append_assoc, skip_append hpre]
      exact skip_cons (hw c (.head _)) _
    have hback : skip (post.reverse ++ (c :: w).reverse) = (c :: w).reverse := by
      rw [skip_append fun d hd => hpost d (mem_reverse.mp hd)]
      cases hrev : (c :: w).reverse with
      | nil => simp at hrev
      | cons d ds =>
        refine skip_cons (hw d ?_) ds
        rw [← mem_reverse, hrev]
        exact .head _
    rw [trim, hfront, reverse_append, hback, reverse_reverse]

theorem digitValue_of_isDigit (h : c.isDigit = true) :
    digitValue c = GoScan.digitValue c ∧ digitValue c < 10 := by
  have hc : 48 ≤ c.toNat ∧ c.toNat ≤ 57 := by simpa [Char.isDigit, UInt32.le_iff_toNat_le] using h
  have hv : digitValue c = c.toNat - '0'.toNat := by rw [digitValue, if_pos h]
  refine ⟨hv, ?_⟩
  rw [hv, show '0'.toNat = 48 from rfl]
  omega

theorem readDigits_ten (hw : ∀ c ∈ w, c.isDigit = true) (n : Nat) :
    readDigits 10 n true w = some (w.foldl (fun v c => 10 * v + GoScan.digitValue c) n) := by
  induction w generalizing n with
  | nil => rfl
  | cons c w ih =>
    have hc := hw c (.head _)
    obtain ⟨hv, hlt⟩ := digitValue_of_isDigit hc
    have hscore : c ≠ '_' := by
      rintro rfl
      revert hc
      decide
    have hof : isDigitOf 10 c = true := by simp [isDigitOf, hc, hlt]
    rw [readDigits, if_neg hscore, if_pos hof, hv, ih fun d hd => hw d (mem_cons_of_mem c hd)]
    rfl

theorem toDigits_head? {n : Nat} (hn : n ≠ 0) : (Nat.toDigits 10 n).head? ≠ some '0' := by
  induction n using Nat.strongRecOn with
  | ind n ih =>
    rw [Nat.toDigits_eq_if (by decide)]
    split
    · rename_i hlt
      have hdg : ∀ m < 10, m ≠ 0 → some m.digitChar ≠ some '0' := by decide
      exact hdg n hlt hn
    · rename_i hge
      have hne : Nat.toDigits 10 (n / 10) ≠ [] := ne_nil_of_length_pos Nat.length_toDigits_pos
      rw [List.head?_append_of_ne_nil _ hne]
      exact ih (n / 10) (by omega) (by omega)

theorem isDigit_toDigits {n : Nat} : ∀ c ∈ Nat.toDigits 10 n, c.isDigit = true :=
  fun _ hc => Nat.isDigit_of_mem_toDigits (by decide) (by decide) hc

theorem readDigits_toDigits (n : Nat) : readDigits 10 0 false (Nat.toDigits 10 n) = some n := by
  have htrue := readDigits_ten (isDigit_toDigits (n := n)) 0
  have hfold : (Nat.toDigits 10 n).foldl (fun v c => 10 * v + GoScan.digitValue c) 0 = n :=
    GoScan.decimalValue_toDigits n
  rw [hfold] at htrue
  cases hd : Nat.toDigits 10 n with
  | nil => exact absurd hd (ne_nil_of_length_pos Nat.length_toDigits_pos)
  | cons c cs =>
    have hc : c ≠ '_' := by
      rintro rfl
      have hdg := isDigit_toDigits (n := n) '_' (by rw [hd]; exact .head _)
      revert hdg
      decide
    rw [hd, readDigits, if_neg hc] at htrue
    rw [readDigits, if_neg hc]
    exact htrue

theorem readDecimal_toDigits (n : Nat) : readDecimal (Nat.toDigits 10 n) = some n := by
  unfold readDecimal
  split
  · rename_i c cs heq
    by_cases hn : n = 0
    · rw [hn] at heq
      cases heq
    · have hhead := toDigits_head? hn
      rw [heq] at hhead
      exact absurd rfl hhead
  · exact readDigits_toDigits n

theorem readInteger_toDigits (n : Nat) : readInteger (Nat.toDigits 10 n) = some (n : Int) := by
  have hdg : ∀ c ∈ Nat.toDigits 10 n, c.isDigit = true := isDigit_toDigits
  unfold readInteger
  split
  · rename_i heq
    exact absurd (hdg 'x' (by simp [heq])) (by decide)
  · rename_i heq
    exact absurd (hdg 'o' (by simp [heq])) (by decide)
  · rename_i heq
    exact absurd (hdg 'b' (by simp [heq])) (by decide)
  · rename_i heq
    exact absurd (hdg '+' (by simp [heq])) (by decide)
  · rename_i heq
    exact absurd (hdg '-' (by simp [heq])) (by decide)
  · rw [readDecimal_toDigits]
    rfl

theorem readValue_toDigits (hn : n < 9223372036854775808) (hr : isComment r = true) :
    readValue (' ' :: (Nat.toDigits 10 n ++ r)) = some (.integer n) := by
  obtain ⟨blanks, hblanks, hscan⟩ := scanValue_comment hr
  have hdigs : ∀ c ∈ Nat.toDigits 10 n, isPlain c = true :=
    fun c hc => isPlain_of_isDigit (isDigit_toDigits c hc)
  have htrim : trim ([' '] ++ Nat.toDigits 10 n ++ blanks) = Nat.toDigits 10 n := by
    refine trim_eq (by simp [isBlank]) hblanks fun c hc => ?_
    exact not_isBlank_of_isBare (isBare_of_isDigit (isDigit_toDigits c hc))
  have hrg : (-9223372036854775808 : Int) ≤ n ∧ (n : Int) ≤ 9223372036854775807 := by omega
  rw [readValue, scanValue_plain (by decide), scanValue_append hdigs, hscan]
  simp only [Option.map_some]
  rw [← singleton_append, ← append_assoc, htrim, classify, readInteger_toDigits]
  exact if_pos hrg

theorem readValue_blank (h : skip r = []) : readValue r = none := by
  have hr : ∀ c ∈ r, isBlank c = true := dropWhile_eq_nil_iff.mp h
  have hscan := scanValue_append (fun c hc => isPlain_of_isBlank (hr c hc)) []
  rw [append_nil] at hscan
  have htrim : trim (r ++ [] ++ []) = [] := trim_eq hr (by simp) (by simp)
  rw [append_nil, append_nil] at htrim
  rw [readValue, hscan]
  show classify (trim (r ++ [])) = none
  rw [append_nil, htrim]
  rfl

end Values

section Documents

variable {text : List Char} {doc : Doc} {f : List Char → List Char} {g : Path → Value → Value}

variable {line : List Char} {table : Path} {ls : List (List Char)} {p : Path × List Char}

theorem not_mem_lines (h : line ∈ lines text) : '\n' ∉ line := by
  induction text generalizing line with
  | nil =>
    rw [mem_singleton.mp h]
    exact not_mem_nil
  | cons c cs ih =>
    obtain ⟨first, rest, hcs⟩ := exists_cons_of_ne_nil (splitOn_ne_nil '\n' cs)
    have hmem : ∀ l ∈ first :: rest, '\n' ∉ l := fun l hl => ih (by rw [lines, hcs]; exact hl)
    rw [lines, splitOn_cons_eq_if_modifyHead, hcs] at h
    split at h
    · rcases mem_cons.mp h with rfl | h
      · exact not_mem_nil
      · exact hmem line h
    · rename_i hc
      rcases mem_cons.mp h with rfl | h
      · intro hin
        rcases mem_cons.mp hin with heq | hin
        · exact hc (beq_iff_eq.mpr heq.symm)
        · exact hmem first (.head _) hin
      · exact hmem line (.tail first h)

def Statement.revalue (g : Path → Value → Value) (table : Path) : Statement → Statement
  | assign path value => assign path (g (table ++ path) value)
  | st => st

/-- Changed lines assign the values that `g` gives to their keys. -/
def Revalues (f : List Char → List Char) (g : Path → Value → Value) (p : Path × List Char) : Prop :=
  readLine (f p.2) = (readLine p.2).map (Statement.revalue g p.1)

theorem mem_lines_of_placed (h : p ∈ placed table ls) : p.2 ∈ ls := by
  induction ls generalizing table with
  | nil => cases h
  | cons line ls ih =>
    rcases mem_cons.mp h with rfl | h
    · exact .head _
    · exact .tail line (ih h)

theorem nextTable_of_revalues (h : Revalues f g (table, line)) :
    nextTable table (f line) = nextTable table line := by
  rw [nextTable, nextTable, show readLine (f line) = _ from h]
  cases readLine line with
  | none => rfl
  | some st => cases st <;> rfl

theorem placed_map (h : ∀ p ∈ placed table ls, Revalues f g p) :
    placed table (ls.map f) = (placed table ls).map fun p => (p.1, f p.2) := by
  induction ls generalizing table with
  | nil => rfl
  | cons line ls ih =>
    obtain ⟨hline, hls⟩ := forall_mem_cons.mp h
    rw [map_cons, placed, nextTable_of_revalues hline, ih hls, placed, map_cons]

theorem entry_of_revalues (h : Revalues f g p) :
    entry (p.1, f p.2) = (entry p).map fun e => (e.1, g e.1 e.2) := by
  rw [entry, entry, show readLine (f p.2) = _ from h]
  cases readLine p.2 with
  | none => rfl
  | some st => cases st <;> rfl

theorem isSome_of_revalues (h : Revalues f g p) :
    (readLine (f p.2)).isSome = (readLine p.2).isSome := by
  rw [show readLine (f p.2) = _ from h, Option.isSome_map]

theorem exists_placed (h : line ∈ ls) : ∃ t, (t, line) ∈ placed table ls := by
  induction ls generalizing table with
  | nil => cases h
  | cons first ls ih =>
    rcases mem_cons.mp h with rfl | h
    · exact ⟨table, .head _⟩
    · obtain ⟨t, ht⟩ := @ih (nextTable table first) h
      exact ⟨t, .tail _ ht⟩

theorem read_eq_some (h : read text = some doc) :
    doc = (placed [] (lines text)).filterMap entry ∧
      (∀ line ∈ lines text, (readLine line).isSome = true) ∧ (doc.map Prod.fst).Nodup := by
  simp only [read] at h
  split at h
  · rename_i hok
    cases h
    exact ⟨rfl, hok⟩
  · cases h

theorem eq_of_nodup_filterMap {α β : Type} {h : α → Option β} {l : List α} {p q : α} {k : β}
    (hnd : (l.filterMap h).Nodup) (hp : p ∈ l) (hq : q ∈ l) (hpk : h p = some k)
    (hqk : h q = some k) : p = q := by
  induction l with
  | nil => cases hp
  | cons a l ih =>
    have hfr : ∀ {r}, r ∈ l → h r = some k → h a ≠ some k := by
      intro r hr hrk hak
      rw [filterMap_cons_some hak] at hnd
      exact (nodup_cons.mp hnd).1 (mem_filterMap.mpr ⟨r, hr, hrk⟩)
    have htail : (l.filterMap h).Nodup := hnd.sublist ((sublist_cons_self a l).filterMap h)
    rcases mem_cons.mp hp with rfl | hpl
    · rcases mem_cons.mp hq with rfl | hql
      · rfl
      · exact absurd hpk (hfr hql hqk)
    · rcases mem_cons.mp hq with rfl | hql
      · exact absurd hqk (hfr hpl hpk)
      · exact ih htail hpl hql

theorem placed_unique (hread : read text = some doc) {q : Path × List Char}
    (hp : p ∈ placed [] (lines text)) (hq : q ∈ placed [] (lines text)) {path : Path} {v w : Value}
    (hpv : entry p = some (path, v)) (hqw : entry q = some (path, w)) : p = q := by
  obtain ⟨rfl, -, hnd⟩ := read_eq_some hread
  rw [map_filterMap] at hnd
  refine eq_of_nodup_filterMap (k := path) hnd hp hq ?_ ?_
  · rw [hpv]
    rfl
  · rw [hqw]
    rfl

theorem read_map (hread : read text = some doc) (hline : ∀ line ∈ lines text, '\n' ∉ f line)
    (h : ∀ p ∈ placed [] (lines text), Revalues f g p) :
    read (['\n'].intercalate ((lines text).map f)) =
      some (doc.map fun e => (e.1, g e.1 e.2)) := by
  obtain ⟨rfl, hsome, hnd⟩ := read_eq_some hread
  have hln : lines (['\n'].intercalate ((lines text).map f)) = (lines text).map f := by
    refine splitOn_intercalate '\n' ?_ (by simp [lines])
    intro line hmem
    obtain ⟨l, hl, rfl⟩ := mem_map.mp hmem
    exact hline l hl
  have hdoc : (placed [] ((lines text).map f)).filterMap entry =
      ((placed [] (lines text)).filterMap entry).map fun e => (e.1, g e.1 e.2) := by
    rw [placed_map h, filterMap_map, map_filterMap]
    exact filterMap_congr fun p hp => entry_of_revalues (h p hp)
  simp only [read, hln, hdoc]
  refine if_pos ⟨?_, ?_⟩
  · intro line hmem
    obtain ⟨l, hl, rfl⟩ := mem_map.mp hmem
    obtain ⟨t, ht⟩ := exists_placed hl
    exact (isSome_of_revalues (h _ ht)).trans (hsome l hl)
  · rw [map_map]
    exact hnd

theorem lookup_map (doc : Doc) (path : Path) :
    (doc.map fun e => (e.1, g e.1 e.2)).lookup path = (doc.lookup path).map (g path) := by
  induction doc with
  | nil => rfl
  | cons e doc ih =>
    rw [map_cons, lookup_cons, lookup_cons]
    cases hpath : path == e.1 with
    | true => rw [eq_of_beq hpath]; rfl
    | false => exact ih

end Documents

end TomlLines
