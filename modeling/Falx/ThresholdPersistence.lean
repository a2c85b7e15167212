import Falx.ThresholdFile

/-! What becomes of the thresholds that are persisted. The rewriting is right about the lines
it recognises; a file that spells its keys otherwise, or has them elsewhere, is not rewritten
or is spoilt. -/

namespace Falx

open List TomlLines

def failsafeTable : Path := ["failsafe".toList]

/-- There is a line on which the regular expression of the key matches, and every such line
stands in the table `failsafe`, with nothing but blanks or a comment after its digits. -/
def Spelled (key : Key) (text : List Char) : Prop :=
  (∃ p ∈ placed [] (lines text), (matchAssignment key p.2).isSome = true) ∧
    ∀ p ∈ placed [] (lines text), ∀ rest ∈ matchAssignment key p.2,
      p.1 = failsafeTable ∧ isComment rest = true

instance (key : Key) (text : List Char) : Decidable (Spelled key text) :=
  inferInstanceAs (Decidable (_ ∧ _))

def setValue (path : Path) (value : Value) (p : Path) (old : Value) : Value :=
  if p = path then value else old

section Patch

variable {key text : List Char} {doc : Doc} {n : UInt64}

section

variable (hne : key ≠ [])
  (hbare : ∀ c ∈ key, isBare c = true)
  (hread : read text = some doc)
  (h : Spelled key text)

include hne hbare hread h

theorem Spelled.exists_entry :
    ∃ q ∈ placed [] (lines text), (matchAssignment key q.2).isSome = true ∧
      ∃ v, entry q = some (failsafeTable ++ [key], v) := by
  obtain ⟨-, hsome, -⟩ := read_eq_some hread
  obtain ⟨⟨q, hq, hqmatch⟩, hplain⟩ := h
  obtain ⟨rest, hrest⟩ := Option.isSome_iff_exists.mp hqmatch
  have hmem := mem_lines_of_placed hq
  obtain ⟨v, hv⟩ := readLine_matched hne hbare (not_mem_lines hmem) (hsome _ hmem) hrest
  refine ⟨q, hq, hqmatch, v, ?_⟩
  rw [entry, hv, (hplain q hq rest hrest).1]

theorem Spelled.revalues (hn : n.toNat < 9223372036854775808)
    {p : Path × List Char} (hp : p ∈ placed [] (lines text)) :
    Revalues (patchLine key (assignment key n))
      (setValue (failsafeTable ++ [key]) (.integer n.toNat)) p := by
  obtain ⟨-, hsome, -⟩ := read_eq_some hread
  have hmem := mem_lines_of_placed hp
  have hline := not_mem_lines hmem
  rw [Revalues, patchLine]
  cases hma : matchAssignment key p.2 with
  | some rest =>
    obtain ⟨htb, hrest⟩ := h.2 p hp rest hma
    obtain ⟨v, hv⟩ := readLine_matched hne hbare hline (hsome _ hmem) hma
    simp only [readLine_assignment hne hbare hn hrest, hv, Option.map_some, Statement.revalue,
      htb, setValue, if_true]
  | none =>
    -- a second assignment to the key, not spelled for the regular expression, has no place
    obtain ⟨q, hq, hqmatch, w, hqentry⟩ := h.exists_entry hne hbare hread
    cases hst : readLine p.2 with
    | none => rfl
    | some st =>
      cases st with
      | blank | table path => rfl
      | assign path v =>
        have ho : p.1 ++ path ≠ failsafeTable ++ [key] := by
          intro hpath
          have hpentry : entry p = some (failsafeTable ++ [key], v) := by
            simp only [entry, hst, hpath]
          rw [← placed_unique hread hp hq hpentry hqentry, hma] at hqmatch
          cases hqmatch
        simp only [Option.map_some, Statement.revalue, setValue, if_neg ho]

end

theorem newline_not_mem_assignment (hbare : ∀ c ∈ key, isBare c = true) :
    '\n' ∉ assignment key n := by
  intro h
  have hdigs : '\n' ∉ (toString n.toNat).toList := by
    rw [GoScan.toList_toString]
    exact fun h => absurd (isDigit_toDigits '\n' h) (by decide)
  rcases mem_append.mp h with h | h
  · exact absurd (hbare '\n' h) (by decide)
  · simp only [mem_cons, hdigs, or_false] at h
    revert h
    decide

variable {line other : List Char}

theorem newline_not_mem_patchLine (hbare : ∀ c ∈ key, isBare c = true) (hne : key ≠ [])
    (hline : '\n' ∉ line) : '\n' ∉ patchLine key (assignment key n) line := by
  rw [patchLine]
  cases hma : matchAssignment key line with
  | none => exact hline
  | some rest =>
    cases line with
    | nil =>
      obtain ⟨k, ks, rfl⟩ := exists_cons_of_ne_nil hne
      cases hma
    | cons c cs =>
      intro h
      rcases mem_append.mp h with h | h
      · exact newline_not_mem_assignment hbare h
      · have hsuffix := matchAssignment_suffix hne hbare hline hma
        exact hline (.tail c (hsuffix.mem h))

section

variable (hne : key ≠ []) (hbare : ∀ c ∈ key, isBare c = true) (hread : read text = some doc)

include hne hbare hread

theorem patchThreshold_eq :
    patchThreshold key n text =
      ['\n'].intercalate ((lines text).map (patchLine key (assignment key n))) := by
  obtain ⟨-, hsome, -⟩ := read_eq_some hread
  have hln : replaceAllString key (assignment key n) 0 true (['\n'].intercalate (lines text)) =
      ['\n'].intercalate ((lines text).map (patchLine key (assignment key n))) :=
    replaceAllString_lines hne hbare (splitOn_ne_nil '\n' text)
      (fun _ h => not_mem_lines h) hsome
  rw [lines, intercalate_splitOn] at hln
  exact hln

section

variable (h : Spelled key text) (hn : n.toNat < 9223372036854775808)

include h hn

theorem read_patchThreshold :
    read (patchThreshold key n text) = some (doc.map fun e =>
      (e.1, setValue (failsafeTable ++ [key]) (.integer n.toNat) e.1 e.2)) := by
  rw [patchThreshold_eq hne hbare hread]
  exact read_map hread (fun l hl => newline_not_mem_patchLine hbare hne (not_mem_lines hl))
    fun p hp => h.revalues hne hbare hread hn hp

theorem placed_patchThreshold :
    placed [] (lines (patchThreshold key n text)) = (placed [] (lines text)).map fun p =>
      (p.1, patchLine key (assignment key n) p.2) := by
  have hln : lines (patchThreshold key n text) =
      (lines text).map (patchLine key (assignment key n)) := by
    rw [patchThreshold_eq hne hbare hread]
    refine splitOn_intercalate '\n' ?_ (by simp [lines])
    intro line hmem
    obtain ⟨l, hl, rfl⟩ := mem_map.mp hmem
    exact newline_not_mem_patchLine hbare hne (not_mem_lines hl)
  rw [hln]
  exact placed_map fun p hp => h.revalues hne hbare hread hn hp

end

end

theorem matchAssignment_patchLine
    (ho : ∀ y, dropKey other (key ++ y) = none) (hline : '\n' ∉ line) :
    matchAssignment other (patchLine key (assignment key n) line) =
      matchAssignment other line := by
  have hnone : ∀ y, matchAssignment other (key ++ y) = none := by
    intro y
    rw [matchAssignment, ho y]
  rw [patchLine]
  cases hma : matchAssignment key line with
  | none => rfl
  | some rest =>
    obtain ⟨x, y, rfl, -, -⟩ := matchAssignment_inv hline hma
    simp only [assignment, append_assoc, hnone]

theorem Spelled.patch (hoth : ∀ y, dropKey other (key ++ y) = none)
    (ho : Spelled other text) (hplaced : placed [] (lines (patchThreshold key n text)) =
      (placed [] (lines text)).map fun p => (p.1, patchLine key (assignment key n) p.2)) :
    Spelled other (patchThreshold key n text) := by
  have hsame : ∀ p ∈ placed [] (lines text),
      matchAssignment other (patchLine key (assignment key n) p.2) = matchAssignment other p.2 :=
    fun p hp => matchAssignment_patchLine hoth (not_mem_lines (mem_lines_of_placed hp))
  obtain ⟨⟨q, hq, hqmatch⟩, hplain⟩ := ho
  rw [Spelled, hplaced]
  constructor
  · refine ⟨_, mem_map_of_mem hq, ?_⟩
    rw [hsame q hq]
    exact hqmatch
  · intro p hp rest hrest
    obtain ⟨r, hr, rfl⟩ := mem_map.mp hp
    rw [hsame r hr] at hrest
    exact hplain r hr rest hrest

theorem Spelled.lookup (hne : key ≠ []) (hbare : ∀ c ∈ key, isBare c = true)
    (hread : read text = some doc) (h : Spelled key text) :
    (doc.lookup (failsafeTable ++ [key])).isSome = true := by
  obtain ⟨q, hq, -, w, hqentry⟩ := h.exists_entry hne hbare hread
  obtain ⟨rfl, -, -⟩ := read_eq_some hread
  rw [lookup_isSome_iff]
  exact ⟨_, mem_filterMap.mpr ⟨q, hq, hqentry⟩, by simp⟩

end Patch

def ppsPath : Path := failsafeTable ++ [ppsKey]

def bpsPath : Path := failsafeTable ++ [bpsKey]

/-- The file gives the two thresholds and what it gave before for every other key. -/
def HoldsThresholds (pps bps : UInt64) (before : Doc) (file : Option (List Char)) : Prop :=
  ∃ text doc, file = some text ∧ read text = some doc ∧
    doc.lookup ppsPath = some (.integer pps.toNat) ∧
    doc.lookup bpsPath = some (.integer bps.toNat) ∧
    ∀ path, path ≠ ppsPath → path ≠ bpsPath → doc.lookup path = before.lookup path

variable {text : List Char} {pps bps : UInt64}

theorem patchThresholds_holds {doc : Doc} (hread : read text = some doc)
    (hpps : Spelled ppsKey text) (hbps : Spelled bpsKey text)
    (hpn : pps.toNat < 9223372036854775808) (hbn : bps.toNat < 9223372036854775808) :
    HoldsThresholds pps bps doc (some (patchThresholds pps bps text)) := by
  have hpne : ppsKey ≠ [] := by decide
  have hbne : bpsKey ≠ [] := by decide
  have hpbare : ∀ c ∈ ppsKey, isBare c = true := all_eq_true.mp rfl
  have hbbare : ∀ c ∈ bpsKey, isBare c = true := all_eq_true.mp rfl
  have hread' := read_patchThreshold hpne hpbare hread hpps hpn
  have hbps' : Spelled bpsKey (patchThreshold ppsKey pps text) :=
    hbps.patch (fun _ => rfl) (placed_patchThreshold hpne hpbare hread hpps hpn)
  have hread'' := read_patchThreshold hbne hbbare hread' hbps' hbn
  refine ⟨_, _, rfl, hread'', ?_⟩
  simp only [lookup_map]
  refine ⟨?_, ?_, ?_⟩
  · obtain ⟨v, hv⟩ := Option.isSome_iff_exists.mp (hpps.lookup hpne hpbare hread)
    have hne : ppsPath ≠ failsafeTable ++ [bpsKey] := by decide
    rw [ppsPath] at hne ⊢
    simp only [hv, Option.map_some, setValue, if_true, if_neg hne]
  · obtain ⟨v, hv⟩ := Option.isSome_iff_exists.mp (hbps.lookup hbne hbbare hread)
    rw [bpsPath]
    simp only [hv, Option.map_some, setValue, if_true]
  · intro path hp hb
    rw [ppsPath] at hp
    rw [bpsPath] at hb
    cases doc.lookup path with
    | none => rfl
    | some v => simp only [Option.map_some, setValue, if_neg hp, if_neg hb]

theorem persistFailsafeThresholds_file {faults : FileFaults} {files : Files} {path : String}
    (hfile : files path = some text)
    (hok : (persistFailsafeThresholds faults path pps bps files).1 = none) :
    (persistFailsafeThresholds faults path pps bps files).2 path =
      some (patchThresholds pps bps text) := by
  obtain ⟨readErr, writeErr, renameErr⟩ := faults
  cases readErr with
  | some err => simp [persistFailsafeThresholds, readFile] at hok
  | none =>
    cases writeErr with
    | some left => simp [persistFailsafeThresholds, readFile, hfile] at hok
    | none =>
      cases renameErr with
      | some err => simp [persistFailsafeThresholds, readFile, hfile] at hok
      | none => simp [persistFailsafeThresholds, readFile, hfile]

def noFaults : FileFaults := ⟨none, none, none⟩

def onlyFile (text : String) : Files := fun _ => some text.toList

def plainToml : String :=
  "# failsafe\n[failsafe]\npps_threshold = 1000000   # 1 Mpps\nbps_threshold=10000000000\n" ++
    "cooldown_secs = 30\n\n[xdp]\nmode = \x22skb\x22\n"

def persistedFile (text : String) : Option (List Char) :=
  (persistFailsafeThresholds noFaults "falx.toml" 5 7 (onlyFile text)).2 "falx.toml"

def readBack (text : String) (path : Path) : Option Value :=
  ((persistedFile text).bind read).bind fun doc => doc.lookup path

end Falx
