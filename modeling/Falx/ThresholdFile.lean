import Falx.TomlLines
import Falx.Types

/-! The failsafe thresholds in falx.toml. falx-soc rewrites them in the text of the file with
two regular expressions; the loader reads the file for other settings and takes the
thresholds from its command line. -/

namespace Falx

open List TomlLines

def isSpaceClass (c : Char) : Bool := isBlank c || c == '\n'

def dropKey : Key → List Char → Option (List Char)
  | [], text => some text
  | _ :: _, [] => none
  | k :: ks, c :: cs => if k = c then dropKey ks cs else none

/-- What follows a match of `key\s*=\s*\d+` at the start of the text. -/
def matchAssignment (key : Key) (text : List Char) : Option (List Char) :=
  match dropKey key text with
  | none => none
  | some rest =>
    let rest := rest.dropWhile isSpaceClass
    if rest.head? = some '=' then
      let rest := rest.tail.dropWhile isSpaceClass
      if rest.head?.any Char.isDigit then some (rest.dropWhile Char.isDigit) else none
    else none

/-- `ReplaceAllString` with `(?m)^key\s*=\s*\d+`: so many characters are still to be skipped
as part of a match, and a match may begin where a line does. -/
def replaceAllString (key : Key) (repl : List Char) : Nat → Bool → List Char → List Char
  | _, _, [] => []
  | n + 1, _, c :: cs => replaceAllString key repl n (c == '\n') cs
  | 0, lineStart, c :: cs =>
    match if lineStart then matchAssignment key (c :: cs) else none with
    | some rest => repl ++ replaceAllString key repl (cs.length - rest.length) (c == '\n') cs
    | none => c :: replaceAllString key repl 0 (c == '\n') cs

def ppsKey : Key := "pps_threshold".toList

def bpsKey : Key := "bps_threshold".toList

def assignment (key : Key) (n : UInt64) : List Char :=
  key ++ ' ' :: '=' :: ' ' :: (toString n.toNat).toList

def patchThreshold (key : Key) (n : UInt64) (text : List Char) : List Char :=
  replaceAllString key (assignment key n) 0 true text

def patchThresholds (pps bps : UInt64) (text : List Char) : List Char :=
  patchThreshold bpsKey bps (patchThreshold ppsKey pps text)

abbrev Files := String → Option (List Char)

/-- Errors of the file system; a write that fails leaves the temporary file with some text. -/
structure FileFaults where
  readErr : Option String
  writeErr : Option (String × List Char)
  renameErr : Option String
  deriving DecidableEq

def readFile (faults : FileFaults) (path : String) (files : Files) : Except String (List Char) :=
  match faults.readErr, files path with
  | some err, _ => .error err
  | none, none => .error ("open " ++ path ++ ": no such file or directory")
  | none, some data => .ok data

def persistFailsafeThresholds (faults : FileFaults) (path : String) (pps bps : UInt64)
    (files : Files) : Option String × Files :=
  match readFile faults path files with
  | .error err => (some ("read " ++ path ++ ": " ++ err), files)
  | .ok data =>
    let patched := patchThresholds pps bps data
    let tmp := path ++ ".tmp"
    match faults.writeErr with
    | some (err, left) =>
      (some ("write " ++ tmp ++ ": " ++ err), Function.update files tmp (some left))
    | none =>
      match faults.renameErr with
      | some err =>
        (some ("rename " ++ tmp ++ " -> " ++ path ++ ": " ++ err), Function.update files tmp none)
      | none => (none, Function.update (Function.update files tmp none) path (some patched))

inductive XdpAttachMode where
  | native
  | skb
  | offload
  deriving DecidableEq

structure LoaderArgs where
  iface : Option String := none
  config : String := "/etc/falx/falx.toml"
  mode : Option XdpAttachMode := none
  pinPath : Option String := none
  ppsThreshold : UInt64 := 1000000
  bpsThreshold : UInt64 := 10000000000
  deriving DecidableEq

structure ConfigFile where
  iface : Option String := none
  pinPath : Option String := none
  mode : Option String := none
  deriving DecidableEq

structure LoaderConfig where
  iface : String
  xdpMode : XdpAttachMode
  pinPath : String
  mapConfig : FalxMapConfig
  failsafeInit : FailsafeState
  deriving DecidableEq

def loadConfigFile (fromStr : List Char → Option ConfigFile) (path : String) (files : Files) :
    ConfigFile :=
  match files path with
  | none => {}
  | some content => (fromStr content).getD {}

def parseMode (s : String) : Option XdpAttachMode :=
  if s = "native" then some .native
  else if s = "skb" then some .skb
  else if s = "offload" then some .offload
  else none

def loaderConfig (args : LoaderArgs) (cfgFile : ConfigFile) : LoaderConfig where
  iface := (args.iface.or cfgFile.iface).getD "eth0"
  xdpMode := args.mode.getD ((cfgFile.mode.bind parseMode).getD .native)
  pinPath := (args.pinPath.or cfgFile.pinPath).getD "/sys/fs/bpf/falx"
  mapConfig :=
    { defaultAction := Action.pass
      rateLimitEnabled := 1
      failsafeEnabled := 1
      afxdpRedirect := 0
      rateCapacity := 1000
      rateRefillNs := 1000000
      honeypotIp := 0
      honeypotPort := 0 }
  failsafeInit :=
    { circuitOpen := 0
      currentPps := 0
      currentBps := 0
      openSinceNs := 0
      ppsThreshold := args.ppsThreshold
      bpsThreshold := args.bpsThreshold
      windowStartNs := 0 }

def installedFailsafe (fromStr : List Char → Option ConfigFile) (args : LoaderArgs)
    (files : Files) : FailsafeState :=
  (loaderConfig args (loadConfigFile fromStr args.config files)).failsafeInit

section Replace

variable {key repl line rest more : List Char}

theorem dropKey_eq_some (h : dropKey key line = some rest) : line = key ++ rest := by
  induction key generalizing line with
  | nil =>
    cases h
    rfl
  | cons k ks ih =>
    cases line with
    | nil => cases h
    | cons c cs =>
      rw [dropKey] at h
      split at h
      · rename_i heq
        rw [heq, ih h]
        rfl
      · cases h

theorem dropKey_append (hkey : '\n' ∉ key) (line more : List Char) :
    dropKey key (line ++ '\n' :: more) = (dropKey key line).map (· ++ '\n' :: more) := by
  induction key generalizing line with
  | nil => rfl
  | cons k ks ih =>
    have hk := ne_of_not_mem_cons hkey
    have hks := not_mem_of_not_mem_cons hkey
    cases line with
    | nil =>
      simp [dropKey, Ne.symm hk]
    | cons c cs =>
      rw [cons_append, dropKey, dropKey]
      split
      · exact ih hks cs
      · rfl

variable {x : List Char}

theorem dropWhile_isSpaceClass (hx : '\n' ∉ x) : x.dropWhile isSpaceClass = skip x := by
  induction x with
  | nil => rfl
  | cons c cs ih =>
    have hc := ne_of_not_mem_cons hx
    have hcs := not_mem_of_not_mem_cons hx
    have hclass : isSpaceClass c = isBlank c := by simp [isSpaceClass, Ne.symm hc]
    rw [skip, dropWhile_cons, dropWhile_cons, hclass]
    split
    · exact ih hcs
    · rfl

theorem dropWhile_append_of_ne_nil {p : Char → Bool} {y : List Char} (h : x.dropWhile p ≠ []) :
    (x ++ y).dropWhile p = x.dropWhile p ++ y := by
  rw [dropWhile_append, if_neg (by simpa using h)]

theorem not_mem_skip (hx : '\n' ∉ x) : '\n' ∉ skip x :=
  fun h => hx ((dropWhile_suffix _).mem h)

theorem matchAssignment_line (hdrop : dropKey key line = some x) (hx : '\n' ∉ x) :
    matchAssignment key line =
      if (skip x).head? = some '=' then
        if (skip (skip x).tail).head?.any Char.isDigit then
          some ((skip (skip x).tail).dropWhile Char.isDigit)
        else none
      else none := by
  have htail : '\n' ∉ (skip x).tail := fun h => not_mem_skip hx (mem_of_mem_tail h)
  simp only [matchAssignment, hdrop, dropWhile_isSpaceClass hx, dropWhile_isSpaceClass htail]

theorem matchAssignment_inv (hline : '\n' ∉ line) (h : matchAssignment key line = some rest) :
    ∃ x y, line = key ++ x ∧ skip x = '=' :: y ∧ rest = (skip y).dropWhile Char.isDigit := by
  cases hdrop : dropKey key line with
  | none =>
    rw [matchAssignment, hdrop] at h
    cases h
  | some x =>
    have hsp := dropKey_eq_some hdrop
    have hx : '\n' ∉ x := fun hmem => hline (hsp ▸ mem_append_right key hmem)
    rw [matchAssignment_line hdrop hx] at h
    split at h
    · rename_i hsign
      obtain ⟨y, hy⟩ := List.head?_eq_some_iff.mp hsign
      split at h
      · rw [hy, tail_cons] at h
        exact ⟨x, y, hsp, hy, (Option.some.inj h).symm⟩
      · cases h
    · cases h

theorem dropWhile_isDigit_append (x more : List Char) :
    (x ++ '\n' :: more).dropWhile Char.isDigit = x.dropWhile Char.isDigit ++ '\n' :: more := by
  rw [dropWhile_append]
  split
  · rename_i hnil
    rw [isEmpty_iff.mp hnil]
    rfl
  · rfl

theorem replaceAllString_skip (hx : '\n' ∉ x) (y : List Char) :
    replaceAllString key repl x.length false (x ++ y) = replaceAllString key repl 0 false y := by
  induction x with
  | nil => rfl
  | cons c x ih =>
    have hc : (c == '\n') = false := beq_eq_false_iff_ne.mpr (ne_of_not_mem_cons hx).symm
    rw [length_cons, cons_append, replaceAllString, hc]
    exact ih (not_mem_of_not_mem_cons hx)

theorem replaceAllString_inside (hx : '\n' ∉ x) (y : List Char) :
    replaceAllString key repl 0 false (x ++ y) = x ++ replaceAllString key repl 0 false y := by
  induction x with
  | nil => rfl
  | cons c x ih =>
    have hc : (c == '\n') = false := beq_eq_false_iff_ne.mpr (ne_of_not_mem_cons hx).symm
    rw [cons_append, replaceAllString, hc, cons_append,
      ← ih (not_mem_of_not_mem_cons hx)]
    rfl

def patchLine (key repl line : List Char) : List Char :=
  match matchAssignment key line with
  | some rest => repl ++ rest
  | none => line

section Key

variable (hne : key ≠ []) (hbare : ∀ c ∈ key, isBare c = true)

include hne hbare

theorem matchAssignment_append (hline : '\n' ∉ line) (hread : (readLine line).isSome = true)
    (more : List Char) :
    matchAssignment key (line ++ '\n' :: more) =
      (matchAssignment key line).map (· ++ '\n' :: more) := by
  rw [matchAssignment, dropKey_append (fun h => absurd (hbare '\n' h) (by decide))]
  cases hdrop : dropKey key line with
  | none => simp [matchAssignment, hdrop]
  | some x =>
    have hsp := dropKey_eq_some hdrop
    have hx : '\n' ∉ x := fun h => hline (hsp ▸ mem_append_right key h)
    have hskip : skip x ≠ [] := by
      intro hnil
      rw [hsp, readLine_key_alone hne hbare hnil] at hread
      cases hread
    rw [matchAssignment_line hdrop hx]
    simp only [Option.map_some]
    rw [dropWhile_append_of_ne_nil (by rwa [dropWhile_isSpaceClass hx]), dropWhile_isSpaceClass hx]
    obtain ⟨c, y, hy⟩ := exists_cons_of_ne_nil hskip
    rw [hy]
    by_cases hc : c = '='
    · subst hc
      have hyline : '\n' ∉ y := by
        have h := not_mem_skip hx
        rw [hy] at h
        exact not_mem_of_not_mem_cons h
      have hv : skip y ≠ [] := by
        intro hnil
        rw [hsp, readLine_assign hne hbare hy, readValue_blank hnil] at hread
        cases hread
      have hdrop' : (y ++ '\n' :: more).dropWhile isSpaceClass = skip y ++ '\n' :: more := by
        rw [dropWhile_append_of_ne_nil (by rwa [dropWhile_isSpaceClass hyline]),
          dropWhile_isSpaceClass hyline]
      rw [cons_append, List.head?_cons, tail_cons, List.head?_cons, tail_cons,
        hdrop', List.head?_append_of_ne_nil _ hv, dropWhile_isDigit_append]
      simp only [if_true]
      split <;> rfl
    · simp [hc]

theorem matchAssignment_suffix {c : Char} {cs : List Char} (hline : '\n' ∉ c :: cs)
    (h : matchAssignment key (c :: cs) = some rest) : rest <:+ cs := by
  obtain ⟨x, y, hsp, hx, rfl⟩ := matchAssignment_inv hline h
  obtain ⟨k, ks, rfl⟩ := exists_cons_of_ne_nil hne
  have hcs : cs = ks ++ x := (List.cons.inj hsp).2
  have hxs : '=' :: y <:+ x := hx ▸ dropWhile_suffix _
  have hy : y <:+ cs := hcs ▸ ((suffix_cons '=' y).trans hxs).trans (suffix_append ks x)
  exact ((dropWhile_suffix _).trans (dropWhile_suffix _)).trans hy

theorem replaceAllString_line (hline : '\n' ∉ line) {y : List Char}
    (hy : matchAssignment key (line ++ y) = (matchAssignment key line).map (· ++ y))
    (hnil : line = [] → replaceAllString key repl 0 true y = replaceAllString key repl 0 false y) :
    replaceAllString key repl 0 true (line ++ y) =
      patchLine key repl line ++ replaceAllString key repl 0 false y := by
  cases line with
  | nil =>
    obtain ⟨k, ks, rfl⟩ := exists_cons_of_ne_nil hne
    exact hnil rfl
  | cons c cs =>
    have hc : (c == '\n') = false := beq_eq_false_iff_ne.mpr (ne_of_not_mem_cons hline).symm
    have hcs := not_mem_of_not_mem_cons hline
    rw [cons_append] at hy ⊢
    rw [replaceAllString, if_pos rfl, hy, hc, patchLine]
    cases hma : matchAssignment key (c :: cs) with
    | none =>
      rw [cons_append, ← replaceAllString_inside hcs]
      rfl
    | some rest =>
      obtain ⟨used, rfl⟩ := matchAssignment_suffix hne hbare hline hma
      have hused : '\n' ∉ used := fun h => hcs (mem_append_left rest h)
      have hrest : '\n' ∉ rest := fun h => hcs (mem_append_right used h)
      have hlen : (used ++ rest ++ y).length - (rest ++ y).length = used.length := by
        simp only [length_append]
        omega
      simp only [Option.map_some]
      rw [hlen, append_assoc, replaceAllString_skip hused, replaceAllString_inside hrest,
        append_assoc]

theorem replaceAllString_lines {ls : List (List Char)} (hls : ls ≠ [])
    (hline : ∀ l ∈ ls, '\n' ∉ l) (hread : ∀ l ∈ ls, (readLine l).isSome = true) :
    replaceAllString key repl 0 true (['\n'].intercalate ls) =
      ['\n'].intercalate (ls.map (patchLine key repl)) := by
  induction ls with
  | nil => exact absurd rfl hls
  | cons l ls ih =>
    have hl := hline l (.head _)
    cases ls with
    | nil =>
      have hend : replaceAllString key repl 0 true (l ++ []) =
          patchLine key repl l ++ replaceAllString key repl 0 false [] :=
        replaceAllString_line hne hbare hl (by simp) fun _ => rfl
      simpa [replaceAllString] using hend
    | cons l' ls =>
      have hrest := ih (cons_ne_nil l' ls) (fun m hm => hline m (.tail l hm))
        fun m hm => hread m (.tail l hm)
      have happend := matchAssignment_append hne hbare hl (hread l (.head _))
        (['\n'].intercalate (l' :: ls))
      have hbreak : replaceAllString key repl 0 false ('\n' :: ['\n'].intercalate (l' :: ls)) =
          '\n' :: ['\n'].intercalate ((l' :: ls).map (patchLine key repl)) := by
        rw [← hrest]
        rfl
      have hfst : replaceAllString key repl 0 true (l ++ '\n' :: ['\n'].intercalate (l' :: ls)) =
          patchLine key repl l ++
            replaceAllString key repl 0 false ('\n' :: ['\n'].intercalate (l' :: ls)) := by
        refine replaceAllString_line hne hbare hl happend fun hnil => ?_
        have hnone : matchAssignment key ('\n' :: ['\n'].intercalate (l' :: ls)) = none := by
          obtain ⟨k, ks, rfl⟩ := exists_cons_of_ne_nil hne
          rw [hnil] at happend
          exact happend
        rw [replaceAllString, if_pos rfl, hnone]
        rfl
      rw [intercalate_cons_cons, append_assoc, singleton_append, hfst, hbreak]
      simp only [map_cons, intercalate_cons_cons, append_assoc,
        singleton_append]

theorem readLine_matched (hline : '\n' ∉ line) (hread : (readLine line).isSome = true)
    (h : matchAssignment key line = some rest) : ∃ v, readLine line = some (.assign [key] v) := by
  obtain ⟨x, y, rfl, hx, -⟩ := matchAssignment_inv hline h
  rw [readLine_assign hne hbare hx] at hread ⊢
  cases hv : readValue y with
  | none =>
    rw [hv] at hread
    cases hread
  | some v => exact ⟨v, rfl⟩

theorem readLine_assignment {n : UInt64} (hn : n.toNat < 9223372036854775808)
    (hrest : isComment rest = true) :
    readLine (assignment key n ++ rest) = some (.assign [key] (.integer n.toNat)) := by
  have hskip : skip (' ' :: '=' :: ' ' :: ((toString n.toNat).toList ++ rest)) =
      '=' :: ' ' :: ((toString n.toNat).toList ++ rest) := by simp [skip, isBlank]
  rw [assignment, append_assoc]
  rw [cons_append, cons_append, cons_append, readLine_assign hne hbare hskip,
    GoScan.toList_toString, readValue_toDigits hn hrest]
  rfl

end Key

end Replace

end Falx
