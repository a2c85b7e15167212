import Falx.AuthRefresh
import Falx.TumblingWindow

/-! How many logins of one peer get to the credential check. The limiter counts under a key that
is computed from the request, and the headers of a request may say what that key is. -/

namespace Falx.Auth

open State

/-- What the handler reads of a request: the address of the peer, and the first value of a
header or the empty string. -/
structure HttpRequest where
  remoteAddr : String
  header : String → String

def realIP (r : HttpRequest) : String :=
  if r.header "X-Real-IP" ≠ "" then r.header "X-Real-IP"
  else if r.header "X-Forwarded-For" ≠ "" then
    String.ofList ((r.header "X-Forwarded-For").toList.takeWhile (· ≠ ','))
  else r.remoteAddr

def rateKey (splitHost : String → String) (ipAddr : String) : String :=
  if splitHost ipAddr = "" then ipAddr else splitHost ipAddr

structure LoginAttempt where
  request : HttpRequest
  env : Env

structure Passed where
  request : HttpRequest
  now : Int
  start : Int

def windowStart (key : String) (s : State) : Int :=
  ((s.loginRL key).map LoginRateLimiter.resetAt).getD 0 - State.loginRateWindow

section Throttle

variable (lib : AuthLibrary)

def passed : State → List LoginAttempt → List Passed
  | _, [] => []
  | s, l :: ls =>
    let r := s.checkLoginRate lib.splitHost l.env (realIP l.request)
    match r.1 with
    | .ok () =>
      ⟨l.request, l.env.now, windowStart (rateKey lib.splitHost (realIP l.request)) r.2⟩ ::
        passed r.2 ls
    | .error _ => passed r.2 ls

variable {lib} {s : State} {l : LoginAttempt} {ls : List LoginAttempt} {key : String}
  {r : Except AuthError Unit × State} {now last start : Int}

def liveEntry (now : Int) (key : String) (s : State) : Option LoginRateLimiter :=
  (s.loginRL key).filter fun rl => now ≤ rl.resetAt

theorem liveEntry_eq_none :
    liveEntry now key s = none ↔ ∀ rl, s.loginRL key = some rl → rl.resetAt < now := by
  simp [liveEntry, Option.filter_eq_none_iff]

theorem liveEntry_eq_some {rl : LoginRateLimiter} :
    liveEntry now key s = some rl ↔ s.loginRL key = some rl ∧ now ≤ rl.resetAt := by
  simp [liveEntry, Option.filter_eq_some_iff]

variable {e : Env} {ipAddr : String} {count : Nat}

theorem checkLoginRate_cases (hkey : rateKey lib.splitHost ipAddr = key)
    (hr : s.checkLoginRate lib.splitHost e ipAddr = r) :
    (∀ k, k ≠ key → r.2.loginRL k = liveEntry e.now k s) ∧
      ((liveEntry e.now key s = none ∧ r.1 = .ok () ∧
          r.2.loginRL key = some ⟨1, e.now + loginRateWindow⟩) ∨
        ∃ rl, liveEntry e.now key s = some rl ∧
          r.2.loginRL key = some ⟨rl.attempts + 1, rl.resetAt⟩ ∧
          (r.1 = .ok () ↔ rl.attempts + 1 ≤ loginRateLimit)) := by
  have hlive : (s.loginRL key).filter (fun rl => decide (e.now ≤ rl.resetAt)) =
    liveEntry e.now key s := rfl
  unfold checkLoginRate at hr
  dsimp only at hr
  rw [rateKey] at hkey
  rw [hkey, hlive] at hr
  cases hen : liveEntry e.now key s with
  | none =>
    rw [hen] at hr
    subst hr
    exact ⟨fun k hk => dif_neg hk, .inl ⟨rfl, rfl, dif_pos rfl⟩⟩
  | some rl =>
    rw [hen] at hr
    dsimp only at hr
    split at hr
    · rename_i hli
      subst hr
      exact ⟨fun k hk => dif_neg hk, .inr ⟨rl, rfl, dif_pos rfl,
        nofun, fun h => absurd hli (Nat.not_lt.mpr h)⟩⟩
    · rename_i hli
      subst hr
      exact ⟨fun k hk => dif_neg hk, .inr ⟨rl, rfl, dif_pos rfl,
        fun _ => Nat.le_of_not_lt hli, fun _ => rfl⟩⟩

section

variable (hr : s.checkLoginRate lib.splitHost l.env (realIP l.request) = r)

include hr

theorem passed_cons_ok (hok : r.1 = .ok ()) :
    passed lib s (l :: ls) = ⟨l.request, l.env.now,
      windowStart (rateKey lib.splitHost (realIP l.request)) r.2⟩ :: passed lib r.2 ls := by
  rw [passed, hr]
  rw [hok]

theorem passed_cons_error (hok : r.1 ≠ .ok ()) : passed lib s (l :: ls) = passed lib r.2 ls := by
  rw [passed, hr]
  split
  · contradiction
  · rfl

end

theorem windowStart_of_entry {n : Nat} {resetAt : Int} (h : s.loginRL key = some ⟨n, resetAt⟩) :
    windowStart key s = resetAt - loginRateWindow := by
  rw [windowStart, h]
  rfl

theorem exists_of_mem_passed {p : Passed} (h : p ∈ passed lib s ls) :
    ∃ l ∈ ls, l.request = p.request := by
  induction ls generalizing s with
  | nil => cases h
  | cons l ls ih =>
    have hrest {t : State} (h : p ∈ passed lib t ls) : ∃ l' ∈ l :: ls, l'.request = p.request := by
      obtain ⟨l', hl', hreq⟩ := ih h
      exact ⟨l', .tail l hl', hreq⟩
    by_cases hok : (s.checkLoginRate lib.splitHost l.env (realIP l.request)).1 = .ok ()
    · rw [passed_cons_ok rfl hok] at h
      rcases List.mem_cons.mp h with rfl | h
      · exact ⟨l, .head _, rfl⟩
      · exact hrest h
    · rw [passed_cons_error rfl hok] at h
      exact hrest h

def Dated (last : Int) (s : State) : Prop :=
  ∀ k rl, s.loginRL k = some rl → rl.resetAt ≤ last + State.loginRateWindow

theorem Dated.checkLoginRate (h : Dated last s) (hle : last ≤ e.now)
    (hr : s.checkLoginRate lib.splitHost e ipAddr = r) : Dated e.now r.2 := by
  intro k rl hrl
  have hlive {rl' : LoginRateLimiter} (h' : liveEntry e.now k s = some rl') :
      rl'.resetAt ≤ e.now + loginRateWindow := by
    have hrs := h k rl' (liveEntry_eq_some.mp h').1
    omega
  obtain ⟨ho, hthis⟩ := checkLoginRate_cases rfl hr
  by_cases hk : k = rateKey lib.splitHost ipAddr
  · subst hk
    rcases hthis with ⟨-, -, hen⟩ | ⟨rl', hlive', hen, -⟩
    · cases hen.symm.trans hrl
      exact Int.le_refl _
    · cases hen.symm.trans hrl
      exact @hlive rl' hlive'
  · exact hlive ((ho k hk).symm.trans hrl)

theorem passed_inWindow (hclk : ls.Pairwise fun l l' => l.env.now ≤ l'.env.now)
    (hlast : ∀ l ∈ ls, last ≤ l.env.now) (hda : Dated last s) :
    ∀ p ∈ passed lib s ls, p.start ≤ p.now ∧ p.now ≤ p.start + loginRateWindow := by
  induction ls generalizing s last with
  | nil => exact fun p hp => nomatch hp
  | cons l ls ih =>
    generalize hr : s.checkLoginRate lib.splitHost l.env (realIP l.request) = r
    obtain ⟨hfst, hclk⟩ := List.pairwise_cons.mp hclk
    have hda' := hda.checkLoginRate (hlast l (.head _)) hr
    have hrest := ih hclk hfst hda'
    by_cases hok : r.1 = .ok ()
    · rw [passed_cons_ok hr hok]
      refine List.forall_mem_cons.mpr ⟨?_, hrest⟩
      obtain ⟨-, ⟨-, -, hen⟩ | ⟨rl, hlive, hen, -⟩⟩ := checkLoginRate_cases rfl hr
      · have hwin : loginRateWindow = 60000000000 := rfl
        rw [windowStart_of_entry hen]
        dsimp only
        omega
      · have hrs := hda' _ _ hen
        dsimp only at hrs
        have hnow := (liveEntry_eq_some.mp hlive).2
        rw [windowStart_of_entry hen]
        dsimp only
        omega
    · rw [passed_cons_error hr hok]
      exact hrest

def Open (key : String) (last start : Int) (count : Nat) (s : State) : Prop :=
  (∃ rl, s.loginRL key = some rl ∧ rl.resetAt = start + State.loginRateWindow ∧
      count = min rl.attempts State.loginRateLimit) ∨
    s.loginRL key = none ∧ start + State.loginRateWindow < last

section

variable (h : Open key last start count s) (hle : last ≤ now)

include h hle

theorem Open.evict {t : State}
    (ht : t.loginRL key = liveEntry now key s) : Open key now start count t := by
  rcases h with ⟨rl, hrl, hrs, hcnt⟩ | ⟨hnone, hover⟩
  · by_cases hlive : now ≤ rl.resetAt
    · exact .inl ⟨rl, ht.trans (liveEntry_eq_some.mpr ⟨hrl, hlive⟩), hrs, hcnt⟩
    · refine .inr ⟨ht.trans (liveEntry_eq_none.mpr fun rl' h => ?_), by omega⟩
      cases hrl.symm.trans h
      omega
  · refine .inr ⟨ht.trans (liveEntry_eq_none.mpr fun rl' h => ?_), by omega⟩
    cases hnone.symm.trans h

theorem Open.over (hnone : liveEntry now key s = none) : start + loginRateWindow < now := by
  rcases h with ⟨rl, hrl, hrs, -⟩ | ⟨-, hover⟩
  · have hrun := liveEntry_eq_none.mp hnone rl hrl
    omega
  · omega

end

def Passed.tick (base : Int) (p : Passed) : TumblingWindow.Tick :=
  ⟨(p.now - base).toNat, 1, (p.start - base).toNat⟩

def Passed.under (lib : AuthLibrary) (key : String) (p : Passed) : Bool :=
  rateKey lib.splitHost (realIP p.request) = key

theorem admitted_passed {base : Int} (hbase : base ≤ start)
    (hclk : ls.Pairwise fun l l' => l.env.now ≤ l'.env.now) (hlast : ∀ l ∈ ls, last ≤ l.env.now)
    (hopen : Open key last start count s) :
    TumblingWindow.Admitted 60000000001 10 (last - base).toNat (start - base).toNat count
      (((passed lib s ls).filter (Passed.under lib key)).map (Passed.tick base)) := by
  have hwin : loginRateWindow = 60000000000 := rfl
  have hli : loginRateLimit = 10 := rfl
  induction ls generalizing s last start count with
  | nil => exact .nil
  | cons l ls ih =>
    generalize hr : s.checkLoginRate lib.splitHost l.env (realIP l.request) = r
    obtain ⟨hfst, hclk⟩ := List.pairwise_cons.mp hclk
    have hnow := hlast l (.head _)
    have htick : (last - base).toNat ≤ (l.env.now - base).toNat := by omega
    by_cases hkey : rateKey lib.splitHost (realIP l.request) = key
    · have hun {n start : Int} : Passed.under lib key ⟨l.request, n, start⟩ = true :=
        decide_eq_true hkey
      obtain ⟨-, ⟨hnone, hok, hen⟩ | ⟨rl, hlive, hen, hok⟩⟩ := checkLoginRate_cases hkey hr
      · have hover := hopen.over hnow hnone
        have hrest := ih (show base ≤ l.env.now by omega) hclk hfst
          (.inl ⟨_, hen, rfl, rfl⟩)
        rw [passed_cons_ok hr hok, List.filter_cons_of_pos hun, List.map_cons, Passed.tick, hkey,
          windowStart_of_entry hen, Int.add_sub_cancel]
        dsimp only
        exact .restart htick (by omega) (by omega) hrest
      · obtain ⟨hrl, hrs⟩ := liveEntry_eq_some.mp hlive
        obtain ⟨rl', hrl', hst, hcnt⟩ | ⟨hnone, -⟩ := hopen
        · cases hrl.symm.trans hrl'
          have hrest := ih hbase hclk hfst (.inl ⟨_, hen, hst, rfl⟩)
          by_cases hpass : r.1 = .ok ()
          · have hroom := hok.mp hpass
            have hnext : min (rl.attempts + 1) loginRateLimit = count + 1 := by omega
            rw [hnext] at hrest
            rw [passed_cons_ok hr hpass, List.filter_cons_of_pos hun, List.map_cons, Passed.tick,
              hkey, windowStart_of_entry hen, hst, Int.add_sub_cancel]
            dsimp only
            exact .stay htick (by omega) (by omega) hrest
          · have hfull : ¬rl.attempts + 1 ≤ loginRateLimit := fun h => hpass (hok.mpr h)
            have hsame : min (rl.attempts + 1) loginRateLimit = count := by omega
            rw [hsame] at hrest
            rw [passed_cons_error hr hpass]
            exact hrest.of_le htick
        · cases hrl.symm.trans hnone
    · obtain ⟨ho, -⟩ := checkLoginRate_cases rfl hr
      have hrest := ih hbase hclk hfst (hopen.evict hnow (ho key (Ne.symm hkey)))
      by_cases hok : r.1 = .ok ()
      · rw [passed_cons_ok hr hok, List.filter_cons_of_neg (by simp [Passed.under, hkey])]
        exact hrest.of_le htick
      · rw [passed_cons_error hr hok]
        exact hrest.of_le htick

def ofPeer (lib : AuthLibrary) (host : String) (r : HttpRequest) : Bool :=
  lib.splitHost r.remoteAddr = host

/-- Of the requests of a peer that are all counted under one key, ten pass in a window and
twenty in any minute. -/
theorem login_throttled {host : String} (hstart : ∀ k, s.loginRL k = none)
    (hclock : ls.Pairwise fun l l' => l.env.now ≤ l'.env.now)
    (hkey : ∀ l ∈ ls, ofPeer lib host l.request = true →
      rateKey lib.splitHost (realIP l.request) = key) :
    (∀ p ∈ passed lib s ls, p.start ≤ p.now ∧ p.now ≤ p.start + 60 * second) ∧
      (∀ w, (passed lib s ls).countP (fun p => ofPeer lib host p.request && p.start == w) ≤ 10) ∧
      ∀ a, (passed lib s ls).countP (fun p => ofPeer lib host p.request &&
        (decide (a ≤ p.now) && decide (p.now ≤ a + 60 * second))) ≤ 20 := by
  obtain ⟨last, hlast⟩ : ∃ last, ∀ l ∈ ls, last ≤ l.env.now := by
    cases ls with
    | nil => exact ⟨0, nofun⟩
    | cons l ls =>
      exact ⟨_, List.forall_mem_cons.mpr ⟨Int.le_refl _, (List.pairwise_cons.mp hclock).1⟩⟩
  have hsec : second = 1000000000 := rfl
  have hwin : State.loginRateWindow = 60 * second := rfl
  obtain ⟨base, hbase⟩ : ∃ base, base = last - State.loginRateWindow - 1 := ⟨_, rfl⟩
  have hopen : Open key last base 0 s := .inr ⟨hstart key, by omega⟩
  have hadm := @admitted_passed lib _ _ _ _ _ _ _ (Int.le_refl base) hclock hlast hopen
  have hcnt {p : Passed → Bool} {q : TumblingWindow.Tick → Bool}
      (himp : ∀ x, p x = true → q (x.tick base) = true) :
      (passed lib s ls).countP (fun x => ofPeer lib host x.request && p x) ≤
        TumblingWindow.load q (((passed lib s ls).filter (Passed.under lib key)).map
          (Passed.tick base)) := by
    rw [TumblingWindow.load_map_eq_countP (fun _ => rfl), List.countP_filter]
    refine List.countP_mono_left fun x hx h => ?_
    obtain ⟨hpeer, hp⟩ := Bool.and_eq_true_iff.mp h
    obtain ⟨l, hl, hreq⟩ := exists_of_mem_passed hx
    have hun := hkey l hl (hreq ▸ hpeer)
    rw [hreq] at hun
    exact Bool.and_eq_true_iff.mpr ⟨himp x hp, decide_eq_true hun⟩
  refine ⟨?_, fun w => ?_, fun a => ?_⟩
  · rw [← hwin]
    refine passed_inWindow hclock hlast fun k rl hrl => ?_
    cases (hstart k).symm.trans hrl
  · have hload := hadm.load_inWindow_le (by decide) (w - base).toNat
    refine (hcnt fun x hx => ?_).trans hload
    rw [← eq_of_beq hx]
    exact beq_self_eq_true _
  · have hload := hadm.load_within_le (by decide) (a - base).toNat
    refine (hcnt fun x hx => ?_).trans hload
    simp only [Bool.and_eq_true, decide_eq_true_eq] at hx
    refine Bool.and_eq_true_iff.mpr ⟨decide_eq_true ?_, decide_eq_true ?_⟩
    · dsimp only [Passed.tick]
      omega
    · dsimp only [Passed.tick]
      omega

end Throttle

def directLogin (header : String → String) : LoginAttempt where
  request := ⟨"192.0.2.1:4711", header⟩
  env := { now := 0, newID := "" }

theorem login_throttled_direct :
    (passed plainLibrary emptyState (List.replicate 12 (directLogin fun _ => ""))).length = 10 ∧
      (passed plainLibrary emptyState (List.replicate 12 (directLogin fun _ => ""))).countP
        (fun p => ofPeer plainLibrary "192.0.2.1:4711" p.request && p.start == 0) ≤ 10 :=
  ⟨by decide +kernel, (login_throttled (fun _ => rfl) (by decide +kernel) fun l hl _ => by
    rw [List.eq_of_mem_replicate hl]).2.1 0⟩

def disguisedLogins : List LoginAttempt :=
  (List.range 21).map fun i => directLogin fun name => if name = "X-Real-IP" then i.repr else ""

theorem login_unthrottled : (passed plainLibrary emptyState disguisedLogins).countP
    (fun p => ofPeer plainLibrary "192.0.2.1:4711" p.request &&
      (decide (0 ≤ p.now) && decide (p.now ≤ 0 + 60 * second))) = 21 := by
  decide +kernel

end Falx.Auth
