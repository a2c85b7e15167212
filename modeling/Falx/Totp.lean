import Falx.ReplayCache
import Falx.Words

/-! Verification of time-based one-time codes. A code counts for the time step of the
call and for its two neighbours, 90 seconds in all; the cache of used codes forgets an
entry at the first success more than 60 seconds after it. -/

namespace Falx

structure TotpLibrary where
  hmacSha1 : List UInt8 → List UInt8 → Vector UInt8 20
  /-- Unpadded base32 of the secret in upper case. -/
  decodeSecret : String → Option (List UInt8)

def totpDigits : Nat := 6

def totpPeriod : Int := 30

def totpWindow : Int := 1

def counterBytes (counter : UInt64) : List UInt8 :=
  (List.range 8).map fun i => UInt8.ofNat (counter.toNat / 256 ^ (7 - i))

def hotp (lib : TotpLibrary) (key : List UInt8) (counter : UInt64) (digits : Nat) : UInt32 :=
  let h := (lib.hmacSha1 key (counterBytes counter)).toList
  let byte (i : Nat) : UInt32 := (h.getD i 0).toUInt32
  -- the low four bits of the last byte: the four bytes from there lie inside the 20
  let offset := (h.getD 19 0 &&& 0x0F).toNat
  let code := ((byte offset &&& 0x7F) <<< 24) ||| (byte (offset + 1) <<< 16) |||
    (byte (offset + 2) <<< 8) ||| byte (offset + 3)
  code % UInt32.ofNat (10 ^ digits)

def formatCode (digits : Nat) (code : UInt32) : String :=
  let s := toString code.toNat
  String.ofList (List.replicate (digits - s.length) '0' ++ s.toList)

def totpCode (lib : TotpLibrary) (key : List UInt8) (counter : UInt64) : String :=
  formatCode totpDigits (hotp lib key counter totpDigits)

-- Go's division truncates towards zero
def totpCounter (now delta : Int) : UInt64 :=
  UInt64.ofInt ((now + delta * totpPeriod).tdiv totpPeriod)

def matchingCounter (lib : TotpLibrary) (now : Int) (secret code : String) : Option UInt64 :=
  if code.utf8ByteSize ≠ totpDigits then none
  else
    match lib.decodeSecret secret with
    | none => none
    | some key =>
      ([-totpWindow, 0, totpWindow].map (totpCounter now)).find? fun counter =>
        code == totpCode lib key counter

/-- Used codes: the secret and the counter, with the Unix time of the acceptance. -/
abbrev TotpCache := ReplayCache.Cache (String × UInt64)

def totpRetention : Int := (totpWindow + 1) * totpPeriod

def verifyTOTPCode (lib : TotpLibrary) (now : Int) (secret code : String) (cache : TotpCache) :
    Bool × TotpCache :=
  match matchingCounter lib now secret code with
  | none => (false, cache)
  | some counter => ReplayCache.present totpRetention now cache (secret, counter)

structure TotpCall where
  now : Int
  secret : String
  code : String
  deriving DecidableEq

def totpAccepted (lib : TotpLibrary) : TotpCache → List TotpCall → List (String × UInt64)
  | _, [] => []
  | cache, call :: calls =>
    let r := verifyTOTPCode lib call.now call.secret call.code cache
    let used := (matchingCounter lib call.now call.secret call.code).map (call.secret, ·)
    (if r.1 then used.toList else []) ++ totpAccepted lib r.2 calls

def TotpCall.attempt (lib : TotpLibrary) (call : TotpCall) :
    ReplayCache.Attempt (String × UInt64) where
  now := call.now
  key := (matchingCounter lib call.now call.secret call.code).map (call.secret, ·)

theorem attempt_eq_verifyTOTPCode (lib : TotpLibrary) (cache : TotpCache) (call : TotpCall) :
    ReplayCache.attempt totpRetention cache (call.attempt lib) =
      verifyTOTPCode lib call.now call.secret call.code cache := by
  rw [verifyTOTPCode, ReplayCache.attempt, TotpCall.attempt]
  cases matchingCounter lib call.now call.secret call.code with
  | none | some counter => rfl

theorem totpAccepted_eq_accepted (lib : TotpLibrary) (cache : TotpCache) (calls : List TotpCall) :
    totpAccepted lib cache calls =
      ReplayCache.accepted totpRetention cache (calls.map (TotpCall.attempt lib)) := by
  induction calls generalizing cache with
  | nil => rfl
  | cons call calls ih =>
    rw [totpAccepted, List.map_cons, ReplayCache.accepted, attempt_eq_verifyTOTPCode]
    exact congrArg (_ ++ ·) (ih _)

def UnixTime (now : Int) : Prop := 0 ≤ now ∧ now + totpPeriod < 9223372036854775808

instance (now : Int) : Decidable (UnixTime now) := inferInstanceAs (Decidable (_ ∧ _))

section Counters

variable {now : Int} {counter : UInt64}

theorem toNat_ofInt {n : Int} (h0 : 0 ≤ n) (h : n < 9223372036854775808) :
    ((UInt64.ofInt n).toNat : Int) = n := by
  rw [UInt64.ofInt, UInt64.toNat_ofNat']
  omega

theorem totpCounter_of_nonneg {delta : Int} (h0 : 0 ≤ now + delta * totpPeriod)
    (h : now + delta * totpPeriod < 9223372036854775808) :
    ((totpCounter now delta).toNat : Int) = (now + delta * totpPeriod) / totpPeriod := by
  rw [totpCounter, Int.tdiv_eq_ediv_of_nonneg h0, toNat_ofInt]
  · exact Int.ediv_nonneg h0 (by decide)
  · simp only [totpPeriod] at *
    omega

theorem totpCounter_next (h : UnixTime now) :
    ((totpCounter now totpWindow).toNat : Int) = now / 30 + 1 := by
  obtain ⟨h0, h⟩ := h
  simp only [totpPeriod] at h
  rw [totpCounter_of_nonneg] <;> simp only [totpPeriod, totpWindow] <;> omega

theorem totpCounter_same (h : UnixTime now) : ((totpCounter now 0).toNat : Int) = now / 30 := by
  obtain ⟨h0, h⟩ := h
  simp only [totpPeriod] at h
  rw [totpCounter_of_nonneg] <;> simp only [totpPeriod] <;> omega

-- below 30 the truncation gives 0, and at 0 the conversion to `uint64` wraps around
theorem totpCounter_previous (h : UnixTime now) :
    now = 0 ∧ totpCounter now (-totpWindow) = 18446744073709551615 ∨
      ((totpCounter now (-totpWindow)).toNat : Int) = max 0 (now / 30 - 1) := by
  obtain ⟨h0, h⟩ := h
  simp only [totpPeriod] at h
  by_cases hzero : now = 0
  · subst hzero
    exact .inl ⟨rfl, by decide⟩
  · right
    by_cases hlt : now < 30
    · have hdiv : (now + -totpWindow * totpPeriod).tdiv totpPeriod = 0 := by
        have hneg : now + -totpWindow * totpPeriod = -(30 - now) := by
          simp only [totpPeriod, totpWindow]
          omega
        rw [hneg, Int.neg_tdiv, Int.tdiv_eq_zero_of_lt (by omega) (by simp only [totpPeriod]; omega)]
        rfl
      rw [totpCounter, hdiv, toNat_ofInt (by omega) (by omega)]
      omega
    · rw [totpCounter_of_nonneg] <;> simp only [totpPeriod, totpWindow] <;> omega

theorem matchingCounter_cases {lib : TotpLibrary} {secret code : String}
    (h : matchingCounter lib now secret code = some counter) :
    ∃ key, lib.decodeSecret secret = some key ∧ code = totpCode lib key counter ∧
      (counter = totpCounter now (-totpWindow) ∨ counter = totpCounter now 0 ∨
        counter = totpCounter now totpWindow) := by
  rw [matchingCounter] at h
  split at h
  · cases h
  · split at h
    · cases h
    · rename_i key hkey
      have hcode := List.find?_some h
      have hmem := List.mem_of_find?_eq_some h
      exact ⟨key, hkey, by simpa using hcode, by simpa using hmem⟩

theorem lt_of_matchingCounter {later : Int} (hnow : UnixTime now) (hlt : UnixTime later)
    (hfst : counter = totpCounter now (-totpWindow) ∨ counter = totpCounter now 0)
    (hsec : counter = totpCounter later (-totpWindow) ∨ counter = totpCounter later 0 ∨
      counter = totpCounter later totpWindow) : later < now + totpRetention := by
  have hwrap : (18446744073709551615 : UInt64).toNat = 18446744073709551615 := rfl
  have hprev := totpCounter_previous hnow
  have hsame := totpCounter_same hnow
  have hprev' := totpCounter_previous hlt
  have hsame' := totpCounter_same hlt
  have hnext' := totpCounter_next hlt
  simp only [UnixTime, totpPeriod] at hnow hlt
  have hret : totpRetention = 60 := rfl
  have hupper : (counter.toNat : Int) ≤ now / 30 ∨ now = 0 ∧ counter = 18446744073709551615 := by
    rcases hfst with rfl | rfl
    · rcases hprev with ⟨hzero, hprev⟩ | hprev
      · exact .inr ⟨hzero, hprev⟩
      · exact .inl (by omega)
    · exact .inl (by omega)
  have hlower : later / 30 ≤ counter.toNat + 1 := by
    rcases hsec with rfl | rfl | rfl
    · rcases hprev' with ⟨hzero, hprev'⟩ | hprev' <;> omega
    · omega
    · omega
  rcases hupper with hupper | ⟨hzero, rfl⟩
  · omega
  · rcases hsec with h | h | h
    · rcases hprev' with ⟨hzero', -⟩ | hprev'
      · omega
      · rw [← h] at hprev'
        omega
    · rw [← h] at hsame'
      omega
    · rw [← h] at hnext'
      omega

end Counters

/-- The code presented is the one of the time step after the call's own. -/
def TotpCall.Ahead (lib : TotpLibrary) (call : TotpCall) : Prop :=
  ∃ key, lib.decodeSecret call.secret = some key ∧
    call.code = totpCode lib key (totpCounter call.now totpWindow)

/-- Between a code presented ahead of its time step and a repetition of it, no call is
made more than 60 seconds after the first. -/
def QuietAfterAhead (lib : TotpLibrary) (calls : List TotpCall) : Prop :=
  calls.Triplewise fun a call b => a.Ahead lib → b.secret = a.secret → b.code = a.code →
    call.now ≤ a.now + totpRetention

section AcceptedOnce

variable {lib : TotpLibrary} {calls : List TotpCall}

theorem TotpCall.attempt_key {call : TotpCall} {secret : String} {counter : UInt64}
    (h : (call.attempt lib).key = some (secret, counter)) :
    call.secret = secret ∧
      matchingCounter lib call.now call.secret call.code = some counter := by
  rw [attempt, Option.map_eq_some_iff] at h
  obtain ⟨c, hc, heq⟩ := h
  cases heq
  exact ⟨rfl, hc⟩

theorem ahead_or_lt {a b : TotpCall} (ha : UnixTime a.now) (hb : UnixTime b.now)
    (hkey : (a.attempt lib).key = (b.attempt lib).key) (hsome : (a.attempt lib).key ≠ none) :
    (a.Ahead lib ∧ b.secret = a.secret ∧ b.code = a.code) ∨ b.now < a.now + totpRetention := by
  obtain ⟨⟨secret, counter⟩, hused⟩ := Option.ne_none_iff_exists'.mp hsome
  obtain ⟨hsecret, hsec⟩ := TotpCall.attempt_key (hkey.symm.trans hused)
  obtain ⟨rfl, hfst⟩ := TotpCall.attempt_key hused
  obtain ⟨key, hdec, hcode, hctr⟩ := matchingCounter_cases hfst
  obtain ⟨key', hdec', hcode', hctr'⟩ := matchingCounter_cases hsec
  rw [hsecret, hdec] at hdec'
  cases hdec'
  rcases hctr with h | h | h
  · exact .inr (lt_of_matchingCounter ha hb (.inl h) hctr')
  · exact .inr (lt_of_matchingCounter ha hb (.inr h) hctr')
  · exact .inl ⟨⟨key, hdec, by rw [hcode, h]⟩, hsecret, by rw [hcode, hcode']⟩

theorem retained_of_quietAfterAhead (hunix : ∀ call ∈ calls, UnixTime call.now)
    (hmono : calls.Pairwise fun a b => a.now ≤ b.now) (hq : QuietAfterAhead lib calls) :
    ReplayCache.Retained totpRetention (calls.map (TotpCall.attempt lib)) := by
  rw [ReplayCache.Retained, List.triplewise_map]
  induction calls with
  | nil => exact .nil
  | cons a calls ih =>
    obtain ⟨-, hmono⟩ := List.pairwise_cons.mp hmono
    obtain ⟨hhead, hq⟩ := List.triplewise_cons.mp hq
    obtain ⟨hunixa, hunix⟩ := List.forall_mem_cons.mp hunix
    refine .cons ?_ (ih hunix hmono hq)
    refine (List.Pairwise.and hhead hmono).imp_of_mem fun {call b} _ hb hboth hkey hsome => ?_
    rcases ahead_or_lt hunixa (hunix b hb) hkey hsome with ⟨hah, hsecret, hcode⟩ | hlt
    · exact hboth.1 hah hsecret hcode
    · have hle := hboth.2
      show call.now ≤ a.now + totpRetention
      omega

/-- For each secret and counter at most one call of a sequence succeeds. -/
theorem verifyTOTPCode_accepts_once (cache : TotpCache) (hunix : ∀ call ∈ calls, UnixTime call.now)
    (hmono : calls.Pairwise fun a b => a.now ≤ b.now) (hquiet : QuietAfterAhead lib calls) :
    (totpAccepted lib cache calls).Nodup := by
  rw [totpAccepted_eq_accepted]
  exact ReplayCache.accepted_nodup (by decide)
    (retained_of_quietAfterAhead hunix hmono hquiet)

end AcceptedOnce

def byteTotpLibrary : TotpLibrary where
  hmacSha1 _ msg := (Vector.replicate 20 0).set 3 (msg.getD 7 0)
  decodeSecret secret := some (secret.toUTF8.toList)

theorem verifyTOTPCode_accepts_once_two :
    (totpAccepted byteTotpLibrary (fun _ => none)
      [⟨2970, "A", "000100"⟩, ⟨3032, "A", "000100"⟩]).Nodup := by
  exact verifyTOTPCode_accepts_once _ (by decide) (by decide) (List.triplewise_pair _ _ _)

def purgedReplay : List TotpCall :=
  [⟨2970, "A", "000100"⟩, ⟨3031, "B", "000101"⟩, ⟨3032, "A", "000100"⟩]

theorem verifyTOTPCode_accepts_purgedReplay :
    (purgedReplay.Pairwise fun a b => a.now ≤ b.now) ∧
      totpAccepted byteTotpLibrary (fun _ => none) purgedReplay =
        [("A", 100), ("B", 101), ("A", 100)] := by
  decide +kernel

end Falx
