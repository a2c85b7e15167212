import Falx.Packet
import Mathlib.Logic.Function.Basic

/-! The control plane's access to the blocklists. Each call comes with what its
environment decides: whether the write limiter lets it through, the Unix time
it reads, and the error the map operation returns, if any. -/

namespace Falx

open Function Words

abbrev NetIP := List UInt8

def v4InV6Prefix : List UInt8 := List.replicate 10 0 ++ [0xFF, 0xFF]

namespace NetIP

def to4 (ip : NetIP) : Option NetIP :=
  if ip.length = 4 then some ip
  else if ip.length = 16 ∧ ip.take 12 = v4InV6Prefix then some (ip.drop 12)
  else none

def to16 (ip : NetIP) : Option NetIP :=
  if ip.length = 4 then some (v4InV6Prefix ++ ip)
  else if ip.length = 16 then some ip
  else none

def equal (ip x : NetIP) : Bool :=
  if ip.length = x.length then ip == x
  else if ip.length = 4 ∧ x.length = 16 then x.take 12 == v4InV6Prefix && ip == x.drop 12
  else if ip.length = 16 ∧ x.length = 4 then ip.take 12 == v4InV6Prefix && ip.drop 12 == x
  else false

end NetIP

structure IPNet where
  ip : NetIP
  mask : List UInt8
  deriving DecidableEq

namespace IPNet

def networkNumberAndMask (n : IPNet) : Option (NetIP × List UInt8) :=
  match n.ip.to4 with
  | some ip =>
    if n.mask.length = 4 then some (ip, n.mask)
    else if n.mask.length = 16 then some (ip, n.mask.drop 12)
    else none
  | none => if n.ip.length = 16 ∧ n.mask.length = 16 then some (n.ip, n.mask) else none

def contains (n : IPNet) (ip : NetIP) : Bool :=
  let (nn, m) := n.networkNumberAndMask.getD ([], [])
  let x := ip.to4.getD ip
  x.length == nn.length && (x.zip (nn.zip m)).all fun (b, net, mask) => net &&& mask == b &&& mask

theorem contains_of_to4 {ip : NetIP} {a b c d : UInt8} (h : ip.to4 = some [a, b, c, d])
    (p q r s m₀ m₁ m₂ m₃ : UInt8) : contains ⟨[p, q, r, s], [m₀, m₁, m₂, m₃]⟩ ip =
      (p &&& m₀ == a &&& m₀ && (q &&& m₁ == b &&& m₁ && (r &&& m₂ == c &&& m₂ &&
        s &&& m₃ == d &&& m₃))) := by
  have hnet : networkNumberAndMask ⟨[p, q, r, s], [m₀, m₁, m₂, m₃]⟩ =
      some ([p, q, r, s], [m₀, m₁, m₂, m₃]) := rfl
  simp [contains, hnet, h]

end IPNet

inductive MapOpType where
  | blockIP
  | unblockIP
  | updateConfig
  | failsafe
  | rateLimit
  deriving DecidableEq

def MapOpType.name : MapOpType → String
  | blockIP => "block_ip"
  | unblockIP => "unblock_ip"
  | updateConfig => "update_config"
  | failsafe => "failsafe"
  | rateLimit => "rate_limit"

inductive GoError where
  | rateLimitExceeded (op : MapOpType)
  | notIPv4
  | invalidIPv6
  | keyNotExist
  | mapOp (errno : Nat)
  | wrapped (context : String) (cause : GoError)
  deriving DecidableEq

def GoError.message : GoError → String
  | rateLimitExceeded op => "rate limit exceeded for operation " ++ op.name
  | notIPv4 => "not an IPv4 address"
  | invalidIPv6 => "invalid IPv6 address"
  | keyNotExist => "key does not exist"
  | mapOp errno => "errno " ++ toString errno
  | wrapped context cause => context ++ ": " ++ cause.message

structure CallEnv where
  allowed : Bool
  now : UInt64
  mapErr : Option GoError
  deriving DecidableEq

structure BlockDecision where
  ip : NetIP
  entry : BlockEntry
  deriving DecidableEq

abbrev BlocklistV4 := UInt32 → Option BlockEntry

abbrev BlocklistV6 := Ipv6Addr → Option BlockEntry

def ipv4ToUint32 (ip : NetIP) : Option UInt32 :=
  match ip.to4 with
  | some [a, b, c, d] => some (le32 d c b a)
  | _ => none

def ipv6ToBytes (ip : NetIP) : Option Ipv6Addr :=
  match ip.to16 with
  | some bytes => if h : bytes.length = 16 then some ⟨bytes, h⟩ else none
  | none => none

-- small values of `ExpireAt` are a TTL in seconds
def absoluteExpiry (now : UInt64) (entry : BlockEntry) : BlockEntry :=
  if 0 < entry.expireAt ∧ entry.expireAt < 1000000000 then
    { entry with expireAt := now + entry.expireAt }
  else entry

def blockIPv4 (env : CallEnv) (ip : NetIP) (entry : BlockEntry) (m : BlocklistV4) :
    Option GoError × BlocklistV4 :=
  if env.allowed = false then (some (.wrapped "rate limited" (.rateLimitExceeded .blockIP)), m)
  else
    match ipv4ToUint32 ip with
    | none => (some (.wrapped "invalid IPv4" .notIPv4), m)
    | some key =>
      match env.mapErr with
      | some e => (some (.wrapped "map update failed" e), m)
      | none => (none, update m key (some (absoluteExpiry env.now entry)))

def unblockIPv4 (env : CallEnv) (ip : NetIP) (m : BlocklistV4) : Option GoError × BlocklistV4 :=
  if env.allowed = false then (some (.wrapped "rate limited" (.rateLimitExceeded .unblockIP)), m)
  else
    match ipv4ToUint32 ip with
    | none => (some (.wrapped "invalid IPv4" .notIPv4), m)
    | some key =>
      match env.mapErr, m key with
      | some e, _ => (some (.wrapped "map delete failed" e), m)
      | none, none => (some (.wrapped "map delete failed" .keyNotExist), m)
      | none, some _ => (none, update m key none)

def isBlockedIPv4 (now : UInt64) (ip : NetIP) (m : BlocklistV4) :
    Except GoError (Option BlockEntry) :=
  match ipv4ToUint32 ip with
  | none => .error .notIPv4
  | some key =>
    match m key with
    | none => .ok none
    | some entry => if entry.expired now then .ok none else .ok (some entry)

-- a bucket that cannot be deleted is taken for one that is not there
def resetRateBucket (env : CallEnv) (ip : NetIP) (m : UInt32 → Option RateBucket) :
    Option GoError × (UInt32 → Option RateBucket) :=
  if env.allowed = false then (some (.wrapped "rate limited" (.rateLimitExceeded .rateLimit)), m)
  else
    match ipv4ToUint32 ip with
    | none => (some .notIPv4, m)
    | some key =>
      match env.mapErr with
      | some _ => (none, m)
      | none => (none, update m key none)

def blockIPv6 (env : CallEnv) (ip : NetIP) (entry : BlockEntry) (m : BlocklistV6) :
    Option GoError × BlocklistV6 :=
  if env.allowed = false then (some (.wrapped "rate limited" (.rateLimitExceeded .blockIP)), m)
  else
    match ipv6ToBytes ip with
    | none => (some .invalidIPv6, m)
    | some key =>
      match env.mapErr with
      | some e => (some e, m)
      | none => (none, update m key (some (absoluteExpiry env.now entry)))

def unblockIPv6 (env : CallEnv) (ip : NetIP) (m : BlocklistV6) : Option GoError × BlocklistV6 :=
  if env.allowed = false then (some (.wrapped "rate limited" (.rateLimitExceeded .unblockIP)), m)
  else
    match ipv6ToBytes ip with
    | none => (some .invalidIPv6, m)
    | some key =>
      match env.mapErr, m key with
      | some e, _ => (some e, m)
      | none, none => (some .keyNotExist, m)
      | none, some _ => (none, update m key none)

def blockDecisions : List (CallEnv × BlockDecision) → BlocklistV4 →
    List (Option GoError) × BlocklistV4
  | [], m => ([], m)
  | (env, d) :: ds, m =>
    match ipv4ToUint32 d.ip with
    | none =>
      let rest := blockDecisions ds m
      (some .notIPv4 :: rest.1, rest.2)
    | some key =>
      match env.mapErr with
      | some e =>
        let rest := blockDecisions ds m
        (some e :: rest.1, rest.2)
      | none =>
        let rest := blockDecisions ds
          (update m key (some (absoluteExpiry env.now d.entry)))
        (none :: rest.1, rest.2)

def blockIPv4Batch (allowed : Bool) (ds : List (CallEnv × BlockDecision)) (m : BlocklistV4) :
    List (Option GoError) × BlocklistV4 :=
  if allowed = false then
    (ds.map fun _ => some (.wrapped "batch rate limited" (.rateLimitExceeded .blockIP)), m)
  else blockDecisions ds m

theorem blockIPv4_of_ok {env : CallEnv} {ip : NetIP} {key : UInt32} (hok : env.allowed = true)
    (hkey : ipv4ToUint32 ip = some key) (hmap : env.mapErr = none) (entry : BlockEntry)
    (m : BlocklistV4) : blockIPv4 env ip entry m =
      (none, update m key (some (absoluteExpiry env.now entry))) := by
  simp only [blockIPv4, hok, Bool.true_eq_false, if_false, hkey, hmap]

section Apply

variable {m : BlocklistV4}

variable {env : CallEnv} {ip : NetIP} {e : GoError}

theorem blockIPv4_failed {entry : BlockEntry} {m' : BlocklistV4}
    (h : blockIPv4 env ip entry m = (some e, m')) : m' = m := by
  simp only [blockIPv4] at h
  split_ifs at h
  · exact (Prod.mk.inj h).2.symm
  · split at h
    · exact (Prod.mk.inj h).2.symm
    · split at h
      · exact (Prod.mk.inj h).2.symm
      · cases h

theorem resetRateBucket_failed {b b' : UInt32 → Option RateBucket}
    (h : resetRateBucket env ip b = (some e, b')) : b' = b := by
  simp only [resetRateBucket] at h
  split_ifs at h
  · exact (Prod.mk.inj h).2.symm
  · split at h
    · exact (Prod.mk.inj h).2.symm
    · split at h <;> cases h

theorem update_apply_cases {key k : UInt32} {e : Option BlockEntry}
    (hkey : ipv4ToUint32 ip = some key) : update m key e k = m k ∨
      ipv4ToUint32 ip = some k ∧ update m key e k = e := by
  by_cases hk : k = key
  · subst hk
    exact .inr ⟨hkey, update_self _ _ _⟩
  · exact .inl (update_of_ne hk _ _)

theorem blockIPv4_apply (env : CallEnv) (ip : NetIP) (entry : BlockEntry) (k : UInt32) :
    (blockIPv4 env ip entry m).2 k = m k ∨
      ipv4ToUint32 ip = some k ∧
        (blockIPv4 env ip entry m).2 k = some (absoluteExpiry env.now entry) := by
  simp only [blockIPv4]
  split
  · exact .inl rfl
  · split
    · exact .inl rfl
    · rename_i key hkey
      split
      · exact .inl rfl
      · exact update_apply_cases hkey

theorem unblockIPv4_apply (env : CallEnv) (ip : NetIP) (k : UInt32) :
    (unblockIPv4 env ip m).2 k = m k ∨
      ipv4ToUint32 ip = some k ∧ (unblockIPv4 env ip m).2 k = none := by
  simp only [unblockIPv4]
  split
  · exact .inl rfl
  · split
    · exact .inl rfl
    · rename_i key hkey
      split
      · exact .inl rfl
      · exact .inl rfl
      · exact update_apply_cases hkey

end Apply

theorem blockDecisions_concat (ds : List (CallEnv × BlockDecision)) (env : CallEnv)
    (d : BlockDecision) (m : BlocklistV4) : (blockDecisions (ds ++ [(env, d)]) m).2 =
      (blockDecisions [(env, d)] (blockDecisions ds m).2).2 := by
  induction ds generalizing m with
  | nil => rfl
  | cons x ds ih =>
    obtain ⟨e, x⟩ := x
    simp only [List.cons_append, blockDecisions]
    cases hk : ipv4ToUint32 x.ip with
    | none => exact ih m
    | some key =>
      cases he : e.mapErr with
      | some err => exact ih m
      | none => exact ih _

section Sweep

variable {κ : Type} [DecidableEq κ]

def isExpiredIn (m : κ → Option BlockEntry) (nowSec : UInt64) (k : κ) : Bool :=
  match m k with
  | some entry => entry.expired nowSec
  | none => false

/-- Collect the expired keys in iteration order, then delete each. -/
def sweepBlocklist (nowSec : UInt64) (keys : List κ) (m : κ → Option BlockEntry) :
    κ → Option BlockEntry :=
  (keys.filter (isExpiredIn m nowSec)).foldl (fun m k => update m k none) m

theorem foldl_delete_apply (ks : List κ) (m : κ → Option BlockEntry) (k : κ) :
    ks.foldl (fun m k => update m k none) m k = if k ∈ ks then none else m k := by
  induction ks generalizing m with
  | nil => simp
  | cons j ks ih =>
    rw [List.foldl_cons, ih]
    by_cases hk : k ∈ ks
    · simp [hk]
    · by_cases hj : k = j
      · simp [hj]
      · simp [hk, hj]

theorem sweepBlocklist_apply (nowSec : UInt64) (keys : List κ) (m : κ → Option BlockEntry)
    (k : κ) : sweepBlocklist nowSec keys m k =
      if k ∈ keys ∧ isExpiredIn m nowSec k = true then none else m k := by
  rw [sweepBlocklist, foldl_delete_apply]
  simp only [List.mem_filter]

end Sweep

def sweepBlocklistV4 (nowSec : UInt64) (keys : List UInt32) (m : BlocklistV4) : BlocklistV4 :=
  sweepBlocklist nowSec keys m

def sweepBlocklistV6 (nowSec : UInt64) (keys : List Ipv6Addr) (m : BlocklistV6) : BlocklistV6 :=
  sweepBlocklist nowSec keys m

/-- The rolling counters are reset when the circuit is closed. -/
def setCircuitOpen (isOpen : Bool) (nowNano : UInt64) (s : FailsafeState) : FailsafeState :=
  if isOpen then { s with circuitOpen := 1, openSinceNs := nowNano }
  else { s with circuitOpen := 0, openSinceNs := 0, currentPps := 0, currentBps := 0 }

def updateFailsafeThresholds (ppsThr bpsThr : UInt64) (s : FailsafeState) : FailsafeState :=
  { s with ppsThreshold := ppsThr, bpsThreshold := bpsThr }

def safeAdd (a b : UInt64) : UInt64 := if a > ~~~b then ~~~0 else a + b

def XdpStats.add (a b : XdpStats) : XdpStats where
  rxPackets := safeAdd a.rxPackets b.rxPackets
  rxBytes := safeAdd a.rxBytes b.rxBytes
  dropped := safeAdd a.dropped b.dropped
  rateLimited := safeAdd a.rateLimited b.rateLimited
  passed := safeAdd a.passed b.passed
  redirected := safeAdd a.redirected b.redirected
  failsafeDrops := safeAdd a.failsafeDrops b.failsafeDrops
  parseErrors := safeAdd a.parseErrors b.parseErrors
  mapErrors := safeAdd a.mapErrors b.mapErrors
  coolingBans := safeAdd a.coolingBans b.coolingBans
  synFloodBans := safeAdd a.synFloodBans b.synFloodBans
  lastResetNs := if a.lastResetNs > b.lastResetNs then a.lastResetNs else b.lastResetNs

def MappedXdpStats.add (a b : MappedXdpStats) : MappedXdpStats where
  rxPackets := safeAdd a.rxPackets b.rxPackets
  rxBytes := safeAdd a.rxBytes b.rxBytes
  dropped := safeAdd a.dropped b.dropped
  droppedBytes := safeAdd a.droppedBytes b.droppedBytes
  passed := safeAdd a.passed b.passed
  passedBytes := safeAdd a.passedBytes b.passedBytes

/-- The counters of all CPUs, with those that the hot path counts taken from its own map. -/
def readStats (coldPerCpu : List XdpStats) (hotPerCpu : List MappedXdpStats) : XdpStats :=
  let cold := coldPerCpu.foldl XdpStats.add ⟨0, 0, 0, 0, 0, 0, 0, 0, 0, 0, 0, 0⟩
  let hot := hotPerCpu.foldl MappedXdpStats.add ⟨0, 0, 0, 0, 0, 0⟩
  { cold with
    rxPackets := hot.rxPackets
    rxBytes := hot.rxBytes
    dropped := hot.dropped
    passed := hot.passed }

theorem ipv4ToUint32_of_to4 {ip : NetIP} {a b c d : UInt8} (h : ip.to4 = some [a, b, c, d]) :
    ipv4ToUint32 ip = some (le32 d c b a) := by
  rw [ipv4ToUint32, h]

end Falx
