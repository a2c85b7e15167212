import Falx.Honeypot
import Mathlib.Logic.Function.Basic

/-! The maps of the XDP program and the checks it makes on them. A map is a
partial function from keys to values. Each `now` argument is one reading of
`bpf_ktime_get_ns`. The last field of the state is a history variable: it lists,
latest first, what the checks did, and no check reads it. -/

namespace Falx

open Function Words

inductive Event where
  | synCheck (src : UInt32) (flags : UInt8)
  | ban (src : UInt32) (now : UInt64) (repeatCount : UInt32) (banSecs : UInt64)
  | opened (src : UInt32) (now : UInt64)
  | charged (src : UInt32) (now : UInt64) (held cost : UInt64)
  | limited (src : UInt32) (now : UInt64)
  deriving DecidableEq

structure Kernel where
  blocklistV4 : UInt32 → Option BlockEntry
  blocklistV6 : Ipv6Addr → Option BlockEntry
  bloomFilter : BloomFilter UInt32
  coolingTracker : UInt32 → Option CoolingEntry
  synCounter : UInt32 → Option SynCountEntry
  rateLimit : UInt32 → Option RateBucket
  mappedXdpStats : Option MappedXdpStats
  xdpStats : Option XdpStats
  failsafeState : Option FailsafeState
  config : Option FalxMapConfig
  honeypotTargets : UInt32 → Option HoneypotTarget
  honeypotActive : Option UInt32
  history : List Event

namespace Kernel

def bumpMapped (st : Kernel) (f : MappedXdpStats → MappedXdpStats) : Kernel :=
  { st with mappedXdpStats := st.mappedXdpStats.map f }

def bumpStat (st : Kernel) (f : XdpStats → XdpStats) : Kernel :=
  { st with xdpStats := st.xdpStats.map f }

def log (st : Kernel) (e : Event) : Kernel := { st with history := e :: st.history }

def readConfig (st : Kernel) : FalxMapConfig :=
  st.config.getD {
    defaultAction := Action.pass
    rateLimitEnabled := 1
    failsafeEnabled := 1
    afxdpRedirect := 0
    rateCapacity := 1000
    rateRefillNs := 1000000
    honeypotIp := 0
    honeypotPort := 0 }

end Kernel

namespace FailsafeState

def countPacket (s : FailsafeState) (pktLen : UInt32) (now : UInt64) : FailsafeState :=
  if nsPerSec ≤ satSub now s.windowStartNs then
    { s with currentPps := 1, currentBps := pktLen.toUInt64 * 8, windowStartNs := now }
  else
    { s with
      currentPps := satAdd s.currentPps 1
      currentBps := satAdd s.currentBps (pktLen.toUInt64 * 8) }

def trip (s : FailsafeState) (now : UInt64) : FailsafeState :=
  if s.circuitOpen = 0 ∧ (s.ppsThreshold < s.currentPps ∨ s.bpsThreshold < s.currentBps) then
    { s with circuitOpen := 1, openSinceNs := now }
  else s

end FailsafeState

def checkFailsafe (pkt : PacketInfo) (now : UInt64) (st : Kernel) : Option XdpAction × Kernel :=
  match st.failsafeState with
  | none => (none, st)
  | some s =>
    let s := (s.countPacket pkt.pktLen now).trip now
    let st := { st with failsafeState := some s }
    if s.circuitOpen ≠ 0 then
      (some .drop, st.bumpStat fun x => { x with failsafeDrops := satAdd x.failsafeDrops 1 })
    else (none, st)

def checkBlocklistV4 (frame : Frame) (srcIp : UInt32) (now : UInt64) (st : Kernel) :
    Option (XdpAction × Frame) × Kernel :=
  match st.blocklistV4 srcIp with
  | none => (none, st)
  | some entry =>
    if entry.expired (now / nsPerSec) then (none, st)
    else if entry.action = Action.drop then
      (some (.drop, frame), st.bumpStat fun x => { x with dropped := satAdd x.dropped 1 })
    else if entry.action = Action.redirect then
      (some (redirectToHoneypot st.honeypotTargets st.honeypotActive frame),
        st.bumpStat fun x => { x with redirected := satAdd x.redirected 1 })
    else (none, st)

def checkBlocklistV6 (srcIp6 : Ipv6Addr) (now : UInt64) (st : Kernel) : Option XdpAction × Kernel :=
  match st.blocklistV6 srcIp6 with
  | none => (none, st)
  | some entry =>
    if entry.expired (now / nsPerSec) then (none, st)
    else if entry.action = Action.drop then
      (some .drop, st.bumpStat fun x => { x with dropped := satAdd x.dropped 1 })
    else (none, st)

/-- The exponent of the next ban: one more than the last one, at least `minR`,
at most 16. A source without an entry starts at `minR`. -/
def nextRepeatCount (prev : Option CoolingEntry) (minR : UInt32) : UInt32 :=
  let minRC := if minR ≤ maxCoolingShift then minR else maxCoolingShift
  match prev with
  | some entry =>
    let rNat :=
      if entry.repeatCount < maxCoolingShift then entry.repeatCount + 1 else maxCoolingShift
    if minRC < rNat then rNat else minRC
  | none => minRC

def banEntry (now : UInt64) (r : UInt32) : BlockEntry where
  expireAt := satAdd (now / nsPerSec) (coolingBaseS <<< r.toUInt64)
  action := Action.drop
  ruleId := 0xFF
  threatScore := (min r 100).toUInt8
  pad := 0
  reason := Reason.coolingBan

def applyCoolingBan (srcIp : UInt32) (now : UInt64) (minR : UInt32) (st : Kernel) : Kernel :=
  let r := nextRepeatCount (st.coolingTracker srcIp) minR
  let entry : CoolingEntry :=
    match st.coolingTracker srcIp with
    | some entry => { entry with repeatCount := r, lastBanAtNs := now }
    | none => { repeatCount := r, pad := 0, lastBanAtNs := now }
  let st := { st with
    coolingTracker := update st.coolingTracker srcIp (some entry)
    blocklistV4 := update st.blocklistV4 srcIp (some (banEntry now r))
    bloomFilter := st.bloomFilter.insert srcIp }
  (st.log (.ban srcIp now r (coolingBaseS <<< r.toUInt64))).bumpStat
    fun x => { x with coolingBans := satAdd x.coolingBans 1 }

def checkSynCounter (srcIp : UInt32) (tcpFlags : UInt8) (now : UInt64) (st : Kernel) :
    Option XdpAction × Kernel :=
  let st := st.log (.synCheck srcIp tcpFlags)
  if TcpFlags.isNonSynAck tcpFlags then
    match st.synCounter srcIp with
    | some entry =>
      let entry := { entry with synCount := 0, ackCount := satAdd32 entry.ackCount 1 }
      (none, { st with synCounter := update st.synCounter srcIp (some entry) })
    | none => (none, st)
  else if TcpFlags.isSynOnly tcpFlags then
    match st.synCounter srcIp with
    | some entry =>
      let syn := satAdd32 entry.synCount 1
      if synFloodThreshold ≤ syn ∧ entry.ackCount = 0 then
        let st := applyCoolingBan srcIp now synFloodPenaltyR st
        let st := st.bumpStat fun x => { x with synFloodBans := satAdd x.synFloodBans 1 }
        let entry := { entry with synCount := 0 }
        (some .drop, { st with synCounter := update st.synCounter srcIp (some entry) })
      else
        let entry := { entry with synCount := syn }
        (none, { st with synCounter := update st.synCounter srcIp (some entry) })
    | none =>
      let fresh : SynCountEntry := { synCount := 1, ackCount := 0 }
      (none, { st with synCounter := update st.synCounter srcIp (some fresh) })
  else (none, st)

namespace RateBucket

/-- `checked_div` by a zero refill period gives no tokens, as division by zero
does here. -/
def refill (bucket : RateBucket) (now : UInt64) : RateBucket :=
  let refillAmt := satSub now bucket.lastRefill / bucket.refillRate
  if 0 < refillAmt then
    { bucket with
      tokens := min (satAdd bucket.tokens refillAmt) bucket.capacity
      lastRefill := now }
  else bucket

end RateBucket

def dropLimited (srcIp : UInt32) (now : UInt64) (bucket : RateBucket) (st : Kernel) :
    Option XdpAction × Kernel :=
  let bucket := { bucket with dropCount := satAdd bucket.dropCount 1 }
  let st := { st with rateLimit := update st.rateLimit srcIp (some bucket) }
  (some .drop, applyCoolingBan srcIp now 0 st)

def chargeBucket (srcIp : UInt32) (now : UInt64) (cost : UInt64) (bucket : RateBucket)
    (st : Kernel) : Option XdpAction × Kernel :=
  let charged := { bucket with tokens := bucket.tokens - cost }
  let st := { st with rateLimit := update st.rateLimit srcIp (some charged) }
  (none, st.log (.charged srcIp now bucket.tokens cost))

def checkRateLimit (srcIp : UInt32) (cfg : FalxMapConfig) (now : UInt64) (st : Kernel) :
    Option XdpAction × Kernel :=
  match st.rateLimit srcIp with
  | some bucket =>
    let bucket := bucket.refill now
    if bucket.tokens = 0 then
      dropLimited srcIp now bucket (st.log (.limited srcIp now))
    else chargeBucket srcIp now 1 bucket st
  | none =>
    let bucket : RateBucket := {
      tokens := satSub cfg.rateCapacity 1
      lastRefill := now
      capacity := cfg.rateCapacity
      refillRate := cfg.rateRefillNs
      dropCount := 0 }
    let st := { st with rateLimit := update st.rateLimit srcIp (some bucket) }
    (none, st.log (.opened srcIp now))

/-- `charge` is when the tokens are taken: the reading the preceding rate limit
check made. The clock is read again only for a ban. -/
def checkSynFlood (srcIp : UInt32) (charge now : UInt64) (st : Kernel) :
    Option XdpAction × Kernel :=
  match st.rateLimit srcIp with
  | some bucket =>
    if bucket.tokens < 10 then dropLimited srcIp now bucket st
    else chargeBucket srcIp charge 10 bucket st
  | none => (none, st)

end Falx
