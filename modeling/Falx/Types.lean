import Falx.BloomFilter
import Falx.Words

/-! The records that the XDP program and the control plane share through BPF
maps, and the constants they agree on. An entry whose `expireAt` is 0 never
expires. -/

namespace Falx

inductive XdpAction where
  | aborted
  | drop
  | pass
  | tx
  | redirect
  deriving DecidableEq

structure BlockEntry where
  expireAt : UInt64
  action : UInt8
  ruleId : UInt8
  threatScore : UInt8
  pad : UInt8
  reason : UInt32
  deriving DecidableEq

structure RateBucket where
  tokens : UInt64
  lastRefill : UInt64
  capacity : UInt64
  refillRate : UInt64
  dropCount : UInt64
  deriving DecidableEq

structure CoolingEntry where
  repeatCount : UInt32
  pad : UInt32
  lastBanAtNs : UInt64
  deriving DecidableEq

structure SynCountEntry where
  synCount : UInt32
  ackCount : UInt32
  deriving DecidableEq

structure XdpStats where
  rxPackets : UInt64
  rxBytes : UInt64
  dropped : UInt64
  rateLimited : UInt64
  passed : UInt64
  redirected : UInt64
  failsafeDrops : UInt64
  parseErrors : UInt64
  mapErrors : UInt64
  coolingBans : UInt64
  synFloodBans : UInt64
  lastResetNs : UInt64
  deriving DecidableEq

structure MappedXdpStats where
  rxPackets : UInt64
  rxBytes : UInt64
  dropped : UInt64
  droppedBytes : UInt64
  passed : UInt64
  passedBytes : UInt64
  deriving DecidableEq

structure FailsafeState where
  circuitOpen : UInt8
  currentPps : UInt64
  currentBps : UInt64
  openSinceNs : UInt64
  ppsThreshold : UInt64
  bpsThreshold : UInt64
  windowStartNs : UInt64
  deriving DecidableEq

structure FalxMapConfig where
  defaultAction : UInt8
  rateLimitEnabled : UInt8
  failsafeEnabled : UInt8
  afxdpRedirect : UInt8
  rateCapacity : UInt64
  rateRefillNs : UInt64
  honeypotIp : UInt32
  honeypotPort : UInt16
  deriving DecidableEq

structure MacAddr where
  bytes : List UInt8
  length_eq : bytes.length = 6
  deriving DecidableEq

structure HoneypotTarget where
  dstIp : UInt32
  dstMac : MacAddr
  srcMac : MacAddr
  dstPort : UInt16
  active : UInt8
  deriving DecidableEq

namespace Action

def pass : UInt8 := 1
def drop : UInt8 := 2
def redirect : UInt8 := 3
def rateLimit : UInt8 := 4

end Action

namespace Reason

def blocklist : UInt32 := 0x0001
def aiVerdict : UInt32 := 0x0005
def coolingBan : UInt32 := 0x0006

end Reason

namespace Proto

def tcp : UInt8 := 6
def udp : UInt8 := 17

end Proto

namespace EtherType

def ipv4 : UInt16 := 0x0800
def ipv6 : UInt16 := 0x86DD

end EtherType

def coolingBaseS : UInt64 := 10
def maxCoolingShift : UInt32 := 16
def synFloodThreshold : UInt32 := 50
def synFloodPenaltyR : UInt32 := 8

def nsPerSec : UInt64 := 1000000000

/-- The test both sides make on an entry, each with its own second counter. -/
def BlockEntry.expired (entry : BlockEntry) (nowS : UInt64) : Bool :=
  entry.expireAt != 0 && entry.expireAt ≤ nowS

theorem BlockEntry.expired_iff {entry : BlockEntry} {nowS : UInt64} :
    entry.expired nowS = true ↔ entry.expireAt ≠ 0 ∧ entry.expireAt.toNat ≤ nowS.toNat := by
  simp [BlockEntry.expired, UInt64.le_iff_toNat_le]

end Falx
