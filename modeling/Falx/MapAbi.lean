import Falx.RecordLayout
import Falx.Types

/-! The records of the BPF maps as the three programs declare them: the XDP program, the
loader and the control plane. A field has one name here, whatever the case and the
underscores of its name in each language. -/

namespace Falx

open RecordLayout

inductive MapRecord where
  | blockEntry
  | rateBucket
  | xdpStats
  | failsafeState
  | falxMapConfig
  deriving DecidableEq

inductive FieldName where
  | expireAt | action | ruleId | threatScore | pad | reason
  | tokens | lastRefill | capacity | refillRate | dropCount
  | rxPackets | rxBytes | dropped | rateLimited | passed | redirected | failsafeDrops
  | parseErrors | mapErrors | coolingBans | synFloodBans | lastResetNs
  | circuitOpen | currentPps | currentBps | openSinceNs | ppsThreshold | bpsThreshold
  | windowStartNs
  | defaultAction | rateLimitEnabled | failsafeEnabled | afxdpRedirect | rateCapacity
  | rateRefillNs | honeypotIp | honeypotPort | pad2
  deriving DecidableEq

namespace MapAbi

def u8 : FieldType := .uint 1
def u16 : FieldType := .uint 2
def u32 : FieldType := .uint 4
def u64 : FieldType := .uint 8

def kernel : MapRecord → Layout FieldName
  | .blockEntry =>
    [(.expireAt, u64), (.action, u8), (.ruleId, u8), (.threatScore, u8), (.pad, u8), (.reason, u32)]
  | .rateBucket =>
    [(.tokens, u64), (.lastRefill, u64), (.capacity, u64), (.refillRate, u64), (.dropCount, u64)]
  | .xdpStats =>
    [(.rxPackets, u64), (.rxBytes, u64), (.dropped, u64), (.rateLimited, u64), (.passed, u64),
      (.redirected, u64), (.failsafeDrops, u64), (.parseErrors, u64), (.mapErrors, u64),
      (.coolingBans, u64), (.synFloodBans, u64), (.lastResetNs, u64)]
  | .failsafeState =>
    [(.circuitOpen, u8), (.pad, .bytes 7), (.currentPps, u64), (.currentBps, u64),
      (.openSinceNs, u64), (.ppsThreshold, u64), (.bpsThreshold, u64), (.windowStartNs, u64)]
  | .falxMapConfig =>
    [(.defaultAction, u8), (.rateLimitEnabled, u8), (.failsafeEnabled, u8), (.afxdpRedirect, u8),
      (.pad, .bytes 4), (.rateCapacity, u64), (.rateRefillNs, u64), (.honeypotIp, u32),
      (.honeypotPort, u16), (.pad2, .bytes 2)]

def controlPlane : MapRecord → Layout FieldName
  | .blockEntry =>
    [(.expireAt, u64), (.action, u8), (.ruleId, u8), (.threatScore, u8), (.pad, u8), (.reason, u32)]
  | .rateBucket =>
    [(.tokens, u64), (.lastRefill, u64), (.capacity, u64), (.refillRate, u64), (.dropCount, u64)]
  | .xdpStats =>
    [(.rxPackets, u64), (.rxBytes, u64), (.dropped, u64), (.rateLimited, u64), (.passed, u64),
      (.redirected, u64), (.failsafeDrops, u64), (.parseErrors, u64), (.mapErrors, u64),
      (.coolingBans, u64), (.synFloodBans, u64), (.lastResetNs, u64)]
  | .failsafeState =>
    [(.circuitOpen, u8), (.pad, .bytes 7), (.currentPps, u64), (.currentBps, u64),
      (.openSinceNs, u64), (.ppsThreshold, u64), (.bpsThreshold, u64), (.windowStartNs, u64)]
  | .falxMapConfig =>
    [(.defaultAction, u8), (.rateLimitEnabled, u8), (.failsafeEnabled, u8), (.afxdpRedirect, u8),
      (.pad, .bytes 4), (.rateCapacity, u64), (.rateRefillNs, u64), (.honeypotIp, u32),
      (.honeypotPort, u16), (.pad2, .bytes 2)]

def loader : MapRecord → Layout FieldName
  | .blockEntry =>
    [(.expireAt, u64), (.action, u8), (.ruleId, u8), (.threatScore, u8), (.pad, u8), (.reason, u32)]
  | .rateBucket =>
    [(.tokens, u64), (.lastRefill, u64), (.capacity, u64), (.refillRate, u64), (.dropCount, u64)]
  | .xdpStats =>
    [(.rxPackets, u64), (.rxBytes, u64), (.dropped, u64), (.rateLimited, u64), (.passed, u64),
      (.redirected, u64), (.failsafeDrops, u64), (.parseErrors, u64), (.mapErrors, u64),
      (.lastResetNs, u64)]
  | .failsafeState =>
    [(.circuitOpen, u8), (.pad, .bytes 7), (.currentPps, u64), (.currentBps, u64),
      (.openSinceNs, u64), (.ppsThreshold, u64), (.bpsThreshold, u64), (.windowStartNs, u64)]
  | .falxMapConfig =>
    [(.defaultAction, u8), (.rateLimitEnabled, u8), (.failsafeEnabled, u8), (.afxdpRedirect, u8),
      (.pad, .bytes 4), (.rateCapacity, u64), (.rateRefillNs, u64), (.honeypotIp, u32),
      (.honeypotPort, u16), (.pad2, .bytes 2)]

inductive Reader where
  | controlPlane
  | loader
  deriving DecidableEq

def Reader.layout : Reader → MapRecord → Layout FieldName
  | controlPlane => MapAbi.controlPlane
  | loader => MapAbi.loader

def Shared (reader : Reader) (record : MapRecord) (x : FieldName) : Prop :=
  x ∈ (kernel record).map Prod.fst ∧ x ∈ (reader.layout record).map Prod.fst

section Records

def num64 (w : UInt64) : Value := .num w.toNat
def num32 (w : UInt32) : Value := .num w.toNat
def num16 (w : UInt16) : Value := .num w.toNat
def num8 (w : UInt8) : Value := .num w.toNat

def blockEntry (e : BlockEntry) : FieldName → Value
  | .expireAt => num64 e.expireAt
  | .action => num8 e.action
  | .ruleId => num8 e.ruleId
  | .threatScore => num8 e.threatScore
  | .pad => num8 e.pad
  | .reason => num32 e.reason
  | _ => .num 0

def rateBucket (b : RateBucket) : FieldName → Value
  | .tokens => num64 b.tokens
  | .lastRefill => num64 b.lastRefill
  | .capacity => num64 b.capacity
  | .refillRate => num64 b.refillRate
  | .dropCount => num64 b.dropCount
  | _ => .num 0

def xdpStats (s : XdpStats) : FieldName → Value
  | .rxPackets => num64 s.rxPackets
  | .rxBytes => num64 s.rxBytes
  | .dropped => num64 s.dropped
  | .rateLimited => num64 s.rateLimited
  | .passed => num64 s.passed
  | .redirected => num64 s.redirected
  | .failsafeDrops => num64 s.failsafeDrops
  | .parseErrors => num64 s.parseErrors
  | .mapErrors => num64 s.mapErrors
  | .coolingBans => num64 s.coolingBans
  | .synFloodBans => num64 s.synFloodBans
  | .lastResetNs => num64 s.lastResetNs
  | _ => .num 0

def failsafeState (s : FailsafeState) : FieldName → Value
  | .circuitOpen => num8 s.circuitOpen
  | .pad => .bytes (List.replicate 7 0)
  | .currentPps => num64 s.currentPps
  | .currentBps => num64 s.currentBps
  | .openSinceNs => num64 s.openSinceNs
  | .ppsThreshold => num64 s.ppsThreshold
  | .bpsThreshold => num64 s.bpsThreshold
  | .windowStartNs => num64 s.windowStartNs
  | _ => .num 0

def falxMapConfig (c : FalxMapConfig) : FieldName → Value
  | .defaultAction => num8 c.defaultAction
  | .rateLimitEnabled => num8 c.rateLimitEnabled
  | .failsafeEnabled => num8 c.failsafeEnabled
  | .afxdpRedirect => num8 c.afxdpRedirect
  | .pad => .bytes (List.replicate 4 0)
  | .rateCapacity => num64 c.rateCapacity
  | .rateRefillNs => num64 c.rateRefillNs
  | .honeypotIp => num32 c.honeypotIp
  | .honeypotPort => num16 c.honeypotPort
  | .pad2 => .bytes (List.replicate 2 0)
  | _ => .num 0

end Records

inductive MapValue where
  | blockEntry (e : BlockEntry)
  | rateBucket (b : RateBucket)
  | xdpStats (s : XdpStats)
  | failsafeState (s : FailsafeState)
  | falxMapConfig (c : FalxMapConfig)

def MapValue.record : MapValue → MapRecord
  | blockEntry _ => .blockEntry
  | rateBucket _ => .rateBucket
  | xdpStats _ => .xdpStats
  | failsafeState _ => .failsafeState
  | falxMapConfig _ => .falxMapConfig

def MapValue.field : MapValue → FieldName → Value
  | blockEntry e => MapAbi.blockEntry e
  | rateBucket b => MapAbi.rateBucket b
  | xdpStats s => MapAbi.xdpStats s
  | failsafeState s => MapAbi.failsafeState s
  | falxMapConfig c => MapAbi.falxMapConfig c

theorem MapValue.holds (v : MapValue) : Layout.Holds (kernel v.record) v.field := by
  intro f hf
  cases v <;> simp only [record, kernel, List.mem_cons, List.not_mem_nil, or_false] at hf <;>
    rcases hf with rfl | rfl | rfl | rfl | rfl | rfl | rfl | rfl | rfl | rfl | rfl | rfl <;>
    first
      | exact UInt64.toNat_lt _
      | exact UInt32.toNat_lt _
      | exact UInt16.toNat_lt _
      | exact UInt8.toNat_lt _
      | rfl

def bannedOnce : XdpStats := ⟨0, 0, 0, 0, 0, 0, 0, 0, 0, 1, 0, 0⟩

end MapAbi

end Falx
