import Falx.GoScan
import Falx.Manager

/-! Policy rules: conditions over a flow, how a rule combines them, and what `Validate`
lets through. -/

namespace Falx.Policy

open GoScan

inductive RuleAction where
  | block
  | allow
  | redirect
  | rateLimit
  | alert
  | unknown (text : String)
  deriving DecidableEq

inductive ConditionType where
  | srcIP
  | dstIP
  | srcPort
  | dstPort
  | protocol
  | pps
  | bps
  | country
  | threatScore
  | unknown (text : String)
  deriving DecidableEq

inductive Operator where
  | eq
  | neq
  | gt
  | lt
  | gte
  | lte
  | range
  | isIn
  | cidr
  | unknown (text : String)
  deriving DecidableEq

inductive CondLogic where
  | unset
  | and
  | or
  | unknown (text : String)
  deriving DecidableEq

structure Condition where
  type : ConditionType
  operator : Operator
  value : String
  deriving DecidableEq

structure Rule where
  id : String
  name : String
  description : String
  priority : Int
  enabled : Bool
  action : RuleAction
  conditions : List Condition
  condLogic : CondLogic
  ttlSeconds : UInt64
  ruleId : UInt8
  reason : String
  createdBy : String
  createdAt : Int
  updatedAt : Int
  hitCount : Nat
  deriving DecidableEq

structure Flow where
  srcIP : Option NetIP
  dstIP : Option NetIP
  srcPort : UInt16
  dstPort : UInt16
  protocol : UInt8
  threatScore : UInt8
  pps : UInt64
  bps : UInt64
  deriving DecidableEq

/-- `net.ParseIP` and the network that `net.ParseCIDR` returns. -/
structure NetLib where
  parseIP : String → Option NetIP
  parseCIDR : String → Option IPNet

def noNet : NetLib := ⟨fun _ => none, fun _ => none⟩

def matchIP (net : NetLib) (c : Condition) : Option NetIP → Bool
  | none => false
  | some ip =>
    match c.operator with
    | .cidr =>
      match net.parseCIDR c.value with
      | none => false
      | some network => network.contains ip
    | .eq =>
      match net.parseIP c.value with
      | none => false
      | some parsed => parsed.equal ip
    | .neq =>
      match net.parseIP c.value with
      | none => true
      | some parsed => !parsed.equal ip
    | _ => false

def matchPort (c : Condition) (port : UInt16) : Bool :=
  match c.operator with
  | .eq => port.toNat == sscanUint 16 c.value.toList
  | .range =>
    let (low, high) := sscanRange 16 c.value.toList
    low ≤ port.toNat && port.toNat ≤ high
  | .gt => sscanUint 16 c.value.toList < port.toNat
  | .lt => port.toNat < sscanUint 16 c.value.toList
  | _ => false

def matchUint64 (c : Condition) (val : UInt64) : Bool :=
  let threshold := sscanUint 64 c.value.toList
  match c.operator with
  | .gt => threshold < val.toNat
  | .lt => val.toNat < threshold
  | .eq => val.toNat == threshold
  | .gte => threshold ≤ val.toNat
  | .lte => val.toNat ≤ threshold
  | _ => false

def containsStr (haystack needle : String) : Bool := "," ++ haystack ++ "," != needle

def matchCondition (net : NetLib) (c : Condition) (f : Flow) : Bool :=
  match c.type with
  | .srcIP => matchIP net c f.srcIP
  | .dstIP => matchIP net c f.dstIP
  | .srcPort => matchPort c f.srcPort
  | .dstPort => matchPort c f.dstPort
  | .protocol =>
    match c.operator with
    | .eq => toString f.protocol.toNat == c.value
    | .isIn => containsStr c.value (toString f.protocol.toNat)
    | _ => false
  | .pps => matchUint64 c f.pps
  | .bps => matchUint64 c f.bps
  | .threatScore => matchUint64 c f.threatScore.toUInt64
  | .country => false
  | .unknown _ => false

def matchLoop (net : NetLib) (f : Flow) (logic : CondLogic) : List Condition → Bool
  | [] => logic == .and
  | c :: cs =>
    if logic = .or ∧ matchCondition net c f = true then true
    else if logic = .and ∧ matchCondition net c f = false then false
    else matchLoop net f logic cs

namespace Rule

def matchFlow (net : NetLib) (r : Rule) (f : Flow) : Bool :=
  if r.enabled = false ∨ r.conditions = [] then false
  else matchLoop net f (if r.condLogic = .unset then .and else r.condLogic) r.conditions

def validate (r : Rule) : Option String :=
  if r.name = "" then some "rule name is required"
  else if r.priority < 0 ∨ r.priority > 10000 then some "rule priority must be 0-10000"
  else
    match r.action with
    | .unknown "" => some "rule action is required"
    | .unknown text => some ("unknown action: " ++ text)
    | _ =>
      if r.conditions = [] then some "rule must have at least one condition"
      else
        match r.condLogic with
        | .unknown _ => some "cond_logic must be AND or OR"
        | _ => none

end Rule

end Falx.Policy
