import Falx.AuthService
import Falx.Manager

/-! The security routes of the SOC backend. The role of the caller decides which of them
are open, and a block that an analyst asks for is cut to one day; the map below takes
whatever entry it is given. -/

namespace Falx.Security

open Auth

structure BpfMaps where
  blocklistV4 : BlocklistV4
  blocklistV6 : BlocklistV6
  failsafeState : FailsafeState
  xdpStats : List XdpStats
  mappedStats : List MappedXdpStats

inductive BusEvent where
  | ipBlocked (srcIP actor reason : String) (ttl : UInt64)
  | ipUnblocked (srcIP actor : String)
  | circuitOpen (pps : UInt64) (reason : String)
  | circuitClosed (pps : UInt64)
  deriving DecidableEq

structure SecurityState where
  bpfMgr : Option BpfMaps
  /-- When the sentinel file of the override was written, if it is there. -/
  adminOverride : Option UInt64
  published : List BusEvent

structure SecurityLibrary where
  parseIP : String → Option NetIP
  ipString : NetIP → String

/-- What the surroundings decide for one request: the call to the blocklist, the error of a
call to another map, and whether the sentinel file and `falx.toml` can be written. -/
structure SecurityEnv where
  call : CallEnv
  nowNano : UInt64
  mapErr : Option String
  sentinelErr : Bool
  persistErr : Option String
  limiterStats : List (String × List (String × Int))
  deriving DecidableEq

structure BlockRequest where
  ip : String
  ttlSeconds : UInt64
  threatScore : UInt8
  reason : String
  ruleId : UInt8
  deriving DecidableEq

structure RedirectRequest where
  ip : String
  ttlSeconds : UInt64
  reason : String
  deriving DecidableEq

structure ThresholdsRequest where
  ppsThreshold : UInt64
  bpsThreshold : UInt64
  deriving DecidableEq

/-- A body is what the JSON decoder makes of it, or the text of its error. -/
inductive SecurityRequest where
  | listBlocked
  | blockIP (body : Except String BlockRequest)
  | unblockIP (ip : String)
  | redirectIP (body : Except String RedirectRequest)
  | rateBuckets
  | honeypotSessions
  | securityStats
  | failsafeStatus
  | forceOpenCircuit (reason : String)
  | forceCloseCircuit
  | updateThresholds (body : Except String ThresholdsRequest)

inductive SecurityReply where
  | entries (list : List BlockEntry)
  | blocked (message ip : String) (ttlS : UInt64) (permanent : Bool)
  | address (message ip : String)
  | limiter (stats : List (String × List (String × Int)))
  | sessions (list : List String)
  | stats (xdp : Option XdpStats)
  | failsafe (state : Option FailsafeState)
  | circuit (message reason : String)
  | override (message : String) (expires : UInt64)
  | thresholds (message : String) (pps bps : UInt64) (warning : Option String)
  deriving DecidableEq

def SecurityRequest.permission : SecurityRequest → Permission
  | listBlocked | rateBuckets | honeypotSessions | securityStats => .telemetryRead
  | blockIP _ => .ipBlockTemp
  | unblockIP _ | redirectIP _ => .ipBlock
  | failsafeStatus => .failsafeView
  | forceOpenCircuit _ | forceCloseCircuit | updateThresholds _ => .failsafeControl

section Handlers

variable (lib : SecurityLibrary) (env : SecurityEnv) (claims : TokenClaims)

abbrev Answer := Except APIError SecurityReply

def socActor : String := "soc:" ++ claims.userID

def clampTTL (role : Role) (ttlSeconds : UInt64) : UInt64 :=
  if role = .analyst ∧ (ttlSeconds = 0 ∨ 86400 < ttlSeconds) then 86400 else ttlSeconds

def blockIP (body : Except String BlockRequest) (s : SecurityState) : Answer × SecurityState :=
  match body with
  | .error err => (.error ⟨400, "invalid_json", err⟩, s)
  | .ok req =>
  match lib.parseIP req.ip with
  | none => (.error ⟨400, "invalid_ip", "Invalid IP: " ++ req.ip⟩, s)
  | some ip =>
  let ttl := clampTTL claims.role req.ttlSeconds
  match s.bpfMgr with
  | none => (.error ⟨503, "bpf_unavailable", "BPF maps not accessible"⟩, s)
  | some maps =>
  let entry : BlockEntry := ⟨ttl, Action.drop, req.ruleId, req.threatScore, 0, Reason.aiVerdict⟩
  match blockIPv4 env.call ip entry maps.blocklistV4 with
  | (some err, m) =>
    (.error ⟨429, "block_failed", err.message⟩,
      { s with bpfMgr := some { maps with blocklistV4 := m } })
  | (none, m) =>
    (.ok (.blocked "IP blocked" (lib.ipString ip) ttl (ttl == 0)),
      { s with
        bpfMgr := some { maps with blocklistV4 := m }
        published := s.published ++
          [.ipBlocked (lib.ipString ip) (socActor claims) req.reason ttl] })

def unblockIP (ipStr : String) (s : SecurityState) : Answer × SecurityState :=
  match lib.parseIP ipStr with
  | none => (.error ⟨400, "invalid_ip", "Invalid IP: " ++ ipStr⟩, s)
  | some ip =>
  match s.bpfMgr with
  | none => (.error ⟨503, "bpf_unavailable", ""⟩, s)
  | some maps =>
  match unblockIPv4 env.call ip maps.blocklistV4 with
  | (some err, m) =>
    (.error ⟨404, "unblock_failed", err.message⟩,
      { s with bpfMgr := some { maps with blocklistV4 := m } })
  | (none, m) =>
    (.ok (.address "IP unblocked" (lib.ipString ip)),
      { s with
        bpfMgr := some { maps with blocklistV4 := m }
        published := s.published ++ [.ipUnblocked (lib.ipString ip) (socActor claims)] })

-- no limit on the TTL, and no event
def redirectIP (body : Except String RedirectRequest) (s : SecurityState) :
    Answer × SecurityState :=
  match body with
  | .error err => (.error ⟨400, "invalid_json", err⟩, s)
  | .ok req =>
  match lib.parseIP req.ip with
  | none => (.error ⟨400, "invalid_ip", req.ip⟩, s)
  | some ip =>
  match s.bpfMgr with
  | none => (.error ⟨503, "bpf_unavailable", ""⟩, s)
  | some maps =>
  let entry : BlockEntry := ⟨req.ttlSeconds, Action.redirect, 0, 0, 0, Reason.aiVerdict⟩
  match blockIPv4 env.call ip entry maps.blocklistV4 with
  | (some err, m) =>
    (.error ⟨429, "redirect_failed", err.message⟩,
      { s with bpfMgr := some { maps with blocklistV4 := m } })
  | (none, m) =>
    (.ok (.address "IP redirected to honeypot" (lib.ipString ip)),
      { s with bpfMgr := some { maps with blocklistV4 := m } })

def rateBuckets (s : SecurityState) : Answer :=
  match s.bpfMgr with
  | none => .ok (.limiter [])
  | some _ => .ok (.limiter env.limiterStats)

def securityStats (s : SecurityState) : Answer :=
  match s.bpfMgr, env.mapErr with
  | none, _ => .ok (.stats none)
  | some _, some err => .error ⟨500, "stats_failed", err⟩
  | some maps, none => .ok (.stats (some (readStats maps.xdpStats maps.mappedStats)))

def failsafeStatus (s : SecurityState) : Answer :=
  match s.bpfMgr, env.mapErr with
  | none, _ => .ok (.failsafe none)
  | some _, some err => .error ⟨500, "failsafe_read_failed", err⟩
  | some maps, none => .ok (.failsafe (some maps.failsafeState))

def forceOpenCircuit (reason : String) (s : SecurityState) : Answer × SecurityState :=
  match s.bpfMgr, env.mapErr with
  | none, _ => (.error ⟨503, "bpf_unavailable", ""⟩, s)
  | some _, some err => (.error ⟨500, "failsafe_failed", err⟩, s)
  | some maps, none =>
    let reason := "soc_manual:" ++ claims.userID ++ ":" ++ reason
    (.ok (.circuit "Circuit breaker opened — XDP in pure-drop mode" reason),
      { bpfMgr := some { maps with
          failsafeState := setCircuitOpen true env.nowNano maps.failsafeState }
        adminOverride := if env.sentinelErr then s.adminOverride else none
        published := s.published ++ [.circuitOpen 0 reason] })

def forceCloseCircuit (s : SecurityState) : Answer × SecurityState :=
  match s.bpfMgr, env.mapErr with
  | none, _ => (.error ⟨503, "bpf_unavailable", ""⟩, s)
  | some _, some err => (.error ⟨500, "failsafe_failed", err⟩, s)
  | some maps, none =>
    (.ok (.override "Circuit breaker closed — AI inference restored" (env.nowNano + 300000000000)),
      { bpfMgr := some { maps with
          failsafeState := setCircuitOpen false env.nowNano maps.failsafeState }
        adminOverride := if env.sentinelErr then s.adminOverride else some env.nowNano
        published := s.published ++ [.circuitClosed 0] })

def updateThresholds (body : Except String ThresholdsRequest) (s : SecurityState) :
    Answer × SecurityState :=
  match body with
  | .error err => (.error ⟨400, "invalid_json", err⟩, s)
  | .ok req =>
  if req.ppsThreshold = 0 ∨ req.bpsThreshold = 0 then
    (.error ⟨400, "invalid_thresholds", "Both pps_threshold and bps_threshold must be > 0"⟩, s)
  else
    match s.bpfMgr, env.mapErr with
    | none, _ => (.error ⟨503, "bpf_unavailable", ""⟩, s)
    | some _, some err => (.error ⟨500, "update_failed", err⟩, s)
    | some maps, none =>
      (.ok (.thresholds "Failsafe thresholds updated" req.ppsThreshold req.bpsThreshold
          (env.persistErr.map fun err => "BPF map updated. falx.toml persistence failed: " ++ err ++
            " — values will revert on next falx-user restart.")),
        { s with bpfMgr := some { maps with
            failsafeState := updateFailsafeThresholds req.ppsThreshold req.bpsThreshold
              maps.failsafeState } })

def handle (request : SecurityRequest) (s : SecurityState) : Answer × SecurityState :=
  match request with
  | .listBlocked => (.ok (.entries []), s)
  | .blockIP body => blockIP lib env claims body s
  | .unblockIP ip => unblockIP lib env claims ip s
  | .redirectIP body => redirectIP lib env body s
  | .rateBuckets => (rateBuckets env s, s)
  | .honeypotSessions => (.ok (.sessions []), s)
  | .securityStats => (securityStats env s, s)
  | .failsafeStatus => (failsafeStatus env s, s)
  | .forceOpenCircuit reason => forceOpenCircuit env claims reason s
  | .forceCloseCircuit => forceCloseCircuit env s
  | .updateThresholds body => updateThresholds env body s

end Handlers

/-- A request as it reaches its route, with what `requireAuth` makes of its token. -/
structure SecurityCall where
  auth : Except APIError TokenClaims
  request : SecurityRequest
  env : SecurityEnv

def routeGuard (request : SecurityRequest) (claims : TokenClaims) : Option APIError :=
  requireTFAVerified claims <|> requireScope .session claims <|>
    requirePermission request.permission claims

def serveSecurity (lib : SecurityLibrary) (c : SecurityCall) (s : SecurityState) :
    Answer × SecurityState :=
  match c.auth with
  | .error err => (.error err, s)
  | .ok claims =>
    match routeGuard c.request claims with
    | some err => (.error err, s)
    | none => handle lib c.env claims c.request s

def runSecurity (lib : SecurityLibrary) (calls : List SecurityCall) (s : SecurityState) :
    SecurityState :=
  calls.foldl (fun s c => (serveSecurity lib c s).2) s

def SecurityState.entryV4 (s : SecurityState) (k : UInt32) : Option BlockEntry :=
  s.bpfMgr.bind (·.blocklistV4 k)

def SecurityState.entryV6 (s : SecurityState) (k : Ipv6Addr) : Option BlockEntry :=
  s.bpfMgr.bind (·.blocklistV6 k)

/-- An address that was dropped until some time, or for ever, is dropped at least as long. -/
def StillDrops (before after : Option BlockEntry) : Prop :=
  ∀ old, before = some old → old.action = Action.drop →
    ∃ new, after = some new ∧ new.action = Action.drop ∧
      (new.expireAt = 0 ∨ old.expireAt ≠ 0 ∧ old.expireAt ≤ new.expireAt)

def KeepsDrops (s t : SecurityState) : Prop :=
  (∀ k, StillDrops (s.entryV4 k) (t.entryV4 k)) ∧ ∀ k, StillDrops (s.entryV6 k) (t.entryV6 k)

def SecurityCall.analystBlock (lib : SecurityLibrary) (c : SecurityCall) :
    Option (UInt32 × UInt64) :=
  match c.request with
  | .blockIP (.ok req) =>
    ((lib.parseIP req.ip).bind ipv4ToUint32).map fun key =>
      (key, c.env.call.now + clampTTL .analyst req.ttlSeconds)
  | _ => none

theorem StillDrops.refl (entry : Option BlockEntry) : StillDrops entry entry := by
  intro old hold hdrop
  refine ⟨old, hold, hdrop, ?_⟩
  by_cases hperm : old.expireAt = 0
  · exact .inl hperm
  · exact .inr ⟨hperm, UInt64.le_refl _⟩

section Analyst

variable {lib : SecurityLibrary} {c : SecurityCall} {calls : List SecurityCall}
  {claims : TokenClaims} {s : SecurityState}

theorem clampTTL_analyst (ttl : UInt64) :
    0 < clampTTL .analyst ttl ∧ clampTTL .analyst ttl < 1000000000 := by
  unfold clampTTL
  split
  · decide
  · rename_i hsm
    obtain ⟨hpos, hmax⟩ := not_or.mp fun h => hsm ⟨rfl, h⟩
    exact ⟨UInt64.pos_iff_ne_zero.mpr hpos,
      UInt64.lt_of_le_of_lt (UInt64.not_lt.mp hmax) (by decide)⟩

theorem routeGuard_permission (h : routeGuard c.request claims = none) :
    c.request.permission ∈ rolePermissions claims.role := by
  have hperm : requirePermission c.request.permission claims = none := by
    cases htfa : requireTFAVerified claims with
    | some err => simp [routeGuard, htfa] at h
    | none =>
      cases hscope : requireScope .session claims with
      | some err => simp [routeGuard, htfa, hscope] at h
      | none => simpa [routeGuard, htfa, hscope] using h
  unfold requirePermission at hperm
  split at hperm
  · rename_i hhas
    exact List.contains_iff_mem.mp hhas
  · cases hperm

theorem blockIP_bpfMgr (env : SecurityEnv) (body : Except String BlockRequest) :
    (blockIP lib env claims body s).2.bpfMgr = s.bpfMgr ∨
      ∃ req ip maps, body = .ok req ∧ lib.parseIP req.ip = some ip ∧ s.bpfMgr = some maps ∧
        (blockIP lib env claims body s).2.bpfMgr = some { maps with
          blocklistV4 := (blockIPv4 env.call ip ⟨clampTTL claims.role req.ttlSeconds, Action.drop,
            req.ruleId, req.threatScore, 0, Reason.aiVerdict⟩ maps.blocklistV4).2 } := by
  cases body with
  | error err => exact .inl rfl
  | ok req =>
    cases hip : lib.parseIP req.ip with
    | none => exact .inl (by simp [blockIP, hip])
    | some ip =>
      cases hmaps : s.bpfMgr with
      | none => exact .inl (by simp [blockIP, hip, hmaps])
      | some maps =>
        refine .inr ⟨req, ip, maps, rfl, hip, rfl, ?_⟩
        simp only [blockIP, hip, hmaps]
        split <;> rename_i hbl <;> rw [hbl]

theorem handle_bpfMgr {env : SecurityEnv} {request : SecurityRequest}
    (hrole : claims.role = .analyst) (hperm : request.permission ∈ rolePermissions claims.role) :
    (handle lib env claims request s).2.bpfMgr = s.bpfMgr ∨
      ∃ req ip maps, request = .blockIP (.ok req) ∧ lib.parseIP req.ip = some ip ∧
        s.bpfMgr = some maps ∧ (handle lib env claims request s).2.bpfMgr = some { maps with
          blocklistV4 := (blockIPv4 env.call ip ⟨clampTTL .analyst req.ttlSeconds, Action.drop,
            req.ruleId, req.threatScore, 0, Reason.aiVerdict⟩ maps.blocklistV4).2 } := by
  rw [hrole] at hperm
  cases request with
  | blockIP body =>
    rcases blockIP_bpfMgr env body with hsame | ⟨req, ip, maps, rfl, hip, hmaps, hw⟩
    · exact .inl hsame
    · rw [hrole] at hw
      exact .inr ⟨req, ip, maps, rfl, hip, hmaps, hw⟩
  | unblockIP _ | redirectIP _ | forceOpenCircuit _ | forceCloseCircuit | updateThresholds _ =>
    simp [SecurityRequest.permission, rolePermissions] at hperm
  | listBlocked | rateBuckets | honeypotSessions | securityStats | failsafeStatus =>
    exact .inl rfl

variable (lib)

section

variable (hrole : ∀ claims, c.auth = .ok claims → claims.role = .analyst)

include hrole

theorem serveSecurity_bpfMgr :
    (serveSecurity lib c s).2.bpfMgr = s.bpfMgr ∨
      ∃ req ip maps, c.request = .blockIP (.ok req) ∧ lib.parseIP req.ip = some ip ∧
        s.bpfMgr = some maps ∧ (serveSecurity lib c s).2.bpfMgr = some { maps with
          blocklistV4 := (blockIPv4 c.env.call ip ⟨clampTTL .analyst req.ttlSeconds, Action.drop,
            req.ruleId, req.threatScore, 0, Reason.aiVerdict⟩ maps.blocklistV4).2 } := by
  cases hauth : c.auth with
  | error err => exact .inl (by simp [serveSecurity, hauth])
  | ok claims =>
    cases hgd : routeGuard c.request claims with
    | some err => exact .inl (by simp [serveSecurity, hauth, hgd])
    | none =>
      have hsv : serveSecurity lib c s = handle lib c.env claims c.request s := by
        simp [serveSecurity, hauth, hgd]
      rw [hsv]
      exact handle_bpfMgr (hrole claims hauth) (routeGuard_permission hgd)

theorem serveSecurity_entryV4 (k : UInt32) :
    (serveSecurity lib c s).2.entryV4 k = s.entryV4 k ∨
      ∃ entry, c.analystBlock lib = some (k, entry.expireAt) ∧ entry.action = Action.drop ∧
        (serveSecurity lib c s).2.entryV4 k = some entry := by
  unfold SecurityState.entryV4
  rcases serveSecurity_bpfMgr lib hrole with
    hsame | ⟨req, ip, maps, hreq, hip, hmaps, hw⟩
  · exact .inl (by rw [hsame])
  · rw [hw, hmaps, Option.bind_some, Option.bind_some]
    rcases blockIPv4_apply c.env.call ip ⟨clampTTL .analyst req.ttlSeconds, Action.drop,
      req.ruleId, req.threatScore, 0, Reason.aiVerdict⟩ k with hsame | ⟨hkey, hnew⟩
    · exact .inl hsame
    · rw [absoluteExpiry, if_pos (clampTTL_analyst req.ttlSeconds)] at hnew
      exact .inr ⟨_, by simp [SecurityCall.analystBlock, hreq, hip, hkey], rfl, hnew⟩

theorem serveSecurity_entryV6 (k : Ipv6Addr) :
    (serveSecurity lib c s).2.entryV6 k = s.entryV6 k := by
  unfold SecurityState.entryV6
  rcases serveSecurity_bpfMgr lib hrole with hsame | ⟨_, _, _, _, _, hmaps, hw⟩
  · rw [hsame]
  · rw [hw, hmaps, Option.bind_some, Option.bind_some]

end

section

variable (hrole : ∀ c ∈ calls, ∀ claims, c.auth = .ok claims → claims.role = .analyst)

include hrole

theorem runSecurity_entryV4 (k : UInt32) :
    (runSecurity lib calls s).entryV4 k = s.entryV4 k ∨
      ∃ c ∈ calls, ∃ entry, c.analystBlock lib = some (k, entry.expireAt) ∧
        entry.action = Action.drop ∧ (runSecurity lib calls s).entryV4 k = some entry := by
  induction calls generalizing s with
  | nil => exact .inl rfl
  | cons c calls ih =>
    have hrest : ∀ c ∈ calls, ∀ claims, c.auth = .ok claims → claims.role = .analyst :=
      fun c hc => hrole c (.tail _ hc)
    rcases ih (s := (serveSecurity lib c s).2) hrest with hsame | ⟨c', hc', hlast⟩
    · have hrun : (runSecurity lib (c :: calls) s).entryV4 k =
        (serveSecurity lib c s).2.entryV4 k := hsame
      rw [hrun]
      rcases serveSecurity_entryV4 lib (hrole c (.head _)) k with
        hstep | ⟨entry, hen⟩
      · exact .inl hstep
      · exact .inr ⟨c, .head _, entry, hen⟩
    · exact .inr ⟨c', .tail _ hc', hlast⟩

theorem runSecurity_entryV6 (k : Ipv6Addr) : (runSecurity lib calls s).entryV6 k = s.entryV6 k := by
  induction calls generalizing s with
  | nil => rfl
  | cons c calls ih =>
    have hstep := serveSecurity_entryV6 lib (s := s) (hrole c (.head _)) k
    have hrest := ih (s := (serveSecurity lib c s).2) fun c hc => hrole c (.tail _ hc)
    exact hrest.trans hstep

end

variable {lib}

/-- No address is dropped for less time than before, if an analyst blocks a dropped one only
for longer. -/
theorem analyst_keeps_drops
    (hrole : ∀ c ∈ calls, ∀ claims, c.auth = .ok claims → claims.role = .analyst)
    (hlong : ∀ c ∈ calls, ∀ key expiry, c.analystBlock lib = some (key, expiry) →
      ∀ old, s.entryV4 key = some old → old.action = Action.drop →
        old.expireAt ≠ 0 ∧ old.expireAt ≤ expiry) :
    KeepsDrops s (runSecurity lib calls s) := by
  refine ⟨fun k => ?_, fun k => ?_⟩
  · rcases runSecurity_entryV4 lib hrole k with
      hsame | ⟨c, hc, entry, hbl, hdrop, hlast⟩
    · rw [hsame]
      exact .refl _
    · intro old hold hdropped
      exact ⟨entry, hlast, hdrop, .inr (hlong c hc k _ hbl old hold hdropped)⟩
  · rw [runSecurity_entryV6 lib hrole k]
    exact .refl _

end Analyst

def documentationNet : SecurityLibrary where
  parseIP s := if s = "192.0.2.1" then some (v4InV6Prefix ++ [192, 0, 2, 1]) else none
  ipString _ := "192.0.2.1"

def droppedUntil (expireAt : UInt64) : SecurityState where
  bpfMgr := some {
    blocklistV4 := fun k =>
      if k = 0xC0000201 then some ⟨expireAt, Action.drop, 0, 0, 0, Reason.aiVerdict⟩ else none
    blocklistV6 := fun _ => none
    failsafeState := ⟨0, 0, 0, 0, 0, 0, 0⟩
    xdpStats := []
    mappedStats := [] }
  adminOverride := none
  published := []

def analystClaims : TokenClaims :=
  ⟨"u1", "ana", .analyst, "s1", 0, 0, "access", true, .session, rolePermissions .analyst⟩

def analystBlocks (now ttlSeconds : UInt64) : SecurityCall where
  auth := .ok analystClaims
  request := .blockIP (.ok ⟨"192.0.2.1", ttlSeconds, 0, "", 0⟩)
  env := ⟨⟨true, now, none⟩, 0, none, false, none, []⟩

theorem analyst_keeps_drops_longer :
    KeepsDrops (droppedUntil 1700003600)
        (runSecurity documentationNet [analystBlocks 1700000000 7200] (droppedUntil 1700003600)) ∧
      ((runSecurity documentationNet [analystBlocks 1700000000 7200]
        (droppedUntil 1700003600)).entryV4 0xC0000201).map (·.expireAt) = some 1700007200 := by
  refine ⟨analyst_keeps_drops ?_ ?_, by decide⟩
  · intro c hc claims hauth
    cases List.mem_singleton.mp hc
    cases hauth
    rfl
  · intro c hc key expiry hbl old hold hdrop
    cases List.mem_singleton.mp hc
    cases hbl
    cases hold
    decide

/-- An address that was dropped for ever is let through a day after an analyst blocks it. -/
theorem analyst_shortens_permanent_drop :
    (analystBlocks 1700000000 0).auth = .ok analystClaims ∧
      ((droppedUntil 0).entryV4 0xC0000201).map (fun entry => (entry.action, entry.expireAt)) =
        some (Action.drop, 0) ∧
      ((runSecurity documentationNet [analystBlocks 1700000000 0]
        (droppedUntil 0)).entryV4 0xC0000201).map (fun entry =>
          (entry.action, entry.expireAt, entry.expired 1700086400)) =
        some (Action.drop, 1700086400, true) := by
  refine ⟨rfl, by decide, by decide⟩

end Falx.Security
