import Falx.IpcReceive
import Falx.Manager

/-! The IPC server: connection handlers that dispatch the frames of the AI engine, and
the verdict dispatcher that empties the channel they fill. Handlers and dispatcher
interleave at every frame and at every write to the blocklist. -/

namespace Falx

namespace Ipc

def protectedCIDRs : List IPNet :=
  [⟨[0, 0, 0, 0], [0xFF, 0, 0, 0]⟩,
    ⟨[127, 0, 0, 0], [0xFF, 0, 0, 0]⟩,
    ⟨[169, 254, 0, 0], [0xFF, 0xFF, 0, 0]⟩,
    ⟨[224, 0, 0, 0], [0xF0, 0, 0, 0]⟩,
    ⟨[240, 0, 0, 0], [0xF0, 0, 0, 0]⟩,
    ⟨[255, 255, 255, 255], [0xFF, 0xFF, 0xFF, 0xFF]⟩]

def isProtectedIP (ip : NetIP) : Bool := protectedCIDRs.any fun cidr => cidr.contains ip

structure Verdict where
  srcIP : String
  action : UInt8
  ruleId : UInt8
  threatScore : UInt8
  blockDurationS : UInt64
  deriving DecidableEq

structure InferResponse where
  verdicts : List Verdict
  deriving DecidableEq

structure MapUpdateReq where
  srcIP : String
  action : UInt8
  ttlSeconds : UInt64
  threatScore : UInt8
  ruleId : UInt8
  deriving DecidableEq

structure Alert where
  srcIP : String
  severity : String
  threatType : String
  deriving DecidableEq

/-- The library functions the server calls: `json.Unmarshal` at its three types, with the
text of the error, and `net.ParseIP`. -/
structure Library where
  inferResponse : List UInt8 → Except String InferResponse
  mapUpdateReq : List UInt8 → Except String MapUpdateReq
  alert : List UInt8 → Except String Alert
  parseIP : String → Option NetIP

inductive ErrCode where
  | unknown
  | invalidPayload
  | rateLimited
  deriving DecidableEq

def ErrCode.code : ErrCode → UInt32
  | unknown => 1
  | invalidPayload => 2
  | rateLimited => 3

inductive Reply where
  | error (seq : UInt32) (code : ErrCode) (message : String)
  | mapUpdateAck (seq : UInt32)
  deriving DecidableEq

structure Conn where
  -- what the peer has sent and the handler has not read
  input : List UInt8
  closed : Bool := false
  replies : List Reply := []

structure Server where
  conns : List Conn := []
  verdictCh : List InferResponse := []
  alertCh : List Alert := []
  -- what the dispatcher has still to write of the response it took
  batch : List BlockDecision := []
  blocklist : BlocklistV4
  -- a ghost record of the keys written
  written : List UInt32 := []
  totalConns : UInt64 := 0
  totalRequests : UInt64 := 0
  totalVerdicts : UInt64 := 0
  totalAlerts : UInt64 := 0

/-- What the environment decides about one frame: whether the limiter of the connection
lets a map update through, and the outcome of the map update. -/
structure FrameEnv where
  allow : Bool
  call : CallEnv

def hexByte (b : UInt8) : String :=
  String.ofList [Nat.digitChar (b.toNat / 16), Nat.digitChar (b.toNat % 16)]

def hexWord (w : UInt32) : String :=
  hexByte (w >>> 24).toUInt8 ++ hexByte (w >>> 16).toUInt8 ++ hexByte (w >>> 8).toUInt8 ++
    hexByte w.toUInt8

namespace Server

variable (lib : Library)

def write (ip : NetIP) (m : BlocklistV4) (failed : Bool) (s : Server) : Server :=
  match ipv4ToUint32 ip, failed with
  | some key, false => { s with blocklist := m, written := key :: s.written }
  | _, _ => { s with blocklist := m }

def mapUpdateEntry (req : MapUpdateReq) : BlockEntry :=
  ⟨req.ttlSeconds, req.action, req.ruleId, req.threatScore, 0, Reason.aiVerdict⟩

def applyMapUpdate (call : CallEnv) (seq : UInt32) (req : MapUpdateReq) (s : Server) :
    Reply × Server :=
  match lib.parseIP req.srcIP with
  | none => (.error seq .invalidPayload ("invalid src_ip: " ++ req.srcIP), s)
  | some ip =>
    if isProtectedIP ip then
      (.error seq .invalidPayload "src_ip is in a protected CIDR; refusing to block", s)
    else if req.action = Action.drop ∨ req.action = Action.redirect ∨
        req.action = Action.rateLimit then
      match blockIPv4 call ip (mapUpdateEntry req) s.blocklist with
      | (some e, m) => (.error seq .rateLimited e.message, s.write ip m true)
      | (none, m) => (.mapUpdateAck seq, s.write ip m false)
    else (.error seq .rateLimited ("unsupported action " ++ toString req.action), s)

def dispatch (env : FrameEnv) (f : Frame) (s : Server) : Option Reply × Server :=
  if f.header.msgType = MsgType.inferResponse.code then
    match lib.inferResponse f.payload with
    | .error e => (some (.error f.header.seq .invalidPayload e), s)
    | .ok resp =>
      let s := { s with totalVerdicts := s.totalVerdicts + UInt64.ofNat resp.verdicts.length }
      if s.verdictCh.length < 1024 then (none, { s with verdictCh := s.verdictCh ++ [resp] })
      else (none, s)
  else if f.header.msgType = MsgType.mapUpdateReq.code then
    if env.allow = false then
      (some (.error f.header.seq .rateLimited "map update rate limit exceeded"), s)
    else
      match lib.mapUpdateReq f.payload with
      | .error e => (some (.error f.header.seq .invalidPayload e), s)
      | .ok req =>
        let (reply, s) := applyMapUpdate lib env.call f.header.seq req s
        (some reply, s)
  else if f.header.msgType = MsgType.alert.code then
    match lib.alert f.payload with
    | .error _ => (none, s)
    | .ok alert =>
      let s := { s with totalAlerts := s.totalAlerts + 1 }
      if s.alertCh.length < 256 then (none, { s with alertCh := s.alertCh ++ [alert] })
      else (none, s)
  else if f.header.msgType = MsgType.heartbeatAck.code then (none, s)
  else
    (some (.error f.header.seq .unknown
      ("unknown msg type 0x" ++ hexByte f.header.msgType)), s)

def setConn (i : Nat) (c : Conn) (s : Server) : Server := { s with conns := s.conns.set i c }

def handleConn (env : FrameEnv) (i : Nat) (s : Server) : Server :=
  match s.conns[i]? with
  | none => s
  | some c =>
    if c.closed then s
    else
      match readFrame c.input with
      | .error _ => s.setConn i { c with closed := true }
      | .ok (f, rest) =>
        match f.validate with
        | some _ =>
          s.setConn i { c with
            input := rest
            replies := c.replies ++ [.error f.header.seq .invalidPayload
              ("CRC32 mismatch: got 0x" ++ hexWord f.checksum ++ ", expected 0x" ++
                hexWord f.header.crc32)] }
        | none =>
          let (reply, s) := dispatch lib env f { s with totalRequests := s.totalRequests + 1 }
          s.setConn i { c with input := rest, replies := c.replies ++ reply.toList }

def isAllowedUID (allowedUIDs : List UInt32) (uid : UInt32) : Bool :=
  allowedUIDs.any fun allowed => uid == allowed

def accept (allowedUIDs : List UInt32) (uid : UInt32) (input : List UInt8) (s : Server) : Server :=
  if isAllowedUID allowedUIDs uid then
    { s with conns := s.conns ++ [⟨input, false, []⟩], totalConns := s.totalConns + 1 }
  else s

def verdictDecision (v : Verdict) : Option BlockDecision :=
  if v.action ≠ Action.drop ∧ v.action ≠ Action.redirect then none
  else
    (lib.parseIP v.srcIP).map fun ip =>
      ⟨ip, ⟨v.blockDurationS, v.action, v.ruleId, v.threatScore, 0, Reason.aiVerdict⟩⟩

/-- The dispatcher takes a response off the channel and passes the limiter of the
batch; the writes come one by one. -/
def applyVerdicts (allowed : Bool) (s : Server) : Server :=
  match s.batch, s.verdictCh with
  | [], resp :: ch =>
    { s with
      verdictCh := ch
      batch := if allowed then resp.verdicts.filterMap (verdictDecision lib) else [] }
  | _, _ => s

def writeDecision (env : CallEnv) (s : Server) : Server :=
  match s.batch with
  | [] => s
  | d :: ds =>
    { s.write d.ip (blockDecisions [(env, d)] s.blocklist).2 env.mapErr.isSome with batch := ds }

end Server

inductive Event where
  | accept (uid : UInt32) (input : List UInt8)
  | handleConn (env : FrameEnv) (i : Nat)
  | applyVerdicts (allowed : Bool)
  | writeDecision (env : CallEnv)

def Server.step (lib : Library) (allowedUIDs : List UInt32) (s : Server) : Event → Server
  | .accept uid input => s.accept allowedUIDs uid input
  | .handleConn env i => s.handleConn lib env i
  | .applyVerdicts allowed => s.applyVerdicts lib allowed
  | .writeDecision env => s.writeDecision env

def Server.run (lib : Library) (allowedUIDs : List UInt32) (s : Server) (es : List Event) : Server :=
  es.foldl (Server.step lib allowedUIDs) s

/-- The key lies in 0/8, 127/8, 169.254/16, 224/4 or 240/4. -/
def ProtectedKey (key : UInt32) : Prop :=
  key.toNat / 2 ^ 24 = 0 ∨ key.toNat / 2 ^ 24 = 127 ∨ key.toNat / 2 ^ 16 = 169 * 2 ^ 8 + 254 ∨
    key.toNat / 2 ^ 28 = 14 ∨ key.toNat / 2 ^ 28 = 15

instance (key : UInt32) : Decidable (ProtectedKey key) := by
  unfold ProtectedKey
  infer_instance

section Protected

variable {ip : NetIP} {a b c d : UInt8} {key : UInt32}

theorem exists_to4_of_ipv4ToUint32 (h : ipv4ToUint32 ip = some key) :
    ∃ a b c d, ip.to4 = some [a, b, c, d] ∧ key = Words.le32 d c b a := by
  rw [ipv4ToUint32] at h
  split at h
  · rename_i a b c d h4
    exact ⟨a, b, c, d, h4, (Option.some.inj h).symm⟩
  · cases h

theorem byte_and_all (x : UInt8) : x &&& 0xFF = x := by
  rw [← UInt8.toNat_inj, UInt8.toNat_and, show (0xFF : UInt8).toNat = 2 ^ 8 - 1 from rfl,
    Nat.and_two_pow_sub_one_eq_mod]
  exact Nat.mod_eq_of_lt x.toNat_lt

theorem toNat_and_high (x : UInt8) : (x &&& 0xF0).toNat = x.toNat / 16 * 16 := by
  exact Words.and_highNibble x.toNat_lt

theorem isProtectedIP_of_to4 (h : ip.to4 = some [a, b, c, d]) :
    isProtectedIP ip = true ↔ a = 0 ∨ a = 127 ∨ (a = 169 ∧ b = 254) ∨ 224 ≤ a.toNat := by
  have hlt := a.toNat_lt
  have hhigh : ∀ x : UInt8, x &&& 0xF0 = a &&& 0xF0 ↔ x.toNat / 16 = a.toNat / 16 := by
    intro x
    rw [← UInt8.toNat_inj, toNat_and_high, toNat_and_high]
    omega
  have h224 := hhigh 224
  have h240 := hhigh 240
  simp only [isProtectedIP, protectedCIDRs, IPNet.contains_of_to4 h, List.any_cons, List.any_nil,
    byte_and_all, UInt8.and_zero, beq_self_eq_true, Bool.and_true, Bool.or_eq_true,
    Bool.and_eq_true, beq_iff_eq, h224, h240, Bool.false_eq_true, or_false, eq_comm (b := a),
    eq_comm (b := b)]
  have hbits : UInt8.toNat 224 / 16 = a.toNat / 16 ∨ UInt8.toNat 240 / 16 = a.toNat / 16 ↔
      224 ≤ a.toNat := by
    rw [show UInt8.toNat 224 = 224 from rfl, show UInt8.toNat 240 = 240 from rfl]
    omega
  have hbroadcast : a = 255 → 224 ≤ a.toNat := by
    rintro rfl
    decide
  refine or_congr_right (or_congr_right (or_congr_right ?_))
  rw [← or_assoc, hbits]
  exact or_iff_left_of_imp fun h => hbroadcast h.1

theorem isProtectedIP_iff (h : ipv4ToUint32 ip = some key) :
    isProtectedIP ip = true ↔ ProtectedKey key := by
  obtain ⟨a, b, c, d, h4, rfl⟩ := exists_to4_of_ipv4ToUint32 h
  have ha := a.toNat_lt
  have hb := b.toNat_lt
  have hc := c.toNat_lt
  have hd := d.toNat_lt
  have hbyte : ∀ x y : UInt8, x = y ↔ x.toNat = y.toNat := fun x y => UInt8.toNat_inj.symm
  rw [isProtectedIP_of_to4 h4, ProtectedKey, Words.toNat_le32, hbyte a 0, hbyte a 127, hbyte a 169,
    hbyte b 254, show (0 : UInt8).toNat = 0 from rfl, show (127 : UInt8).toNat = 127 from rfl,
    show (169 : UInt8).toNat = 169 from rfl, show (254 : UInt8).toNat = 254 from rfl]
  omega

end Protected

section Harmless

open FrameStream

variable (lib : Library)

/-- No verdict of the response that is applied names a protected address. -/
def Harmless (resp : InferResponse) : Prop :=
  ∀ v ∈ resp.verdicts, v.action = Action.drop ∨ v.action = Action.redirect →
    ∀ ip key, lib.parseIP v.srcIP = some ip → ipv4ToUint32 ip = some key → ¬ ProtectedKey key

def HarmlessFrame (f : Frame) : Prop :=
  f.header.msgType = MsgType.inferResponse.code →
    ∀ resp, lib.inferResponse f.payload = .ok resp → Harmless lib resp

def HarmlessInput (input : List UInt8) : Prop :=
  ∀ rounds, ∀ f ∈ receive handleRound rounds input, HarmlessFrame lib f

structure Server.Safe (m : BlocklistV4) (s : Server) : Prop where
  conns : ∀ c ∈ s.conns, HarmlessInput lib c.input
  verdictCh : ∀ resp ∈ s.verdictCh, Harmless lib resp
  batch : ∀ d ∈ s.batch, ∀ key, ipv4ToUint32 d.ip = some key → ¬ ProtectedKey key
  written : ∀ key ∈ s.written, ¬ ProtectedKey key
  kept : ∀ key ∉ s.written, s.blocklist key = m key

variable {lib} {m : BlocklistV4} {s : Server}

variable {input rest : List UInt8} {f : Frame}

theorem HarmlessInput.tail (h : HarmlessInput lib input) (hr : readFrame input = .ok (f, rest)) :
    HarmlessInput lib rest := by
  intro rounds g hg
  refine h (rounds + 1) g ?_
  cases hv : f.validate with
  | some e =>
    have hrd : handleRound input = .skip rest := by simp only [handleRound, hr, hv]
    simpa only [receive, hrd] using hg
  | none =>
    have hrd : handleRound input = .deliver f rest := by simp only [handleRound, hr, hv]
    simp only [receive, hrd]
    exact .tail _ hg

theorem HarmlessInput.head (h : HarmlessInput lib input) (hr : readFrame input = .ok (f, rest))
    (hv : f.validate = none) : HarmlessFrame lib f := by
  have hrd : handleRound input = .deliver f rest := by simp only [handleRound, hr, hv]
  exact h 1 f (by simp [receive, hrd])

namespace Server

section

variable (h : s.Safe lib m)

include h

theorem Safe.write {ip : NetIP} {m' : BlocklistV4} {failed : Bool}
    (hip : ∀ key, ipv4ToUint32 ip = some key → ¬ ProtectedKey key)
    (hm : ∀ k, m' k = s.blocklist k ∨ ipv4ToUint32 ip = some k ∧ failed = false) :
    (s.write ip m' failed).Safe lib m := by
  have hkept : ∀ k ∉ s.written, (ipv4ToUint32 ip = some k → failed ≠ false) → m' k = m k := by
    intro k hk hnot
    rcases hm k with hsame | ⟨hkey, hfail⟩
    · exact hsame.trans (h.kept k hk)
    · exact absurd hfail (hnot hkey)
  cases hkey : ipv4ToUint32 ip with
  | none =>
    simp only [Server.write, hkey]
    exact ⟨h.conns, h.verdictCh, h.batch, h.written, fun k hk => hkept k hk (by simp [hkey])⟩
  | some key =>
    cases failed with
    | true =>
      simp only [Server.write, hkey]
      exact ⟨h.conns, h.verdictCh, h.batch, h.written, fun k hk => hkept k hk (by simp)⟩
    | false =>
      simp only [Server.write, hkey]
      refine ⟨h.conns, h.verdictCh, h.batch, ?_, ?_⟩
      · intro k hk
        rcases List.mem_cons.mp hk with rfl | hk
        · exact hip k hkey
        · exact h.written k hk
      · intro k hk
        rw [List.mem_cons, not_or] at hk
        obtain ⟨hne, hk⟩ := hk
        refine hkept k hk fun hk' => absurd (Option.some.inj (hk'.symm.trans hkey)) hne

theorem Safe.applyMapUpdate (call : CallEnv) (seq : UInt32)
    (req : MapUpdateReq) : (s.applyMapUpdate lib call seq req).2.Safe lib m := by
  rw [Server.applyMapUpdate]
  cases hip : lib.parseIP req.srcIP with
  | none => exact h
  | some ip =>
    by_cases hprot : isProtectedIP ip = true
    · simp only [if_pos hprot]
      exact h
    · by_cases hact : req.action = Action.drop ∨ req.action = Action.redirect ∨
        req.action = Action.rateLimit
      · have hkey : ∀ key, ipv4ToUint32 ip = some key → ¬ ProtectedKey key :=
          fun key hkey hp => hprot ((isProtectedIP_iff hkey).mpr hp)
        have happly := blockIPv4_apply (m := s.blocklist) call ip (mapUpdateEntry req)
        simp only [if_neg hprot, if_pos hact]
        rcases hcall : blockIPv4 call ip (mapUpdateEntry req) s.blocklist with ⟨_ | e, m'⟩
        · rw [hcall] at happly
          exact h.write hkey fun k => (happly k).imp id fun hk => ⟨hk.1, rfl⟩
        · rw [blockIPv4_failed hcall]
          exact h.write hkey fun k => .inl rfl
      · simp only [if_neg hprot, if_neg hact]
        exact h

theorem Safe.dispatch (env : FrameEnv) {f : Frame} (hf : HarmlessFrame lib f) :
    (s.dispatch lib env f).2.Safe lib m := by
  rw [Server.dispatch]
  by_cases hresp : f.header.msgType = MsgType.inferResponse.code
  · rw [if_pos hresp]
    cases hd : lib.inferResponse f.payload with
    | error e => exact h
    | ok resp =>
      by_cases hroom : s.verdictCh.length < 1024
      · simp only [if_pos hroom]
        refine ⟨h.conns, fun r hr => ?_, h.batch, h.written, h.kept⟩
        rcases List.mem_append.mp hr with hr | hr
        · exact h.verdictCh r hr
        · obtain rfl := List.mem_singleton.mp hr
          exact hf hresp r hd
      · simp only [if_neg hroom]
        exact ⟨h.conns, h.verdictCh, h.batch, h.written, h.kept⟩
  rw [if_neg hresp]
  by_cases hupd : f.header.msgType = MsgType.mapUpdateReq.code
  · rw [if_pos hupd]
    by_cases hallow : env.allow = false
    · rw [if_pos hallow]
      exact h
    · rw [if_neg hallow]
      cases lib.mapUpdateReq f.payload with
      | error e => exact h
      | ok req => exact h.applyMapUpdate env.call f.header.seq req
  rw [if_neg hupd]
  by_cases halert : f.header.msgType = MsgType.alert.code
  · rw [if_pos halert]
    cases lib.alert f.payload with
    | error e => exact h
    | ok alert =>
      by_cases hroom : s.alertCh.length < 256
      · simp only [if_pos hroom]
        exact ⟨h.conns, h.verdictCh, h.batch, h.written, h.kept⟩
      · simp only [if_neg hroom]
        exact ⟨h.conns, h.verdictCh, h.batch, h.written, h.kept⟩
  split_ifs
  · exact h
  · exact h

theorem Safe.setConn (i : Nat) {c : Conn} (hc : HarmlessInput lib c.input) :
    (s.setConn i c).Safe lib m := by
  refine ⟨fun c' hc' => ?_, h.verdictCh, h.batch, h.written, h.kept⟩
  rcases List.mem_or_eq_of_mem_set hc' with hmem | rfl
  · exact h.conns c' hmem
  · exact hc

theorem Safe.handleConn (env : FrameEnv) (i : Nat) : (s.handleConn lib env i).Safe lib m := by
  rw [Server.handleConn]
  cases hi : s.conns[i]? with
  | none => exact h
  | some c =>
    have hin := h.conns c (List.mem_of_getElem? hi)
    by_cases hshut : c.closed = true
    · simp only [if_pos hshut]
      exact h
    · simp only [if_neg hshut]
      cases hr : readFrame c.input with
      | error e => exact h.setConn i hin
      | ok p =>
        obtain ⟨f, rest⟩ := p
        cases hv : f.validate with
        | some e =>
          simp only [hv]
          exact h.setConn i (hin.tail hr)
        | none =>
          simp only [hv]
          have hcnt : Safe lib m { s with totalRequests := s.totalRequests + 1 } :=
            ⟨h.conns, h.verdictCh, h.batch, h.written, h.kept⟩
          exact (hcnt.dispatch env (hin.head hr hv)).setConn i (hin.tail hr)

theorem Safe.applyVerdicts (allowed : Bool) : (s.applyVerdicts lib allowed).Safe lib m := by
  rw [Server.applyVerdicts]
  split
  · rename_i resp ch hba hch
    refine ⟨h.conns, fun r hr => h.verdictCh r ?_, fun d hd key hkey => ?_, h.written, h.kept⟩
    · rw [hch]
      exact .tail _ hr
    · have hresp : Harmless lib resp := h.verdictCh resp (by rw [hch]; exact .head _)
      cases allowed with
      | false => simp at hd
      | true =>
        obtain ⟨v, hv, hdec⟩ := List.mem_filterMap.mp hd
        rw [verdictDecision] at hdec
        split_ifs at hdec with hact
        obtain ⟨ip, hip, rfl⟩ := Option.map_eq_some_iff.mp hdec
        exact hresp v hv (not_and_or.mp hact |>.imp not_not.mp not_not.mp) ip key hip hkey
  · exact h

theorem Safe.writeDecision (env : CallEnv) : (s.writeDecision env).Safe lib m := by
  rw [Server.writeDecision]
  split
  · exact h
  · rename_i d ds hba
    have hd := h.batch d (by rw [hba]; exact .head _)
    have hw : (s.write d.ip (blockDecisions [(env, d)] s.blocklist).2 env.mapErr.isSome).Safe lib m := by
      refine h.write hd fun k => ?_
      rw [blockDecisions]
      cases hkey : ipv4ToUint32 d.ip with
      | none => exact .inl rfl
      | some key =>
        cases he : env.mapErr with
        | some e => exact .inl rfl
        | none =>
          by_cases hk : k = key
          · exact .inr ⟨congrArg some hk.symm, rfl⟩
          · exact .inl (Function.update_of_ne hk _ _)
    refine ⟨hw.conns, hw.verdictCh, fun d' hd' => ?_, hw.written, hw.kept⟩
    exact h.batch d' (by rw [hba]; exact .tail _ hd')

theorem Safe.step {allowedUIDs : List UInt32} {e : Event}
    (he : ∀ uid input, e = .accept uid input → uid ∈ allowedUIDs → HarmlessInput lib input) :
    (s.step lib allowedUIDs e).Safe lib m := by
  cases e with
  | accept uid input =>
    rw [Server.step, accept]
    by_cases hok : isAllowedUID allowedUIDs uid = true
    · rw [if_pos hok]
      refine ⟨fun c hc => ?_, h.verdictCh, h.batch, h.written, h.kept⟩
      rcases List.mem_append.mp hc with hc | hc
      · exact h.conns c hc
      · obtain rfl := List.mem_singleton.mp hc
        obtain ⟨uid', hmem, heq⟩ := List.any_eq_true.mp hok
        obtain rfl := eq_of_beq heq
        exact he uid input rfl hmem
    · rw [if_neg hok]
      exact h
  | handleConn env i => exact h.handleConn env i
  | applyVerdicts allowed => exact h.applyVerdicts allowed
  | writeDecision env => exact h.writeDecision env

theorem Safe.run {allowedUIDs : List UInt32} {es : List Event}
    (hes : ∀ uid input, Event.accept uid input ∈ es → uid ∈ allowedUIDs → HarmlessInput lib input) :
    (s.run lib allowedUIDs es).Safe lib m := by
  induction es generalizing s with
  | nil => exact h
  | cons e es ih =>
    have hstep : (s.step lib allowedUIDs e).Safe lib m := by
      refine h.step fun uid input heq => ?_
      subst heq
      exact hes uid input (.head _)
    exact ih hstep fun uid input hmem => hes uid input (.tail _ hmem)

end

end Server

/-- The key of a protected address is never written, whatever else the peers send, as
long as no verdict in an inference response names such an address. -/
theorem protectedKey_not_written (lib : Library) (allowedUIDs : List UInt32) (m : BlocklistV4)
    (es : List Event)
    (h : ∀ uid input, Event.accept uid input ∈ es → uid ∈ allowedUIDs → HarmlessInput lib input) :
    ∀ key, ProtectedKey key →
      key ∉ (Server.run lib allowedUIDs { blocklist := m } es).written ∧
        (Server.run lib allowedUIDs { blocklist := m } es).blocklist key = m key := by
  intro key hkey
  have hst : Server.Safe lib m { blocklist := m } :=
    ⟨by simp, by simp, by simp, by simp, fun _ _ => rfl⟩
  have hsafe := hst.run h
  have hnot : key ∉ (Server.run lib allowedUIDs { blocklist := m } es).written :=
    fun hmem => hsafe.written key hmem hkey
  exact ⟨hnot, hsafe.kept key hnot⟩

theorem harmlessInput_of_sent {ms : List Message} (h : ∀ m ∈ ms, HarmlessFrame lib m.go) :
    HarmlessInput lib (ms.flatMap fun m => writeFrame m.go) := by
  intro rounds f hf
  obtain ⟨m, hm, rfl⟩ := exists_of_mem_receive_flatMap (fun m _ => m.handleRound_go) rfl hf
  exact h m hm

end Harmless

def loopbackVerdict : List UInt8 :=
  "\x7b\"verdicts\":[\x7b\"src_ip\":\"127.0.0.1\",\"action\":2\x7d]\x7d".toList.map
    fun c => UInt8.ofNat c.toNat

def loopbackUpdate : List UInt8 :=
  "\x7b\"src_ip\":\"127.0.0.1\",\"action\":2\x7d".toList.map fun c => UInt8.ofNat c.toNat

def loopbackLibrary : Library where
  inferResponse b :=
    if b = loopbackVerdict then .ok ⟨[⟨"127.0.0.1", Action.drop, 0, 0, 0⟩]⟩
    else .error "unexpected end of JSON input"
  mapUpdateReq b :=
    if b = loopbackUpdate then .ok ⟨"127.0.0.1", Action.drop, 0, 0, 0⟩
    else .error "unexpected end of JSON input"
  alert _ := .error "unexpected end of JSON input"
  parseIP s := if s = "127.0.0.1" then some (v4InV6Prefix ++ [127, 0, 0, 1]) else none

def quietCall : CallEnv := ⟨true, 1700000000, none⟩

def peerRun (m : Message) : List Event :=
  [.accept 0 (writeFrame m.go), .handleConn ⟨true, quietCall⟩ 0, .applyVerdicts true,
    .writeDecision quietCall]

theorem protectedKey_written_by_verdict :
    ProtectedKey 0x7F000001 ∧
      0x7F000001 ∈ (Server.run loopbackLibrary [0] { blocklist := fun _ => none }
        (peerRun ⟨.inferResponse, 1, 0, loopbackVerdict, by decide, by decide +kernel⟩)).written := by
  decide +kernel

theorem protectedKey_not_written_by_update :
    0x7F000001 ∉ (Server.run loopbackLibrary [0] { blocklist := fun _ => none }
      (peerRun ⟨.mapUpdateReq, 1, 0, loopbackUpdate, by decide, by decide +kernel⟩)).written := by
  refine (protectedKey_not_written loopbackLibrary [0] _ _ ?_ 0x7F000001 (by decide)).1
  intro uid input hmem _
  have hin : uid = 0 ∧ input = [Message.mk .mapUpdateReq 1 0 loopbackUpdate (by decide)
      (by decide +kernel)].flatMap fun m => writeFrame m.go := by simpa [peerRun] using hmem
  rw [hin.2]
  refine harmlessInput_of_sent fun m hm => ?_
  obtain rfl := List.mem_singleton.mp hm
  intro htype
  exact absurd htype (by decide)

end Ipc

end Falx
