import Falx.FlowHash
import Falx.GoChannel
import Falx.StepRun
import Mathlib.Data.List.AList

/-! The sessions of packets that have been redirected to a honeypot. A session is kept under
the flow ID that the parser has given the packet, and no packet is looked at while the table
is full. -/

namespace Falx

namespace Honeypot

open AfXdp

structure Session where
  flowID : UInt64
  srcIP : NetIP
  dstIP : NetIP
  srcPort : UInt16
  dstPort : UInt16
  protocol : UInt8
  firstSeen : Int
  lastSeen : Int
  packetCount : UInt64
  byteCount : UInt64
  payloadSamples : List (List UInt8)
  honeypotID : UInt32
  honeypotName : String
  deriving DecidableEq

inductive SessionEventType where
  | newSession
  | sessionUpdate
  | sessionExpired
  deriving DecidableEq

def SessionEventType.text : SessionEventType → String
  | newSession => "new_session"
  | sessionUpdate => "session_update"
  | sessionExpired => "session_expired"

structure SessionEvent where
  type : SessionEventType
  session : UInt64
  deriving DecidableEq

structure Tracker where
  sessions : AList fun _ : UInt64 => Session
  eventCh : GoChannel SessionEvent
  maxSessions : Nat
  activeHoneypotName : String
  activeHoneypotID : UInt32

def newTracker : Tracker := ⟨∅, .make 4096, 65536, "", 0⟩

namespace Session

def new (m : PacketMeta) (now : Int) (t : Tracker) : Session where
  flowID := m.flowID
  srcIP := m.srcIP.getD []
  dstIP := m.dstIP.getD []
  srcPort := m.srcPort
  dstPort := m.dstPort
  protocol := m.protocol
  firstSeen := now
  lastSeen := 0
  packetCount := 0
  byteCount := 0
  payloadSamples := []
  honeypotID := t.activeHoneypotID
  honeypotName := t.activeHoneypotName

def update (m : PacketMeta) (now : Int) (s : Session) : Session :=
  { s with
    lastSeen := now
    packetCount := s.packetCount + 1
    byteCount := s.byteCount + m.pktLen.toUInt64
    payloadSamples :=
      if s.payloadSamples.length < 16 ∧ 0 < m.payloadSample.length then
        s.payloadSamples ++ [m.payloadSample]
      else s.payloadSamples }

end Session

def redirected (blocklist : BlocklistV4) (unix : UInt64) (m : PacketMeta) : Bool :=
  match m.srcIP with
  | none => false
  | some ip =>
    match isBlockedIPv4 unix ip blocklist with
    | .ok (some entry) => entry.action = Action.redirect
    | .ok none | .error _ => false

namespace Tracker

/-- An event that the channel has no room for is dropped. -/
def emit (type : SessionEventType) (session : UInt64) (t : Tracker) : Tracker :=
  { t with eventCh := (t.eventCh.trySend ⟨type, session⟩).getD t.eventCh }

def size (t : Tracker) : Nat := t.sessions.keys.length

def session (m : PacketMeta) (now : Int) (t : Tracker) : Session × Tracker :=
  match t.sessions.lookup m.flowID with
  | some s => (s, t)
  | none => (.new m now t, t.emit .newSession m.flowID)

def processMeta (blocklist : BlocklistV4) (unix : UInt64) (now : Int) (m : PacketMeta)
    (t : Tracker) : Tracker :=
  if redirected blocklist unix m then
    if t.maxSessions ≤ t.size then t
    else
      let (s, t) := t.session m now
      let s := s.update m now
      let t := { t with sessions := t.sessions.insert m.flowID s }
      if s.packetCount % 100 = 0 then t.emit .sessionUpdate m.flowID else t
  else t

def sessionTimeout : Int := 5 * 60 * 1000000000

def expire (cutoff : Int) (t : Tracker) (id : UInt64) : Tracker :=
  match t.sessions.lookup id with
  | none => t
  | some s =>
    if s.lastSeen < cutoff then
      let t := t.emit .sessionExpired id
      { t with sessions := t.sessions.erase id }
    else t

def cleanupExpiredSessions (order : List UInt64) (now : Int) (t : Tracker) : Tracker :=
  order.foldl (expire (now - sessionTimeout)) t

def setActiveHoneypot (id : UInt32) (name : String) (t : Tracker) : Tracker :=
  { t with activeHoneypotID := id, activeHoneypotName := name }

end Tracker

/-- A packet comes with the blocklist and the time at which it is processed; the reader of
the events takes one. -/
inductive TrackerStep where
  | packet (frame : Frame) (umemOffset : UInt64) (blocklist : BlocklistV4) (unix : UInt64)
      (now : Int)
  | cleanup (order : List UInt64) (now : Int)
  | setActiveHoneypot (id : UInt32) (name : String)
  | receive

def Redirects (e : TrackerStep) (frame : Frame) (m : PacketMeta) (now : Int) : Prop :=
  ∃ umemOffset blocklist unix, e = .packet frame umemOffset blocklist unix now ∧
    parseFrame frame umemOffset = .ok m ∧ redirected blocklist unix m = true

namespace Tracker

/-- A frame that cannot be parsed does not get to the tracker. -/
def exec (t : Tracker) : TrackerStep → Option Tracker
  | .packet frame umemOffset blocklist unix now =>
    match parseFrame frame umemOffset with
    | .error _ => some t
    | .ok m => some (t.processMeta blocklist unix now m)
  | .cleanup order now =>
    if order.Perm t.sessions.keys then some (t.cleanupExpiredSessions order now) else none
  | .setActiveHoneypot id name => some (t.setActiveHoneypot id name)
  | .receive => some { t with eventCh := t.eventCh.receive }

end Tracker

structure FiveTuple where
  srcIP : NetIP
  dstIP : NetIP
  srcPort : UInt16
  dstPort : UInt16
  protocol : UInt8
  deriving DecidableEq

def FiveTuple.hash (f : FiveTuple) : UInt64 :=
  fnv (fnv (fnv (fnv 14695981039346656037 f.srcIP) f.dstIP)
    ((Words.bytes16 f.srcPort).reverse ++ (Words.bytes16 f.dstPort).reverse)) [f.protocol]

theorem FiveTuple.hash_srcPort_injective {src dst : NetIP} {p p' dstPort : UInt16} {protocol : UInt8}
    (h : (FiveTuple.mk src dst p dstPort protocol).hash =
      (FiveTuple.mk src dst p' dstPort protocol).hash) : p = p' := by
  have hports := fnv_left_injective _ h
  rw [fnv_append, fnv_append] at hports
  obtain ⟨hhigh, hlow⟩ := fnv_two_injective (fnv_left_injective _ hports)
  rw [← Words.le16_bytes16 p, ← Words.le16_bytes16 p', hhigh, hlow]

def Session.fiveTuple (s : Session) : FiveTuple :=
  ⟨s.srcIP, s.dstIP, s.srcPort, s.dstPort, s.protocol⟩

def fiveTuple (m : PacketMeta) : FiveTuple :=
  ⟨m.srcIP.getD [], m.dstIP.getD [], m.srcPort, m.dstPort, m.protocol⟩

theorem srcIP_of_redirected {blocklist : BlocklistV4} {unix : UInt64} {m : PacketMeta}
    (h : redirected blocklist unix m = true) : m.srcIP ≠ none := by
  intro hnone
  rw [redirected, hnone] at h
  cases h

theorem computeFlowID_eq (m : PacketMeta) : computeFlowID m = (fiveTuple m).hash := by
  rw [computeFlowID, FiveTuple.hash, fiveTuple]

def HeaderFits (f : Frame) (l4 : Nat) (protocol : UInt8) : Prop :=
  (protocol = Proto.tcp → l4 + 20 ≤ f.length) ∧ (protocol = Proto.udp → l4 + 8 ≤ f.length)

def Untruncated (f : Frame) : Prop :=
  (uint16At f 12 = EtherType.ipv4 →
    HeaderFits f (14 + (f.u8 14 &&& 0x0F).toNat * 4) (f.u8 23)) ∧
  (uint16At f 12 = EtherType.ipv6 → HeaderFits f 54 (f.u8 20))

instance (f : Frame) (l4 : Nat) (protocol : UInt8) : Decidable (HeaderFits f l4 protocol) :=
  inferInstanceAs (Decidable (_ ∧ _))

instance (f : Frame) : Decidable (Untruncated f) := inferInstanceAs (Decidable (_ ∧ _))

section Parse

variable {f : Frame} {l4 : Nat} {m m' : PacketMeta} {umemOffset : UInt64}

theorem parseL4_fits (h : HeaderFits f l4 m.protocol) : ∃ m', parseL4 f l4 m = .ok m' := by
  obtain ⟨htcp, hudp⟩ := h
  unfold parseL4
  by_cases hp : m.protocol = Proto.tcp
  · have hfits := htcp hp
    rw [if_pos hp, if_neg (by omega)]
    exact ⟨_, rfl⟩
  · rw [if_neg hp]
    by_cases hu : m.protocol = Proto.udp
    · have hfits := hudp hu
      rw [if_pos hu, if_neg (by omega)]
      exact ⟨_, rfl⟩
    · rw [if_neg hu]
      exact ⟨_, rfl⟩

theorem flowID_withL4 (h : HeaderFits f l4 m.protocol) :
    (withL4 f l4 m).flowID = (fiveTuple (withL4 f l4 m)).hash := by
  obtain ⟨m', hm'⟩ := parseL4_fits h
  have heq : withL4 f l4 m = { m' with flowID := computeFlowID m' } := by rw [withL4, hm']
  rw [heq, fiveTuple, computeFlowID_eq, fiveTuple]

theorem flowID_parseFrame (hf : Untruncated f) (h : parseFrame f umemOffset = .ok m)
    (hip : m.srcIP ≠ none) : m.flowID = (fiveTuple m).hash := by
  unfold parseFrame at h
  split at h
  · cases h
  · dsimp only at h
    split at h
    · rename_i htype
      split at h
      · cases h
      · split at h
        · cases h
        · cases h
          exact flowID_withL4 (hf.1 htype)
    · split at h
      · rename_i htype
        split at h
        · cases h
        · cases h
          exact flowID_withL4 (hf.2 htype)
      · cases h
        exact absurd rfl hip

theorem Redirects.flowID {e : TrackerStep} {now : Int} (h : Redirects e f m now)
    (hf : Untruncated f) : m.flowID = (fiveTuple m).hash := by
  obtain ⟨umemOffset, blocklist, unix, -, hm, hr⟩ := h
  exact flowID_parseFrame hf hm (srcIP_of_redirected hr)

end Parse

namespace Tracker

variable {t : Tracker} {m : PacketMeta} {blocklist : BlocklistV4} {unix : UInt64} {now : Int}

theorem sessions_session (m : PacketMeta) (now : Int) (t : Tracker) :
    (t.session m now).2.sessions = t.sessions ∧
      (t.session m now).2.maxSessions = t.maxSessions := by
  unfold session
  split <;> exact ⟨rfl, rfl⟩

theorem processMeta_ignored (h : redirected blocklist unix m = true → t.maxSessions ≤ t.size) :
    t.processMeta blocklist unix now m = t := by
  unfold processMeta
  split
  · rename_i hr
    rw [if_pos (h hr)]
  · rfl

theorem processMeta_counted (hr : redirected blocklist unix m = true)
    (hroom : t.size < t.maxSessions) :
    (t.processMeta blocklist unix now m).sessions =
        t.sessions.insert m.flowID ((t.session m now).1.update m now) ∧
      (t.processMeta blocklist unix now m).maxSessions = t.maxSessions := by
  obtain ⟨hss, hmax⟩ := t.sessions_session m now
  simp only [processMeta, if_pos hr, if_neg (Nat.not_le.mpr hroom)]
  split
  · rw [emit, hss]
    exact ⟨rfl, hmax⟩
  · rw [hss]
    exact ⟨rfl, hmax⟩

structure Fewer (t t' : Tracker) : Prop where
  lookup : ∀ id s, t'.sessions.lookup id = some s → t.sessions.lookup id = some s
  size : t'.size ≤ t.size
  maxSessions : t'.maxSessions = t.maxSessions

theorem Fewer.refl (t : Tracker) : Fewer t t := ⟨fun _ _ h => h, Nat.le_refl _, rfl⟩

theorem Fewer.trans {t₁ t₂ t₃ : Tracker} (h : Fewer t₁ t₂) (h' : Fewer t₂ t₃) : Fewer t₁ t₃ :=
  ⟨fun id s hs => h.lookup id s (h'.lookup id s hs), Nat.le_trans h'.size h.size,
    h'.maxSessions.trans h.maxSessions⟩

theorem fewer_expire (cutoff : Int) (t : Tracker) (id : UInt64) : Fewer t (t.expire cutoff id) := by
  unfold expire
  split
  · exact Fewer.refl t
  · split
    · refine ⟨fun id' s h => ?_, ?_, rfl⟩
      · by_cases hid : id' = id
        · subst hid
          cases (AList.lookup_erase id' t.sessions).symm.trans h
        · exact (AList.lookup_erase_ne hid).symm.trans h
      · show (t.sessions.erase id).keys.length ≤ t.sessions.keys.length
        rw [AList.keys_erase]
        exact List.length_erase_le
    · exact Fewer.refl t

theorem fewer_cleanup (order : List UInt64) (now : Int) (t : Tracker) :
    Fewer t (t.cleanupExpiredSessions order now) := by
  induction order generalizing t with
  | nil => exact Fewer.refl t
  | cons id order ih => exact (fewer_expire _ t id).trans (ih (t.expire _ id))

variable {t' : Tracker} {e : TrackerStep}

theorem exec_packet {frame : Frame} {umemOffset : UInt64}
    (h : t.exec (.packet frame umemOffset blocklist unix now) = some t') :
    (t' = t ∧ ∀ m, parseFrame frame umemOffset = .ok m → redirected blocklist unix m = true →
        t.maxSessions ≤ t.size) ∨
      ∃ m, parseFrame frame umemOffset = .ok m ∧ redirected blocklist unix m = true ∧
        t.size < t.maxSessions ∧ t' = t.processMeta blocklist unix now m := by
  simp only [exec] at h
  cases hm : parseFrame frame umemOffset with
  | error err =>
    rw [hm] at h
    cases h
    exact .inl ⟨rfl, nofun⟩
  | ok m =>
    rw [hm] at h
    cases h
    by_cases hcnt : redirected blocklist unix m = true ∧ t.size < t.maxSessions
    · exact .inr ⟨m, rfl, hcnt.1, hcnt.2, rfl⟩
    · have hfull : redirected blocklist unix m = true → t.maxSessions ≤ t.size := fun hr =>
        Nat.le_of_not_lt fun hroom => hcnt ⟨hr, hroom⟩
      refine .inl ⟨processMeta_ignored hfull, fun m' hm' hr => ?_⟩
      cases hm'
      exact hfull hr

theorem exec_cases (h : t.exec e = some t') :
    Fewer t t' ∧ (∀ frame m now, Redirects e frame m now → t.maxSessions ≤ t.size) ∨
      ∃ frame m now, Redirects e frame m now ∧ t.size < t.maxSessions ∧
        t'.sessions = t.sessions.insert m.flowID ((t.session m now).1.update m now) ∧
        t'.maxSessions = t.maxSessions := by
  cases e with
  | packet frame umemOffset blocklist unix now =>
    rcases exec_packet h with ⟨rfl, hfull⟩ | ⟨m, hm, hr, hroom, rfl⟩
    · refine .inl ⟨Fewer.refl t', ?_⟩
      rintro _ m _ ⟨_, _, _, he, hm, hr⟩
      cases he
      exact hfull m hm hr
    · exact .inr ⟨frame, m, now, ⟨umemOffset, blocklist, unix, rfl, hm, hr⟩, hroom,
        processMeta_counted hr hroom⟩
  | cleanup order now =>
    obtain ⟨-, h⟩ := Option.ite_none_right_eq_some.mp h
    cases h
    exact .inl ⟨fewer_cleanup order now t, nofun⟩
  | setActiveHoneypot id name | receive =>
    cases h
    exact .inl ⟨⟨fun _ _ h => h, Nat.le_refl _, rfl⟩, nofun⟩

theorem size_insert (t : Tracker) (id : UInt64) (s : Session) :
    (t.sessions.insert id s).keys.length ≤ t.size + 1 := by
  rw [AList.keys_insert, List.length_cons]
  exact Nat.succ_le_succ List.length_erase_le

theorem size_exec (hsize : t.size ≤ t.maxSessions) (h : t.exec e = some t') :
    t'.size ≤ t'.maxSessions ∧ t'.maxSessions = t.maxSessions := by
  rcases exec_cases h with ⟨hfw, -⟩ | ⟨_, m, _, -, hroom, hss, hmax⟩
  · rw [hfw.maxSessions]
    exact ⟨Nat.le_trans hfw.size hsize, rfl⟩
  · rw [hmax, size, hss]
    exact ⟨Nat.le_trans (t.size_insert _ _) hroom, rfl⟩

end Tracker

end Honeypot

end Falx
