import Falx.FrameMeta
import Falx.RequestForwarder

/-! The forwarder of packet metadata to the AI engine. It collects packets in one array; a
request refers to the first places of that array, and the next batch is written over them. -/

namespace Falx

namespace Ipc

structure PacketMeta where
  srcIP : String := ""
  dstIP : String := ""
  protocol : UInt8 := 0
  srcPort : UInt16 := 0
  dstPort : UInt16 := 0
  tcpFlags : UInt16 := 0
  pktLen : UInt32 := 0
  flowID : UInt64 := 0
  isIPv6 : Bool := false
  payloadSample : List UInt8 := []
  deriving DecidableEq

def metaToIPC (ipString : NetIP → String) (m : AfXdp.PacketMeta) : PacketMeta :=
  { protocol := m.protocol
    srcPort := m.srcPort
    dstPort := m.dstPort
    tcpFlags := m.tcpFlags
    pktLen := m.pktLen
    flowID := m.flowID
    isIPv6 := m.isIPv6
    payloadSample := m.payloadSample
    srcIP := m.srcIP.elim "" ipString
    dstIP := m.dstIP.elim "" ipString }

/-- A request: the length of its slice, which begins where the array begins, and a record of
the packets that it was made for. -/
structure InferRequest where
  requestID : UInt64
  length : Nat
  own : List PacketMeta
  deriving DecidableEq

open List Forwarding

/-- The array has room for the batch size. The records are of what has been received, also
since the last flush, of the batches that were flushed, of the requests that were queued, and
of what was serialised for each. -/
structure MetaForwarder where
  array : List PacketMeta
  length : Nat
  length_lt : length < array.length
  seqCounter : UInt64
  forwarded : UInt64
  batches : UInt64
  dropped : UInt64
  stopped : Bool
  srv : Requests InferRequest
  received : List PacketMeta
  since : List PacketMeta
  flushed : List (List PacketMeta)
  queued : List InferRequest
  serialised : List (InferRequest × List PacketMeta)

inductive MetaStep where
  | receive (m : AfXdp.PacketMeta)
  | tick
  | stop
  | server (e : ForwardStep InferRequest)
  deriving DecidableEq

namespace MetaForwarder

def newMetaForwarder (batchSize : Int) : MetaForwarder :=
  let size := if batchSize ≤ 0 then 64 else batchSize.toNat
  { array := List.replicate size {}
    length := 0
    length_lt := by
      rw [List.length_replicate]
      simp only [size]
      split <;> omega
    seqCounter := 0
    forwarded := 0
    batches := 0
    dropped := 0
    stopped := false
    srv := .newServer
    received := []
    since := []
    flushed := []
    queued := []
    serialised := [] }

def send (n : Nat) (f : MetaForwarder) : MetaForwarder :=
  let reqID := f.seqCounter + 1
  let req : InferRequest := ⟨reqID, n, f.since⟩
  let f := { f with
    seqCounter := reqID
    length := 0
    length_lt := Nat.zero_lt_of_lt f.length_lt
    since := []
    flushed := f.flushed ++ [f.since] }
  match f.srv.offer req with
  | some srv => { f with
      srv := srv
      forwarded := f.forwarded + UInt64.ofNat n
      batches := f.batches + 1
      queued := f.queued ++ [req] }
  | none => { f with dropped := f.dropped + UInt64.ofNat n }

def flush (f : MetaForwarder) : MetaForwarder := if f.length = 0 then f else f.send f.length

/-- The packet is written to the next place. The batch never outgrows the array, since it is
flushed when it is full. -/
def receive (pm : PacketMeta) (f : MetaForwarder) : MetaForwarder :=
  let array := f.array.set f.length pm
  have hlength : array.length = f.array.length := List.length_set
  let f' := { f with
    array := array
    length_lt := hlength ▸ f.length_lt
    received := f.received ++ [pm]
    since := f.since ++ [pm] }
  if hfull : f.length + 1 < f.array.length then
    { f' with length := f.length + 1, length_lt := hlength ▸ hfull }
  else f'.send (f.length + 1)

def packets (f : MetaForwarder) (req : InferRequest) : List PacketMeta :=
  f.array.take req.length

def serialises (f : MetaForwarder) :
    ForwardStep InferRequest → List (InferRequest × List PacketMeta)
  | .marshal c =>
    match f.srv.conns[c]?.bind fun x => x.phase.raw with
    | some req => [(req, f.packets req)]
    | none => []
  | _ => []

/-- The other senders to the channel are left out: there are none. -/
def exec (ipString : NetIP → String) (encode : UInt64 → List PacketMeta → Option (List UInt8))
    (f : MetaForwarder) : MetaStep → Option MetaForwarder
  | .receive m => if f.stopped then none else some (f.receive (metaToIPC ipString m))
  | .tick => if f.stopped then none else some f.flush
  | .stop => if f.stopped then none else some { f.flush with stopped := true }
  | .server (.arrive _) => none
  | .server e =>
    (f.srv.exec (fun req => encode req.requestID (f.packets req)) e).map fun srv =>
      { f with srv := srv, serialised := f.serialised ++ f.serialises e }

variable {ipString : NetIP → String} {encode : UInt64 → List PacketMeta → Option (List UInt8)}
  {f f' : MetaForwarder} {e : MetaStep}

def request (n : Nat) (f : MetaForwarder) : InferRequest := ⟨f.seqCounter + 1, n, f.since⟩

structure Sent (n : Nat) (f f' : MetaForwarder) : Prop where
  array : f'.array = f.array
  length : f'.length = 0
  received : f'.received = f.received
  since : f'.since = []
  flushed : f'.flushed = f.flushed ++ [f.since]
  serialised : f'.serialised = f.serialised
  counted : f'.forwarded + f'.dropped = f.forwarded + f.dropped + UInt64.ofNat n
  outcome : (f'.queued = f.queued ++ [f.request n] ∧
      ∀ r ∈ f'.srv.unserialised, r ∈ f.srv.unserialised ∨ r = f.request n) ∨
    (f'.queued = f.queued ∧ f'.srv = f.srv)

theorem sent_send (n : Nat) (f : MetaForwarder) : Sent n f (f.send n) := by
  unfold send
  dsimp only
  split
  · rename_i srv hsrv
    refine ⟨rfl, rfl, rfl, rfl, rfl, rfl, ?_, .inl ⟨rfl, fun r hr => ?_⟩⟩
    · rw [UInt64.add_assoc, UInt64.add_comm (UInt64.ofNat n), ← UInt64.add_assoc]
    · have harrive : f.srv.exec (fun _ => none) (.arrive (f.request n)) = some srv := by
        rw [Requests.exec, show f.srv.offer (f.request n) = some srv from hsrv]
        rfl
      rcases (Requests.Acts.of_exec harrive).unserialised hr with hold | hnew
      · exact .inl hold
      · cases hnew
        exact .inr rfl
  · exact ⟨rfl, rfl, rfl, rfl, rfl, rfl, (UInt64.add_assoc _ _ _).symm, .inr ⟨rfl, rfl⟩⟩

structure Accounted (f : MetaForwarder) : Prop where
  received : f.received = f.flushed.flatten ++ f.since
  counted : f.forwarded + f.dropped = UInt64.ofNat f.flushed.flatten.length
  queued : (f.queued.map InferRequest.own).Sublist f.flushed

structure Batched (f : MetaForwarder) : Prop extends Accounted f where
  current : f.array.take f.length = f.since

theorem Accounted.send {n : Nat} (hf : Accounted f) (hn : f.since.length = n) :
    Batched (f.send n) := by
  have hsent := sent_send n f
  refine ⟨⟨?_, ?_, ?_⟩, ?_⟩
  · rw [hsent.received, hsent.flushed, hsent.since, hf.received, flatten_append,
      flatten_singleton, append_nil]
  · rw [hsent.counted, hsent.flushed, hf.counted, flatten_append, flatten_singleton,
      length_append, hn, UInt64.ofNat_add]
  · rw [hsent.flushed]
    rcases hsent.outcome with ⟨hq, -⟩ | ⟨hq, -⟩
    · rw [hq, map_append]
      exact hf.queued.append (List.Sublist.refl _)
    · rw [hq]
      exact hf.queued.trans (sublist_append_left _ _)
  · rw [hsent.length, hsent.since, take_zero]

theorem Batched.length_since (hf : Batched f) : f.since.length = f.length := by
  rw [← hf.current, length_take, Nat.min_eq_left (Nat.le_of_lt f.length_lt)]

theorem Batched.flush (hf : Batched f) : Batched f.flush := by
  unfold MetaForwarder.flush
  split
  · exact hf
  · exact hf.toAccounted.send hf.length_since

theorem take_set_length {α : Type} {l : List α} {n : Nat} (h : n < l.length) (a : α) :
    (l.set n a).take (n + 1) = l.take n ++ [a] := by
  rw [take_add_one, List.getElem?_set_self h, take_set_of_le (Nat.le_refl n)]
  rfl

theorem Batched.receive (hf : Batched f) (pm : PacketMeta) : Batched (f.receive pm) := by
  unfold MetaForwarder.receive
  have hacc : Accounted { f with
      array := f.array.set f.length pm
      length_lt := by
        rw [length_set]
        exact f.length_lt
      received := f.received ++ [pm]
      since := f.since ++ [pm] } := by
    refine ⟨?_, hf.counted, hf.queued⟩
    rw [hf.received, append_assoc]
  dsimp only
  split
  · refine ⟨⟨hacc.received, hacc.counted, hacc.queued⟩, ?_⟩
    rw [take_set_length f.length_lt, hf.current]
  · refine hacc.send ?_
    rw [length_append, hf.length_since, length_singleton]

inductive Acts (ipString : NetIP → String)
    (encode : UInt64 → List PacketMeta → Option (List UInt8)) (f : MetaForwarder) :
    MetaStep → MetaForwarder → Prop
  | receive {m : AfXdp.PacketMeta} :
    Acts ipString encode f (.receive m) (f.receive (metaToIPC ipString m))
  | tick : Acts ipString encode f .tick f.flush
  | stop : Acts ipString encode f .stop { f.flush with stopped := true }
  | server {e : ForwardStep InferRequest} {srv : Requests InferRequest}
    (hsource : ∀ req, e ≠ .arrive req)
    (hsrv : Requests.Acts (fun req => encode req.requestID (f.packets req)) f.srv e srv) :
    Acts ipString encode f (.server e)
      { f with srv := srv, serialised := f.serialised ++ f.serialises e }

theorem Acts.of_exec (h : exec ipString encode f e = some f') : Acts ipString encode f e f' := by
  cases e with
  | receive m =>
    obtain ⟨-, h⟩ := Option.ite_none_left_eq_some.mp h
    cases h
    exact .receive
  | tick =>
    obtain ⟨-, h⟩ := Option.ite_none_left_eq_some.mp h
    cases h
    exact .tick
  | stop =>
    obtain ⟨-, h⟩ := Option.ite_none_left_eq_some.mp h
    cases h
    exact .stop
  | server e =>
    have hsrc : ∀ req, e ≠ .arrive req := by
      rintro req rfl
      cases h
    have hserver : exec ipString encode f (.server e) =
        (f.srv.exec (fun req => encode req.requestID (f.packets req)) e).map fun srv =>
          { f with srv := srv, serialised := f.serialised ++ f.serialises e } := by
      cases e with
      | arrive req => exact absurd rfl (hsrc req)
      | _ => rfl
    rw [hserver] at h
    obtain ⟨srv, hsrv, rfl⟩ := Option.map_eq_some_iff.mp h
    exact .server hsrc (Requests.Acts.of_exec hsrv)

theorem Batched.acts (hf : Batched f) (h : Acts ipString encode f e f') : Batched f' := by
  cases h with
  | receive => exact hf.receive _
  | tick => exact hf.flush
  | stop =>
    obtain ⟨⟨hrcv, hcnt, hq⟩, hcurrent⟩ := hf.flush
    exact ⟨⟨hrcv, hcnt, hq⟩, hcurrent⟩
  | server hsrc hsrv => exact ⟨⟨hf.received, hf.counted, hf.queued⟩, hf.current⟩

def Idle (f : MetaForwarder) : MetaStep → Prop
  | .receive _ => f.srv.unserialised = []
  | _ => True

instance decidableIdle (f : MetaForwarder) : (e : MetaStep) → Decidable (Idle f e)
  | .receive _ => inferInstanceAs (Decidable (f.srv.unserialised = []))
  | .tick | .stop | .server _ => isTrue trivial

structure Owned (f : MetaForwarder) : Prop where
  waiting : ∀ r ∈ f.srv.unserialised, r ∈ f.queued ∧ f.packets r = r.own
  serialised : ∀ x ∈ f.serialised, x.1 ∈ f.queued ∧ x.2 = x.1.own

theorem Owned.send {n : Nat} (hf : Owned f) (hn : f.array.take n = f.since) : Owned (f.send n) := by
  have hsent := sent_send n f
  have hpkts : ∀ r, (f.send n).packets r = f.packets r := fun r =>
    congrArg (List.take r.length) hsent.array
  have hser := hf.serialised
  rw [← hsent.serialised] at hser
  rcases hsent.outcome with ⟨hq, hsrv⟩ | ⟨hq, hsrv⟩
  · refine ⟨fun r hr => ?_, fun x hx => ?_⟩
    · rw [hq, hpkts]
      rcases hsrv r hr with hold | rfl
      · obtain ⟨hmem, hown⟩ := hf.waiting r hold
        exact ⟨mem_append_left _ hmem, hown⟩
      · exact ⟨mem_append_right _ (mem_singleton_self _), hn⟩
    · obtain ⟨hmem, hown⟩ := hser x hx
      exact ⟨hq ▸ mem_append_left _ hmem, hown⟩
  · refine ⟨fun r hr => ?_, fun x hx => ?_⟩
    · rw [hq, hpkts]
      exact hf.waiting r (hsrv ▸ hr)
    · rw [hq]
      exact hser x hx

theorem Owned.flush (hf : Owned f) (hb : Batched f) : Owned f.flush := by
  unfold MetaForwarder.flush
  split
  · exact hf
  · exact hf.send hb.current

theorem Owned.receive (hf : Owned f) (hb : Batched f) (hidle : f.srv.unserialised = [])
    (pm : PacketMeta) : Owned (f.receive pm) := by
  have hnone : ∀ r, r ∉ f.srv.unserialised := by
    intro r hr
    rw [hidle] at hr
    cases hr
  unfold MetaForwarder.receive
  dsimp only
  split
  · exact ⟨fun r hr => absurd hr (hnone r), hf.serialised⟩
  · refine Owned.send ⟨fun r hr => absurd hr (hnone r), hf.serialised⟩ ?_
    exact (take_set_length f.length_lt pm).trans (congrArg (· ++ [pm]) hb.current)

theorem Owned.serialises (hf : Owned f) {e : ForwardStep InferRequest} :
    ∀ x ∈ f.serialises e, x.1 ∈ f.queued ∧ x.2 = x.1.own := by
  intro x hx
  cases e with
  | marshal c =>
    simp only [MetaForwarder.serialises] at hx
    split at hx
    · rename_i req hreq
      cases mem_singleton.mp hx
      obtain ⟨y, hy, hraw⟩ := Option.bind_eq_some_iff.mp hreq
      exact hf.waiting req (Requests.mem_unserialised hy hraw)
    · cases hx
  | _ => cases hx

theorem Owned.acts (hf : Owned f) (hb : Batched f) (he : Idle f e)
    (h : Acts ipString encode f e f') : Owned f' := by
  cases h with
  | receive => exact hf.receive hb he _
  | tick => exact hf.flush hb
  | stop => exact ⟨(hf.flush hb).waiting, (hf.flush hb).serialised⟩
  | server hsrc hsrv =>
    refine ⟨fun r hr => ?_, fun x hx => ?_⟩
    · rcases hsrv.unserialised hr with hold | hnew
      · exact hf.waiting r hold
      · exact absurd hnew (hsrc r)
    · rcases mem_append.mp hx with hold | hnew
      · exact hf.serialised x hold
      · exact hf.serialises x hnew

theorem Batched.new (batchSize : Int) : Batched (newMetaForwarder batchSize) :=
  ⟨⟨rfl, rfl, List.Sublist.refl _⟩, rfl⟩

theorem Owned.new (batchSize : Int) : Owned (newMetaForwarder batchSize) := ⟨nofun, nofun⟩

/-- Each request was serialised with the packets that were received between two flushes, the
one before it was queued and the one that queued it. The counters tell where the packets that
were received have gone. -/
structure Carries (f : MetaForwarder) : Prop where
  serialised : ∀ x ∈ f.serialised, x.1 ∈ f.queued ∧ x.2 = x.1.own
  queued : (f.queued.map InferRequest.own).Sublist f.flushed
  received : f.received = f.flushed.flatten ++ f.array.take f.length
  counted : f.forwarded + f.dropped + UInt64.ofNat f.length = UInt64.ofNat f.received.length

theorem requests_carry_own_batch {batchSize : Int} {es : List MetaStep}
    (hes : StepRun.Along (exec ipString encode) Idle (newMetaForwarder batchSize) es)
    (hrun : StepRun.run (exec ipString encode) (newMetaForwarder batchSize) es = some f) :
    Carries f := by
  have hboth : Batched f ∧ Owned f := by
    refine hes.invariant (I := fun f => Batched f ∧ Owned f) (fun f e f' hf he h => ?_)
      ⟨Batched.new batchSize, Owned.new batchSize⟩ hrun
    have hacts := Acts.of_exec h
    exact ⟨hf.1.acts hacts, hf.2.acts hf.1 he hacts⟩
  obtain ⟨hbat, how⟩ := hboth
  refine ⟨how.serialised, hbat.queued, ?_, ?_⟩
  · rw [hbat.current]
    exact hbat.received
  · rw [hbat.counted, hbat.received, List.length_append, hbat.length_since, UInt64.ofNat_add]

def fromPort (port : UInt16) : AfXdp.PacketMeta := { srcPort := port }

theorem requests_carry_own_batch_two : ∃ f,
    StepRun.run (exec (fun _ => "") fun _ _ => some []) (newMetaForwarder 2)
      [.server .accept, .receive (fromPort 1), .receive (fromPort 2), .server (.take 0),
        .server (.marshal 0), .receive (fromPort 3), .server (.write 0 true), .tick] = some f ∧
      f.serialised.map (fun x => x.2.map PacketMeta.srcPort) = [[1, 2]] ∧ Carries f := by
  have hany : (StepRun.run (exec (fun _ => "") fun _ _ => some []) (newMetaForwarder 2)
      [.server .accept, .receive (fromPort 1), .receive (fromPort 2), .server (.take 0),
        .server (.marshal 0), .receive (fromPort 3), .server (.write 0 true), .tick]).any
      (fun f => decide (f.serialised.map (fun x => x.2.map PacketMeta.srcPort) = [[1, 2]])) =
      true := by decide +kernel
  obtain ⟨f, hrun, hf⟩ := Option.any_eq_true _ _ |>.mp hany
  exact ⟨f, hrun, of_decide_eq_true hf, requests_carry_own_batch (by decide +kernel) hrun⟩

/-- The second packet is received before the request of the first is serialised. -/
theorem request_carries_next_batch :
    (StepRun.run (exec (fun _ => "") fun _ _ => some []) (newMetaForwarder 1)
      [.server .accept, .receive (fromPort 1), .receive (fromPort 2), .server (.take 0),
        .server (.marshal 0)]).any (fun f =>
      decide (f.serialised = [(⟨1, 1, [{ srcPort := 1 }]⟩, [{ srcPort := 2 }])])) = true := by
  decide +kernel

end MetaForwarder

end Ipc

end Falx
