import Mathlib.Data.List.Induction
import Falx.IpcReceive

/-! The sending half of the AI engine's client. Any number of threads build frames and
put them in one queue, and the send loop writes them to the socket, which may take a
frame in pieces. Nothing bounds the payload, but falxd hangs up at a header that
announces more than it reads. -/

namespace Falx.Ipc

open List FrameStream Function

structure Outgoing where
  msgType : MsgType
  seq : UInt32
  flags : UInt16
  payload : List UInt8
  fits : payload.length < 2 ^ 32

namespace Outgoing

def frame (m : Outgoing) : Frame := Cpp.buildFrame m.msgType m.seq m.flags m.payload

def readable (m : Outgoing) : Bool := m.payload.length ≤ maxPayloadSize

end Outgoing

/-- `built` holds the frame a thread has not yet put in the queue, `writing` the one the
send loop has taken out, with the number of its bytes already sent; `accepted` is the
history of `enqueue_frame`. -/
structure Client (ι : Type) where
  seqCounter : UInt32
  built : ι → Option Outgoing
  sendQueue : List Outgoing
  writing : Option (Outgoing × Nat)
  sending : Bool
  connected : Bool
  wire : List UInt8
  accepted : List Outgoing

/-- `send w` is the outcome of one call of `::send`, with 0 for every failure. -/
inductive ClientEvent (ι : Type) where
  | request (t : ι) (msgType : MsgType) (flags : UInt16) (payload : List UInt8)
      (fits : payload.length < 2 ^ 32)
  | reply (t : ι) (m : Outgoing)
  | enqueueFrame (t : ι)
  | pop
  | send (w : Nat)
  | stop

namespace Client

variable {ι : Type} [DecidableEq ι]

def start : Client ι := ⟨1, fun _ => none, [], none, true, true, [], []⟩

def step (c : Client ι) : ClientEvent ι → Client ι
  | .request t msgType flags payload fits =>
    { c with
      seqCounter := c.seqCounter + 1
      built := update c.built t (some ⟨msgType, c.seqCounter, flags, payload, fits⟩) }
  | .reply t m => { c with built := update c.built t (some m) }
  | .enqueueFrame t =>
    match c.built t with
    | none => c
    | some m =>
      let c := { c with built := update c.built t none }
      if c.sendQueue.length > 4096 then c
      else { c with sendQueue := c.sendQueue ++ [m], accepted := c.accepted ++ [m] }
  | .pop =>
    match c.sending, c.writing, c.sendQueue with
    | true, none, m :: rest =>
      { c with sendQueue := rest, writing := some (m, 0) }
    | _, _, _ => c
  | .send w =>
    match c.sending, c.writing with
    | true, some (m, sent) =>
      let bytes := Cpp.serialise m.frame
      if w = 0 ∨ c.connected = false then { c with sending := false }
      else
        { c with
          wire := c.wire ++ (bytes.drop sent).take w
          writing := if sent + w < bytes.length then some (m, sent + w) else none }
    | _, _ => c
  | .stop => { c with connected := false }

def run (es : List (ClientEvent ι)) : Client ι := es.foldl step start

def unsent (c : Client ι) : List Outgoing := (c.writing.map Prod.fst).toList ++ c.sendQueue

def part (c : Client ι) : List UInt8 :=
  match c.writing with
  | none => []
  | some (m, sent) => (writeFrame m.frame).take sent

end Client

section Reading

variable {m : Outgoing} {f : Frame} {s t q r : List UInt8}

section

variable (h : readFrame s = .ok (f, t)) (hs : s ++ q = writeFrame m.frame ++ r)

include h hs

theorem header_of_readFrame : f.header = m.frame.header := by
  obtain ⟨hf, rfl⟩ := readFrame_eq_ok h
  have hread := congrArg FrameHeader.read hs
  rwa [append_assoc, hf.read_stream, writeFrame, append_assoc,
    FrameHeader.read_marshal (h := m.frame.header) rfl] at hread

theorem length_of_readFrame :
    m.payload.length = f.payload.length ∧ m.payload.length ≤ maxPayloadSize := by
  have hf := (readFrame_eq_ok h).1
  have hlen : m.payload.length = f.payload.length := by
    rw [← hf.len, header_of_readFrame h hs]
    exact (UInt32.toNat_ofNat_of_lt' m.fits).symm
  exact ⟨hlen, hlen ▸ hf.small⟩

end

theorem handleRound_eq_stop (h : ∀ f t, readFrame s ≠ .ok (f, t)) : handleRound s = .stop := by
  by_contra hgo
  obtain ⟨f, t, hr, -⟩ := handleRound_cases hgo
  exact h f t hr

theorem handleRound_readable (h : m.readable = true) (rest : List UInt8) :
    handleRound (writeFrame m.frame ++ rest) = .deliver m.frame rest := by
  have hf : m.frame.Proper :=
    ⟨rfl, rfl, UInt32.toNat_ofNat_of_lt' m.fits, of_decide_eq_true h⟩
  have hva : m.frame.validate = none := if_neg (not_not.mpr rfl)
  simp only [handleRound, readFrame_writeFrame hf, hva]

theorem handleRound_unreadable (h : m.readable = false) (rest : List UInt8) :
    handleRound (writeFrame m.frame ++ rest) = .stop := by
  apply handleRound_eq_stop
  intro f t hr
  exact of_decide_eq_false h (length_of_readFrame (q := []) hr (append_nil _)).2

/-- A frame that is cut off is not read. -/
theorem handleRound_cut (hs : s ++ q = writeFrame m.frame) (hq : q ≠ []) :
    handleRound s = .stop := by
  apply handleRound_eq_stop
  intro f t hr
  have hlen := (length_of_readFrame (r := []) hr (by rw [hs, append_nil])).1
  obtain ⟨hf, rfl⟩ := readFrame_eq_ok hr
  have htotal := congrArg List.length hs
  have hm : m.frame.header.marshal.length = headerSize := FrameHeader.length_marshal rfl
  have hpay : m.frame.payload.length = m.payload.length := rfl
  simp only [writeFrame, length_append, hf.length_marshal, hm, hpay] at htotal
  have hpos := length_pos_of_ne_nil hq
  omega

end Reading

namespace Client

variable {ι : Type} [DecidableEq ι]

/-- The frames `sent` are on the wire, and behind them what there is of the next one. -/
structure Written (c : Client ι) (sent : List Outgoing) : Prop where
  accepted : c.accepted = sent ++ c.unsent
  bound : c.sendQueue.length ≤ 4097
  wire : c.wire = sent.flatMap (fun m => writeFrame m.frame) ++ c.part
  cut : ∀ m n, c.writing = some (m, n) → n < (writeFrame m.frame).length

variable {c : Client ι} {sent : List Outgoing}

section

variable (h : c.Written sent)

include h

theorem Written.enqueueFrame (t : ι) : (c.step (.enqueueFrame t)).Written sent := by
  cases hb : c.built t with
  | none => simpa only [step, hb] using h
  | some m =>
    by_cases hfull : c.sendQueue.length > 4096
    · simp only [step, hb, if_pos hfull]
      exact ⟨h.accepted, h.bound, h.wire, h.cut⟩
    · simp only [step, hb, if_neg hfull]
      refine ⟨?_, ?_, h.wire, h.cut⟩
      · simp [unsent, h.accepted]
      · rw [length_append, length_singleton]
        omega

theorem Written.pop : (c.step .pop).Written sent := by
  simp only [step]
  split
  · rename_i m rest _ hwr hq
    have hbound := h.bound
    rw [hq, length_cons] at hbound
    refine ⟨?_, Nat.le_of_succ_le hbound, ?_, ?_⟩
    · simpa [unsent, hwr, hq] using h.accepted
    · simpa [part, hwr] using h.wire
    · rintro m' n ⟨⟩
      exact length_pos_of_ne_nil (by simp [writeFrame, FrameHeader.marshal])
  · exact h

theorem Written.send (w : Nat) : ∃ sent, (c.step (.send w)).Written sent := by
  simp only [step, Cpp.serialise_eq]
  split
  · rename_i m n _ hwr
    have hacc := h.accepted
    have hwire := h.wire
    simp only [unsent, part, hwr] at hacc hwire
    split
    · exact ⟨sent, h.accepted, h.bound, h.wire, h.cut⟩
    · have hmore : c.wire ++ ((writeFrame m.frame).drop n).take w =
          sent.flatMap (fun m => writeFrame m.frame) ++ (writeFrame m.frame).take (n + w) := by
        rw [hwire, append_assoc, take_add]
      by_cases hend : n + w < (writeFrame m.frame).length
      · refine ⟨sent, ?_, h.bound, ?_, ?_⟩
        · simpa [unsent, if_pos hend] using hacc
        · simpa only [part, if_pos hend] using hmore
        · simp only [if_pos hend]
          rintro m' n' ⟨⟩
          exact hend
      · refine ⟨sent ++ [m], ?_, h.bound, ?_, by simp [hend]⟩
        · simpa [unsent, if_neg hend] using hacc
        · rw [take_of_length_le (not_lt.mp hend)] at hmore
          simpa [part, if_neg hend] using hmore
  · exact ⟨sent, h⟩

theorem Written.step (e : ClientEvent ι) : ∃ sent, (c.step e).Written sent := by
  cases e with
  | enqueueFrame t => exact ⟨sent, h.enqueueFrame t⟩
  | pop => exact ⟨sent, h.pop⟩
  | send w => exact h.send w
  | request | reply | stop => exact ⟨sent, h.accepted, h.bound, h.wire, h.cut⟩

end

theorem written_run (es : List (ClientEvent ι)) : ∃ sent, (run es).Written sent := by
  induction es using List.reverseRecOn with
  | nil => exact ⟨[], rfl, Nat.zero_le _, rfl, nofun⟩
  | append_singleton es e ih =>
    obtain ⟨sent, h⟩ := ih
    rw [run, foldl_append]
    exact h.step e

/-- However the threads interleave and wherever writing stops, falxd is handed the frames
the queue accepted, in order, each once and without the ones not yet written, up to the
first whose payload is over the limit; from there on it hears nothing. -/
theorem received_accepted (es : List (ClientEvent ι)) :
    (run es).sendQueue.length ≤ 4097 ∧ ∃ sent, (run es).accepted = sent ++ (run es).unsent ∧
      ∀ extra, receive handleRound (sent.length + 1 + extra) (run es).wire =
        (sent.takeWhile Outgoing.readable).map Outgoing.frame := by
  obtain ⟨sent, h⟩ := written_run es
  have hcut : handleRound (run es).part = .stop := by
    rw [part]
    split
    · rfl
    · rename_i m n hwr
      exact handleRound_cut (take_append_drop n _) (drop_eq_nil_iff.not.mpr (h.cut m n hwr).not_ge)
  refine ⟨h.bound, sent, h.accepted, fun extra => ?_⟩
  rw [h.wire]
  exact receive_flatMap_takeWhile (fun m _ => handleRound_readable)
    (fun m _ => handleRound_unreadable) hcut (by omega)

end Client

end Falx.Ipc
