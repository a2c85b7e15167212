import Falx.HoneypotTracker
import Mathlib.Data.Set.Function

/-! Which packets a session has counted. Packets whose transport header is cut off have no flow
ID and share one session, and packets of sessions that are tracked are not counted while the
table is full. -/

namespace Falx

namespace Honeypot

open List AfXdp Words

structure Watched where
  tracker : Tracker
  counted : UInt64 → List PacketMeta

namespace Watched

def start : Watched := ⟨newTracker, fun _ => []⟩

def note (w : Watched) : TrackerStep → UInt64 → List PacketMeta
  | .packet frame umemOffset blocklist unix _ =>
    match parseFrame frame umemOffset with
    | .error _ => w.counted
    | .ok m =>
      if redirected blocklist unix m = true ∧ w.tracker.size < w.tracker.maxSessions then
        let old := if m.flowID ∈ w.tracker.sessions then w.counted m.flowID else []
        Function.update w.counted m.flowID (old ++ [m])
      else w.counted
  | .cleanup .. | .setActiveHoneypot .. | .receive => w.counted

def exec (w : Watched) (e : TrackerStep) : Option Watched :=
  (w.tracker.exec e).map fun t => ⟨t, w.note e⟩

theorem exec_of_tracker {w : Watched} {e : TrackerStep} {t : Tracker}
    (h : w.tracker.exec e = some t) : ∃ w', w.exec e = some w' ∧ w'.tracker = t := by
  refine ⟨⟨t, w.note e⟩, ?_, rfl⟩
  rw [exec, h]
  rfl

end Watched

structure Counts (s : Session) (packets : List PacketMeta) : Prop where
  same : ∀ m ∈ packets, fiveTuple m = s.fiveTuple
  packetCount : s.packetCount = UInt64.ofNat packets.length
  byteCount : s.byteCount = packets.foldl (fun n m => n + m.pktLen.toUInt64) 0

def Adds (t : Tracker) (e : TrackerStep) (t' : Tracker) : Prop :=
  ∀ frame m now id s, Redirects e frame m now → t.sessions.lookup id = some s →
    s.fiveTuple = fiveTuple m →
    ∃ s', t'.sessions.lookup id = some s' ∧ s'.packetCount = s.packetCount + 1 ∧
      s'.byteCount = s.byteCount + m.pktLen.toUInt64

/-- The frame has a whole transport header, the table has room if the session of the packet is
tracked, and the addresses, ports and protocol are among those that occur. -/
def Spared (occurs : Set FiveTuple) (w : Watched) (e : TrackerStep) : Prop :=
  ∀ frame m now, Redirects e frame m now → Untruncated frame ∧ fiveTuple m ∈ occurs ∧
    ∀ id s, w.tracker.sessions.lookup id = some s → s.fiveTuple = fiveTuple m →
      w.tracker.size < w.tracker.maxSessions

structure Tracked (occurs : Set FiveTuple) (w : Watched) : Prop where
  size : w.tracker.size ≤ w.tracker.maxSessions
  maxSessions : w.tracker.maxSessions = 65536
  hash : ∀ id s, w.tracker.sessions.lookup id = some s → s.fiveTuple ∈ occurs ∧ s.fiveTuple.hash = id
  counts : ∀ id s, w.tracker.sessions.lookup id = some s → Counts s (w.counted id)

section Steps

variable {occurs : Set FiveTuple} {w w' : Watched} {e : TrackerStep} {m : PacketMeta} {now : Int}

theorem Counts.update {s : Session} {packets : List PacketMeta} (h : Counts s packets)
    (hm : fiveTuple m = s.fiveTuple) (now : Int) : Counts (s.update m now) (packets ++ [m]) := by
  refine ⟨fun m' hmem => ?_, ?_, ?_⟩
  · rcases mem_append.mp hmem with hold | hnew
    · exact h.same m' hold
    · obtain rfl := mem_singleton.mp hnew
      exact hm
  · show s.packetCount + 1 = _
    rw [h.packetCount, length_append, length_singleton, UInt64.ofNat_add]
    rfl
  · show s.byteCount + m.pktLen.toUInt64 = _
    rw [h.byteCount, foldl_append, foldl_cons, foldl_nil]

theorem fiveTuple_update (m : PacketMeta) (now : Int) (s : Session) :
    (s.update m now).fiveTuple = s.fiveTuple := rfl

theorem Watched.note_eq
    (h : ∀ frame m now, Redirects e frame m now → w.tracker.maxSessions ≤ w.tracker.size) :
    w.note e = w.counted := by
  cases e with
  | packet frame umemOffset blocklist unix now =>
    simp only [note]
    split
    · rfl
    · rename_i m hm
      refine if_neg ?_
      rintro ⟨hr, hroom⟩
      exact absurd hroom (Nat.not_lt.mpr (h frame m now ⟨umemOffset, blocklist, unix, rfl, hm, hr⟩))
  | cleanup | setActiveHoneypot | receive => rfl

theorem Watched.exec_cases (h : w.exec e = some w') :
    (Tracker.Fewer w.tracker w'.tracker ∧ w'.counted = w.counted ∧
        ∀ frame m now, Redirects e frame m now → w.tracker.maxSessions ≤ w.tracker.size) ∨
      ∃ frame m now, Redirects e frame m now ∧
        w'.tracker.sessions =
          w.tracker.sessions.insert m.flowID ((w.tracker.session m now).1.update m now) ∧
        w'.counted = Function.update w.counted m.flowID
          ((if m.flowID ∈ w.tracker.sessions then w.counted m.flowID else []) ++ [m]) := by
  obtain ⟨t, ht, rfl⟩ := Option.map_eq_some_iff.mp h
  rcases Tracker.exec_cases ht with ⟨hfw, hfull⟩ | ⟨frame, m, now, hpacket, hroom, hss, -⟩
  · exact .inl ⟨hfw, note_eq hfull, hfull⟩
  · refine .inr ⟨frame, m, now, hpacket, hss, ?_⟩
    obtain ⟨umemOffset, blocklist, unix, rfl, hm, hr⟩ := hpacket
    simp only [note, hm, if_pos (And.intro hr hroom)]

theorem Tracked.session (hw : Tracked occurs w) (hinj : Set.InjOn FiveTuple.hash occurs)
    (hocc : fiveTuple m ∈ occurs) (hid : m.flowID = (fiveTuple m).hash) (now : Int) :
    (w.tracker.session m now).1.fiveTuple = fiveTuple m ∧
      Counts (w.tracker.session m now).1
        (if m.flowID ∈ w.tracker.sessions then w.counted m.flowID else []) := by
  unfold Tracker.session
  split
  · rename_i s hs
    have hmem : m.flowID ∈ w.tracker.sessions := by
      rw [← AList.lookup_isSome, hs]
      rfl
    obtain ⟨hs', hhash⟩ := hw.hash _ _ hs
    rw [if_pos hmem]
    exact ⟨hinj hs' hocc (hhash.trans hid), hw.counts _ _ hs⟩
  · rename_i hs
    have hmem : m.flowID ∉ w.tracker.sessions := AList.lookup_eq_none.mp hs
    rw [if_neg hmem]
    exact ⟨rfl, nofun, rfl, rfl⟩

theorem Redirects.unique {frame frame' : Frame} {m' : PacketMeta} {now' : Int}
    (h : Redirects e frame m now) (h' : Redirects e frame' m' now') : m' = m ∧ now' = now := by
  obtain ⟨_, _, _, rfl, hm, -⟩ := h
  obtain ⟨_, _, _, he, hm', -⟩ := h'
  cases he
  cases hm.symm.trans hm'
  exact ⟨rfl, rfl⟩

theorem Tracked.counts_exec (hinj : Set.InjOn FiveTuple.hash occurs) (hw : Tracked occurs w)
    (he : Spared occurs w e) (h : w.exec e = some w') : ∀ id s,
      w'.tracker.sessions.lookup id = some s →
      (s.fiveTuple ∈ occurs ∧ s.fiveTuple.hash = id) ∧ Counts s (w'.counted id) := by
  intro id s hs
  rcases Watched.exec_cases h with ⟨hfw, hcnt, -⟩ | ⟨frame, m, now, hp, hss, hcnt⟩
  · have hold := hfw.lookup id s hs
    rw [hcnt]
    exact ⟨hw.hash id s hold, hw.counts id s hold⟩
  · obtain ⟨hf, hocc, -⟩ := he frame m now hp
    have hflow := hp.flowID hf
    obtain ⟨htu, hcnts⟩ := hw.session hinj hocc hflow now
    rw [hss] at hs
    rw [hcnt]
    by_cases hid : id = m.flowID
    · subst hid
      rw [AList.lookup_insert] at hs
      obtain rfl := Option.some.inj hs
      rw [fiveTuple_update, htu, Function.update_self]
      exact ⟨⟨hocc, hflow.symm⟩, hcnts.update htu.symm now⟩
    · rw [AList.lookup_insert_ne hid] at hs
      rw [Function.update_of_ne hid]
      exact ⟨hw.hash id s hs, hw.counts id s hs⟩

theorem Tracked.adds (hw : Tracked occurs w) (he : Spared occurs w e) (h : w.exec e = some w') :
    Adds w.tracker e w'.tracker := by
  intro frame m now id s hp hs htu
  obtain ⟨hf, hocc, hroom⟩ := he frame m now hp
  rcases Watched.exec_cases h with ⟨-, -, hfull⟩ | ⟨frame', m', now', hp', hss, -⟩
  · exact absurd (hroom id s hs htu) (Nat.not_lt.mpr (hfull frame m now hp))
  · obtain ⟨rfl, rfl⟩ := hp.unique hp'
    have hid : id = m'.flowID := by rw [hp.flowID hf, ← htu, (hw.hash id s hs).2]
    subst hid
    refine ⟨s.update m' now', ?_, rfl, rfl⟩
    rw [hss, AList.lookup_insert, Tracker.session, hs]

theorem Tracked.exec (hinj : Set.InjOn FiveTuple.hash occurs) (hw : Tracked occurs w)
    (he : Spared occurs w e) (h : w.exec e = some w') : Tracked occurs w' := by
  obtain ⟨t, ht, rfl⟩ := Option.map_eq_some_iff.mp h
  obtain ⟨hsize, hmax⟩ := Tracker.size_exec hw.size ht
  have hcnts := hw.counts_exec hinj he h
  exact ⟨hsize, hmax.trans hw.maxSessions, fun id s hs => (hcnts id s hs).1,
    fun id s hs => (hcnts id s hs).2⟩

def Legible (occurs : Set FiveTuple) (e : TrackerStep) : Prop :=
  ∀ frame m now, Redirects e frame m now → Untruncated frame ∧ fiveTuple m ∈ occurs

theorem along_spared {es : List TrackerStep} (hes : ∀ e ∈ es, Legible occurs e)
    (hsize : w.tracker.size + es.length ≤ w.tracker.maxSessions) :
    StepRun.Along Watched.exec (Spared occurs) w es := by
  induction es generalizing w with
  | nil => trivial
  | cons e es ih =>
    obtain ⟨he, hes⟩ := forall_mem_cons.mp hes
    rw [length_cons] at hsize
    constructor
    · intro frame m now hp
      obtain ⟨hf, hocc⟩ := he frame m now hp
      exact ⟨hf, hocc, fun _ _ _ _ => by omega⟩
    · cases h : w.exec e with
      | none => trivial
      | some w' =>
        obtain ⟨t, ht, rfl⟩ := Option.map_eq_some_iff.mp h
        refine ih hes ?_
        show t.size + es.length ≤ t.maxSessions
        rcases Tracker.exec_cases ht with ⟨hfw, -⟩ | ⟨_, m, now, -, -, hss, hmax⟩
        · have hle := hfw.size
          rw [hfw.maxSessions]
          omega
        · have hle := w.tracker.size_insert m.flowID ((w.tracker.session m now).1.update m now)
          rw [hmax, Tracker.size, hss]
          omega

end Steps

section Packets

def udpFrame (host : UInt8) (srcPort : UInt16) (length : Nat) : Frame :=
  (List.replicate 12 0 ++ [0x08, 0x00] ++
    [0x45, 0, 0, 28, 0, 0, 0, 0, 64, 17, 0, 0, 192, 0, 2, host, 10, 0, 0, 5] ++
    (bytes16 srcPort).reverse ++ [0, 53, 0, 8, 0, 0]).take length

def redirectAll : BlocklistV4 := fun _ => some ⟨0, Action.redirect, 0, 0, 0, 0⟩

def udpPacket (host : UInt8) (srcPort : UInt16) (length : Nat) : TrackerStep :=
  .packet (udpFrame host srcPort length) 0 redirectAll 0 0

def udpTuple (host : UInt8) (srcPort : UInt16) : FiveTuple :=
  ⟨[192, 0, 2, host], [10, 0, 0, 5], srcPort, 53, 17⟩

variable (host : UInt8) (srcPort : UInt16)

def udpMeta : PacketMeta :=
  { pktLen := 42, srcIP := some [192, 0, 2, host], dstIP := some [10, 0, 0, 5], protocol := 17 }

theorem parseFrame_udpFrame : parseFrame (udpFrame host srcPort 42) 0 =
    .ok (withL4 (udpFrame host srcPort 42) 34 (udpMeta host)) := by
  have hlen : (udpFrame host srcPort 42).length = 42 := rfl
  have htype : uint16At (udpFrame host srcPort 42) 12 = EtherType.ipv4 := rfl
  have hword : Frame.u8 (udpFrame host srcPort 42) 14 = 0x45 := rfl
  have hihl : ((0x45 : UInt8) &&& 0x0F).toNat * 4 = 20 := by decide
  have hsrc : NetIP.to4 (wireBytes (udpFrame host srcPort 42) (14 + 12) 4) =
      some [192, 0, 2, host] := rfl
  have hdst : NetIP.to4 (wireBytes (udpFrame host srcPort 42) (14 + 16) 4) =
      some [10, 0, 0, 5] := rfl
  have hpr : Frame.u8 (udpFrame host srcPort 42) (14 + 9) = 17 := rfl
  simp only [parseFrame, hlen, htype, hword, hihl, hsrc, hdst, hpr, if_true]
  rfl

theorem withL4_udpFrame :
    ∃ m, withL4 (udpFrame host srcPort 42) 34 (udpMeta host) = m ∧
      m.srcIP = some [192, 0, 2, host] ∧ fiveTuple m = udpTuple host srcPort := by
  obtain ⟨m, hm, hsrc, htu⟩ : ∃ m, parseL4 (udpFrame host srcPort 42) 34 (udpMeta host) = .ok m ∧
      m.srcIP = some [192, 0, 2, host] ∧ fiveTuple m = udpTuple host srcPort := by
    refine ⟨_, rfl, rfl, ?_⟩
    have hport : uint16At (udpFrame host srcPort 42) 34 = srcPort := le16_bytes16 srcPort
    rw [hport]
    rfl
  refine ⟨{ m with flowID := computeFlowID m }, by rw [withL4, hm], hsrc, ?_⟩
  rw [← htu, fiveTuple, fiveTuple]

theorem untruncated_udpFrame : Untruncated (udpFrame host srcPort 42) := by
  have hpr : Frame.u8 (udpFrame host srcPort 42) 23 = 17 := rfl
  have hword : Frame.u8 (udpFrame host srcPort 42) 14 = 0x45 := rfl
  have htype : uint16At (udpFrame host srcPort 42) 12 = EtherType.ipv4 := rfl
  rw [Untruncated, hpr, hword, htype]
  exact ⟨fun _ => ⟨fun h => absurd h (by decide), fun _ => Nat.le_refl 42⟩,
    fun h => absurd h (by decide)⟩

theorem redirects_udpPacket : ∃ m, Redirects (udpPacket host srcPort 42)
    (udpFrame host srcPort 42) m 0 ∧ fiveTuple m = udpTuple host srcPort := by
  obtain ⟨m, hm, hsrc, htu⟩ := withL4_udpFrame host srcPort
  have hpa := parseFrame_udpFrame host srcPort
  rw [hm] at hpa
  refine ⟨m, ⟨0, redirectAll, 0, rfl, hpa, ?_⟩, htu⟩
  rw [redirected, hsrc]
  rfl

theorem legible_udpPacket {occurs : Set FiveTuple} (hocc : udpTuple host srcPort ∈ occurs) :
    Legible occurs (udpPacket host srcPort 42) := by
  intro frame m now hp
  obtain ⟨m', hp', htu⟩ := redirects_udpPacket host srcPort
  obtain ⟨rfl, -⟩ := hp'.unique hp
  rw [htu]
  obtain ⟨_, _, _, he, -, -⟩ := hp
  cases he
  exact ⟨untruncated_udpFrame host srcPort, hocc⟩

end Packets

section Flood

def flood (n : Nat) : List TrackerStep :=
  (List.range n).map fun i => udpPacket 1 (UInt16.ofNat i) 42

theorem hash_flood_injective {i j : Nat} (hi : i < 65536) (hj : j < 65536)
    (h : (udpTuple 1 (UInt16.ofNat i)).hash = (udpTuple 1 (UInt16.ofNat j)).hash) : i = j := by
  have hport := congrArg UInt16.toNat (FiveTuple.hash_srcPort_injective h)
  rw [UInt16.toNat_ofNat', UInt16.toNat_ofNat'] at hport
  omega

structure Flooded (n : Nat) (t : Tracker) : Prop where
  size : t.size = n
  maxSessions : t.maxSessions = 65536
  keys : ∀ id ∈ t.sessions, ∃ i < n, id = (udpTuple 1 (UInt16.ofNat i)).hash
  sessions : ∀ i < n, ∃ s, t.sessions.lookup (udpTuple 1 (UInt16.ofNat i)).hash = some s ∧
    s.fiveTuple = udpTuple 1 (UInt16.ofNat i)

variable {n : Nat} {t : Tracker}

theorem exec_udpPacket (srcPort : UInt16) (hroom : t.size < t.maxSessions) :
    ∃ t' m, t.exec (udpPacket 1 srcPort 42) = some t' ∧ fiveTuple m = udpTuple 1 srcPort ∧
      t'.sessions = t.sessions.insert (udpTuple 1 srcPort).hash ((t.session m 0).1.update m 0) ∧
      m.flowID = (udpTuple 1 srcPort).hash ∧ t'.maxSessions = t.maxSessions := by
  obtain ⟨m, hp, htu⟩ := redirects_udpPacket 1 srcPort
  have hflow := hp.flowID (untruncated_udpFrame 1 srcPort)
  obtain ⟨_, _, _, he, hpa, hr⟩ := hp
  cases he
  obtain ⟨hss, hmax⟩ : (t.processMeta redirectAll 0 0 m).sessions = _ ∧ _ :=
    Tracker.processMeta_counted hr hroom
  rw [hflow, htu] at hss
  refine ⟨t.processMeta redirectAll 0 0 m, m, ?_, htu, hss, by rw [hflow, htu], hmax⟩
  simp only [udpPacket, Tracker.exec, hpa]

theorem Flooded.step (h : Flooded n t) (hn : n < 65536) :
    ∃ t', t.exec (udpPacket 1 (UInt16.ofNat n) 42) = some t' ∧ Flooded (n + 1) t' := by
  have hroom : t.size < t.maxSessions := by
    rw [h.size, h.maxSessions]
    exact hn
  obtain ⟨t', m, hexec, htu, hss, hflow, hmax⟩ := exec_udpPacket (UInt16.ofNat n) hroom
  have hfr : (udpTuple 1 (UInt16.ofNat n)).hash ∉ t.sessions := by
    intro hmem
    obtain ⟨i, hi, heq⟩ := h.keys _ hmem
    have hsame := hash_flood_injective hn (Nat.lt_trans hi hn) heq
    omega
  have hnew : (t.session m 0).1 = .new m 0 t := by
    rw [Tracker.session, hflow, AList.lookup_eq_none.mpr hfr]
  rw [hnew] at hss
  refine ⟨t', hexec, ?_, hmax.trans h.maxSessions, ?_, ?_⟩
  · rw [Tracker.size, hss, AList.keys_insert, length_cons, erase_of_not_mem hfr]
    exact congrArg (· + 1) h.size
  · intro id hid
    rw [hss, AList.mem_insert] at hid
    rcases hid with rfl | hid
    · exact ⟨n, Nat.lt_succ_self n, rfl⟩
    · obtain ⟨i, hi, heq⟩ := h.keys id hid
      exact ⟨i, Nat.lt_succ_of_lt hi, heq⟩
  · intro i hi
    rw [hss]
    rcases Nat.lt_succ_iff_lt_or_eq.mp hi with hlt | rfl
    · have hne : (udpTuple 1 (UInt16.ofNat i)).hash ≠ (udpTuple 1 (UInt16.ofNat n)).hash := by
        intro heq
        have hsame := hash_flood_injective (Nat.lt_trans hlt hn) hn heq
        omega
      rw [AList.lookup_insert_ne hne]
      exact h.sessions i hlt
    · exact ⟨_, AList.lookup_insert _, htu⟩

theorem run_flood (hn : n ≤ 65536) :
    ∃ w, StepRun.run Watched.exec Watched.start (flood n) = some w ∧ Flooded n w.tracker := by
  induction n with
  | zero => exact ⟨Watched.start, rfl, rfl, rfl, nofun, nofun⟩
  | succ n ih =>
    obtain ⟨w, hw, hfld⟩ := ih (Nat.le_of_succ_le hn)
    obtain ⟨t', ht', hfld'⟩ := hfld.step hn
    obtain ⟨w', hw', rfl⟩ := Watched.exec_of_tracker ht'
    refine ⟨w', ?_, hfld'⟩
    have hmore : flood (n + 1) = flood n ++ [udpPacket 1 (UInt16.ofNat n) 42] := by
      rw [flood, range_succ, map_append, map_singleton, flood]
    rw [hmore, StepRun.run_append, hw, Option.bind_some, StepRun.run, hw', Option.bind_some,
      StepRun.run]

theorem Flooded.not_adds (h : Flooded 65536 t) :
    ∃ t', t.exec (udpPacket 1 0 42) = some t' ∧ ¬ Adds t (udpPacket 1 0 42) t' := by
  obtain ⟨m, hp, htu⟩ := redirects_udpPacket 1 0
  obtain ⟨s, hs, hstuple⟩ := h.sessions 0 (by decide)
  have hsame : t.exec (udpPacket 1 0 42) = some t := by
    obtain ⟨_, _, _, he, hpa, hr⟩ := hp
    cases he
    have hfull : t.maxSessions ≤ t.size := by rw [h.size, h.maxSessions]
    simp only [udpPacket, Tracker.exec, hpa, Tracker.processMeta_ignored fun _ => hfull]
  refine ⟨t, hsame, fun hadds => ?_⟩
  obtain ⟨s', hs', hcnt, -⟩ := hadds _ m 0 _ s hp hs (hstuple.trans htu.symm)
  obtain rfl := Option.some.inj (hs.symm.trans hs')
  have hnat := congrArg UInt64.toNat hcnt
  have hone : (1 : UInt64).toNat = 1 := rfl
  rw [UInt64.toNat_add, hone] at hnat
  omega

end Flood

end Honeypot

end Falx
