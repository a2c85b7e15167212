import Falx.EventBus
import Falx.NameTable

/-! The WebSocket hub of the notification manager. A client is entered in the table under its
user and the second of the day in which it came, and its write pump deletes the entry of that
name when it ends. `Broadcast` and `closeAll` go through the table under the read lock. -/

namespace Falx

open Option List Function

namespace WSHub

abbrev Frame := List UInt8

@[ext]
structure Clock where
  hour : Nat
  minute : Nat
  second : Nat
  hour_lt : hour < 24
  minute_lt : minute < 60
  second_lt : second < 60
  deriving DecidableEq

def twoDigits (n : Nat) : List Char := [Nat.digitChar (n / 10), Nat.digitChar (n % 10)]

def Clock.format (t : Clock) : List Char :=
  twoDigits t.hour ++ twoDigits t.minute ++ twoDigits t.second

def clientID (userID : String) (t : Clock) : String := userID ++ "_" ++ String.ofList t.format

inductive PumpPhase where
  | opened
  | running
  | stopping
  | finished
  deriving DecidableEq

structure Client where
  userID : String
  clock : Clock
  send : GoChannel Frame
  quit : Bool
  phase : PumpPhase

namespace Client

def id (w : Client) : String := clientID w.userID w.clock

def live (w : Client) : Bool :=
  match w.phase with
  | .running | .stopping => true
  | .opened | .finished => false

def make (userID : String) (clock : Clock) (seedData : List Frame) : Client :=
  ⟨userID, clock, seedData.foldl (fun ch frame => (ch.trySend frame).getD ch) (.make 256), false,
    .opened⟩

def closeQuit (w : Client) : Client := { w with quit := true }

/-- A `select` of a send, a receive from the closed `quit` and a default. Where two of them are
ready, any may be chosen. -/
def offer (data : Frame) (pickQuit : Bool) (w : Client) : Client :=
  match w.send.trySend data with
  | some ch => if w.quit && pickQuit then w else { w with send := ch }
  | none => w

end Client

/-- What the two pumps of a client do: a frame or a ping is written or fails, the write pump
sees that `quit` is closed, the read pump ends. -/
inductive PumpStep where
  | data (ok : Bool)
  | ping (ok : Bool)
  | closing
  | readFails
  deriving DecidableEq

def Client.wrote (ok : Bool) (w : Client) : Client :=
  { w with phase := if ok then .running else .stopping }

def Client.exec (w : Client) : PumpStep → Option Client
  | .data ok =>
    if w.phase = .running ∧ w.send.buffer ≠ [] then
      some ({ w with send := w.send.receive }.wrote ok)
    else none
  | .ping ok => if w.phase = .running then some (w.wrote ok) else none
  | .closing => if w.phase = .running ∧ w.quit then some { w with phase := .stopping } else none
  | .readFails => if w.phase ≠ .opened then some w.closeQuit else none

inductive Visit where
  | offer (data : Frame)
  | closeQuit
  deriving DecidableEq

def Visit.apply (pickQuit : Bool) : Visit → Client → Client
  | .offer data, w => w.offer data pickQuit
  | .closeQuit, w => w.closeQuit

/-- A walk through the table: what it does at each client, the clients that it has still to
visit and those it has visited, and those that were live when it began. A broadcast of an
event that cannot be serialised visits nobody. -/
structure Reader where
  visit : Option Visit
  rest : List Nat
  visited : List Nat
  present : List Nat
  active : Bool
  deriving DecidableEq

/-- Clients are referred to by their place among all that were made. -/
structure Hub where
  made : List Client
  clients : AList fun _ : String => Nat
  readers : List Reader

inductive HubStep where
  | upgrade (ok : Bool) (userID : String) (clock : Clock) (seedData : List Frame)
  | register (c : Nat)
  | broadcast (ev : EventBus.Event) (order : List Nat)
  | closeAll (order : List Nat)
  | visit (r : Nat) (pickQuit : Bool)
  | leave (r : Nat)
  | pump (c : Nat) (step : PumpStep)
  | finish (c : Nat)
  deriving DecidableEq

section Clients

variable {w w' : Client}

theorem twoDigits_inj {m n : Nat} (hm : m < 100) (hn : n < 100) (h : twoDigits m = twoDigits n) :
    m = n := by
  have hdg : ∀ a < 10, ∀ b < 10, Nat.digitChar a = Nat.digitChar b → a = b := by decide
  obtain ⟨htens, hones⟩ : _ ∧ _ := by simpa [twoDigits] using h
  have htens := hdg _ (by omega) _ (by omega) htens
  have hones := hdg _ (by omega) _ (by omega) hones
  omega

theorem Clock.format_inj {t t' : Clock} (h : t.format = t'.format) : t = t' := by
  have hlt : ∀ t : Clock, t.hour < 100 ∧ t.minute < 100 ∧ t.second < 100 := fun t =>
    ⟨t.hour_lt.trans (by decide), t.minute_lt.trans (by decide), t.second_lt.trans (by decide)⟩
  obtain ⟨h, hsec⟩ := append_inj h rfl
  obtain ⟨hhour, hminute⟩ := append_inj h rfl
  exact Clock.ext (twoDigits_inj (hlt t).1 (hlt t').1 hhour)
    (twoDigits_inj (hlt t).2.1 (hlt t').2.1 hminute)
    (twoDigits_inj (hlt t).2.2 (hlt t').2.2 hsec)

theorem clientID_inj {userID userID' : String} {t t' : Clock} :
    clientID userID t = clientID userID' t' ↔ userID = userID' ∧ t = t' := by
  refine ⟨fun h => ?_, fun ⟨hu, ht⟩ => hu ▸ ht ▸ rfl⟩
  have hlist := congrArg String.toList h
  simp only [clientID, String.toList_append, String.toList_ofList] at hlist
  obtain ⟨huser, hformat⟩ := append_inj' hlist rfl
  exact ⟨String.toList_inj.mp (append_inj' huser rfl).1, Clock.format_inj hformat⟩

structure Client.Same (w w' : Client) : Prop where
  id : w'.id = w.id
  live : w'.live = w.live

theorem Client.same_exec {step : PumpStep} (h : w.exec step = some w') : Same w w' := by
  have hwrote : ∀ (v : Client) (ok : Bool), v.phase = .running → Same v (v.wrote ok) := by
    intro v ok hph
    refine ⟨rfl, ?_⟩
    simp only [live, hph]
    cases ok <;> rfl
  cases step with
  | data ok =>
    obtain ⟨hif, h⟩ := ite_none_right_eq_some.mp h
    cases h
    obtain ⟨hid, hlive⟩ := hwrote { w with send := w.send.receive } ok hif.1
    exact ⟨hid, hlive⟩
  | ping ok =>
    obtain ⟨hph, h⟩ := ite_none_right_eq_some.mp h
    cases h
    exact hwrote w ok hph
  | closing =>
    obtain ⟨hif, h⟩ := ite_none_right_eq_some.mp h
    cases h
    exact ⟨rfl, by simp only [live, hif.1]⟩
  | readFails =>
    obtain ⟨-, h⟩ := ite_none_right_eq_some.mp h
    cases h
    exact ⟨rfl, rfl⟩

theorem Client.same_apply (visit : Visit) (pickQuit : Bool) (w : Client) :
    Same w (visit.apply pickQuit w) := by
  cases visit with
  | closeQuit => exact ⟨rfl, rfl⟩
  | offer data =>
    simp only [Visit.apply, offer]
    split
    · split <;> exact ⟨rfl, rfl⟩
    · exact ⟨rfl, rfl⟩

end Clients

namespace Hub

def newWSHub : Hub := ⟨[], ∅, []⟩

def table (h : Hub) : List Nat := NameTable.values h.clients

def liveID (h : Hub) (c : Nat) : Option String :=
  h.made[c]?.bind fun w => if w.live then some w.id else none

def live (h : Hub) : List Nat := (List.range h.made.length).filter fun c => (h.liveID c).isSome

def unlocked (h : Hub) : Bool := h.readers.all fun r => !r.active

def setClient (c : Nat) (w : Client) (h : Hub) : Hub := { h with made := h.made.set c w }

def enter (visit : Visit) (order : List Nat) (h : Hub) : Option Hub :=
  if order.Perm h.table then
    some { h with readers := h.readers ++ [⟨some visit, order, [], h.live, true⟩] }
  else none

def exec (marshal : EventBus.Event → Option Frame) (h : Hub) : HubStep → Option Hub
  | .upgrade ok userID clock seedData =>
    some (if ok then { h with made := h.made ++ [.make userID clock seedData] } else h)
  | .register c =>
    h.made[c]?.bind fun w =>
      if w.phase = .opened ∧ h.unlocked then
        some { h.setClient c { w with phase := .running } with
          clients := h.clients.insert w.id c }
      else none
  | .broadcast ev order =>
    match marshal ev with
    | none => some { h with readers := h.readers ++ [⟨none, [], [], h.live, false⟩] }
    | some data => h.enter (.offer data) order
  | .closeAll order => h.enter .closeQuit order
  | .visit r pickQuit =>
    match h.readers[r]? with
    | some ⟨some visit, c :: rest, visited, present, true⟩ =>
      h.made[c]?.map fun w =>
        { h.setClient c (visit.apply pickQuit w) with
          readers := h.readers.set r ⟨some visit, rest, visited ++ [c], present, true⟩ }
    | _ => none
  | .leave r =>
    match h.readers[r]? with
    | some ⟨visit, [], visited, present, true⟩ =>
      some { h with readers := h.readers.set r ⟨visit, [], visited, present, false⟩ }
    | _ => none
  | .pump c step => h.made[c]?.bind fun w => (w.exec step).map fun w' => h.setClient c w'
  | .finish c =>
    h.made[c]?.bind fun w =>
      if w.phase = .stopping ∧ h.unlocked then
        some { h.setClient c { w with phase := .finished } with clients := h.clients.erase w.id }
      else none

variable {marshal : EventBus.Event → Option Frame} {h h' : Hub} {e : HubStep}

variable {c : Nat} {w w' : Client} {r : Reader}

theorem mem_live : c ∈ h.live ↔ (h.liveID c).isSome = true := by
  rw [live, mem_filter, mem_range]
  refine ⟨And.right, fun hc => ⟨?_, hc⟩⟩
  obtain ⟨id, hid⟩ := isSome_iff_exists.mp hc
  obtain ⟨w, hw, -⟩ := bind_eq_some_iff.mp hid
  exact (List.getElem?_eq_some_iff.mp hw).1

theorem nodup_live (h : Hub) : h.live.Nodup := nodup_range.filter _

theorem liveID_setClient (hw : h.made[c]? = some w) :
    (h.setClient c w').liveID =
      update h.liveID c (if w'.live then some w'.id else none) := by
  funext d
  by_cases hdc : d = c
  · subst hdc
    rw [update_self]
    simp only [liveID, setClient, List.getElem?_set_self (List.getElem?_eq_some_iff.mp hw).1,
      bind_some]
  · rw [update_of_ne hdc]
    simp only [liveID, setClient, List.getElem?_set_ne (Ne.symm hdc)]

theorem liveID_setClient_same (hw : h.made[c]? = some w) (hsame : Client.Same w w') :
    (h.setClient c w').liveID = h.liveID := by
  rw [liveID_setClient hw, hsame.id, hsame.live]
  refine update_eq_self_iff.mpr ?_
  simp only [liveID, hw, bind_some]

theorem liveID_upgrade (w : Client) (hw : w.live = false) :
    liveID { h with made := h.made ++ [w] } = h.liveID := by
  funext c
  simp only [liveID, List.getElem?_append]
  split
  · rfl
  · rename_i hge
    rw [List.getElem?_eq_none (Nat.le_of_not_lt hge)]
    cases hc : ([w] : List Client)[c - h.made.length]? with
    | none => rfl
    | some v =>
      cases mem_singleton.mp (mem_of_getElem? hc)
      simp [hw]

theorem live_perm (hlive : h'.liveID = h.liveID) : h'.live.Perm h.live := by
  refine (perm_ext_iff_of_nodup (nodup_live h') (nodup_live h)).mpr fun c => ?_
  rw [mem_live, mem_live, hlive]

inductive Acts (marshal : EventBus.Event → Option Frame) (h : Hub) : HubStep → Hub → Prop
  | quiet {e : HubStep} {h' : Hub} (hclients : h'.clients = h.clients)
    (hreaders : h'.readers = h.readers) (hlive : h'.liveID = h.liveID) : Acts marshal h e h'
  | register {c : Nat} {w} (hw : h.made[c]? = some w) (hphase : w.phase = .opened)
    (hlock : h.unlocked = true) :
    Acts marshal h (.register c) { h.setClient c { w with phase := .running } with
      clients := h.clients.insert w.id c }
  | finish {c : Nat} {w} (hw : h.made[c]? = some w) (hphase : w.phase = .stopping)
    (hlock : h.unlocked = true) :
    Acts marshal h (.finish c) { h.setClient c { w with phase := .finished } with
      clients := h.clients.erase w.id }
  | fail {ev order} (hmarshal : marshal ev = none) :
    Acts marshal h (.broadcast ev order)
      { h with readers := h.readers ++ [⟨none, [], [], h.live, false⟩] }
  | enter {e : HubStep} {visit order} (horder : order.Perm h.table) :
    Acts marshal h e { h with readers := h.readers ++ [⟨some visit, order, [], h.live, true⟩] }
  | visit {r : Nat} {pickQuit visit} {c : Nat} {rest visited present w}
    (hr : h.readers[r]? = some ⟨some visit, c :: rest, visited, present, true⟩)
    (hw : h.made[c]? = some w) :
    Acts marshal h (.visit r pickQuit) { h.setClient c (visit.apply pickQuit w) with
      readers := h.readers.set r ⟨some visit, rest, visited ++ [c], present, true⟩ }
  | leave {r : Nat} {visit visited present}
    (hr : h.readers[r]? = some ⟨visit, [], visited, present, true⟩) :
    Acts marshal h (.leave r)
      { h with readers := h.readers.set r ⟨visit, [], visited, present, false⟩ }

theorem Acts.of_enter {visit : Visit} {order : List Nat} (he : h.enter visit order = some h') :
    Acts marshal h e h' := by
  obtain ⟨hor, he⟩ := ite_none_right_eq_some.mp he
  cases he
  exact .enter hor

theorem Acts.of_exec (he : exec marshal h e = some h') : Acts marshal h e h' := by
  cases e with
  | upgrade ok userID clock seedData =>
    cases he
    cases ok with
    | false => exact .quiet rfl rfl rfl
    | true => exact .quiet rfl rfl (liveID_upgrade _ rfl)
  | register c =>
    obtain ⟨w, hw, he⟩ := bind_eq_some_iff.mp he
    obtain ⟨⟨hph, hlock⟩, he⟩ := ite_none_right_eq_some.mp he
    cases he
    exact .register hw hph hlock
  | broadcast ev order =>
    simp only [exec] at he
    split at he
    · cases he
      exact .fail ‹_›
    · exact .of_enter he
  | closeAll order => exact .of_enter he
  | visit r pickQuit =>
    simp only [exec] at he
    split at he
    · obtain ⟨w, hw, rfl⟩ := map_eq_some_iff.mp he
      exact .visit ‹_› hw
    · cases he
  | leave r =>
    simp only [exec] at he
    split at he
    · cases he
      exact .leave ‹_›
    · cases he
  | pump c step =>
    obtain ⟨w, hw, he⟩ := bind_eq_some_iff.mp he
    obtain ⟨w', hw', rfl⟩ := map_eq_some_iff.mp he
    exact .quiet rfl rfl (liveID_setClient_same hw (Client.same_exec hw'))
  | finish c =>
    obtain ⟨w, hw, he⟩ := bind_eq_some_iff.mp he
    obtain ⟨⟨hph, hlock⟩, he⟩ := ite_none_right_eq_some.mp he
    cases he
    exact .finish hw hph hlock

/-- No client of the same user and of the same second is live when a client is registered, and
what is broadcast can be serialised. -/
def Apart (marshal : EventBus.Event → Option Frame) (h : Hub) : HubStep → Prop
  | .register c => ∀ w ∈ h.made[c]?, ∀ d ∈ h.live, ∀ v ∈ h.made[d]?,
    ¬ (v.userID = w.userID ∧ v.clock = w.clock)
  | .broadcast ev _ => (marshal ev).isSome = true
  | _ => True

instance decidableApart (marshal : EventBus.Event → Option Frame) (h : Hub) :
    (e : HubStep) → Decidable (Apart marshal h e)
  | .register c => inferInstanceAs (Decidable (∀ w ∈ h.made[c]?, ∀ d ∈ h.live, ∀ v ∈ h.made[d]?,
    ¬ (v.userID = w.userID ∧ v.clock = w.clock)))
  | .broadcast ev _ => inferInstanceAs (Decidable ((marshal ev).isSome = true))
  | .upgrade _ _ _ _ | .closeAll _ | .visit _ _ | .leave _ | .pump _ _ | .finish _ =>
    isTrue trivial

def Exact (h : Hub) : Prop := NameTable.Inverse h.clients h.liveID

theorem Exact.of_live (hs : h.Exact) (hcli : h'.clients = h.clients)
    (hlive : h'.liveID = h.liveID) : h'.Exact := by
  rw [Exact, hcli, hlive]
  exact hs

theorem Exact.table_perm (hs : h.Exact) : h.table.Perm h.live := by
  refine (perm_ext_iff_of_nodup hs.nodup_values (nodup_live h)).mpr fun c => ?_
  rw [mem_live]
  exact hs.mem_values

theorem Exact.register (hs : h.Exact) (hw : h.made[c]? = some w) (hph : w.phase = .opened)
    (hfr : ∀ d, h.liveID d ≠ some w.id) : Exact { h.setClient c { w with phase := .running } with
      clients := h.clients.insert w.id c } := by
  have hnone : h.liveID c = none := by simp [liveID, hw, Client.live, hph]
  have hlive : (h.setClient c { w with phase := .running }).liveID =
      update h.liveID c (some w.id) := liveID_setClient hw
  have hinsert := hs.insert hnone hfr
  rw [← hlive] at hinsert
  exact hinsert

theorem Exact.finish (hs : h.Exact) (hw : h.made[c]? = some w) (hph : w.phase = .stopping) :
    Exact { h.setClient c { w with phase := .finished } with
      clients := h.clients.erase w.id } := by
  have hsome : h.liveID c = some w.id := by simp [liveID, hw, Client.live, hph]
  have hlive : (h.setClient c { w with phase := .finished }).liveID =
      update h.liveID c none := liveID_setClient hw
  have herase := hs.erase hsome
  rw [← hlive] at herase
  exact herase

/-- A walk visits the clients that were live when it began, and these stay the live ones until
it has ended. -/
structure Walk (h : Hub) (r : Reader) : Prop where
  whole : (r.visited ++ r.rest).Perm r.present
  during : r.active = true → r.present.Perm h.live
  ended : r.active = false → r.rest = []

theorem Walk.of_live (hr : Walk h r) (hlive : h'.liveID = h.liveID) : Walk h' r :=
  ⟨hr.whole, fun ha => (hr.during ha).trans (live_perm hlive).symm, hr.ended⟩

theorem Walk.of_unlocked (hr : Walk h r) (hmem : r ∈ h.readers) (hlock : h.unlocked = true) :
    Walk h' r := by
  have hoff := all_eq_true.mp hlock r hmem
  refine ⟨hr.whole, fun ha => ?_, hr.ended⟩
  rw [ha] at hoff
  cases hoff

structure Invariant (h : Hub) : Prop where
  exact : h.Exact
  walks : ∀ r ∈ h.readers, Walk h r

theorem Invariant.newWSHub : Invariant newWSHub := by
  refine ⟨fun id c => iff_of_false ?_ ?_, fun r hr => ?_⟩
  · rw [Hub.newWSHub, AList.lookup_empty]
    nofun
  · nofun
  · cases hr

theorem Apart.fresh (he : Apart marshal h (.register c)) (hw : h.made[c]? = some w) (d : Nat) :
    h.liveID d ≠ some w.id := by
  intro hd
  have hmem : d ∈ h.live := mem_live.mpr (isSome_iff_exists.mpr ⟨_, hd⟩)
  obtain ⟨v, hv, hid⟩ := bind_eq_some_iff.mp hd
  obtain ⟨-, hid⟩ := ite_none_right_eq_some.mp hid
  exact he w hw d hmem v hv (clientID_inj.mp (Option.some.inj hid))

theorem Invariant.acts (hs : Invariant h) (he : Apart marshal h e) (hacts : Acts marshal h e h') :
    Invariant h' := by
  cases hacts with
  | quiet hcli hreaders hlive =>
    exact ⟨hs.exact.of_live hcli hlive, fun r hr => (hs.walks r (hreaders ▸ hr)).of_live hlive⟩
  | register hw hph hlock =>
    exact ⟨hs.exact.register hw hph (he.fresh hw), fun r hr => (hs.walks r hr).of_unlocked hr hlock⟩
  | finish hw hph hlock =>
    exact ⟨hs.exact.finish hw hph, fun r hr => (hs.walks r hr).of_unlocked hr hlock⟩
  | fail henc =>
    rw [Apart, henc] at he
    cases he
  | enter hor =>
    refine ⟨hs.exact, fun r hr => ?_⟩
    rcases mem_append.mp hr with hmem | hmem
    · exact (hs.walks r hmem).of_live rfl
    · cases mem_singleton.mp hmem
      exact ⟨hor.trans hs.exact.table_perm, fun _ => List.Perm.refl _, nofun⟩
  | @visit i pickQuit visit c rest visited present w hr hw =>
    have hlive : (h.setClient c (visit.apply pickQuit w)).liveID = h.liveID :=
      liveID_setClient_same hw (Client.same_apply visit pickQuit w)
    refine ⟨hs.exact.of_live rfl hlive, fun r hmem => ?_⟩
    rcases mem_or_eq_of_mem_set hmem with hmem | rfl
    · exact (hs.walks r hmem).of_live hlive
    · have hold := hs.walks _ (mem_of_getElem? hr)
      refine ⟨?_, fun _ => (hold.during rfl).trans (live_perm hlive).symm, nofun⟩
      rw [append_assoc, singleton_append]
      exact hold.whole
  | @leave i visit visited present hr =>
    refine ⟨hs.exact, fun r hmem => ?_⟩
    rcases mem_or_eq_of_mem_set hmem with hmem | rfl
    · exact (hs.walks r hmem).of_live rfl
    · exact ⟨(hs.walks _ (mem_of_getElem? hr)).whole, nofun, fun _ => rfl⟩

theorem Invariant.run {es : List HubStep} (hs : Invariant h)
    (hes : StepRun.Along (exec marshal) (Apart marshal) h es)
    (hrun : StepRun.run (exec marshal) h es = some h') : Invariant h' :=
  hes.invariant (fun _ _ _ hs he h => hs.acts he (Acts.of_exec h)) hs hrun

/-- The table has exactly the live clients. Every walk that has ended, a broadcast among them,
has been at each client that was live when it began, and the live clients stay the same while
it goes on. -/
structure Reaches (h : Hub) : Prop where
  table : h.table.Perm h.live
  visited : ∀ r ∈ h.readers, r.active = false → r.visited.Perm r.present
  during : ∀ r ∈ h.readers, r.active = true → r.present.Perm h.live

theorem broadcast_reaches {es : List HubStep}
    (hes : StepRun.Along (exec marshal) (Apart marshal) newWSHub es)
    (hrun : StepRun.run (exec marshal) newWSHub es = some h) : Reaches h := by
  have hs := Invariant.newWSHub.run hes hrun
  refine ⟨hs.exact.table_perm, fun r hr hended => ?_, fun r hr => (hs.walks r hr).during⟩
  have hwh := (hs.walks r hr).whole
  rw [(hs.walks r hr).ended hended, List.append_nil] at hwh
  exact hwh

def atNoon (second : Nat) (h : second < 60) : Clock := ⟨12, 0, second, by decide, by decide, h⟩

def loginEvent : EventBus.Event := ⟨"x", "auth.login", zeroTime, "info", "", "", "", "", []⟩

def connections : List HubStep :=
  [.upgrade true "u" (atNoon 1 (by decide)) [[1]], .upgrade true "v" (atNoon 1 (by decide)) [],
    .upgrade false "v" (atNoon 1 (by decide)) [], .register 0, .register 1,
    .upgrade true "u" (atNoon 2 (by decide)) [], .register 2,
    .broadcast loginEvent [2, 0, 1], .visit 0 false, .pump 0 .readFails, .visit 0 true,
    .pump 0 .closing, .visit 0 false, .leave 0, .finish 0,
    .broadcast loginEvent [1, 2], .visit 1 false]

theorem broadcast_reaches_three : ∃ h,
    StepRun.run (exec fun _ => some []) newWSHub connections = some h ∧
      h.live = [1, 2] ∧ h.readers.map Reader.visited = [[2, 0, 1], [1]] ∧ Reaches h := by
  have hany : (StepRun.run (exec fun _ => some []) newWSHub connections).any (fun h =>
      decide (h.live = [1, 2] ∧ h.readers.map Reader.visited = [[2, 0, 1], [1]])) = true := by
    decide +kernel
  obtain ⟨h, hrun, hh⟩ := Option.any_eq_true _ _ |>.mp hany
  obtain ⟨hlive, hvis⟩ := of_decide_eq_true hh
  exact ⟨h, hrun, hlive, hvis, broadcast_reaches (by decide +kernel) hrun⟩

/-- One user comes twice within a second. The second client takes the entry of the first, whose
write pump deletes it, and the next event is offered to nobody. -/
theorem broadcast_misses :
    (StepRun.run (exec fun _ => some []) newWSHub
      [.upgrade true "u" (atNoon 1 (by decide)) [], .upgrade true "u" (atNoon 1 (by decide)) [],
        .register 0, .register 1, .pump 0 .readFails, .pump 0 .closing, .finish 0,
        .broadcast loginEvent [], .leave 0]).any (fun h =>
      decide (h.live = [1] ∧ h.table = [] ∧
        h.readers = [⟨some (.offer []), [], [], [1], false⟩])) = true := by
  decide +kernel

end Hub

end WSHub

end Falx
