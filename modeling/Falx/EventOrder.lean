import Falx.EventConservation
import Mathlib.Data.List.Induction

/-! The order of the events of one publisher. A publisher tries each subscriber of its copy
once, so that what a channel has of its events is a part of what it has published, in order,
and lacks the event in hand as long as the subscriber is still to be tried. -/

namespace Falx

open List

namespace EventBus

def PublishPhase.left : PublishPhase → List Nat
  | idle | started _ => []
  | sending _ subs | dropping _ subs => subs
  | checked _ k subs => k :: subs

def PublishPhase.starting : PublishPhase → List Publication
  | started pub => [pub]
  | idle | sending _ _ | checked _ _ _ | dropping _ _ => []

def Step.publication (p : Nat) : Step → Option Event
  | .publish q ev newId now => if q = p then some (ev.stamp newId now) else none
  | _ => none

def Step.bufSize : Step → Option Nat
  | .subscribe _ bufSize _ => some bufSize
  | _ => none

def publications (p : Nat) (es : List Step) : List Publication :=
  (es.filterMap (Step.publication p)).mapIdx fun n ev => ⟨p, n, ev⟩

namespace System

def publishedBy (p : Nat) (s : System) : List Publication :=
  (s.log.map Prod.fst).filter fun pub => pub.publisher = p

def phase (p : Nat) (s : System) : PublishPhase :=
  match s.publishers[p]? with
  | none => .idle
  | some publisher => publisher.phase

def offered (p k : Nat) (s : System) : List Publication :=
  if k ∈ (s.phase p).left then (s.publishedBy p).dropLast else s.publishedBy p

def begun (p : Nat) (s : System) : List Publication := s.publishedBy p ++ (s.phase p).starting

/-- The calls that the publisher has begun are those published, but for one that has still to
take its copy. -/
def PhaseFits (p : Nat) (published : List Publication) : Option Publisher → Prop
  | none => published = []
  | some ⟨n, .idle⟩ => n = published.length
  | some ⟨n, .started pub⟩ =>
    n = published.length + 1 ∧ pub.publisher = p ∧ pub.call = published.length
  | some ⟨n, .sending pub subs⟩ | some ⟨n, .dropping pub subs⟩ =>
    n = published.length ∧ subs.Nodup ∧ published.getLast? = some pub
  | some ⟨n, .checked pub k subs⟩ =>
    n = published.length ∧ (k :: subs).Nodup ∧ published.getLast? = some pub

structure Ordered (s : System) : Prop where
  fits : ∀ p, PhaseFits p (s.publishedBy p) s.publishers[p]?
  channels : ∀ (k : Nat) (sub : Subscriber) (p : Nat), s.subs[k]? = some sub →
    (sub.ch.passed.filter fun pub => pub.publisher = p).Sublist (s.offered p k)

theorem Ordered.newBus : Ordered newBus where
  fits _ := rfl
  channels k sub p h := by cases h

variable {s s' : System} {p q k m : Nat} {x : Publisher} {phase : PublishPhase} {pub : Publication}

section

variable (h : s.publishers[p]? = some x)

include h

theorem publishers_setPhase (q : Nat) :
    (s.setPhase p m phase).publishers[q]? =
      if q = p then some ⟨m, phase⟩ else s.publishers[q]? := by
  have hlt : p < s.publishers.length := (List.getElem?_eq_some_iff.mp h).1
  rw [setPhase, List.getElem?_set]
  by_cases hq : q = p
  · subst hq
    simp [hlt]
  · simp [hq, Ne.symm hq]

theorem phase_setPhase (q : Nat) :
    (s.setPhase p m phase).phase q = if q = p then phase else s.phase q := by
  rw [System.phase, publishers_setPhase h]
  by_cases hq : q = p
  · rw [if_pos hq, if_pos hq]
  · rw [if_neg hq, if_neg hq]
    rfl

theorem phase_eq : s.phase p = x.phase := by
  rw [System.phase, h]

end

theorem offered_sublist (hlog : s'.publishedBy p = s.publishedBy p)
    (hleft : k ∈ (s'.phase p).left → k ∈ (s.phase p).left) :
    (s.offered p k).Sublist (s'.offered p k) := by
  rw [offered, offered, hlog]
  by_cases hk : k ∈ (s'.phase p).left
  · rw [if_pos hk, if_pos (hleft hk)]
  · rw [if_neg hk]
    split
    · exact dropLast_sublist _
    · exact List.Sublist.refl _

theorem Ordered.fits_of (hs : Ordered s) (h : s.publishers[p]? = some x) :
    PhaseFits p (s.publishedBy p) (some x) :=
  h ▸ hs.fits p

theorem Ordered.setPhase (hs : Ordered s) (h : s.publishers[p]? = some x)
    (hfits : PhaseFits p (s.publishedBy p) (some ⟨m, phase⟩))
    (hleft : ∀ k ∈ phase.left, k ∈ x.phase.left) : Ordered (s.setPhase p m phase) := by
  refine ⟨fun q => ?_, fun k sub q hk => ?_⟩
  · rw [publishers_setPhase h]
    by_cases hq : q = p
    · rw [if_pos hq, hq]
      exact hfits
    · rw [if_neg hq]
      exact hs.fits q
  · refine (hs.channels k sub q hk).trans (offered_sublist rfl fun hmem => ?_)
    rw [phase_setPhase h] at hmem
    split at hmem
    · rename_i hq
      rw [hq, phase_eq h]
      exact hleft k hmem
    · exact hmem

variable {sub : Subscriber} {ch : GoChannel Publication} {reg subs : List Nat} {n : Nat} {e : Step}
  {es : List Step}

theorem subs_setCh (h : s.subs[k]? = some sub) (ch : GoChannel Publication)
    (j : Nat) : (s.setCh k sub ch).subs[j]? =
      if j = k then some { sub with ch := ch } else s.subs[j]? := by
  have hlt : k < s.subs.length := (List.getElem?_eq_some_iff.mp h).1
  rw [setCh, List.getElem?_set]
  by_cases hj : j = k
  · subst hj
    simp [hlt]
  · simp [hj, Ne.symm hj]

theorem Ordered.setCh (hs : Ordered s) (h : s.subs[k]? = some sub)
    (hch : ∀ q, (ch.passed.filter fun pub => pub.publisher = q).Sublist (s.offered q k)) :
    Ordered (s.setCh k sub ch) := by
  refine ⟨hs.fits, fun j sub' q hj => ?_⟩
  rw [subs_setCh h] at hj
  split at hj
  · rename_i hjk
    cases hj
    rw [hjk]
    exact hch q
  · exact hs.channels j sub' q hj

theorem Ordered.consume (hs : Ordered s) (h : s.subs[k]? = some sub)
    (hch : ch.passed = sub.ch.passed) : Ordered (s.setCh k sub ch) := by
  refine hs.setCh h fun q => ?_
  rw [hch]
  exact hs.channels k sub q h

theorem Ordered.subscribe (hs : Ordered s) (id : String) (bufSize : Nat) (topics : List Topic) :
    Ordered (s.subscribe id bufSize topics) := by
  refine ⟨hs.fits, fun j sub q hj => ?_⟩
  rw [System.subscribe, List.getElem?_append] at hj
  split at hj
  · exact hs.channels j sub q hj
  · have hsub : sub.ch.passed = [] := by
      rw [mem_singleton.mp (mem_of_getElem? hj)]
      rfl
    rw [hsub]
    exact nil_sublist _

theorem publishers_spawn (l : List Publisher) (x : Publisher) (q : Nat) :
    (l ++ [x])[q]? = l[q]? ∨ (l[q]? = none ∧ (l ++ [x])[q]? = some x) := by
  rcases Nat.lt_trichotomy q l.length with hq | rfl | hq
  · exact .inl (List.getElem?_append_left hq)
  · exact .inr (by simp)
  · refine .inl ?_
    have hlen : (l ++ [x]).length ≤ q := by
      rw [length_append, length_singleton]
      omega
    rw [List.getElem?_eq_none hlen, List.getElem?_eq_none (by omega)]

theorem phase_spawn (q : Nat) :
    System.phase q { s with publishers := s.publishers ++ [⟨0, .idle⟩] } = s.phase q := by
  rw [System.phase, System.phase]
  rcases publishers_spawn s.publishers ⟨0, .idle⟩ q with hq | ⟨hnone, hq⟩
  · rw [hq]
  · rw [hq, hnone]

theorem Ordered.spawn (hs : Ordered s) :
    Ordered { s with publishers := s.publishers ++ [⟨0, .idle⟩] } := by
  refine ⟨fun q => ?_, fun j sub q hj => ?_⟩
  · have hfits := hs.fits q
    rcases publishers_spawn s.publishers ⟨0, .idle⟩ q with hq | ⟨hnone, hq⟩
    · rw [hq]
      exact hfits
    · rw [hnone] at hfits
      rw [hq]
      exact (congrArg List.length hfits).symm
  · refine (hs.channels j sub q hj).trans (offered_sublist rfl fun hmem => ?_)
    rwa [phase_spawn] at hmem

theorem publishedBy_append (hpub : pub.publisher = p) {t : System}
    (hlog : t.log = s.log ++ [(pub, reg)]) (q : Nat) :
    t.publishedBy q = if q = p then s.publishedBy p ++ [pub] else s.publishedBy q := by
  rw [publishedBy, hlog, map_append, filter_append]
  by_cases hq : q = p
  · rw [if_pos hq, hq]
    simp [publishedBy, hpub]
  · rw [if_neg hq]
    simp [publishedBy, hpub, Ne.symm hq]

theorem Ordered.snapshot (hs : Ordered s) (hnd : subs.Nodup)
    (h : s.publishers[p]? = some ⟨n, .started pub⟩) :
    Ordered { s.setPhase p n (.sending pub subs) with log := s.log ++ [(pub, reg)] } := by
  obtain ⟨hn, hpub, -⟩ := hs.fits_of h
  have hpublished := publishedBy_append hpub
    (show ({ s.setPhase p n (.sending pub subs) with log := s.log ++ [(pub, reg)] } : System).log =
      s.log ++ [(pub, reg)] from rfl)
  refine ⟨fun q => ?_, fun k sub q hk => ?_⟩
  · rw [hpublished]
    rw [publishers_setPhase h]
    split
    · exact ⟨by simp [hn], hnd, by simp⟩
    · exact hs.fits q
  · refine (hs.channels k sub q hk).trans ?_
    have hph : ({ s.setPhase p n (.sending pub subs) with
        log := s.log ++ [(pub, reg)] } : System).phase q =
          if q = p then .sending pub subs else s.phase q := phase_setPhase h q
    rw [offered, offered, hpublished, hph]
    by_cases hq : q = p
    · have hnone : k ∉ (s.phase p).left := by
        rw [phase_eq h]
        exact not_mem_nil
      rw [hq, if_pos rfl, if_pos rfl, if_neg hnone]
      split
      · rw [dropLast_concat]
      · exact sublist_append_left _ _
    · rw [if_neg hq, if_neg hq]

theorem Ordered.delivered (hs : Ordered s) {rest : List Nat}
    (h : s.publishers[p]? = some ⟨n, .checked pub k rest⟩) (hsub : s.subs[k]? = some sub)
    (hch : sub.ch.trySend pub = some ch) :
    Ordered ((s.setCh k sub ch).setPhase p n (.sending pub rest)) := by
  obtain ⟨hn, hnd, hlast⟩ := hs.fits_of h
  obtain ⟨hk, hrest⟩ := nodup_cons.mp hnd
  have ht : Ordered (s.setPhase p n (.sending pub rest)) :=
    hs.setPhase h ⟨hn, hrest, hlast⟩ fun j hj => .tail k hj
  have hpub : pub.publisher = p :=
    of_decide_eq_true (mem_filter.mp (mem_of_getLast? hlast)).2
  refine ht.setCh hsub fun q => ?_
  rw [GoChannel.passed_trySend hch, filter_append]
  by_cases hq : q = p
  · -- the subscriber was still to be tried, and is not any more
    have hin : k ∈ (s.phase p).left := by
      rw [phase_eq h]
      exact .head _
    have hout : k ∉ ((s.setPhase p n (.sending pub rest)).phase p).left := by
      rw [phase_setPhase h, if_pos rfl]
      exact hk
    have hchannel := hs.channels k sub p hsub
    obtain ⟨earlier, hearl⟩ := List.getLast?_eq_some_iff.mp hlast
    rw [offered, if_pos hin, hearl, dropLast_concat] at hchannel
    rw [hq, offered, if_neg hout]
    show List.Sublist _ (s.publishedBy p)
    rw [hearl]
    simpa [hpub] using hchannel
  · have hnone : [pub].filter (fun pub => decide (pub.publisher = q)) = [] := by
      simp [hpub, Ne.symm hq]
    rw [hnone, append_nil]
    exact ht.channels k sub q hsub

theorem Ordered.acts (hs : Ordered s) (hc : Conserved s) (he : e.Regular) (h : Acts s e s') :
    Ordered s' := by
  cases h with
  | spawn => exact hs.spawn
  | subscribe => exact hs.subscribe _ _ _
  | publish hp =>
    exact hs.setPhase hp ⟨congrArg (· + 1) (hs.fits_of hp), rfl, hs.fits_of hp⟩ fun k hk => hk
  | snapshot hp =>
    exact hs.snapshot (by rw [hc.registered]; exact nodup_range.filter _) hp
  | skip hp hsub hshut => exact absurd hshut (hc.not_closed hsub)
  | check hp hsub hopen => exact hs.setPhase hp (hs.fits_of hp :) fun j hj => hj
  | deliver hp hsub hch => exact hs.delivered hp hsub hch
  | @refuse p n k pub rest hp =>
    obtain ⟨hn, hnd, hlast⟩ := hs.fits_of hp
    exact hs.setPhase hp ⟨hn, hnd.of_cons, hlast⟩ fun j hj => .tail k hj
  | @count p n pub rest hp =>
    have ht : Ordered (s.setPhase p n (.sending pub rest)) :=
      hs.setPhase hp (hs.fits_of hp :) fun k hk => hk
    exact ⟨ht.fits, ht.channels⟩
  | finish hp => exact hs.setPhase hp (hs.fits_of hp).1 fun k hk => absurd hk not_mem_nil
  | receive hsub => exact hs.consume hsub GoChannel.passed_receive
  | giveUp hsub => exact hs.consume hsub GoChannel.passed_giveUp
  | unsubscribe hk | mark hc hsub | remove hc hsub | test hc hsub
  | drain hc hsub hch | close hc hsub hch => exact absurd he not_false

theorem publications_append :
    publications p (es ++ [e]) = publications p es ++
      (e.publication p).toList.map fun ev => ⟨p, (publications p es).length, ev⟩ := by
  rw [publications, publications, filterMap_append]
  cases he : e.publication p with
  | none => simp [he]
  | some ev => simp [he, mapIdx_concat]

theorem begun_setPhase (h : s.publishers[p]? = some x) (hold : x.phase.starting = [])
    (hnew : phase.starting = []) (q : Nat) : (s.setPhase p m phase).begun q = s.begun q := by
  rw [begun, begun, phase_setPhase h]
  split
  · rename_i hq
    rw [hq, phase_eq h, hold, hnew]
    rfl
  · rfl

theorem begun_snapshot (hs : Ordered s) (h : s.publishers[p]? = some ⟨n, .started pub⟩) (q : Nat) :
    begun q { s.setPhase p n (.sending pub subs) with log := s.log ++ [(pub, reg)] } =
      s.begun q := by
  have hph : System.phase q { s.setPhase p n (.sending pub subs) with
      log := s.log ++ [(pub, reg)] } = if q = p then .sending pub subs else s.phase q :=
    phase_setPhase h q
  rw [begun, begun, hph, publishedBy_append (hs.fits_of h).2.1 rfl]
  by_cases hq : q = p
  · rw [if_pos hq, if_pos hq, hq, phase_eq h]
    exact append_nil _
  · rw [if_neg hq, if_neg hq]

theorem begun_publish (hs : Ordered s) (h : s.publishers[p]? = some ⟨n, .idle⟩) (ev : Event)
    (q : Nat) : (s.setPhase p (n + 1) (.started ⟨p, n, ev⟩)).begun q =
      if q = p then s.begun p ++ [⟨p, (s.begun p).length, ev⟩] else s.begun q := by
  have hbg : s.begun p = s.publishedBy p := by
    rw [begun, phase_eq h]
    exact append_nil _
  rw [begun, phase_setPhase h]
  by_cases hq : q = p
  · rw [if_pos hq, if_pos hq, hbg, hq]
    have hn : n = (s.publishedBy p).length := hs.fits_of h
    rw [hn]
    rfl
  · rw [if_neg hq, if_neg hq]
    rfl

theorem begun_acts (hs : Ordered s) (h : Acts s e s') (q : Nat) :
    s'.begun q = s.begun q ++
      (e.publication q).toList.map fun ev => ⟨q, (s.begun q).length, ev⟩ := by
  have hnil : s.begun q = s.begun q ++ [] := (append_nil _).symm
  cases h with
  | @publish p n ev newId now hp =>
    rw [begun_publish hs hp, Step.publication]
    by_cases hq : q = p
    · rw [if_pos hq, if_pos hq.symm, hq]
      rfl
    · rw [if_neg hq, if_neg (Ne.symm hq)]
      exact hnil
  | spawn =>
    rw [begun, phase_spawn]
    exact hnil
  | subscribe => exact hnil
  | snapshot hp => exact (begun_snapshot hs hp q).trans hnil
  | skip hp hsub hshut | check hp hsub hopen | refuse hp | finish hp =>
    exact (begun_setPhase hp rfl rfl q).trans hnil
  | @deliver p n k pub rest sub ch hp | @count p n pub rest hp =>
    have hbg : (s.setPhase p n (.sending pub rest)).begun q = s.begun q :=
      begun_setPhase hp rfl rfl q
    exact Eq.trans hbg hnil
  | receive hsub | giveUp hsub | unsubscribe hk | mark hc hsub | remove hc hsub | test hc hsub
  | drain hc hsub hch | close hc hsub hch => exact hnil

def capacities (s : System) : List Nat := s.subs.map fun sub => sub.ch.capacity

theorem capacities_acts (he : e.Regular) (h : Acts s e s') :
    s'.capacities = s.capacities ++ e.bufSize.toList := by
  have hnil : s.capacities = s.capacities ++ [] := (append_nil _).symm
  cases h with
  | subscribe => exact map_append
  | spawn | publish hp | snapshot hp | refuse hp | count hp | finish hp
  | skip hp hsub hshut | check hp hsub hopen => exact hnil
  | deliver hp hsub hch =>
    exact (map_set_eq hsub (GoChannel.capacity_trySend hch)).trans hnil
  | receive hsub => exact (map_set_eq hsub GoChannel.capacity_receive).trans hnil
  | giveUp hsub => exact (map_set_eq hsub GoChannel.capacity_giveUp).trans hnil
  | unsubscribe hk | mark hc hsub | remove hc hsub | test hc hsub
  | drain hc hsub hch | close hc hsub hch => exact absurd he not_false

structure History (es : List Step) (s : System) : Prop where
  conserved : Conserved s
  ordered : Ordered s
  begun : ∀ p, s.begun p = publications p es
  capacities : s.capacities = es.filterMap Step.bufSize

theorem History.acts (hs : History es s) (he : e.Regular)
    (h : Acts s e s') : History (es ++ [e]) s' where
  conserved := hs.conserved.acts he h
  ordered := hs.ordered.acts hs.conserved he h
  begun p := by
    rw [begun_acts hs.ordered h, hs.begun, publications_append]
  capacities := by
    rw [capacities_acts he h, hs.capacities, filterMap_append]
    cases hsize : e.bufSize <;> simp [hsize]

theorem History.run (hes : ∀ e ∈ es, e.Regular) (h : StepRun.run System.exec newBus es = some s) :
    History es s := by
  induction es using List.reverseRecOn generalizing s with
  | nil =>
    cases h
    exact ⟨Conserved.newBus, Ordered.newBus, fun _ => rfl, rfl⟩
  | append_singleton es e ih =>
    obtain ⟨t, ht, hlast⟩ := StepRun.run_append_inv h
    obtain ⟨u, hu, hnil⟩ := StepRun.run_cons_inv hlast
    cases hnil
    have hearl : History es t := ih (fun e' he' => hes e' (mem_append_left _ he')) ht
    exact hearl.acts (hes e (by simp)) (Acts.of_exec hu)

def Quiet (s : System) : Prop := ∀ x ∈ s.publishers, x.phase = .idle

instance (s : System) : Decidable s.Quiet :=
  inferInstanceAs (Decidable (∀ x ∈ s.publishers, x.phase = .idle))

theorem Quiet.outstanding_eq_zero (h : s.Quiet) : s.outstanding = 0 := by
  refine sum_eq_zero fun n hn => ?_
  obtain ⟨x, hx, rfl⟩ := mem_map.mp hn
  rw [Publisher.outstanding, h x hx]

/-- What a run may be relied on for: every pair is accounted for once nobody publishes, no buffer
is longer than it was asked to be, and what a subscriber has received from a publisher is a part
of that publisher's calls in their order. -/
structure Delivers (es : List Step) (s : System) : Prop where
  conserved : s.Quiet → s.pairs = s.received + s.buffered + s.dropped
  bounded : ∀ (k : Nat) (sub : Subscriber), s.subs[k]? = some sub →
    ∃ bufSize, (es.filterMap Step.bufSize)[k]? = some bufSize ∧ sub.ch.buffer.length ≤ bufSize
  ordered : ∀ sub ∈ s.subs, ∀ p,
    (sub.ch.taken.filter fun pub => pub.publisher = p).Sublist (publications p es)

theorem History.delivers (hs : History es s) : Delivers es s := by
  refine ⟨fun hq => ?_, fun k sub hk => ?_, fun sub hsub p => ?_⟩
  · have hbal := hs.conserved.balance
    rw [hq.outstanding_eq_zero, carried_eq] at hbal
    exact hbal
  · refine ⟨sub.ch.capacity, ?_, sub.ch.buffer_le⟩
    rw [← hs.capacities, System.capacities, List.getElem?_map, hk]
    rfl
  · obtain ⟨k, hk⟩ := List.getElem?_of_mem hsub
    have htk : (sub.ch.taken.filter fun pub => pub.publisher = p).Sublist
        (sub.ch.passed.filter fun pub => pub.publisher = p) :=
      (sublist_append_left _ _).filter _
    have hoff : (s.offered p k).Sublist (s.begun p) := by
      rw [offered]
      split
      · exact (dropLast_sublist _).trans (sublist_append_left _ _)
      · exact sublist_append_left _ _
    rw [← hs.begun]
    exact htk.trans ((hs.ordered.channels k sub p hk).trans hoff)

theorem delivers_of_run {es : List Step} (hes : ∀ e ∈ es, e.Regular)
    (h : StepRun.run System.exec newBus es = some s) : Delivers es s :=
  (History.run hes h).delivers

def blocked (id : String) : Event :=
  ⟨id, "security.ip.blocked", zeroTime, "warning", "", "", "", "", []⟩

def overlapping : List Step :=
  [.spawn, .spawn, .subscribe "a" 1 ["security.ip.blocked"],
    .subscribe "b" 1 ["security.ip.blocked", "auth.login"], .receive 0,
    .publish 0 (blocked "x") "" zeroTime, .publish 1 (blocked "y") "" zeroTime, .snapshot 1,
    .snapshot 0, .check 1, .check 0, .send 1, .send 0, .check 0, .send 0, .finish 0, .check 1,
    .send 1, .countDrop 1, .finish 1, .receive 1]

theorem delivers_of_run_overlapping : ∃ s, (∀ e ∈ overlapping, e.Regular) ∧
    StepRun.run System.exec newBus overlapping = some s ∧ s.Quiet ∧ s.pairs = 4 ∧
    s.received = 2 ∧ s.buffered = 1 ∧ s.dropped = 1 ∧ Delivers overlapping s := by
  have hreg : ∀ e ∈ overlapping, e.Regular := by decide
  have hany : (StepRun.run System.exec newBus overlapping).any (fun s => decide (s.Quiet ∧
      s.pairs = 4 ∧ s.received = 2 ∧ s.buffered = 1 ∧ s.dropped = 1)) = true := by decide +kernel
  obtain ⟨s, hrun, hs⟩ := Option.any_eq_true _ _ |>.mp hany
  obtain ⟨hq, hpairs, hrcv, hbuffered, hdrop⟩ := of_decide_eq_true hs
  exact ⟨s, hreg, hrun, hq, hpairs, hrcv, hbuffered, hdrop, delivers_of_run hreg hrun⟩

end System

end EventBus

end Falx
