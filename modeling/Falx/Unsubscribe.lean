import Falx.EventBus

/-! `Unsubscribe` takes the first subscriber of the ID off the list of each topic that its
subscriber has named, and then empties and closes the channel. -/

namespace Falx

open List

namespace EventBus

section Lists

variable {α : Type} {p : α → Bool} {l : List α}

theorem countP_eraseP_le {n : Nat} (h : l.countP p ≤ n + 1) : (l.eraseP p).countP p ≤ n := by
  induction l with
  | nil => exact Nat.zero_le n
  | cons a l ih =>
    cases ha : p a with
    | true =>
      rw [countP_cons_of_pos ha] at h
      rw [eraseP_cons_of_pos ha]
      omega
    | false =>
      have hna : ¬ p a = true := by simp [ha]
      rw [countP_cons_of_neg hna] at h
      rw [eraseP_cons_of_neg hna, countP_cons_of_neg hna]
      exact ih h

theorem filter_eraseP : (l.eraseP p).filter (fun a => !p a) = l.filter fun a => !p a := by
  induction l with
  | nil => rfl
  | cons a l ih =>
    cases ha : p a with
    | true => simp [ha]
    | false => simp [ha, ih]

theorem eraseP_iterate {n : Nat} (h : l.countP p ≤ n) :
    (List.eraseP p)^[n] l = l.filter fun a => !p a := by
  induction n generalizing l with
  | zero =>
    have hnone : ∀ a ∈ l, ¬ p a = true := countP_eq_zero.mp (Nat.le_zero.mp h)
    exact (filter_eq_self.mpr fun a ha => by simpa using hnone a ha).symm
  | succ n ih => rw [Function.iterate_succ_apply, ih (countP_eraseP_le h), filter_eraseP]

theorem iterate_eraseP_sublist (n : Nat) : ((List.eraseP p)^[n] l).Sublist l := by
  induction n generalizing l with
  | zero => exact List.Sublist.refl l
  | succ n ih =>
    exact ih.trans (eraseP_sublist ..)

end Lists

namespace System

variable {s s' : System} {e : Step} {c k : Nat} {sub : Subscriber}

def sameID (sub : Subscriber) (s : System) (j : Nat) : Bool :=
  s.subs[j]?.any fun other => other.id == sub.id

theorem remove_apply (sub : Subscriber) (s : System) (t : Topic) :
    s.remove sub t = (List.eraseP (s.sameID sub))^[sub.topics.count t] (s.subscribers t) :=
  foldl_update_iterate (List.eraseP (s.sameID sub)) sub.topics s.subscribers t

theorem remove_sublist (sub : Subscriber) (s : System) (t : Topic) :
    (s.remove sub t).Sublist (s.subscribers t) := by
  rw [remove_apply]
  exact iterate_eraseP_sublist _

structure Listed (s : System) : Prop where
  made : ∀ t j, j ∈ s.subscribers t → j < s.subs.length
  count : ∀ (t : Topic) (j : Nat) (sub : Subscriber), s.subs[j]? = some sub →
    (s.subscribers t).count j ≤ sub.topics.count t

theorem Listed.newBus : Listed newBus where
  made t j h := by cases h
  count t j sub h := by cases h

/-- A subscriber keeps its name and its topics, and what has been closed stays closed. -/
structure Keeps (sub sub' : Subscriber) : Prop where
  name : sub'.id = sub.id
  topics : sub'.topics = sub.topics
  closed : sub.closed = true → sub'.closed = true
  shut : sub.ch.closed = true → sub'.ch.closed = true

theorem Keeps.refl (sub : Subscriber) : Keeps sub sub := ⟨rfl, rfl, id, id⟩

theorem Keeps.trans {sub₁ sub₂ sub₃ : Subscriber} (h : Keeps sub₁ sub₂) (h' : Keeps sub₂ sub₃) :
    Keeps sub₁ sub₃ :=
  ⟨h'.name.trans h.name, h'.topics.trans h.topics, h'.closed ∘ h.closed, h'.shut ∘ h.shut⟩

theorem Keeps.setCh {ch : GoChannel Publication}
    (hch : sub.ch.closed = true → ch.closed = true) : Keeps sub { sub with ch := ch } :=
  ⟨rfl, rfl, fun h => h, hch⟩

theorem keeps_set {subs : List Subscriber} {sub' other : Subscriber} {j : Nat}
    (hsub : subs[k]? = some sub) (hkeep : Keeps sub sub') (hj : subs[j]? = some other) :
    ∃ other', (subs.set k sub')[j]? = some other' ∧ Keeps other other' := by
  by_cases hjk : k = j
  · subst hjk
    obtain rfl : sub = other := Option.some.inj (hsub.symm.trans hj)
    have hlt : k < subs.length := (List.getElem?_eq_some_iff.mp hsub).1
    exact ⟨sub', List.getElem?_set_self hlt, hkeep⟩
  · exact ⟨other, (List.getElem?_set_ne hjk).trans hj, Keeps.refl other⟩

theorem Acts.keeps {j : Nat} (h : Acts s e s') (hj : s.subs[j]? = some sub) :
    ∃ sub', s'.subs[j]? = some sub' ∧ Keeps sub sub' := by
  have hsame : ∃ sub', s.subs[j]? = some sub' ∧ Keeps sub sub' := ⟨sub, hj, Keeps.refl sub⟩
  cases h with
  | subscribe =>
    have hlt : j < s.subs.length := (List.getElem?_eq_some_iff.mp hj).1
    exact ⟨sub, (List.getElem?_append_left hlt).trans hj, Keeps.refl sub⟩
  | deliver hp hsub hch =>
    refine keeps_set hsub (Keeps.setCh fun hshut => ?_) hj
    rw [GoChannel.trySend_of_closed hshut] at hch
    cases hch
  | receive hsub =>
    exact keeps_set hsub (Keeps.setCh fun hshut => GoChannel.closed_receive.trans hshut) hj
  | giveUp hsub => exact keeps_set hsub (Keeps.setCh id) hj
  | mark hc hsub => exact keeps_set hsub ⟨rfl, rfl, fun _ => rfl, id⟩ hj
  | drain hc hsub hch =>
    exact keeps_set hsub (Keeps.setCh (GoChannel.closed_discard hch).trans) hj
  | close hc hsub hch => exact keeps_set hsub (Keeps.setCh fun _ => GoChannel.closed_close hch) hj
  | spawn | publish hp | snapshot hp | refuse hp | count hp | finish hp
  | skip hp hsub hshut | check hp hsub hopen | unsubscribe hk
  | remove hc hsub | test hc hsub => exact hsame

theorem Acts.listing (h : Acts s e s') :
    (s'.subs.length = s.subs.length ∧ s'.subscribers = s.subscribers) ∨
      (∃ id bufSize topics, e = .subscribe id bufSize topics ∧
        s' = s.subscribe id bufSize topics) ∨
      ∃ c k sub, e = .unsubscribeStep c ∧ s.unsubscribes[c]? = some (k, .removing) ∧
        s.subs[k]? = some sub ∧
        s' = setCall c k .checking { s with subscribers := s.remove sub } := by
  have hset : ∀ (k : Nat) (sub : Subscriber), (s.subs.set k sub).length = s.subs.length :=
    fun k sub => length_set
  cases h with
  | subscribe => exact .inr (.inl ⟨_, _, _, rfl, rfl⟩)
  | remove hc hsub => exact .inr (.inr ⟨_, _, _, rfl, hc, hsub, rfl⟩)
  | spawn | publish hp | snapshot hp | refuse hp | count hp | finish hp
  | skip hp hsub hshut | check hp hsub hopen | unsubscribe hk
  | test hc hsub => exact .inl ⟨rfl, rfl⟩
  | deliver hp hsub hch | receive hsub | giveUp hsub | mark hc hsub
  | drain hc hsub hch | close hc hsub hch => exact .inl ⟨hset _ _, rfl⟩

theorem Listed.subscribe (hs : Listed s) (id : String) (bufSize : Nat) (topics : List Topic) :
    Listed (s.subscribe id bufSize topics) := by
  have hlen : (s.subscribe id bufSize topics).subs.length = s.subs.length + 1 := length_append
  refine ⟨fun t j hj => ?_, fun t j sub hsub => ?_⟩
  · rw [subscribers_subscribe] at hj
    rw [hlen]
    rcases mem_append.mp hj with hold | hnew
    · have hlt := hs.made t j hold
      omega
    · rw [eq_of_mem_replicate hnew]
      exact Nat.lt_succ_self _
  · rw [subscribers_subscribe, count_append, count_replicate]
    rw [System.subscribe, List.getElem?_append] at hsub
    split at hsub
    · rename_i hlt
      rw [if_neg (by simpa using Nat.ne_of_gt hlt), Nat.add_zero]
      exact hs.count t j sub hsub
    · rename_i hge
      have hj : j = s.subs.length := by
        have hlt := (List.getElem?_eq_some_iff.mp hsub).1
        rw [length_singleton] at hlt
        omega
      have hnone : (s.subscribers t).count j = 0 :=
        count_eq_zero.mpr fun hmem => hge (hs.made t j hmem)
      rw [hnone, hj, beq_self_eq_true, if_pos rfl, Nat.zero_add,
        mem_singleton.mp (mem_of_getElem? hsub)]

theorem Listed.acts (hs : Listed s) (h : Acts s e s') : Listed s' := by
  have hback : s'.subs.length = s.subs.length → ∀ (j : Nat) (sub' : Subscriber),
      s'.subs[j]? = some sub' →
        ∃ sub : Subscriber, s.subs[j]? = some sub ∧ sub'.topics = sub.topics := by
    intro hlen j sub' hsub'
    have hlt : j < s.subs.length := hlen ▸ (List.getElem?_eq_some_iff.mp hsub').1
    obtain ⟨sub'', hsub'', hke⟩ := h.keeps (List.getElem?_eq_getElem hlt)
    rw [hsub'] at hsub''
    cases hsub''
    exact ⟨_, List.getElem?_eq_getElem hlt, hke.topics⟩
  rcases h.listing with ⟨hlen, hls⟩ | ⟨id, bufSize, topics, -, rfl⟩ | ⟨c, k, sub, -, hc, hk, rfl⟩
  · refine ⟨fun t j hj => ?_, fun t j sub' hsub' => ?_⟩
    · rw [hls] at hj
      exact hlen ▸ hs.made t j hj
    · obtain ⟨sub, hsub, htopics⟩ := hback hlen j sub' hsub'
      rw [hls, htopics]
      exact hs.count t j sub hsub
  · exact hs.subscribe id bufSize topics
  · refine ⟨fun t j hj => hs.made t j ((remove_sublist sub s t).subset hj), fun t j sub' hsub' => ?_⟩
    exact ((remove_sublist sub s t).count_le j).trans (hs.count t j sub' hsub')

theorem Listed.run {es : List Step} (hs : Listed s) (h : StepRun.run exec s es = some s') :
    Listed s' :=
  StepRun.run_invariant (Q := fun _ => True) (fun _ _ _ hs _ h => hs.acts (Acts.of_exec h))
    (fun _ _ => trivial) hs h

theorem Listed.remove_eq (hs : Listed s) (hsub : s.subs[k]? = some sub)
    (hid : ∀ t ∈ sub.topics, ∀ j ∈ s.subscribers t, s.sameID sub j = true → j = k)
    (t : Topic) : s.remove sub t = (s.subscribers t).filter (· ≠ k) := by
  rw [remove_apply]
  by_cases ht : t ∈ sub.topics
  · have hsame : ∀ j ∈ s.subscribers t, s.sameID sub j = decide (j = k) := by
      intro j hj
      by_cases hjk : j = k
      · subst hjk
        simp [sameID, hsub]
      · simpa [hjk] using fun h => hjk (hid t ht j hj h)
    have hcnt : (s.subscribers t).countP (s.sameID sub) = (s.subscribers t).count k := by
      refine countP_congr fun j hj => ?_
      rw [hsame j hj]
      simp
    rw [eraseP_iterate (hcnt ▸ hs.count t k sub hsub)]
    refine filter_congr fun j hj => ?_
    rw [hsame j hj]
    simp
  · have hzero : sub.topics.count t = 0 := count_eq_zero.mpr ht
    have hnone : k ∉ s.subscribers t := by
      refine count_eq_zero.mp (Nat.le_zero.mp ?_)
      exact hzero ▸ hs.count t k sub hsub
    rw [hzero]
    refine (filter_eq_self.mpr fun j hj => ?_).symm
    exact decide_eq_true fun hjk => hnone (hjk ▸ hj)

theorem Acts.call_of_ne {x : Nat × UnsubscribePhase} (h : Acts s e s')
    (he : e ≠ .unsubscribeStep c) (hc : s.unsubscribes[c]? = some x) :
    s'.unsubscribes[c]? = some x := by
  have hset : ∀ (d : Nat) (y : Nat × UnsubscribePhase), e = .unsubscribeStep d →
      (s.unsubscribes.set d y)[c]? = some x := by
    rintro d y rfl
    have hne : d ≠ c := fun hdc => he (congrArg Step.unsubscribeStep hdc)
    exact (List.getElem?_set_ne hne).trans hc
  cases h with
  | unsubscribe hk =>
    have hlt : c < s.unsubscribes.length := (List.getElem?_eq_some_iff.mp hc).1
    exact (List.getElem?_append_left hlt).trans hc
  | mark hd hsub | remove hd hsub | test hd hsub
  | drain hd hsub hch | close hd hsub hch => exact hset _ _ rfl
  | spawn | subscribe | publish hp | snapshot hp | refuse hp | count hp | finish hp
  | skip hp hsub hshut | check hp hsub hopen | deliver hp hsub hch
  | receive hsub | giveUp hsub => exact hc

theorem call_setCall {phase phase' : UnsubscribePhase} (hc : s.unsubscribes[c]? = some (k, phase)) :
    (s.setCall c k phase').unsubscribes[c]? = some (k, phase') :=
  List.getElem?_set_self (List.getElem?_eq_some_iff.mp hc).1

def without (k : Nat) (s : System) : Topic → List Nat :=
  fun t => (s.subscribers t).filter (· ≠ k)

/-- Nobody else on the lists of the subscriber's topics has its ID. -/
def SoleID (k : Nat) (s : System) : Prop :=
  ∀ sub ∈ s.subs[k]?, ∀ t ∈ sub.topics, ∀ j ∈ s.subscribers t, s.sameID sub j = true → j = k

instance (k : Nat) (s : System) : Decidable (SoleID k s) :=
  inferInstanceAs (Decidable (∀ sub ∈ s.subs[k]?, ∀ t ∈ sub.topics, ∀ j ∈ s.subscribers t,
    s.sameID sub j = true → j = k))

/-- What a call that began in the first state has done when it is in the phase. -/
def Reached (k : Nat) (s₀ s : System) : UnsubscribePhase → Prop
  | .marking | .removing => s.subscribers = s₀.subscribers
  | .checking | .draining | .closing => s.subscribers = s₀.without k
  | .done => s.subscribers = s₀.without k ∧
    ∃ sub, s.subs[k]? = some sub ∧ sub.ch.closed = true

structure Progress (c k : Nat) (s₀ s : System) : Prop where
  listed : Listed s
  subs : ∀ (j : Nat) (sub : Subscriber), s₀.subs[j]? = some sub →
    ∃ sub', s.subs[j]? = some sub' ∧ Keeps sub sub'
  call : ∃ phase, s.unsubscribes[c]? = some (k, phase) ∧ Reached k s₀ s phase

end System

def Step.Beside (c : Nat) : Step → Prop
  | .subscribe _ _ _ => False
  | .unsubscribeStep d => d = c
  | _ => True

instance (c : Nat) : (e : Step) → Decidable (e.Beside c)
  | .subscribe _ _ _ => isFalse not_false
  | .unsubscribeStep d => inferInstanceAs (Decidable (d = c))
  | .spawn | .publish _ _ _ _ | .snapshot _ | .check _ | .send _ | .countDrop _ | .finish _
  | .receive _ | .giveUp _ | .unsubscribe _ => isTrue trivial

namespace System

variable {s₀ : System}

theorem Progress.soleID (hp : Progress c k s₀ s) (h₀ : Listed s₀) (hk : s₀.subs[k]? = some sub)
    (hid : SoleID k s₀) (hls : s.subscribers = s₀.subscribers) : SoleID k s := by
  intro sub' hsub' t ht j hj hsame
  obtain ⟨sub'', hsub'', hke⟩ := hp.subs k sub hk
  cases (Option.mem_def.mp hsub').symm.trans hsub''
  rw [hls] at hj
  have hmade : j < s₀.subs.length := h₀.made t j hj
  obtain ⟨other, ho, hkept⟩ := hp.subs j _ (List.getElem?_eq_getElem hmade)
  refine hid sub hk t (hke.topics ▸ ht) j hj ?_
  simp only [sameID, ho, List.getElem?_eq_getElem hmade, Option.any_some, beq_iff_eq] at hsame ⊢
  rw [← hkept.name, hsame, hke.name]

theorem Progress.call_own (h₀ : Listed s₀) (hk : s₀.subs[k]? = some sub) (hid : SoleID k s₀)
    (hp : Progress c k s₀ s) (h : Acts s (.unsubscribeStep c) s') :
    ∃ phase, s'.unsubscribes[c]? = some (k, phase) ∧ Reached k s₀ s' phase := by
  obtain ⟨phase, hc, hat⟩ := hp.call
  cases h with
  | mark hd hsub =>
    cases hc.symm.trans hd
    exact ⟨_, call_setCall hd, hat⟩
  | remove hd hsub =>
    cases hc.symm.trans hd
    refine ⟨_, call_setCall hd, funext fun t => ?_⟩
    have hremove := hp.listed.remove_eq hsub (hp.soleID h₀ hk hid hat _ hsub) t
    rw [hat] at hremove
    exact hremove
  | test hd hsub =>
    cases hc.symm.trans hd
    refine ⟨_, call_setCall hd, ?_⟩
    split <;> exact hat
  | drain hd hsub hch =>
    cases hc.symm.trans hd
    exact ⟨_, call_setCall hd, hat⟩
  | @close _ _ sub' ch hd hsub hch =>
    cases hc.symm.trans hd
    have hlt : k < s.subs.length := (List.getElem?_eq_some_iff.mp hsub).1
    exact ⟨_, call_setCall hd, hat, { sub' with ch := ch },
      List.getElem?_set_self hlt, GoChannel.closed_close hch⟩

theorem Progress.call_beside (hp : Progress c k s₀ s) (he : e.Beside c)
    (ho : e ≠ .unsubscribeStep c) (h : Acts s e s') :
    ∃ phase, s'.unsubscribes[c]? = some (k, phase) ∧ Reached k s₀ s' phase := by
  obtain ⟨phase, hc, hat⟩ := hp.call
  have hls : s'.subscribers = s.subscribers := by
    rcases h.listing with ⟨-, hls⟩ | ⟨id, bufSize, topics, rfl, -⟩ | ⟨d, j, sub, rfl, -⟩
    · exact hls
    · exact absurd he not_false
    · exact absurd (congrArg Step.unsubscribeStep he) ho
  refine ⟨phase, h.call_of_ne ho hc, ?_⟩
  cases phase with
  | marking | removing | checking | draining | closing => exact hls.trans hat
  | done =>
    obtain ⟨hlist, sub', hsub', hshut⟩ := hat
    obtain ⟨sub'', hsub'', hk⟩ := h.keeps hsub'
    exact ⟨hls.trans hlist, sub'', hsub'', hk.shut hshut⟩

theorem Progress.acts (h₀ : Listed s₀) (hk : s₀.subs[k]? = some sub) (hid : SoleID k s₀)
    (hp : Progress c k s₀ s) (he : e.Beside c) (h : Acts s e s') : Progress c k s₀ s' := by
  refine ⟨hp.listed.acts h, fun j sub hj => ?_, ?_⟩
  · obtain ⟨sub', hsub', hke⟩ := hp.subs j sub hj
    obtain ⟨sub'', hsub'', hk'⟩ := h.keeps hsub'
    exact ⟨sub'', hsub'', hke.trans hk'⟩
  · by_cases hown : e = .unsubscribeStep c
    · subst hown
      exact hp.call_own h₀ hk hid h
    · exact hp.call_beside he hown h

def Gone (k : Nat) (s : System) : Prop :=
  (∀ t, k ∉ s.subscribers t) ∧ ∃ sub, s.subs[k]? = some sub ∧ sub.ch.closed = true

theorem Gone.acts (hg : Gone k s) (h : Acts s e s') : Gone k s' := by
  obtain ⟨hls, sub, hsub, hshut⟩ := hg
  obtain ⟨sub', hsub', hk⟩ := h.keeps hsub
  refine ⟨fun t => ?_, sub', hsub', hk.shut hshut⟩
  rcases h.listing with ⟨-, hsame⟩ | ⟨id, bufSize, topics, -, rfl⟩ | ⟨d, j, gone, -, -, -, rfl⟩
  · rw [hsame]
    exact hls t
  · rw [subscribers_subscribe]
    intro hmem
    rcases mem_append.mp hmem with hold | hnew
    · exact hls t hold
    · have hlt : k < s.subs.length := (List.getElem?_eq_some_iff.mp hsub).1
      exact Nat.ne_of_lt hlt (eq_of_mem_replicate hnew)
  · exact fun hmem => hls t ((remove_sublist gone s t).subset hmem)

theorem Gone.run {es : List Step} (hg : Gone k s) (h : StepRun.run exec s es = some s') :
    Gone k s' :=
  StepRun.run_invariant (Q := fun _ => True) (fun _ _ _ hg _ h => hg.acts (Acts.of_exec h))
    (fun _ _ => trivial) hg h

theorem Progress.run {es : List Step} (h₀ : Listed s₀) (hk : s₀.subs[k]? = some sub)
    (hid : SoleID k s₀) (hp : Progress c k s₀ s) (hes : ∀ e ∈ es, e.Beside c)
    (h : StepRun.run exec s es = some s') : Progress c k s₀ s' :=
  StepRun.run_invariant (fun _ _ _ hp he h => hp.acts h₀ hk hid he (Acts.of_exec h)) hes hp h

/-- The subscriber, and nobody else, has been taken off its lists, and no event can be sent to
it whatever happens next. -/
structure Unsubscribed (k : Nat) (s s' : System) : Prop where
  lists : ∀ t, s'.subscribers t = (s.subscribers t).filter (· ≠ k)
  never : ∀ es s'', StepRun.run exec s' es = some s'' → (∀ t, k ∉ s''.subscribers t) ∧
    ∀ sub, s''.subs[k]? = some sub → ∀ pub, sub.ch.trySend pub = none

def beforeUnsubscribe (id : String) : List Step :=
  [.subscribe "a" 2 ["auth.login"], .subscribe id 2 ["auth.login", "auth.logout", "auth.login"],
    .spawn, .publish 0 ⟨"x", "auth.login", zeroTime, "info", "", "", "", "", []⟩ "" zeroTime,
    .snapshot 0, .check 0, .send 0, .check 0, .unsubscribe 1]

def duringUnsubscribe : List Step :=
  [.unsubscribeStep 0, .send 0, .unsubscribeStep 0, .receive 0, .unsubscribeStep 0,
    .unsubscribeStep 0, .unsubscribeStep 0, .unsubscribeStep 0]

end System

end EventBus

end Falx
