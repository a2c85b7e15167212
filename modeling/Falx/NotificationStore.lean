import Falx.EventBus
import Mathlib.Data.List.DropRight

/-! What the notification manager keeps for its API: of the events that reach it, metrics
snapshots apart, the last thousand, each with a mark once it was read. -/

namespace Falx.Notifications

open EventBus List

def topicMetricsSnapshot : Topic := "metrics.stats.snapshot"

def storeLimit : Nat := 1000

structure Notification where
  id : String
  event : Event
  read : Bool
  createdAt : Time
  deriving DecidableEq

structure Manager where
  store : List Notification

inductive Call where
  | dispatch (now : Time) (ev : Event)
  | markRead (id : String)
  deriving DecidableEq

namespace Manager

def storeNotification (n : Notification) (m : Manager) : Manager :=
  let store := m.store ++ [n]
  ⟨if store.length > storeLimit then store.drop (store.length - storeLimit) else store⟩

def dispatch (now : Time) (ev : Event) (m : Manager) : Manager :=
  if ev.topic ≠ topicMetricsSnapshot then m.storeNotification ⟨ev.id, ev, false, now⟩ else m

def collect (unreadOnly : Bool) : Nat → List Notification → List Notification
  | 0, _ => []
  | _, [] => []
  | limit + 1, n :: older =>
    if unreadOnly && n.read then collect unreadOnly (limit + 1) older
    else n :: collect unreadOnly limit older

def getNotifications (limit : Nat) (unreadOnly : Bool) (m : Manager) : List Notification :=
  collect unreadOnly limit m.store.reverse

def markFirst (id : String) : List Notification → List Notification
  | [] => []
  | n :: newer => if n.id = id then { n with read := true } :: newer else n :: markFirst id newer

def markRead (id : String) (m : Manager) : Manager := ⟨markFirst id m.store⟩

def call (m : Manager) : Call → Manager
  | .dispatch now ev => m.dispatch now ev
  | .markRead id => m.markRead id

def run (calls : List Call) : Manager := calls.foldl call ⟨[]⟩

end Manager

def Call.marks (id : String) : Call → Bool
  | .dispatch .. => false
  | .markRead id' => id == id'

/-- The notifications of a history of calls: each is read if its ID is marked later. -/
def received : List Call → List Notification
  | [] => []
  | .dispatch now ev :: calls =>
    if ev.topic ≠ topicMetricsSnapshot then
      ⟨ev.id, ev, calls.any (Call.marks ev.id), now⟩ :: received calls
    else received calls
  | .markRead _ :: calls => received calls

def Notification.mark (id : String) (n : Notification) : Notification :=
  { n with read := n.read || n.id == id }

theorem received_dispatch (calls : List Call) (now : Time) (ev : Event) :
    received (calls ++ [.dispatch now ev]) = received calls ++ received [.dispatch now ev] := by
  induction calls with
  | nil => rfl
  | cons c calls ih =>
    cases c with
    | markRead id => exact ih
    | dispatch now' ev' =>
      simp only [cons_append, received, ih, any_append, any_cons, any_nil, Call.marks,
        Bool.or_false]
      split <;> rfl

theorem received_markRead (calls : List Call) (id : String) :
    received (calls ++ [.markRead id]) = (received calls).map (Notification.mark id) := by
  induction calls with
  | nil => rfl
  | cons c calls ih =>
    cases c with
    | markRead id => exact ih
    | dispatch now ev =>
      simp only [cons_append, received, ih, any_append, any_cons, any_nil, Call.marks,
        Bool.or_false]
      split <;> rfl

namespace Manager

theorem markFirst_eq (id : String) {l : List Notification} (h : (l.map (·.id)).Nodup) :
    markFirst id l = l.map (Notification.mark id) := by
  induction l with
  | nil => rfl
  | cons n l ih =>
    obtain ⟨hn, hl⟩ := nodup_cons.mp h
    simp only [markFirst, map_cons]
    split
    · rename_i hid
      have hrest : l.map (Notification.mark id) = l := by
        refine (map_congr_left fun n' hm => ?_).trans (map_id' l)
        have hne : (n'.id == id) = false :=
          beq_eq_false_iff_ne.mpr fun he => hn (mem_map.mpr ⟨n', hm, he.trans hid.symm⟩)
        simp [Notification.mark, hne]
      simp [Notification.mark, hid, hrest]
    · rename_i hid
      simp [Notification.mark, beq_eq_false_iff_ne.mpr hid, ih hl]

theorem collect_eq (unreadOnly : Bool) (limit : Nat) (l : List Notification) :
    collect unreadOnly limit l = (l.filter fun n => !(unreadOnly && n.read)).take limit := by
  fun_induction collect unreadOnly limit l with
  | case1 => rfl
  | case2 => simp
  | case3 limit n older hskip ih => rw [ih, filter_cons_of_neg (by simp [hskip])]
  | case4 limit n older hskip ih =>
    rw [ih, filter_cons_of_pos (by simp [Bool.eq_false_iff.mpr hskip]), take_succ_cons]

theorem rtake_rtake_append (l : List Notification) (n : Notification) (k : Nat) :
    (l.rtake k ++ [n]).rtake k = (l ++ [n]).rtake k := by
  cases k with
  | zero => simp
  | succ k => simp [rtake_eq_reverse_take_reverse, take_take]

theorem store_storeNotification (n : Notification) (m : Manager) :
    (m.storeNotification n).store = (m.store ++ [n]).rtake storeLimit := by
  by_cases hlen : (m.store ++ [n]).length > storeLimit
  · exact if_pos hlen
  · rw [rtake, Nat.sub_eq_zero_of_le (not_lt.mp hlen), drop_zero]
    exact if_neg hlen

theorem store_run {calls : List Call} (h : ((received calls).map (·.id)).Nodup) :
    (run calls).store = (received calls).rtake storeLimit := by
  induction calls using List.reverseRecOn with
  | nil => rfl
  | append_singleton calls c ih =>
    rw [run, foldl_append, foldl_cons, foldl_nil]
    cases c with
    | dispatch now ev =>
      rw [received_dispatch] at h ⊢
      rw [map_append] at h
      have hst : (calls.foldl call ⟨[]⟩).store = _ := ih (nodup_append.mp h).1
      simp only [call, dispatch, received, any_nil]
      split_ifs with htopic
      · rw [store_storeNotification, hst, rtake_rtake_append]
      · rw [hst, append_nil]
    | markRead id =>
      rw [received_markRead] at h ⊢
      rw [map_map] at h
      have hst : (calls.foldl call ⟨[]⟩).store = _ := ih h
      have hwin : (((received calls).rtake storeLimit).map (·.id)).Nodup :=
        h.sublist ((drop_sublist _ _).map _)
      simp only [call, markRead, hst, markFirst_eq id hwin]
      rw [rtake, rtake, map_drop, length_map]

/-- With different IDs, the API lists the last thousand notifications newest first, and
counts as unread those whose ID was not marked since they came. -/
theorem notifications_listed {calls : List Call} (h : ((received calls).map (·.id)).Nodup)
    (limit : Nat) (unreadOnly : Bool) : (run calls).getNotifications limit unreadOnly =
      (((received calls).rtake storeLimit).reverse.filter
        fun n => !(unreadOnly && n.read)).take limit := by
  rw [getNotifications, store_run h, collect_eq]

def blockedEvent (id : String) : Event :=
  ⟨id, "security.ip.blocked", 0, "high", "", "", "", "", []⟩

def twoBlocked : List Call :=
  [.dispatch 1 (blockedEvent "a"), .dispatch 2 (blockedEvent "b"), .markRead "a"]

theorem notifications_listed_twoBlocked :
    (run twoBlocked).getNotifications 50 true = [⟨"b", blockedEvent "b", false, 2⟩] :=
  @notifications_listed twoBlocked (by decide) 50 true

end Manager

end Falx.Notifications
