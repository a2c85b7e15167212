import Mathlib.Data.List.Basic
import Mathlib.Logic.Function.Basic

/-! Which kernel objects the two processes work on. The loader replaces every
pin by the maps of the program it has just attached; falxd opens what is pinned
when it starts, or creates and pins a map of its own. Both go through their maps
one at a time, and every step of either may come between two steps of the other. -/

namespace Falx

open Function

inductive MapName where
  | blocklistV4
  | blocklistV6
  | rateLimit
  | xdpStats
  | mappedXdpStats
  | failsafeState
  | config
  | xskMap
  | honeypotTargets
  | honeypotActive
  deriving DecidableEq

namespace MapName

def toPin : List MapName :=
  [blocklistV4, blocklistV6, rateLimit, xdpStats, mappedXdpStats, failsafeState, config, xskMap,
    honeypotTargets, honeypotActive]

def toOpen : List MapName :=
  [blocklistV4, blocklistV6, rateLimit, xdpStats, mappedXdpStats, failsafeState, config, xskMap]

theorem mem_toPin (name : MapName) : name ∈ toPin := by
  cases name <;> decide

end MapName

abbrev MapObject := Nat

inductive LoaderPhase where
  | stopped
  | loaded (maps : MapName → MapObject)
  /-- attached; `removed` says that the old pin of the next map is gone -/
  | pinning (maps : MapName → MapObject) (todo : List MapName) (removed : Bool)
  | running (maps : MapName → MapObject)

def LoaderPhase.attached : LoaderPhase → Option (MapName → MapObject)
  | stopped => none
  | loaded _ => none
  | pinning maps _ _ => some maps
  | running maps => some maps

def LoaderPhase.unpinned : LoaderPhase → List MapName
  | pinning _ todo _ => todo
  | _ => []

structure Daemon where
  handles : MapName → Option MapObject
  todo : List MapName
  /-- the map created for the next name, when its pin was not found -/
  created : Option MapObject

structure PinState where
  nextObject : MapObject
  pins : MapName → Option MapObject
  loader : LoaderPhase
  daemons : Nat → Option Daemon

namespace PinState

def load (s : PinState) : PinState :=
  match s.loader with
  | .stopped =>
    { s with
      loader := .loaded fun name => s.nextObject + MapName.toPin.idxOf name
      nextObject := s.nextObject + MapName.toPin.length }
  | _ => s

def attach (s : PinState) : PinState :=
  match s.loader with
  | .loaded maps => { s with loader := .pinning maps MapName.toPin false }
  | _ => s

def removePin (s : PinState) : PinState :=
  match s.loader with
  | .pinning maps (name :: todo) false =>
    { s with pins := update s.pins name none, loader := .pinning maps (name :: todo) true }
  | _ => s

def pinMap (s : PinState) : PinState :=
  match s.loader with
  | .pinning maps (name :: todo) true =>
    if s.pins name = none then
      { s with
        pins := update s.pins name (some (maps name))
        loader := .pinning maps todo false }
    else { s with loader := .stopped }
  | .pinning maps [] _ => { s with loader := .running maps }
  | _ => s

def stopLoader (s : PinState) : PinState := { s with loader := .stopped }

def startDaemon (i : Nat) (s : PinState) : PinState :=
  match s.daemons i with
  | none =>
    { s with daemons := update s.daemons i (some ⟨fun _ => none, MapName.toOpen, none⟩) }
  | some _ => s

def setDaemon (i : Nat) (d : Daemon) (s : PinState) : PinState :=
  { s with daemons := update s.daemons i (some d) }

def openPinned (i : Nat) (s : PinState) : PinState :=
  match s.daemons i with
  | some ⟨handles, name :: todo, none⟩ =>
    match s.pins name with
    | some obj => s.setDaemon i ⟨update handles name (some obj), todo, none⟩
    | none =>
      { s with nextObject := s.nextObject + 1 }.setDaemon i
        ⟨handles, name :: todo, some s.nextObject⟩
  | _ => s

def pinCreated (i : Nat) (s : PinState) : PinState :=
  match s.daemons i with
  | some ⟨handles, name :: todo, some obj⟩ =>
    if s.pins name = none then
      { s with pins := update s.pins name (some obj) }.setDaemon i
        ⟨update handles name (some obj), todo, none⟩
    else { s with daemons := update s.daemons i none }
  | _ => s

def stopDaemon (i : Nat) (s : PinState) : PinState :=
  { s with daemons := update s.daemons i none }

end PinState

inductive PinCommand where
  | load
  | attach
  | removePin
  | pinMap
  | stopLoader
  | startDaemon (i : Nat)
  | openPinned (i : Nat)
  | pinCreated (i : Nat)
  | stopDaemon (i : Nat)

def PinCommand.run (s : PinState) : PinCommand → PinState
  | load => s.load
  | attach => s.attach
  | removePin => s.removePin
  | pinMap => s.pinMap
  | stopLoader => s.stopLoader
  | startDaemon i => s.startDaemon i
  | openPinned i => s.openPinned i
  | pinCreated i => s.pinCreated i
  | stopDaemon i => s.stopDaemon i

/-- A program is attached only while no falxd holds a map, and falxd takes the
next map only once an attached program has pinned it. -/
def PinCommand.Orderly (s : PinState) : PinCommand → Prop
  | attach => ∀ i d name, s.daemons i = some d → d.handles name = none
  | openPinned i | pinCreated i =>
    ∀ d name, s.daemons i = some d → d.todo.head? = some name → name ∉ s.loader.unpinned
  | _ => True

def PinState.runAll (cs : List PinCommand) (s : PinState) : PinState := cs.foldl PinCommand.run s

def OrderlyRun : PinState → List PinCommand → Prop
  | _, [] => True
  | s, c :: cs => c.Orderly s ∧ OrderlyRun (c.run s) cs

/-- Every handle of a falxd refers to the map that the attached program reads. -/
def PinState.HandlesLive (s : PinState) : Prop :=
  ∀ i d name obj maps, s.daemons i = some d → d.handles name = some obj →
    s.loader.attached = some maps → obj = maps name

/-- Besides the handles, the pins of an attached program are its own maps, as far
as it has got. -/
structure LivePins (s : PinState) : Prop where
  handles : s.HandlesLive
  pins : ∀ maps name, s.loader.attached = some maps → name ∉ s.loader.unpinned →
    s.pins name = some (maps name)

section Steps

variable {s : PinState}

theorem LivePins.of_detached {s' : PinState} (h : s'.loader.attached = none) : LivePins s' where
  handles := by
    intro i d name obj maps _ _ hatt
    rw [h] at hatt
    cases hatt
  pins := by
    intro maps name hatt
    rw [h] at hatt
    cases hatt

section

variable (hs : LivePins s)

include hs

theorem LivePins.load : LivePins s.load := by
  rw [PinState.load]
  split
  · exact LivePins.of_detached rfl
  · exact hs

theorem LivePins.attach (ho : PinCommand.attach.Orderly s) : LivePins s.attach := by
  rw [PinState.attach]
  split
  · refine ⟨?_, ?_⟩
    · intro i d name obj maps hd hobj
      rw [ho i d name hd] at hobj
      cases hobj
    · intro maps name _ hname
      exact absurd (MapName.mem_toPin name) hname
  · exact hs

theorem LivePins.removePin : LivePins s.removePin := by
  rw [PinState.removePin]
  split
  · rename_i maps next todo hl
    refine ⟨?_, ?_⟩
    · intro i d name obj maps' hd hobj hatt
      exact hs.handles i d name obj maps' hd hobj (by rw [hl]; exact hatt)
    · intro maps' name hatt hname
      have hne : name ≠ next := fun h => hname (h ▸ (.head _))
      refine (update_of_ne hne _ _).trans ?_
      exact hs.pins maps' name (by rw [hl]; exact hatt) (by rw [hl]; exact hname)
  · exact hs

theorem LivePins.pinMap : LivePins s.pinMap := by
  rw [PinState.pinMap]
  split
  · rename_i maps next todo hl
    split
    · refine ⟨?_, ?_⟩
      · intro i d name obj maps' hd hobj hatt
        exact hs.handles i d name obj maps' hd hobj (by rw [hl]; exact hatt)
      · intro maps' name hatt hname
        cases hatt
        by_cases hne : name = next
        · rw [hne]
          exact update_self _ _ _
        · refine (update_of_ne hne _ _).trans (hs.pins maps name (by rw [hl]; rfl) ?_)
          rw [hl]
          exact fun hmem => hname ((List.mem_cons.mp hmem).resolve_left hne)
    · exact LivePins.of_detached rfl
  · rename_i maps removed hl
    refine ⟨?_, ?_⟩
    · intro i d name obj maps' hd hobj hatt
      exact hs.handles i d name obj maps' hd hobj (by rw [hl]; exact hatt)
    · intro maps' name hatt _
      exact hs.pins maps' name (by rw [hl]; exact hatt) (by rw [hl]; exact List.not_mem_nil)
  · exact hs

theorem LivePins.setDaemon {s' : PinState} {i : Nat} {d' : Option Daemon}
    (hld : s'.loader = s.loader) (hdaemons : s'.daemons = update s.daemons i d')
    (hnew : ∀ d name obj maps, d' = some d → d.handles name = some obj →
      s.loader.attached = some maps → obj = maps name)
    (hpins : ∀ maps name, s.loader.attached = some maps → name ∉ s.loader.unpinned →
      s'.pins name = some (maps name)) : LivePins s' := by
  refine ⟨?_, ?_⟩
  · intro j d name obj maps hd hobj hatt
    rw [hdaemons] at hd
    rw [hld] at hatt
    by_cases hj : j = i
    · subst hj
      rw [update_self] at hd
      exact hnew d name obj maps hd hobj hatt
    · rw [update_of_ne hj] at hd
      exact hs.handles j d name obj maps hd hobj hatt
  · intro maps name hatt hname
    rw [hld] at hatt hname
    exact hpins maps name hatt hname

theorem LivePins.startDaemon (i : Nat) : LivePins (s.startDaemon i) := by
  rw [PinState.startDaemon]
  split
  · refine hs.setDaemon rfl rfl ?_ hs.pins
    intro d name obj maps hd hobj
    cases hd
    cases hobj
  · exact hs

theorem LivePins.stopDaemon (i : Nat) : LivePins (s.stopDaemon i) := by
  refine hs.setDaemon rfl rfl ?_ hs.pins
  intro d name obj maps hd
  cases hd

end

theorem HandlesLive.update (hs : s.HandlesLive) {i : Nat} {d : Daemon}
    (hd : s.daemons i = some d) {next : MapName} {obj : MapObject}
    (hobj : ∀ maps, s.loader.attached = some maps → obj = maps next)
    (name : MapName) (obj' : MapObject) (maps : MapName → MapObject)
    (h : update d.handles next (some obj) name = some obj')
    (hatt : s.loader.attached = some maps) : obj' = maps name := by
  by_cases hne : name = next
  · subst hne
    rw [update_self] at h
    cases h
    exact hobj maps hatt
  · rw [update_of_ne hne] at h
    exact hs i d name obj' maps hd h hatt

section

variable (hs : LivePins s)

include hs

theorem LivePins.openPinned {i : Nat}
    (ho : (PinCommand.openPinned i).Orderly s) : LivePins (s.openPinned i) := by
  rw [PinState.openPinned]
  split
  · rename_i handles next todo hd
    have hset := ho _ next hd rfl
    split
    · rename_i obj hpin
      refine hs.setDaemon rfl rfl ?_ hs.pins
      intro d' name obj' maps hd' hobj' hatt
      cases hd'
      refine HandlesLive.update hs.handles hd ?_ name obj' maps hobj' hatt
      intro maps hatt
      have hown := hs.pins maps next hatt hset
      rw [hpin] at hown
      exact Option.some.inj hown
    · refine hs.setDaemon rfl rfl ?_ hs.pins
      intro d' name obj' maps hd' hobj' hatt
      cases hd'
      exact hs.handles i _ name obj' maps hd hobj' hatt
  · exact hs

theorem LivePins.pinCreated {i : Nat}
    (ho : (PinCommand.pinCreated i).Orderly s) : LivePins (s.pinCreated i) := by
  rw [PinState.pinCreated]
  split
  · rename_i handles next todo obj hd
    have hset := ho _ next hd rfl
    split
    · rename_i hpin
      -- a settled map of an attached program is pinned, so none is attached here
      have hdet : ∀ maps, s.loader.attached ≠ some maps := by
        intro maps hatt
        rw [hs.pins maps next hatt hset] at hpin
        cases hpin
      refine hs.setDaemon rfl rfl ?_ fun maps _ hatt => absurd hatt (hdet maps)
      intro d' name obj' maps _ _ hatt
      exact absurd hatt (hdet maps)
    · exact hs.stopDaemon i
  · exact hs

theorem LivePins.run {c : PinCommand} (ho : c.Orderly s) : LivePins (c.run s) := by
  cases c with
  | load => exact hs.load
  | attach => exact hs.attach ho
  | removePin => exact hs.removePin
  | pinMap => exact hs.pinMap
  | stopLoader => exact LivePins.of_detached rfl
  | startDaemon i => exact hs.startDaemon i
  | openPinned i => exact hs.openPinned ho
  | pinCreated i => exact hs.pinCreated ho
  | stopDaemon i => exact hs.stopDaemon i

theorem LivePins.runAll {cs : List PinCommand} (ho : OrderlyRun s cs) :
    LivePins (s.runAll cs) := by
  induction cs generalizing s with
  | nil => exact hs
  | cons c cs ih => exact ih (hs.run ho.1) ho.2

end

end Steps

/-- In every orderly run from a state without processes, whatever is pinned
there, all handles stay on the maps of the attached program. -/
theorem orderlyRun_handlesLive {s₀ : PinState} {cs : List PinCommand}
    (hloader : s₀.loader = .stopped) (hrun : OrderlyRun s₀ cs) : (s₀.runAll cs).HandlesLive := by
  have h₀ : LivePins s₀ := LivePins.of_detached (by rw [hloader]; rfl)
  exact (h₀.runAll hrun).handles

def loaderStart : List PinCommand :=
  [.load, .attach] ++ (List.replicate 10 [.removePin, .pinMap]).flatten ++ [.pinMap]

def daemonStart (i : Nat) : List PinCommand :=
  .startDaemon i :: (List.replicate 8 [.openPinned i, .pinCreated i]).flatten

def bareNode : PinState := ⟨1, fun _ => none, .stopped, fun _ => none⟩

def firstOpen : List PinCommand :=
  [.load, .attach, .removePin, .pinMap, .startDaemon 0, .openPinned 0]

theorem orderlyRun_firstOpen : OrderlyRun bareNode firstOpen := by
  refine ⟨trivial, ?_, trivial, trivial, trivial, ?_, trivial⟩
  · intro i d name hd
    cases hd
  · intro d name hd hname
    cases hd
    cases hname
    decide

theorem orderlyRun_handlesLive_firstOpen :
    ∃ d maps, (bareNode.runAll firstOpen).daemons 0 = some d ∧ d.handles .blocklistV4 = some 1 ∧
      (bareNode.runAll firstOpen).loader.attached = some maps ∧ 1 = maps .blocklistV4 := by
  refine ⟨_, _, rfl, rfl, rfl, ?_⟩
  exact orderlyRun_handlesLive rfl orderlyRun_firstOpen 0 _ .blocklistV4 1 _ rfl rfl rfl

/-- falxd first and the loader second: both starts complete, and the handles of
falxd are on its own maps, not on those of the attached program. -/
theorem daemonFirst_shadow_maps :
    ((bareNode.runAll (daemonStart 0 ++ loaderStart)).daemons 0).map Daemon.todo = some [] ∧
      (bareNode.runAll (daemonStart 0 ++ loaderStart)).loader.unpinned = [] ∧
      [MapName.blocklistV4, .blocklistV6, .failsafeState, .config].map (fun name =>
          (((bareNode.runAll (daemonStart 0 ++ loaderStart)).daemons 0).bind (·.handles name),
            (bareNode.runAll (daemonStart 0 ++ loaderStart)).loader.attached.map (· name))) =
        [(some 1, some 9), (some 2, some 10), (some 6, some 14), (some 7, some 15)] := by
  refine ⟨?_, ?_, ?_⟩
  · decide +kernel
  · decide +kernel
  · decide +kernel

end Falx
