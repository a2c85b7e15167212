import Falx.StepRun
import Falx.Umem
import Mathlib.Data.List.Perm.Basic

/-! How frames move between the pool, the rings, the kernel and the loops of the bridge. The
FILL ring has two producers, the receive loop and the loop that replenishes it, and neither
keeps the frames that the ring has no room for. -/

namespace Falx

namespace AfXdp

open SharedRing

def fillRingSize : Nat := 4096

inductive PrefillPhase where
  | collecting (frames : List UInt64)
  | producing (p : ProduceCall UInt64)
  | failed
  | done
  deriving DecidableEq

inductive RxPhase where
  | consuming (c : ConsumeCall XdpDesc)
  | processing (rest : List XdpDesc) (toRefill : List UInt64)
  | refilling (p : ProduceCall UInt64)
  deriving DecidableEq

inductive FillPhase where
  | waiting
  | collecting (toAdd : Nat) (frames : List UInt64)
  | producing (p : ProduceCall UInt64)
  deriving DecidableEq

inductive CompletionPhase where
  | consuming (c : ConsumeCall UInt64)
  | freeing (rest : List UInt64)
  deriving DecidableEq

structure Kernel where
  fill : ConsumeCall UInt64
  empty : List UInt64
  rx : ProduceCall XdpDesc
  tx : ConsumeCall XdpDesc
  sent : List XdpDesc
  comp : ProduceCall UInt64
  deriving DecidableEq

/-- The addresses that each party has in its hands, and its calls on the rings. -/
def PrefillPhase.holds : PrefillPhase → List UInt64
  | .collecting frames => frames
  | .producing p => SlotRing.offered p
  | .failed | .done => []

def PrefillPhase.call : PrefillPhase → ProduceCall UInt64
  | .producing p => p
  | _ => .idle

namespace RxPhase

def holds : RxPhase → List UInt64
  | .consuming c => (SlotRing.received c).map XdpDesc.addr
  | .processing rest toRefill => toRefill ++ rest.map XdpDesc.addr
  | .refilling p => SlotRing.offered p

def consumes : RxPhase → ConsumeCall XdpDesc
  | .consuming c => c
  | _ => .idle

def produces : RxPhase → ProduceCall UInt64
  | .refilling p => p
  | _ => .idle

end RxPhase

def FillPhase.holds : FillPhase → List UInt64
  | .waiting => []
  | .collecting _ frames => frames
  | .producing p => SlotRing.offered p

namespace CompletionPhase

def holds : CompletionPhase → List UInt64
  | .consuming c => SlotRing.received c
  | .freeing rest => rest

def consumes : CompletionPhase → ConsumeCall UInt64
  | .consuming c => c
  | .freeing _ => .idle

end CompletionPhase

def Kernel.holds (k : Kernel) : List UInt64 :=
  SlotRing.received k.fill ++ k.empty ++ (SlotRing.offered k.rx).map XdpDesc.addr

structure Bridge where
  umem : Umem
  batchSize : Nat
  fill : SlotRing UInt64
  comp : SlotRing UInt64
  rx : SlotRing XdpDesc
  tx : SlotRing XdpDesc
  prefill : PrefillPhase
  rxLoop : RxPhase
  fillLoop : FillPhase
  completionLoop : CompletionPhase
  kernel : Kernel

inductive BridgeStep where
  | prefill
  | rxLoop
  | tick
  | fillLoop
  | completionLoop
  | kernelTake (max : Nat)
  | kernelFill
  | kernelDeliver (descs : List XdpDesc) (rest : List UInt64)
  | kernelRx
  | kernelSend (max : Nat)
  | kernelTx
  | kernelComplete (frames : List UInt64) (rest : List XdpDesc)
  | kernelComp
  deriving DecidableEq

namespace Bridge

def newBridge (umem : Umem) (batchSize : Nat) : Bridge :=
  { umem := umem
    batchSize := batchSize
    fill := ⟨12, by decide, 0, 0, fun _ => 0⟩
    comp := ⟨12, by decide, 0, 0, fun _ => 0⟩
    rx := ⟨11, by decide, 0, 0, fun _ => ⟨0, 0, 0⟩⟩
    tx := ⟨11, by decide, 0, 0, fun _ => ⟨0, 0, 0⟩⟩
    prefill := .collecting []
    rxLoop := .consuming (rxConsume batchSize)
    fillLoop := .waiting
    completionLoop := .consuming (completionConsume batchSize)
    kernel := ⟨.idle, [], .idle, .idle, [], .idle⟩ }

def prefillStep (b : Bridge) : Option Bridge :=
  match b.prefill with
  | .collecting frames =>
    match if frames.length < fillRingSize then b.umem.allocFrame else none with
    | some (frame, umem) => some { b with umem := umem, prefill := .collecting (frames ++ [frame]) }
    | none => some { b with
        prefill := if frames = [] then .failed else .producing (fillProduce frames) }
  | .producing (.returned _ _) => some { b with prefill := .done }
  | .producing p =>
    let (fill, p) := b.fill.produceStep p
    some { b with fill := fill, prefill := .producing p }
  | .failed | .done => none

/-- What `FillProduce` has not added is forgotten. -/
def rxStep (b : Bridge) : Bridge :=
  match b.rxLoop with
  | .consuming (.returned []) => { b with rxLoop := .consuming (rxConsume b.batchSize) }
  | .consuming (.returned (d :: out)) => { b with rxLoop := .processing (d :: out) [] }
  | .consuming c =>
    let (rx, c) := b.rx.consumeStep c
    { b with rx := rx, rxLoop := .consuming c }
  | .processing (d :: rest) toRefill =>
    { b with rxLoop := .processing rest (toRefill ++ [d.addr]) }
  | .processing [] toRefill => { b with rxLoop := .refilling (fillProduce toRefill) }
  | .refilling (.returned _ _) => { b with rxLoop := .consuming (rxConsume b.batchSize) }
  | .refilling p =>
    let (fill, p) := b.fill.produceStep p
    { b with fill := fill, rxLoop := .refilling p }

def tick (b : Bridge) : Bridge :=
  match b.fillLoop with
  | .waiting =>
    let available := b.umem.freeFrames.length
    let toAdd := available / 2
    if toAdd = 0 then b else { b with fillLoop := .collecting toAdd [] }
  | _ => b

def fillStep (b : Bridge) : Bridge :=
  match b.fillLoop with
  | .waiting => b
  | .collecting toAdd frames =>
    match if frames.length < toAdd then b.umem.allocFrame else none with
    | some (frame, umem) => { b with
        umem := umem
        fillLoop := .collecting toAdd (frames ++ [frame]) }
    | none => { b with
        fillLoop := if frames = [] then .waiting else .producing (fillProduce frames) }
  | .producing (.returned _ _) => { b with fillLoop := .waiting }
  | .producing p =>
    let (fill, p) := b.fill.produceStep p
    { b with fill := fill, fillLoop := .producing p }

def completionStep (b : Bridge) : Bridge :=
  match b.completionLoop with
  | .consuming (.returned []) =>
    { b with completionLoop := .consuming (completionConsume b.batchSize) }
  | .consuming (.returned (a :: out)) => { b with completionLoop := .freeing (a :: out) }
  | .consuming c =>
    let (comp, c) := b.comp.consumeStep c
    { b with comp := comp, completionLoop := .consuming c }
  | .freeing (a :: rest) => { b with umem := b.umem.freeFrame a, completionLoop := .freeing rest }
  | .freeing [] => { b with completionLoop := .consuming (completionConsume b.batchSize) }

def frames (b : Bridge) (addrs : List UInt64) : List Nat := addrs.map b.umem.chunk

def descFrames (b : Bridge) (descs : List XdpDesc) : List Nat :=
  b.frames (descs.map XdpDesc.addr)

/-- The kernel puts packets into frames that it has from FILL, at any place of the frame, and
it completes frames that it has from TX. It keeps what a ring has no room for. -/
def kernelStep (b : Bridge) : BridgeStep → Option Bridge
  | .kernelTake max =>
    match b.kernel.fill with
    | .idle => some { b with kernel := { b.kernel with fill := .started max } }
    | _ => none
  | .kernelFill =>
    match b.kernel.fill with
    | .returned out => some { b with kernel := { b.kernel with
        fill := .idle
        empty := b.kernel.empty ++ out } }
    | c =>
      let (fill, c) := b.fill.consumeStep c
      some { b with fill := fill, kernel := { b.kernel with fill := c } }
  | .kernelDeliver descs rest =>
    match b.kernel.rx with
    | .idle =>
      if (b.descFrames descs ++ b.frames rest).Perm (b.frames b.kernel.empty) then
        some { b with kernel := { b.kernel with
          rx := .started descs
          empty := rest } }
      else none
    | _ => none
  | .kernelRx =>
    match b.kernel.rx with
    | .returned descs n => some { b with kernel := { b.kernel with
        rx := .idle
        empty := b.kernel.empty ++ (descs.drop n.toNat).map XdpDesc.addr } }
    | p =>
      let (rx, p) := b.rx.produceStep p
      some { b with rx := rx, kernel := { b.kernel with rx := p } }
  | .kernelSend max =>
    match b.kernel.tx with
    | .idle => some { b with kernel := { b.kernel with tx := .started max } }
    | _ => none
  | .kernelTx =>
    match b.kernel.tx with
    | .returned out => some { b with kernel := { b.kernel with
        tx := .idle
        sent := b.kernel.sent ++ out } }
    | c =>
      let (tx, c) := b.tx.consumeStep c
      some { b with tx := tx, kernel := { b.kernel with tx := c } }
  | .kernelComplete frames rest =>
    match b.kernel.comp with
    | .idle =>
      if (b.frames frames ++ b.descFrames rest).Perm (b.descFrames b.kernel.sent) then
        some { b with kernel := { b.kernel with
          comp := .started frames
          sent := rest } }
      else none
    | _ => none
  | .kernelComp =>
    match b.kernel.comp with
    | .returned frames n => some { b with kernel := { b.kernel with
        comp := .idle
        sent := b.kernel.sent ++ (frames.drop n.toNat).map fun a => ⟨a, 0, 0⟩ } }
    | p =>
      let (comp, p) := b.comp.produceStep p
      some { b with comp := comp, kernel := { b.kernel with comp := p } }
  | .prefill | .rxLoop | .tick | .fillLoop | .completionLoop => none

/-- A step that is not enabled has no result. The loops start when the FILL ring has been
filled; the kernel may begin at once. -/
def exec (b : Bridge) : BridgeStep → Option Bridge
  | .prefill => b.prefillStep
  | .rxLoop => if b.prefill = .done then some b.rxStep else none
  | .tick => if b.prefill = .done then some b.tick else none
  | .fillLoop => if b.prefill = .done then some b.fillStep else none
  | .completionLoop => if b.prefill = .done then some b.completionStep else none
  | e => b.kernelStep e

def txSide (b : Bridge) : List UInt64 :=
  (b.tx.contents ++ SlotRing.received b.kernel.tx ++ b.kernel.sent).map XdpDesc.addr ++
    SlotRing.offered b.kernel.comp ++ b.comp.contents ++ b.completionLoop.holds

def addresses (b : Bridge) : List UInt64 :=
  b.umem.freeFrames ++ b.fill.contents ++ b.rx.contents.map XdpDesc.addr ++ b.prefill.holds ++
    b.rxLoop.holds ++ b.fillLoop.holds ++ b.kernel.holds ++ b.txSide

def Conserved (b : Bridge) : Prop :=
  (b.frames b.addresses).Perm (List.range b.umem.numFrames.toNat)

end Bridge

end AfXdp

end Falx
