import Falx.FrameFlow

/-! With no more frames than the FILL ring has slots, the calls that refill it never leave any
out. What each step of the bridge and of the kernel keeps. -/

namespace Falx

namespace AfXdp

open List SharedRing SlotRing Bridge

namespace Bridge

def fillCall (b : Bridge) : ProduceCall UInt64 :=
  match b.prefill with
  | .done => b.rxLoop.produces
  | phase => phase.call

def Stocked (b : Bridge) : Prop :=
  match b.prefill with
  | .collecting _ => True
  | _ => b.umem.freeFrames = []

/-- The loop that replenishes the FILL ring finds no frame in the pool, and the other calls on
the ring add all their frames. -/
structure Kept (b : Bridge) : Prop where
  small : b.umem.numFrames.toNat ≤ fillRingSize
  order : b.fill.order = 12
  fill : b.fill.Sound b.fillCall b.kernel.fill
  whole : SlotRing.Whole b.fillCall
  rx : b.rx.Sound b.kernel.rx b.rxLoop.consumes
  tx : b.tx.Sound .idle b.kernel.tx
  comp : b.comp.Sound b.kernel.comp b.completionLoop.consumes
  quiet : b.txSide = []
  waiting : b.fillLoop = .waiting
  stocked : b.Stocked
  before : b.prefill ≠ .done → b.rxLoop = .consuming (rxConsume b.batchSize)
  conserved : b.Conserved

variable {b b' : Bridge} {e : BridgeStep}

theorem Conserved.of_perm (hb : b.Conserved) (humem : b'.umem.frameSize = b.umem.frameSize)
    (hnum : b'.umem.numFrames = b.umem.numFrames) (h : b'.addresses.Perm b.addresses) :
    b'.Conserved := by
  have hchunk : b'.umem.chunk = b.umem.chunk := by
    funext addr
    rw [Umem.chunk, Umem.chunk, humem]
  rw [Conserved, frames, hchunk, hnum]
  exact (h.map _).trans hb

theorem txSide_eq_nil : b.txSide = [] ↔ b.tx.contents = [] ∧
    received b.kernel.tx = [] ∧ b.kernel.sent = [] ∧
    offered b.kernel.comp = [] ∧ b.comp.contents = [] ∧ b.completionLoop.holds = [] := by
  simp [txSide]

theorem Kept.room (hb : Kept b) : b.umem.freeFrames.length + b.fill.used +
    b.prefill.holds.length + b.rxLoop.holds.length ≤ 2 ^ b.fill.order := by
  have hsm := hb.small
  have hlen := hb.conserved.length_eq
  simp only [frames, addresses, length_map, length_append, length_range,
    length_contents] at hlen
  have hor : 2 ^ b.fill.order = fillRingSize := by
    rw [hb.order]
    rfl
  omega

variable {fill : SlotRing UInt64} {rx : SlotRing XdpDesc}

theorem Kept.setPrefill (hb : Kept b) (hp : b.prefill ≠ .done) {pool : List UInt64}
    {phase : PrefillPhase} (hor : fill.order = b.fill.order)
    (hfill : fill.Sound phase.call b.kernel.fill) (hwh : SlotRing.Whole phase.call)
    (hstk : Stocked { b with
      umem := { b.umem with freeFrames := pool }
      fill := fill
      prefill := phase })
    (hperm : (pool ++ fill.contents ++ phase.holds).Perm
      (b.umem.freeFrames ++ b.fill.contents ++ b.prefill.holds)) :
    Kept { b with umem := { b.umem with freeFrames := pool }, fill := fill, prefill := phase } := by
  have hpre := hb.before hp
  have hcall : fillCall { b with
      umem := { b.umem with freeFrames := pool }
      fill := fill
      prefill := phase } = phase.call := by
    cases phase with
    | done =>
      rw [hpre]
      rfl
    | _ => rfl
  refine { hb with
    order := hor.trans hb.order
    fill := ?_
    whole := ?_
    stocked := hstk
    before := fun _ => hpre
    conserved := hb.conserved.of_perm rfl rfl (perm_iff_count.mpr fun a => ?_) }
  · rw [hcall]
    exact hfill
  · rw [hcall]
    exact hwh
  · have hcnt := perm_iff_count.mp hperm a
    simp only [addresses, txSide, count_append] at hcnt ⊢
    omega

theorem Kept.setRx (hb : Kept b) (hp : b.prefill = .done) {phase : RxPhase}
    (hor : fill.order = b.fill.order)
    (hfill : fill.Sound phase.produces b.kernel.fill) (hwh : SlotRing.Whole phase.produces)
    (hrx : rx.Sound b.kernel.rx phase.consumes)
    (hperm : (fill.contents ++ rx.contents.map XdpDesc.addr ++ phase.holds).Perm
      (b.fill.contents ++ b.rx.contents.map XdpDesc.addr ++ b.rxLoop.holds)) :
    Kept { b with fill := fill, rx := rx, rxLoop := phase } := by
  have hcall : fillCall { b with fill := fill, rx := rx, rxLoop := phase } = phase.produces := by
    simp only [fillCall, hp]
  refine { hb with
    order := hor.trans hb.order
    fill := ?_
    whole := ?_
    rx := hrx
    before := fun h => absurd hp h
    conserved := hb.conserved.of_perm rfl rfl (perm_iff_count.mpr fun a => ?_) }
  · rw [hcall]
    exact hfill
  · rw [hcall]
    exact hwh
  · have hcnt := perm_iff_count.mp hperm a
    simp only [addresses, txSide, count_append] at hcnt ⊢
    omega

theorem Kept.setKernel (hb : Kept b)
    {kernelFill : ConsumeCall UInt64} {empty : List UInt64} {kernelRx : ProduceCall XdpDesc}
    (hor : fill.order = b.fill.order) (hfill : fill.Sound b.fillCall kernelFill)
    (hrx : rx.Sound kernelRx b.rxLoop.consumes)
    (hperm : (b.frames (fill.contents ++ rx.contents.map XdpDesc.addr ++
        received kernelFill ++ empty ++
        (offered kernelRx).map XdpDesc.addr)).Perm
      (b.frames (b.fill.contents ++ b.rx.contents.map XdpDesc.addr ++ b.kernel.holds))) :
    Kept { b with
      fill := fill
      rx := rx
      kernel := { b.kernel with
        fill := kernelFill
        empty := empty
        rx := kernelRx } } := by
  refine { hb with
    order := hor.trans hb.order
    fill := hfill
    rx := hrx
    conserved := List.Perm.trans (perm_iff_count.mpr fun a => ?_) hb.conserved }
  have hcnt := perm_iff_count.mp hperm a
  simp only [frames, addresses, txSide, Kernel.holds, map_append, count_append] at hcnt ⊢
  omega

theorem Kept.setTx (hb : Kept b) {tx : SlotRing XdpDesc} {comp : SlotRing UInt64}
    {phase : CompletionPhase} {kernelTx : ConsumeCall XdpDesc} {sent : List XdpDesc}
    {kernelComp : ProduceCall UInt64} (htx : tx.Sound .idle kernelTx)
    (hcomp : comp.Sound kernelComp phase.consumes)
    (hq : tx.contents = [] ∧ received kernelTx = [] ∧ sent = [] ∧
      offered kernelComp = [] ∧ comp.contents = [] ∧ phase.holds = []) :
    Kept { b with
      tx := tx
      comp := comp
      completionLoop := phase
      kernel := { b.kernel with
        tx := kernelTx
        sent := sent
        comp := kernelComp } } := by
  refine { hb with
    tx := htx
    comp := hcomp
    quiet := txSide_eq_nil.mpr hq
    conserved := hb.conserved.of_perm rfl rfl (List.Perm.of_eq ?_) }
  show _ ++ _ = _ ++ _
  rw [hb.quiet]
  exact congrArg _ (txSide_eq_nil.mpr hq)

section Prefill

variable {frames : List UInt64}

theorem Kept.prefill_alloc (hb : Kept b) (hp : b.prefill = .collecting frames)
    {frame : UInt64} {rest : List UInt64} (hfree : b.umem.freeFrames = frame :: rest) :
    Kept { b with
      umem := { b.umem with freeFrames := rest }
      prefill := .collecting (frames ++ [frame]) } := by
  have hfill := hb.fill
  simp only [fillCall, hp] at hfill
  refine hb.setPrefill (by rw [hp]; nofun) rfl hfill trivial trivial ?_
  rw [hfree, hp]
  refine perm_iff_count.mpr fun a => ?_
  simp only [PrefillPhase.holds, count_append, count_cons, count_nil]
  omega

theorem Kept.prefill_collected (hb : Kept b) (hp : b.prefill = .collecting frames)
    (hend : b.umem.freeFrames = [] ∨ fillRingSize ≤ frames.length) :
    Kept { b with
      prefill := if frames = [] then .failed else .producing (fillProduce frames) } := by
  have hroom := hb.room
  have hfill := hb.fill
  simp only [fillCall, hp, PrefillPhase.holds] at hroom hfill
  have hpool : b.umem.freeFrames = [] := by
    rcases hend with hfree | hfull
    · exact hfree
    · have hor : 2 ^ b.fill.order = fillRingSize := by
        rw [hb.order]
        rfl
      exact eq_nil_of_length_eq_zero (by omega)
  by_cases hnil : frames = []
  · rw [if_pos hnil]
    refine hb.setPrefill (by rw [hp]; nofun) rfl hfill trivial hpool ?_
    rw [hp, hnil]
    exact List.Perm.refl _
  · rw [if_neg hnil]
    refine hb.setPrefill (by rw [hp]; nofun) rfl ⟨hfill.used_le, trivial, hfill.consumer⟩
      trivial hpool ?_
    rw [hp]
    exact List.Perm.refl _

variable {p : ProduceCall UInt64}

theorem Kept.prefill_produce (hb : Kept b) (hp : b.prefill = .producing p) :
    Kept { b with
      fill := (b.fill.produceStep p).1
      prefill := .producing (b.fill.produceStep p).2 } := by
  have hstk := hb.stocked
  have hfill := hb.fill
  have hwh := hb.whole
  have hroom := hb.room
  simp only [Stocked, fillCall, PrefillPhase.call, PrefillPhase.holds, hp] at hstk hfill hwh hroom
  refine hb.setPrefill (by rw [hp]; nofun) (b.fill.produceStep_spec p).2.1 hfill.produce.1
    (hfill.whole hwh (by omega)) hstk ?_
  rw [hp]
  show (_ ++ _ ++ offered _).Perm (_ ++ _ ++ offered _)
  rw [append_assoc, append_assoc, hfill.contents_append_offered]

theorem Kept.prefill_returned (hb : Kept b) {n : UInt32}
    (hp : b.prefill = .producing (.returned frames n)) : Kept { b with prefill := .done } := by
  have hstk := hb.stocked
  have hfill := hb.fill
  have hwh := hb.whole
  simp only [Stocked, fillCall, PrefillPhase.call, hp] at hstk hfill hwh
  refine hb.setPrefill (by rw [hp]; nofun) rfl ⟨hfill.used_le, trivial, hfill.consumer⟩ trivial
    hstk ?_
  have hnone : b.prefill.holds = [] := by
    rw [hp]
    exact offered_of_whole hwh
  rw [hnone]
  exact List.Perm.refl _

theorem Kept.prefillStep (hb : Kept b) (h : b.prefillStep = some b') : Kept b' := by
  unfold Bridge.prefillStep at h
  split at h
  · rename_i frames hp
    split at h
    · rename_i frame umem hal
      obtain ⟨-, hal⟩ := Option.ite_none_right_eq_some.mp hal
      obtain ⟨rest, hfree, rfl⟩ := Umem.allocFrame_eq_some hal
      cases h
      exact hb.prefill_alloc hp hfree
    · rename_i hal
      cases h
      refine hb.prefill_collected hp ?_
      split at hal
      · exact .inl (Umem.allocFrame_eq_none hal)
      · exact .inr (Nat.le_of_not_lt ‹_›)
  · cases h
    exact hb.prefill_returned ‹_›
  · cases h
    exact hb.prefill_produce ‹_›
  · cases h
  · cases h

end Prefill

section Receive

variable (hdone : b.prefill = .done)
include hdone

section

variable (hb : Kept b)

include hb

theorem Kept.rx_start (hrx : b.rxLoop.holds = []) {c : ConsumeCall XdpDesc}
    (hc : received c = []) (hok : b.rx.ConsumeOk c) :
    Kept { b with rxLoop := .consuming c } := by
  refine hb.setRx hdone rfl ⟨hb.fill.used_le, trivial, hb.fill.consumer⟩ trivial
    ⟨hb.rx.used_le, hb.rx.producer, hok⟩ ?_
  rw [hrx]
  show (_ ++ _ ++ (received c).map _).Perm _
  rw [hc]
  exact List.Perm.refl _

theorem Kept.rx_consume {c : ConsumeCall XdpDesc} (hrx : b.rxLoop = .consuming c) :
    Kept { b with rx := (b.rx.consumeStep c).1, rxLoop := .consuming (b.rx.consumeStep c).2 } := by
  have hsd := hb.rx
  simp only [hrx, RxPhase.consumes] at hsd
  refine hb.setRx hdone rfl ⟨hb.fill.used_le, trivial, hb.fill.consumer⟩ trivial
    hsd.consume.1 (perm_iff_count.mpr fun a => ?_)
  have hmove := congrArg (fun l => (l.map XdpDesc.addr).count a) hsd.received_append_contents
  simp only [hrx, RxPhase.holds, map_append, count_append] at hmove ⊢
  omega

theorem Kept.rx_go {phase : RxPhase} (hh : phase.holds = b.rxLoop.holds)
    (hconsumes : phase.consumes = .idle) (hok : b.fill.ProduceOk phase.produces)
    (hwh : SlotRing.Whole phase.produces) : Kept { b with rxLoop := phase } := by
  refine hb.setRx hdone rfl ⟨hb.fill.used_le, hok, hb.fill.consumer⟩ hwh
    ⟨hb.rx.used_le, hb.rx.producer, ?_⟩ ?_
  · rw [hconsumes]
    trivial
  · rw [hh]

theorem Kept.rx_produce {p : ProduceCall UInt64} (hrx : b.rxLoop = .refilling p) :
    Kept { b with
      fill := (b.fill.produceStep p).1
      rxLoop := .refilling (b.fill.produceStep p).2 } := by
  have hfill := hb.fill
  have hwh := hb.whole
  have hroom := hb.room
  simp only [fillCall, RxPhase.produces, RxPhase.holds, hdone, hrx] at hfill hwh hroom
  refine hb.setRx hdone (b.fill.produceStep_spec p).2.1 hfill.produce.1
    (hfill.whole hwh (by omega)) ⟨hb.rx.used_le, hb.rx.producer, trivial⟩
    (perm_iff_count.mpr fun a => ?_)
  have hmove := congrArg (List.count a) hfill.contents_append_offered
  simp only [hrx, RxPhase.holds, count_append] at hmove ⊢
  omega

theorem Kept.rxStep : Kept b.rxStep := by
  unfold Bridge.rxStep
  split
  · rename_i hrx
    refine hb.rx_start hdone ?_ rfl trivial
    rw [hrx]
    rfl
  · rename_i d out hrx
    exact hb.rx_go hdone (by rw [hrx]; rfl) rfl trivial trivial
  · exact hb.rx_consume hdone ‹_›
  · rename_i d rest toRefill hrx
    refine hb.rx_go hdone ?_ rfl trivial trivial
    rw [hrx]
    simp [RxPhase.holds]
  · rename_i toRefill hrx
    refine hb.rx_go hdone ?_ rfl trivial trivial
    rw [hrx]
    exact (append_nil toRefill).symm
  · rename_i hrx
    refine hb.rx_start hdone ?_ rfl trivial
    have hwh := hb.whole
    rw [fillCall, hdone, hrx] at hwh
    rw [hrx]
    exact offered_of_whole hwh
  · exact hb.rx_produce hdone ‹_›

theorem Kept.tick : b.tick = b := by
  have hstk := hb.stocked
  simp only [Stocked, hdone] at hstk
  simp only [Bridge.tick, hb.waiting, hstk, length_nil, Nat.zero_div, if_true]

end

omit hdone in
theorem Kept.fillStep (hb : Kept b) : b.fillStep = b := by
  simp only [Bridge.fillStep, hb.waiting]

end Receive

section Kernel

section

variable (hb : Kept b)

include hb

theorem Kept.kernelTake {max : Nat} (h : b.kernelStep (.kernelTake max) = some b') : Kept b' := by
  simp only [kernelStep] at h
  split at h
  · rename_i hk
    cases h
    refine hb.setKernel rfl ⟨hb.fill.used_le, hb.fill.producer, trivial⟩ hb.rx
      ((perm_iff_count.mpr fun a => ?_).map _)
    simp only [Kernel.holds, hk, received, count_append, count_nil]
    omega
  · cases h

theorem Kept.kernelFill (h : b.kernelStep .kernelFill = some b') : Kept b' := by
  simp only [kernelStep] at h
  split at h
  · rename_i out hk
    cases h
    refine hb.setKernel rfl ⟨hb.fill.used_le, hb.fill.producer, trivial⟩ hb.rx
      ((perm_iff_count.mpr fun a => ?_).map _)
    simp only [Kernel.holds, hk, received, count_append, count_nil]
    omega
  · cases h
    refine hb.setKernel (b.fill.consumeStep_spec _).2 hb.fill.consume.1 hb.rx
      ((perm_iff_count.mpr fun a => ?_).map _)
    have hmove := congrArg (List.count a) hb.fill.received_append_contents
    simp only [Kernel.holds, count_append] at hmove ⊢
    omega

theorem Kept.kernelDeliver {descs : List XdpDesc} {rest : List UInt64}
    (h : b.kernelStep (.kernelDeliver descs rest) = some b') : Kept b' := by
  simp only [kernelStep] at h
  split at h
  · rename_i hk
    obtain ⟨hperm, h⟩ := Option.ite_none_right_eq_some.mp h
    cases h
    refine hb.setKernel rfl hb.fill ⟨hb.rx.used_le, trivial, hb.rx.consumer⟩
      (perm_iff_count.mpr fun a => ?_)
    have hcnt := perm_iff_count.mp hperm a
    simp only [Kernel.holds, hk, offered, descFrames, frames, map_append,
      map_nil, count_append, count_nil] at hcnt ⊢
    omega
  · cases h

theorem Kept.kernelRx (h : b.kernelStep .kernelRx = some b') : Kept b' := by
  simp only [kernelStep] at h
  split at h
  · rename_i descs n hk
    cases h
    refine hb.setKernel rfl hb.fill ⟨hb.rx.used_le, trivial, hb.rx.consumer⟩
      ((perm_iff_count.mpr fun a => ?_).map _)
    simp only [Kernel.holds, hk, offered, map_nil, count_append, count_nil]
    omega
  · cases h
    refine hb.setKernel rfl hb.fill hb.rx.produce.1 ((perm_iff_count.mpr fun a => ?_).map _)
    have hmove := congrArg (fun l => (l.map XdpDesc.addr).count a) hb.rx.contents_append_offered
    simp only [Kernel.holds, map_append, count_append] at hmove ⊢
    omega

theorem Kept.kernelSend {max : Nat} (h : b.kernelStep (.kernelSend max) = some b') : Kept b' := by
  obtain ⟨htx, -, hrest⟩ := txSide_eq_nil.mp hb.quiet
  simp only [kernelStep] at h
  split at h
  · cases h
    exact hb.setTx ⟨hb.tx.used_le, trivial, trivial⟩ hb.comp ⟨htx, rfl, hrest⟩
  · cases h

theorem Kept.kernelTx (h : b.kernelStep .kernelTx = some b') : Kept b' := by
  obtain ⟨htx, hrcv, hsent, hrest⟩ := txSide_eq_nil.mp hb.quiet
  simp only [kernelStep] at h
  split at h
  · rename_i out hk
    cases h
    rw [hk] at hrcv
    obtain rfl : out = [] := hrcv
    refine hb.setTx ⟨hb.tx.used_le, trivial, trivial⟩ hb.comp ⟨htx, rfl, ?_, hrest⟩
    rw [hsent, append_nil]
  · cases h
    have hmove := hb.tx.received_append_contents
    rw [htx, hrcv, append_nil] at hmove
    obtain ⟨hrcv, htx⟩ := append_eq_nil_iff.mp hmove
    exact hb.setTx hb.tx.consume.1 hb.comp ⟨htx, hrcv, hsent, hrest⟩

theorem Kept.kernelComplete {frames : List UInt64} {rest : List XdpDesc}
    (h : b.kernelStep (.kernelComplete frames rest) = some b') : Kept b' := by
  obtain ⟨htx, hrcv, hsent, -, hrest⟩ := txSide_eq_nil.mp hb.quiet
  simp only [kernelStep] at h
  split at h
  · obtain ⟨hperm, h⟩ := Option.ite_none_right_eq_some.mp h
    cases h
    rw [hsent] at hperm
    have hnil : b.frames frames = [] ∧ b.descFrames rest = [] :=
      append_eq_nil_iff.mp hperm.eq_nil
    refine hb.setTx hb.tx ⟨hb.comp.used_le, trivial, hb.comp.consumer⟩
      ⟨htx, hrcv, ?_, map_eq_nil_iff.mp hnil.1, hrest⟩
    exact map_eq_nil_iff.mp (map_eq_nil_iff.mp hnil.2)
  · cases h

theorem Kept.kernelComp (h : b.kernelStep .kernelComp = some b') : Kept b' := by
  obtain ⟨htx, hrcv, hsent, hoff, hcomp, hrest⟩ := txSide_eq_nil.mp hb.quiet
  simp only [kernelStep] at h
  split at h
  · rename_i frames n hk
    cases h
    rw [hk] at hoff
    have hdrop : frames.drop n.toNat = [] := hoff
    refine hb.setTx hb.tx ⟨hb.comp.used_le, trivial, hb.comp.consumer⟩
      ⟨htx, hrcv, ?_, rfl, hcomp, hrest⟩
    rw [hsent, hdrop]
    rfl
  · cases h
    have hmove := hb.comp.contents_append_offered
    rw [hoff, hcomp, append_nil] at hmove
    obtain ⟨hcomp, hoff⟩ := append_eq_nil_iff.mp hmove
    exact hb.setTx hb.tx hb.comp.produce.1 ⟨htx, hrcv, hsent, hoff, hcomp, hrest⟩

theorem Kept.kernelStep (h : b.kernelStep e = some b') : Kept b' := by
  cases e with
  | kernelTake => exact hb.kernelTake h
  | kernelFill => exact hb.kernelFill h
  | kernelDeliver => exact hb.kernelDeliver h
  | kernelRx => exact hb.kernelRx h
  | kernelSend => exact hb.kernelSend h
  | kernelTx => exact hb.kernelTx h
  | kernelComplete => exact hb.kernelComplete h
  | kernelComp => exact hb.kernelComp h
  | prefill | rxLoop | tick | fillLoop | completionLoop => cases h

end

end Kernel

section Completion

theorem Kept.comp_start_consume (hb : Kept b) (max : Nat) :
    Kept { b with completionLoop := .consuming (.started max) } := by
  obtain ⟨htx, hrcv, hsent, hoff, hcomp, -⟩ := txSide_eq_nil.mp hb.quiet
  exact hb.setTx hb.tx ⟨hb.comp.used_le, hb.comp.producer, trivial⟩
    ⟨htx, hrcv, hsent, hoff, hcomp, rfl⟩

theorem Kept.completionStep (hb : Kept b) : Kept b.completionStep := by
  obtain ⟨htx, hrcv, hsent, hoff, hcomp, hh⟩ := txSide_eq_nil.mp hb.quiet
  unfold Bridge.completionStep
  split
  · exact hb.comp_start_consume _
  · rename_i a out hph
    rw [hph] at hh
    cases hh
  · rename_i c _ _ hph
    have hsd := hb.comp
    rw [hph] at hsd hh
    have hmove := hsd.received_append_contents
    have hnone : received c = [] := hh
    simp only [CompletionPhase.consumes, hnone, hcomp, append_nil] at hmove
    obtain ⟨hh, hcomp⟩ := append_eq_nil_iff.mp hmove
    exact hb.setTx hb.tx hsd.consume.1 ⟨htx, hrcv, hsent, hoff, hcomp, hh⟩
  · rename_i a rest hph
    rw [hph] at hh
    cases hh
  · exact hb.comp_start_consume _

end Completion

theorem Kept.exec (hb : Kept b) (h : b.exec e = some b') : Kept b' := by
  unfold Bridge.exec at h
  split at h
  · exact hb.prefillStep h
  · obtain ⟨hdone, h⟩ := Option.ite_none_right_eq_some.mp h
    cases h
    exact hb.rxStep hdone
  · obtain ⟨hdone, h⟩ := Option.ite_none_right_eq_some.mp h
    rw [hb.tick hdone] at h
    cases h
    exact hb
  · obtain ⟨-, h⟩ := Option.ite_none_right_eq_some.mp h
    rw [hb.fillStep] at h
    cases h
    exact hb
  · obtain ⟨-, h⟩ := Option.ite_none_right_eq_some.mp h
    cases h
    exact hb.completionStep
  · exact hb.kernelStep h

end Bridge

end AfXdp

end Falx
