import Falx.FramesKept

/-! No frame is lost or held twice where the FILL ring can take all of them. With more frames
than that, the loop that replenishes the ring loses those that it takes from the pool while the
ring is full. -/

namespace Falx

namespace AfXdp

open List SharedRing SlotRing

namespace Bridge

variable {b b' : Bridge} {e : BridgeStep}

section Initial

variable {u : Umem} {numFrames frameSize : UInt32} (batchSize : Nat)

theorem chunk_frameOffsets (hu : Umem.Made u) :
    (frameOffsets u.numFrames u.frameSize).map u.chunk = List.range u.numFrames.toNat := by
  rw [frameOffsets, map_map]
  refine (map_congr_left fun i hi => ?_).trans (map_id _)
  have hi := mem_range.mp hi
  have hnum := u.numFrames.toNat_lt
  have hpos : 0 < u.frameSize.toNat ∧ u.frameSize.toNat ≤ 4096 := by
    have hsize := hu.toNat_frameSize
    omega
  have hmul : i * u.frameSize.toNat ≤ i * 4096 := Nat.mul_le_mul_left i hpos.2
  have hword : (UInt64.ofNat i).toNat = i := by
    rw [UInt64.toNat_ofNat', Nat.mod_eq_of_lt]
    omega
  have hoffset : (UInt64.ofNat i * u.frameSize.toUInt64).toNat = i * u.frameSize.toNat := by
    rw [UInt64.toNat_mul, hword, UInt32.toNat_toUInt64, Nat.mod_eq_of_lt]
    omega
  show (UInt64.ofNat i * u.frameSize.toUInt64).toNat / u.frameSize.toNat = i
  rw [hoffset, Nat.mul_div_cancel _ hpos.1]

theorem addresses_newBridge : (newBridge u batchSize).addresses = u.freeFrames := by
  simp [addresses, txSide, newBridge, contents, used, PrefillPhase.holds,
    RxPhase.holds, FillPhase.holds, CompletionPhase.holds, Kernel.holds, received,
    offered, rxConsume, completionConsume]

theorem kept_newBridge (hnew : newUMEM numFrames frameSize = .ok u)
    (hnum : numFrames.toNat ≤ fillRingSize) : Kept (newBridge u batchSize) := by
  obtain ⟨hnumFrames, hfree⟩ := Umem.freeFrames_newUMEM hnew
  have hcons : (newBridge u batchSize).Conserved := by
    rw [Conserved, addresses_newBridge]
    show (u.freeFrames.map u.chunk).Perm (List.range u.numFrames.toNat)
    rw [hfree, chunk_frameOffsets (Umem.made_newUMEM hnew)]
  exact {
    small := hnumFrames ▸ hnum
    order := rfl
    fill := .of_empty rfl trivial trivial
    whole := trivial
    rx := .of_empty rfl trivial trivial
    tx := .of_empty rfl trivial trivial
    comp := .of_empty rfl trivial trivial
    quiet := txSide_eq_nil.mpr ⟨contents_eq_nil rfl, rfl, rfl, rfl,
      contents_eq_nil rfl, rfl⟩
    waiting := rfl
    stocked := trivial
    before := fun _ => rfl
    conserved := hcons }

theorem frames_conserved (hnew : newUMEM numFrames frameSize = .ok u)
    (hnum : numFrames.toNat ≤ fillRingSize) {es : List BridgeStep}
    (h : StepRun.run Bridge.exec (newBridge u batchSize) es = some b) : b.Conserved := by
  have hkept : Kept b := StepRun.run_invariant (I := Kept) (Q := fun _ => True)
    (fun _ _ _ hb _ he => hb.exec he) (fun _ _ => trivial) (kept_newBridge batchSize hnew hnum) h
  exact hkept.conserved

end Initial

def roundTrip : List BridgeStep :=
  List.replicate 10 .prefill ++ [.kernelTake 4] ++ List.replicate 7 .kernelFill ++
    [.kernelDeliver [⟨256, 4, 0⟩] [2048]] ++ List.replicate 6 .kernelRx ++
    List.replicate 14 .rxLoop

theorem frames_conserved_two :
    ∃ u b, newUMEM 2 2048 = .ok u ∧
      StepRun.run Bridge.exec (newBridge u 64) roundTrip = some b ∧
      b.fill.contents = [256] ∧ b.kernel.empty = [2048] ∧ b.Conserved := by
  have hnew : newUMEM 2 2048 = .ok (Umem.twoFrames (List.replicate 4096 0)) := rfl
  have hrun : (StepRun.run Bridge.exec
      (newBridge (Umem.twoFrames (List.replicate 4096 0)) 64) roundTrip).any
      (fun b => decide (b.fill.contents = [256] ∧ b.kernel.empty = [2048])) = true := by
    decide +kernel
  obtain ⟨b, hb, hplaces⟩ := (Option.any_eq_true _ _).mp hrun
  obtain ⟨hfill, hnil⟩ := of_decide_eq_true hplaces
  exact ⟨_, b, hnew, hb, hfill, hnil, frames_conserved 64 hnew (by decide) hb⟩

section Lost

def Leads (b b' : Bridge) : Prop := ∃ es, StepRun.run Bridge.exec b es = some b'

theorem Leads.refl (b : Bridge) : Leads b b := ⟨[], rfl⟩

theorem Leads.step {t : Bridge} (e : BridgeStep) (h : b.exec e = some t) (ht : Leads t b') : Leads b b' := by
  obtain ⟨es, hes⟩ := ht
  refine ⟨e :: es, ?_⟩
  rw [StepRun.run, h]
  exact hes

theorem Leads.trans {t : Bridge} (h : Leads b t) (ht : Leads t b') : Leads b b' := by
  obtain ⟨es, hes⟩ := h
  obtain ⟨es', hes'⟩ := ht
  refine ⟨es ++ es', ?_⟩
  rw [StepRun.run_append, hes]
  exact hes'

theorem leads_collect (state : List UInt64 → List UInt64 → Bridge) {limit : Nat} (e : BridgeStep)
    (hstep : ∀ frame pool frames, frames.length < limit →
      (state (frame :: pool) frames).exec e = some (state pool (frames ++ [frame])))
    (pool frames taken : List UInt64) (hroom : frames.length + taken.length ≤ limit) :
    Leads (state (taken ++ pool) frames) (state pool (frames ++ taken)) := by
  induction taken generalizing frames with
  | nil =>
    rw [append_nil]
    exact Leads.refl _
  | cons frame taken ih =>
    rw [length_cons] at hroom
    have hrest := ih (frames ++ [frame]) (by
      rw [length_append, length_singleton]
      omega)
    rw [append_assoc] at hrest
    exact Leads.step e (hstep frame (taken ++ pool) frames (by omega)) hrest

theorem leads_prefill_produce (b : Bridge) (fill : SlotRing UInt64) (p : ProduceCall UInt64)
    (hp : p ≠ .idle) (hsd : fill.Sound p b.kernel.fill) (hwh : SlotRing.Whole p)
    (hroom : fill.used + (offered p).length ≤ 2 ^ fill.order) :
    ∃ fill', Leads
        { b with fill := fill, prefill := .producing p }
        { b with fill := fill', prefill := .done } ∧
      fill'.order = fill.order ∧
      fill'.used = fill.used + (offered p).length := by
  induction hk : remaining p using Nat.strong_induction_on generalizing fill p with
  | _ k ih =>
    subst hk
    by_cases hzero : remaining p = 0
    · cases p with
      | idle => exact absurd rfl hp
      | returned frames n =>
        refine ⟨fill, Leads.step .prefill rfl (Leads.refl _), rfl, ?_⟩
        rw [offered_of_whole hwh]
        rfl
      | _ => cases hzero
    · have hlen := congrArg List.length hsd.contents_append_offered
      simp only [length_append, length_contents] at hlen
      obtain ⟨-, hor, hne⟩ := fill.produceStep_spec p
      obtain ⟨fill', hleads, hor', hused⟩ := ih _ (hsd.remaining_lt hzero)
        (fill.produceStep p).1 (fill.produceStep p).2 (hne hp) hsd.produce.1
        (hsd.whole hwh hroom) (by rw [hor]; omega) rfl
      refine ⟨fill', Leads.step .prefill ?_ hleads, hor'.trans hor, by omega⟩
      cases p with
      | idle | returned frames n => exact absurd rfl hzero
      | _ => rfl

theorem leads_fill_full (b : Bridge) (hdone : b.prefill = .done)
    (hfull : b.fill.used = 2 ^ b.fill.order) (frames : List UInt64) :
    Leads { b with fillLoop := .producing (fillProduce frames) }
      { b with fillLoop := .waiting } := by
  refine Leads.step (t := { b with fillLoop := .producing (.loaded frames b.fill.producer) })
    .fillLoop ?_ ?_
  · simp only [exec, hdone, if_true]
    rfl
  refine Leads.step (t := { b with fillLoop := .producing (.returned frames 0) }) .fillLoop ?_ ?_
  · simp only [exec, hdone, if_true, fillStep, produceStep_full hfull]
  refine Leads.step .fillLoop ?_ (Leads.refl _)
  simp only [exec, hdone, if_true]
  rfl

theorem leads_loss (b : Bridge) (hdone : b.prefill = .done)
    (hfull : b.fill.used = 2 ^ b.fill.order) (hpool : 2 ≤ b.umem.freeFrames.length) :
    Leads { b with fillLoop := .waiting }
      { b with
        umem := { b.umem with freeFrames := b.umem.freeFrames.drop (b.umem.freeFrames.length / 2) }
        fillLoop := .waiting } := by
  generalize hadd : b.umem.freeFrames.length / 2 = toAdd
  have hpos : toAdd ≠ 0 := by omega
  have hlen : (b.umem.freeFrames.take toAdd).length = toAdd := by
    rw [length_take]
    omega
  have hcol := leads_collect (fun pool frames => { b with
      umem := { b.umem with freeFrames := pool }
      fillLoop := .collecting toAdd frames }) .fillLoop
    (fun frame pool frames hlt => by
      simp only [exec, hdone, fillStep, hlt, if_true, Umem.allocFrame])
    (b.umem.freeFrames.drop toAdd) [] (b.umem.freeFrames.take toAdd)
    (Nat.le_of_eq ((Nat.zero_add _).trans hlen))
  rw [take_append_drop, nil_append] at hcol
  refine Leads.step (t := { b with fillLoop := .collecting toAdd [] }) .tick ?_ (hcol.trans ?_)
  · simp only [exec, hdone, if_true, tick, hadd, hpos, if_false]
  have hnil : b.umem.freeFrames.take toAdd ≠ [] := by
    intro hnil
    rw [hnil] at hlen
    exact hpos hlen.symm
  refine Leads.step .fillLoop ?_ (leads_fill_full
    { b with umem := { b.umem with freeFrames := b.umem.freeFrames.drop toAdd } } hdone hfull
    (b.umem.freeFrames.take toAdd))
  simp only [exec, hdone, if_true, fillStep, hlen, Nat.lt_irrefl, if_false, hnil]

theorem leads_prefilled (u : Umem) (batchSize : Nat) (hmany : fillRingSize ≤ u.freeFrames.length) :
    ∃ fill, Leads (newBridge u batchSize)
        { newBridge u batchSize with
          umem := { u with freeFrames := u.freeFrames.drop fillRingSize }
          fill := fill
          prefill := .done } ∧
      fill.used = 2 ^ fill.order ∧ fill.used = fillRingSize := by
  have hlen : (u.freeFrames.take fillRingSize).length = fillRingSize := by
    rw [length_take]
    omega
  have hcol := leads_collect (fun pool frames => { newBridge u batchSize with
      umem := { u with freeFrames := pool }
      prefill := .collecting frames }) .prefill
    (fun frame pool frames hlt => by simp only [exec, prefillStep, hlt, if_true, Umem.allocFrame])
    (u.freeFrames.drop fillRingSize) [] (u.freeFrames.take fillRingSize)
    (Nat.le_of_eq ((Nat.zero_add _).trans hlen))
  rw [take_append_drop, nil_append] at hcol
  have hnil : u.freeFrames.take fillRingSize ≠ [] := by
    intro hnil
    rw [hnil] at hlen
    cases hlen
  have hem : (newBridge u batchSize).fill.used = 0 := used_eq_zero rfl
  obtain ⟨fill, hproduce, hor, hused⟩ := leads_prefill_produce
    { newBridge u batchSize with umem := { u with freeFrames := u.freeFrames.drop fillRingSize } }
    (newBridge u batchSize).fill (fillProduce (u.freeFrames.take fillRingSize)) nofun
    (.of_empty rfl trivial trivial) trivial (by
      rw [hem]
      exact Nat.le_of_eq ((Nat.zero_add _).trans hlen))
  have hused : fill.used = fillRingSize := by
    rw [hused, hem, Nat.zero_add]
    exact hlen
  refine ⟨fill, hcol.trans (Leads.step .prefill ?_ hproduce), ?_, hused⟩
  · simp only [exec, prefillStep, hlen, Nat.lt_irrefl, if_false, hnil]
  · rw [hused, hor]
    rfl

theorem leads_newBridge (u : Umem) (batchSize : Nat)
    (hmore : fillRingSize + 2 ≤ u.freeFrames.length) :
    ∃ b, Leads (newBridge u batchSize) b ∧ b.umem.numFrames = u.numFrames ∧
      b.addresses.length < u.freeFrames.length := by
  obtain ⟨fill, hprefilled, hfull, hused⟩ := leads_prefilled u batchSize (by omega)
  have hpool : (u.freeFrames.drop fillRingSize).length = u.freeFrames.length - fillRingSize :=
    length_drop
  have hloss := leads_loss
    { newBridge u batchSize with
      umem := { u with freeFrames := u.freeFrames.drop fillRingSize }
      fill := fill
      prefill := .done } rfl hfull (by
        rw [hpool]
        omega)
  refine ⟨_, hprefilled.trans hloss, rfl, ?_⟩
  have hrx : (newBridge u batchSize).rx.contents = [] := contents_eq_nil rfl
  have htx : (newBridge u batchSize).tx.contents = [] := contents_eq_nil rfl
  have hcomp : (newBridge u batchSize).comp.contents = [] := contents_eq_nil rfl
  simp only [addresses, txSide, hrx, htx, hcomp, length_append, length_drop,
    length_contents, hused]
  simp [newBridge, PrefillPhase.holds, RxPhase.holds, FillPhase.holds, CompletionPhase.holds,
    Kernel.holds, received, offered, rxConsume, completionConsume]
  omega

end Lost

theorem frames_lost :
    ∃ u b es, newUMEM 8192 2048 = .ok u ∧
      StepRun.run Bridge.exec (newBridge u 64) es = some b ∧ ¬ b.Conserved := by
  obtain ⟨u, hnew⟩ : ∃ u, newUMEM 8192 2048 = .ok u := ⟨_, rfl⟩
  obtain ⟨hnum, hfree⟩ := Umem.freeFrames_newUMEM hnew
  have hlen : u.freeFrames.length = 8192 := by
    rw [hfree, hnum, frameOffsets, List.length_map, List.length_range]
    rfl
  obtain ⟨b, ⟨es, hrun⟩, hsame, hless⟩ := leads_newBridge u 64 (by rw [hlen]; decide)
  refine ⟨u, b, es, hnew, hrun, fun hcons => ?_⟩
  have hall := hcons.length_eq
  rw [frames, List.length_map, List.length_range, hsame, hnum] at hall
  rw [hlen, hall] at hless
  exact absurd hless (by decide)

end Bridge

end AfXdp

end Falx
