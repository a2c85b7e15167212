import Mathlib.Data.List.TakeWhile

/-! Receive loops over a stream. A round looks at what is left of the stream and ends
the loop, passes over some of it, or delivers a frame; `receive` is what the loop has
delivered after a number of rounds. -/

namespace FrameStream

open List

inductive Outcome (β φ : Type) where
  | stop
  | skip (rest : List β)
  | deliver (frame : φ) (rest : List β)

variable {β φ μ : Type}

def receive (round : List β → Outcome β φ) : Nat → List β → List φ
  | 0, _ => []
  | fuel + 1, s =>
    match round s with
    | .stop => []
    | .skip rest => receive round fuel rest
    | .deliver frame rest => frame :: receive round fuel rest

section

variable {round : List β → Outcome β φ}

variable {fuel : Nat} {s : List β} {f : φ} {encode : μ → List β} {frame : μ → φ} {ms : List μ}

theorem of_mem_receive {Q : List β → Prop} {P : φ → Prop}
    (hskip : ∀ {s rest}, Q s → round s = .skip rest → Q rest)
    (hdlv : ∀ {s f rest}, Q s → round s = .deliver f rest → P f ∧ Q rest) (hs : Q s)
    (hf : f ∈ receive round fuel s) : P f := by
  induction fuel generalizing s with
  | zero => simp [receive] at hf
  | succ fuel ih =>
    simp only [receive] at hf
    cases hr : round s with
    | stop => simp [hr] at hf
    | skip rest =>
      simp only [hr] at hf
      exact ih (hskip hs hr) hf
    | deliver g rest =>
      simp only [hr, mem_cons] at hf
      obtain ⟨hg, hrest⟩ := hdlv hs hr
      rcases hf with rfl | hf
      · exact hg
      · exact ih hrest hf

theorem infix_of_mem_receive {R : φ → List β → Prop}
    (hskip : ∀ {s rest}, round s = .skip rest → rest <:+ s)
    (hdlv : ∀ {s f rest}, round s = .deliver f rest → ∃ b, R f b ∧ s = b ++ rest)
    (hf : f ∈ receive round fuel s) : ∃ b, R f b ∧ b <:+: s := by
  refine of_mem_receive (Q := (· <:+ s)) (P := fun f => ∃ b, R f b ∧ b <:+: s) ?_ ?_
    suffix_rfl hf
  · intro t rest ht hr
    exact (hskip hr).trans ht
  · intro t g rest ht hr
    obtain ⟨b, hb, rfl⟩ := hdlv hr
    exact ⟨⟨b, hb, (prefix_append b rest).isInfix.trans ht.isInfix⟩,
      (suffix_append b rest).trans ht⟩

/-- Of frames written one after another, the loop delivers those before the first that
ends it. -/
theorem receive_flatMap_takeWhile {p : μ → Bool} {tail : List β}
    (hgood : ∀ m ∈ ms, p m = true → ∀ rest, round (encode m ++ rest) = .deliver (frame m) rest)
    (hbad : ∀ m ∈ ms, p m = false → ∀ rest, round (encode m ++ rest) = .stop)
    (htail : round tail = .stop) (hfuel : ms.length < fuel) :
    receive round fuel (ms.flatMap encode ++ tail) = (ms.takeWhile p).map frame := by
  induction ms generalizing fuel with
  | nil =>
    cases fuel with
    | zero => omega
    | succ fuel => simp [receive, htail]
  | cons m ms ih =>
    cases fuel with
    | zero => omega
    | succ fuel =>
      rw [flatMap_cons, append_assoc, receive]
      cases hp : p m with
      | false => simp only [hbad m (.head _) hp, takeWhile_cons, hp, map_nil, ite_false,
          Bool.false_eq_true]
      | true =>
        have hrest := ih (fun m' h => hgood m' (.tail _ h)) (fun m' h => hbad m' (.tail _ h))
          (show ms.length < fuel by simpa using hfuel)
        simp only [hgood m (.head _) hp, hrest, takeWhile_cons, hp, ite_true, map_cons]

section

variable (hround : ∀ m ∈ ms, ∀ rest, round (encode m ++ rest) = .deliver (frame m) rest)
  (hend : round [] = .stop)

include hround hend

theorem receive_flatMap (hfuel : ms.length < fuel) :
    receive round fuel (ms.flatMap encode) = ms.map frame := by
  have hall := receive_flatMap_takeWhile (p := fun _ => true) (fun m hm _ => hround m hm)
    (fun m _ h => nomatch h) hend hfuel
  rwa [append_nil, takeWhile_eq_self_iff.mpr fun _ _ => rfl] at hall

theorem exists_of_mem_receive_flatMap (hf : f ∈ receive round fuel (ms.flatMap encode)) :
    ∃ m ∈ ms, f = frame m := by
  induction ms generalizing fuel with
  | nil => cases fuel <;> simp [receive, hend] at hf
  | cons m ms ih =>
    cases fuel with
    | zero => simp [receive] at hf
    | succ fuel =>
      have hm := hround m (.head _) (ms.flatMap encode)
      simp only [flatMap_cons, receive, hm, mem_cons] at hf
      rcases hf with rfl | hf
      · exact ⟨m, .head _, rfl⟩
      · obtain ⟨m', hm', hf⟩ := ih (fun m' h => hround m' (.tail _ h)) hf
        exact ⟨m', .tail _ hm', hf⟩

end

end

end FrameStream
