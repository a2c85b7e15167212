import Falx.PolicyRule

/-! What a condition states about a flow, and which conditions `matchCondition` treats
as stated. `Validate` looks at no condition, so all of them occur. -/

namespace Falx.Policy

open GoScan

/-- The comparisons of numbers; other operators compare none. -/
def Operator.Holds (op : Operator) (n v : Nat) : Prop :=
  match op with
  | .eq => n = v
  | .neq => n ≠ v
  | .gt => v < n
  | .lt => n < v
  | .gte => v ≤ n
  | .lte => n ≤ v
  | _ => False

def Operator.Satisfiable (op : Operator) (max v : Nat) : Prop :=
  match op with
  | .eq | .gte => v ≤ max
  | .neq | .lte => True
  | .gt => v < max
  | .lt => 0 < v
  | _ => False

namespace Condition

def StatedIP (net : NetLib) (c : Condition) (ip : Option NetIP) : Prop :=
  ∃ x, ip = some x ∧
    match c.operator with
    | .cidr => ∃ network, net.parseCIDR c.value = some network ∧ network.contains x = true
    | .eq => ∃ parsed, net.parseIP c.value = some parsed ∧ parsed.equal x = true
    | .neq => ∃ parsed, net.parseIP c.value = some parsed ∧ parsed.equal x = false
    | _ => False

def StatedNumber (c : Condition) (bits n : Nat) : Prop :=
  ∃ v, parseUint bits c.value.toList = some v ∧ c.operator.Holds n v

def StatedPort (c : Condition) (n : Nat) : Prop :=
  c.StatedNumber 16 n ∨
    c.operator = .range ∧
      ∃ low high, parseRange 16 c.value.toList = some (low, high) ∧ low ≤ n ∧ n ≤ high

def StatedProtocol (c : Condition) (n : Nat) : Prop :=
  c.StatedNumber 8 n ∨
    c.operator = .isIn ∧ ∃ vs, parseList 8 c.value.toList = some vs ∧ n ∈ vs

/-- The field of the flow stands in the relation to the value, which has to be a
complete value of the field's own type. There is no field for a country. -/
def Stated (net : NetLib) (c : Condition) (f : Flow) : Prop :=
  match c.type with
  | .srcIP => c.StatedIP net f.srcIP
  | .dstIP => c.StatedIP net f.dstIP
  | .srcPort => c.StatedPort f.srcPort.toNat
  | .dstPort => c.StatedPort f.dstPort.toNat
  | .protocol => c.StatedProtocol f.protocol.toNat
  | .pps => c.StatedNumber 64 f.pps.toNat
  | .bps => c.StatedNumber 64 f.bps.toNat
  | .threatScore => c.StatedNumber 8 f.threatScore.toNat
  | .country | .unknown _ => False

/-- For a field of so many bits, scanned into a variable of `w` bits, of which the code
knows the given operators: a value that parses needs an operator that is known, and one
that does not parse must not compare with what the scan leaves. -/
def FaithfulNumber (c : Condition) (bits w : Nat) (known : List Operator) : Prop :=
  match parseUint bits c.value.toList with
  | some v => c.operator ∈ known ∨ ¬ c.operator.Satisfiable (2 ^ bits - 1) v
  | none => c.operator ∈ known →
      ¬ c.operator.Satisfiable (2 ^ bits - 1) (sscanUint w c.value.toList)

def Faithful (net : NetLib) (c : Condition) : Prop :=
  match c.type with
  | .srcIP | .dstIP => c.operator = .neq → net.parseIP c.value ≠ none
  | .srcPort | .dstPort =>
    if c.operator = .range then
      parseRange 16 c.value.toList ≠ none ∨
        (sscanRange 16 c.value.toList).2 < (sscanRange 16 c.value.toList).1
    else c.FaithfulNumber 16 16 [.eq, .gt, .lt]
  | .protocol =>
    if c.operator = .eq then
      ∀ v, parseUint 8 c.value.toList = some v → c.value = toString v
    else if c.operator = .isIn then
      ∃ vs, parseList 8 c.value.toList = some vs ∧ ∀ n < 256, n ∈ vs
    else c.FaithfulNumber 8 8 []
  | .pps | .bps => c.FaithfulNumber 64 64 [.gt, .lt, .eq, .gte, .lte]
  | .threatScore => c.FaithfulNumber 8 64 [.gt, .lt, .eq, .gte, .lte]
  | .country | .unknown _ => True

end Condition

section Numbers

variable {op : Operator} {max v : Nat}

theorem exists_holds_iff (hmax : 0 < max) : (∃ n ≤ max, op.Holds n v) ↔ op.Satisfiable max v := by
  cases op with
  | eq => exact ⟨fun ⟨n, hn, h⟩ => h ▸ hn, fun h => ⟨v, h, rfl⟩⟩
  | neq =>
    refine iff_of_true ?_ trivial
    by_cases hv : v = 0
    · exact ⟨max, Nat.le_refl _, show max ≠ v by omega⟩
    · exact ⟨0, Nat.zero_le _, show 0 ≠ v by omega⟩
  | gt => exact ⟨fun ⟨n, hn, h⟩ => Nat.lt_of_lt_of_le h hn, fun h => ⟨max, Nat.le_refl _, h⟩⟩
  | lt => exact ⟨fun ⟨n, _, h⟩ => Nat.lt_of_le_of_lt (Nat.zero_le _) h, fun h => ⟨0, Nat.zero_le _, h⟩⟩
  | gte => exact ⟨fun ⟨n, hn, h⟩ => Nat.le_trans h hn, fun h => ⟨max, Nat.le_refl _, h⟩⟩
  | lte => exact iff_of_true ⟨0, Nat.zero_le _, Nat.zero_le v⟩ trivial
  | range | isIn | cidr | unknown text => exact ⟨fun ⟨_, _, h⟩ => h, False.elim⟩

variable {c : Condition}

theorem faithfulNumber_iff {bits w : Nat} {known : List Operator} (hbits : 0 < bits)
    (hw : bits ≤ w) :
    (∀ n < 2 ^ bits, c.operator ∈ known ∧ c.operator.Holds n (sscanUint w c.value.toList) ↔
        c.StatedNumber bits n) ↔ c.FaithfulNumber bits w known := by
  have hmax : 0 < 2 ^ bits - 1 := by
    have := Nat.pow_le_pow_right (show 0 < 2 by omega) hbits
    omega
  have hlt : ∀ n, n < 2 ^ bits ↔ n ≤ 2 ^ bits - 1 := by omega
  rw [Condition.FaithfulNumber]
  cases hp : parseUint bits c.value.toList with
  | some v =>
    have hstd : ∀ n, c.StatedNumber bits n ↔ c.operator.Holds n v := by
      intro n
      rw [Condition.StatedNumber, hp]
      simp
    simp only [hstd, sscanUint_of_parseUint hw hp, ← exists_holds_iff hmax, hlt]
    constructor
    · intro h
      by_cases hkn : c.operator ∈ known
      · exact .inl hkn
      · exact .inr fun ⟨n, hn, hh⟩ => hkn ((h n hn).mpr hh).1
    · rintro (hkn | hnone) n hn
      · exact ⟨fun h => h.2, fun h => ⟨hkn, h⟩⟩
      · have hnot : ¬ c.operator.Holds n v := fun h => hnone ⟨n, hn, h⟩
        exact iff_of_false (fun h => hnot h.2) hnot
  | none =>
    have hstd : ∀ n, ¬ c.StatedNumber bits n := by
      rintro n ⟨v, hv, -⟩
      rw [hp] at hv
      cases hv
    simp only [hstd, iff_false, not_and, ← exists_holds_iff hmax, hlt]
    exact ⟨fun h hkn ⟨n, hn, hh⟩ => h n hn hkn hh, fun h n hn hkn hh => h hkn ⟨n, hn, hh⟩⟩

theorem matchUint64_iff (c : Condition) (val : UInt64) :
    matchUint64 c val = true ↔ c.operator ∈ [Operator.gt, .lt, .eq, .gte, .lte] ∧
      c.operator.Holds val.toNat (sscanUint 64 c.value.toList) := by
  rw [matchUint64]
  cases c.operator <;> simp [Operator.Holds]

theorem matchPort_iff (hrg : c.operator ≠ .range) (port : UInt16) :
    matchPort c port = true ↔ c.operator ∈ [Operator.eq, .gt, .lt] ∧
      c.operator.Holds port.toNat (sscanUint 16 c.value.toList) := by
  rw [matchPort]
  cases hop : c.operator <;> simp_all [Operator.Holds]

theorem matchPort_range_iff (hrg : c.operator = .range) (port : UInt16) :
    matchPort c port = true ↔ (sscanRange 16 c.value.toList).1 ≤ port.toNat ∧
      port.toNat ≤ (sscanRange 16 c.value.toList).2 := by
  simp [matchPort, hrg]

end Numbers

section Flows

variable {net : NetLib} {c : Condition}

theorem forall_flow_iff {field : Flow → Nat} {bound : Nat} {P : Nat → Prop}
    (hlt : ∀ f, field f < bound) (hall : ∀ n < bound, ∃ f, field f = n) :
    (∀ f, P (field f)) ↔ ∀ n < bound, P n := by
  constructor
  · intro h n hn
    obtain ⟨f, rfl⟩ := hall n hn
    exact h f
  · exact fun h f => h _ (hlt f)

theorem faithfulNumber_iff_flow {field : Flow → Nat} {bits w : Nat} {known : List Operator}
    (hbits : 0 < bits) (hw : bits ≤ w) (hlt : ∀ f, field f < 2 ^ bits)
    (hall : ∀ n < 2 ^ bits, ∃ f, field f = n) :
    (∀ f, c.operator ∈ known ∧ c.operator.Holds (field f) (sscanUint w c.value.toList) ↔
      c.StatedNumber bits (field f)) ↔ c.FaithfulNumber bits w known := by
  rw [← faithfulNumber_iff hbits hw]
  exact forall_flow_iff (P := fun n => c.operator ∈ known ∧
    c.operator.Holds n (sscanUint w c.value.toList) ↔ c.StatedNumber bits n) hlt hall

theorem faithfulUint64_iff {val : Flow → UInt64} (hall : ∀ x, ∃ f, val f = x) :
    (∀ f, matchUint64 c (val f) = true ↔ c.StatedNumber 64 (val f).toNat) ↔
      c.FaithfulNumber 64 64 [.gt, .lt, .eq, .gte, .lte] := by
  simp only [matchUint64_iff]
  refine faithfulNumber_iff_flow (by omega) (by omega) (fun f => (val f).toNat_lt) fun n hn => ?_
  obtain ⟨f, hf⟩ := hall (UInt64.ofNat n)
  exact ⟨f, by rw [hf, UInt64.toNat_ofNat_of_lt' hn]⟩

theorem faithfulIP_iff {addr : Flow → Option NetIP} (hall : ∀ x, ∃ f, addr f = x) :
    (∀ f, matchIP net c (addr f) = true ↔ c.StatedIP net (addr f)) ↔
      (c.operator = .neq → net.parseIP c.value ≠ none) := by
  constructor
  · intro h hop hnone
    obtain ⟨f, hf⟩ := hall (some [])
    have hma := h f
    simp [hf, matchIP, Condition.StatedIP, hop, hnone] at hma
  · intro h f
    cases hf : addr f with
    | none => simp [matchIP, Condition.StatedIP]
    | some x =>
      cases hop : c.operator with
      | cidr => cases hp : net.parseCIDR c.value <;> simp [matchIP, Condition.StatedIP, hop, hp]
      | eq => cases hp : net.parseIP c.value <;> simp [matchIP, Condition.StatedIP, hop, hp]
      | neq =>
        cases hp : net.parseIP c.value with
        | none => exact absurd hp (h hop)
        | some parsed => simp [matchIP, Condition.StatedIP, hop, hp]
      | _ => simp [matchIP, Condition.StatedIP, hop]

theorem faithfulPort_iff {port : Flow → UInt16} (hall : ∀ x, ∃ f, port f = x) :
    (∀ f, matchPort c (port f) = true ↔ c.StatedPort (port f).toNat) ↔
      if c.operator = .range then
        parseRange 16 c.value.toList ≠ none ∨
          (sscanRange 16 c.value.toList).2 < (sscanRange 16 c.value.toList).1
      else c.FaithfulNumber 16 16 [.eq, .gt, .lt] := by
  have hval : ∀ n < 2 ^ 16, ∃ f, (port f).toNat = n := by
    intro n hn
    obtain ⟨f, hf⟩ := hall (UInt16.ofNat n)
    exact ⟨f, by rw [hf, UInt16.toNat_ofNat_of_lt' hn]⟩
  by_cases hrg : c.operator = .range
  · have hstd : ∀ n, c.StatedPort n ↔
        ∃ low high, parseRange 16 c.value.toList = some (low, high) ∧ low ≤ n ∧ n ≤ high := by
      simp [Condition.StatedPort, Condition.StatedNumber, hrg, Operator.Holds]
    simp only [if_pos hrg, matchPort_range_iff hrg, hstd]
    cases hp : parseRange 16 c.value.toList with
    | some p =>
      obtain ⟨low, high⟩ := p
      simp [sscanRange_of_parseRange hp]
    | none =>
      have hlow := (sscanRange_lt 16 c.value.toList).1
      simp only [reduceCtorEq, false_and, exists_false, iff_false, ne_eq, not_true, false_or]
      constructor
      · intro h
        obtain ⟨f, hf⟩ := hval _ hlow
        have hnot := h f
        omega
      · intro h f
        omega
  · have hstd : ∀ n, c.StatedPort n ↔ c.StatedNumber 16 n := by
      simp [Condition.StatedPort, hrg]
    simp only [if_neg hrg, matchPort_iff hrg, hstd]
    exact faithfulNumber_iff_flow (by omega) (by omega) (fun f => (port f).toNat_lt) hval

end Flows

section Protocol

variable {c : Condition}

theorem containsStr_protocol (value : String) {n : Nat} (hn : n < 256) :
    containsStr value (toString n) = true := by
  have hdigs := (parseUint_eq_some (parseUint_toString (show n < 2 ^ 8 from hn))).2.1
  rw [containsStr, bne_iff_ne]
  intro heq
  rw [← heq] at hdigs
  simp [Char.isDigit] at hdigs

theorem exists_protocol {n : Nat} (hn : n < 256) : ∃ f : Flow, f.protocol.toNat = n :=
  ⟨⟨none, none, 0, 0, UInt8.ofNat n, 0, 0, 0⟩, UInt8.toNat_ofNat_of_lt' hn⟩

theorem faithfulProtocol_eq_iff (hop : c.operator = .eq) :
    (∀ f : Flow, (toString f.protocol.toNat == c.value) = true ↔
        c.StatedProtocol f.protocol.toNat) ↔
      ∀ v, parseUint 8 c.value.toList = some v → c.value = toString v := by
  have hstd : ∀ n, c.StatedProtocol n ↔ parseUint 8 c.value.toList = some n := by
    simp [Condition.StatedProtocol, Condition.StatedNumber, hop, Operator.Holds]
  simp only [hstd, beq_iff_eq]
  constructor
  · intro h v hv
    obtain ⟨f, rfl⟩ := exists_protocol (parseUint_eq_some hv).2.2.2
    exact ((h f).mpr hv).symm
  · intro h f
    have hn : f.protocol.toNat < 256 := f.protocol.toNat_lt
    constructor
    · intro heq
      rw [← heq]
      exact parseUint_toString hn
    · exact fun hv => (h _ hv).symm

theorem faithfulProtocol_in_iff (hop : c.operator = .isIn) :
    (∀ f : Flow, containsStr c.value (toString f.protocol.toNat) = true ↔
        c.StatedProtocol f.protocol.toNat) ↔
      ∃ vs, parseList 8 c.value.toList = some vs ∧ ∀ n < 256, n ∈ vs := by
  have hstd : ∀ n, c.StatedProtocol n ↔
      ∃ vs, parseList 8 c.value.toList = some vs ∧ n ∈ vs := by
    simp [Condition.StatedProtocol, Condition.StatedNumber, hop, Operator.Holds]
  simp only [hstd]
  constructor
  · intro h
    have hall : ∀ n < 256, ∃ vs, parseList 8 c.value.toList = some vs ∧ n ∈ vs := by
      intro n hn
      obtain ⟨f, rfl⟩ := exists_protocol hn
      exact (h f).mp (containsStr_protocol c.value hn)
    obtain ⟨vs, hvs, -⟩ := hall 0 (by omega)
    refine ⟨vs, hvs, fun n hn => ?_⟩
    obtain ⟨vs', hvs', hmem⟩ := hall n hn
    rw [hvs] at hvs'
    cases hvs'
    exact hmem
  · rintro ⟨vs, hvs, hall⟩ f
    have hn : f.protocol.toNat < 256 := f.protocol.toNat_lt
    exact iff_of_true (containsStr_protocol c.value hn) ⟨vs, hvs, hall _ hn⟩

theorem faithfulProtocol_iff :
    (∀ f : Flow, c.operator ∈ ([] : List Operator) ∧
        c.operator.Holds f.protocol.toNat (sscanUint 8 c.value.toList) ↔
      c.StatedNumber 8 f.protocol.toNat) ↔ c.FaithfulNumber 8 8 [] :=
  faithfulNumber_iff_flow (by omega) (by omega) (fun f => f.protocol.toNat_lt)
    fun _ hn => exists_protocol hn

end Protocol

/-- The conditions that `matchCondition` treats as stated, on every flow. -/
theorem matchCondition_faithful_iff (net : NetLib) (c : Condition) :
    (∀ f, matchCondition net c f = true ↔ c.Stated net f) ↔ c.Faithful net := by
  simp only [matchCondition, Condition.Stated, Condition.Faithful]
  cases htype : c.type with
  | srcIP => exact faithfulIP_iff fun x => ⟨⟨x, none, 0, 0, 0, 0, 0, 0⟩, rfl⟩
  | dstIP => exact faithfulIP_iff fun x => ⟨⟨none, x, 0, 0, 0, 0, 0, 0⟩, rfl⟩
  | srcPort => exact faithfulPort_iff fun x => ⟨⟨none, none, x, 0, 0, 0, 0, 0⟩, rfl⟩
  | dstPort => exact faithfulPort_iff fun x => ⟨⟨none, none, 0, x, 0, 0, 0, 0⟩, rfl⟩
  | pps => exact faithfulUint64_iff fun x => ⟨⟨none, none, 0, 0, 0, 0, x, 0⟩, rfl⟩
  | bps => exact faithfulUint64_iff fun x => ⟨⟨none, none, 0, 0, 0, 0, 0, x⟩, rfl⟩
  | threatScore =>
    simp only [matchUint64_iff, UInt8.toNat_toUInt64]
    refine faithfulNumber_iff_flow (by omega) (by omega) (fun f => f.threatScore.toNat_lt)
      fun n hn => ?_
    exact ⟨⟨none, none, 0, 0, 0, UInt8.ofNat n, 0, 0⟩, UInt8.toNat_ofNat_of_lt' hn⟩
  | protocol =>
    by_cases heq : c.operator = .eq
    · simp only [heq, if_true]
      exact faithfulProtocol_eq_iff heq
    · by_cases hin : c.operator = .isIn
      · simp only [hin, reduceCtorEq, if_false, if_true]
        exact faithfulProtocol_in_iff hin
      · rw [if_neg heq, if_neg hin, ← faithfulProtocol_iff]
        cases hop : c.operator with
        | eq => exact absurd hop heq
        | isIn => exact absurd hop hin
        | _ => simp [Condition.StatedProtocol, hop]
  | country | unknown text => simp

/-- A list of protocols matches one that is not on it, and a port that is no number
matches port 0. -/
theorem matchCondition_matches_unstated :
    (matchCondition noNet ⟨.protocol, .isIn, "6,17"⟩ ⟨none, none, 0, 0, 1, 0, 0, 0⟩ = true ∧
        ¬ Condition.Stated noNet ⟨.protocol, .isIn, "6,17"⟩ ⟨none, none, 0, 0, 1, 0, 0, 0⟩) ∧
      matchCondition noNet ⟨.dstPort, .eq, "ssh"⟩ ⟨none, none, 0, 0, 0, 0, 0, 0⟩ = true ∧
        ¬ Condition.Stated noNet ⟨.dstPort, .eq, "ssh"⟩ ⟨none, none, 0, 0, 0, 0, 0, 0⟩ := by
  have hlist : parseList 8 "6,17".toList = some [6, 17] := by decide +kernel
  have hport : parseUint 16 "ssh".toList = none := by decide +kernel
  refine ⟨⟨by decide +kernel, ?_⟩, by decide +kernel, ?_⟩
  · rintro (⟨v, -, hh⟩ | ⟨-, vs, hvs, hmem⟩)
    · exact hh
    · rw [hlist] at hvs
      cases hvs
      exact absurd hmem (by decide)
  · rintro (⟨v, hv, -⟩ | ⟨hop, -⟩)
    · rw [hport] at hv
      cases hv
    · cases hop

end Falx.Policy
