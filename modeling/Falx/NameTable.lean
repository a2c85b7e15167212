import Mathlib.Data.List.AList

/-! Tables that are kept as the inverse of a naming: a thing that has a name is found under it,
and nothing else is in the table. -/

namespace NameTable

open Function

variable {κ α : Type} [DecidableEq κ] {m : AList fun _ : κ => α} {name : α → Option κ} {k : κ}
  {a : α}

def values (m : AList fun _ : κ => α) : List α := m.entries.map Sigma.snd

theorem mem_values : a ∈ values m ↔ ∃ k, m.lookup k = some a := by
  simp only [values, List.mem_map, Sigma.exists]
  constructor
  · rintro ⟨k, b, hmem, rfl⟩
    exact ⟨k, AList.mem_lookup_iff.mpr hmem⟩
  · rintro ⟨k, hk⟩
    exact ⟨k, a, AList.mem_lookup_iff.mp hk, rfl⟩

def Inverse (m : AList fun _ : κ => α) (name : α → Option κ) : Prop :=
  ∀ k a, m.lookup k = some a ↔ name a = some k

theorem Inverse.mem_values (h : Inverse m name) : a ∈ values m ↔ (name a).isSome = true := by
  rw [NameTable.mem_values, Option.isSome_iff_exists]
  exact exists_congr fun k => h k a

theorem Inverse.nodup_values (h : Inverse m name) : (values m).Nodup := by
  refine m.nodupKeys.nodup.map_on ?_
  rintro ⟨k, a⟩ hx ⟨k', a'⟩ hy ha
  cases ha
  have hk := (h k a).mp (AList.mem_lookup_iff.mpr hx)
  have hk' := (h k' a).mp (AList.mem_lookup_iff.mpr hy)
  cases hk.symm.trans hk'
  rfl

variable [DecidableEq α]

theorem Inverse.insert (h : Inverse m name) (hnone : name a = none)
    (hfr : ∀ b, name b ≠ some k) : Inverse (m.insert k a) (update name a (some k)) := by
  intro k' b
  by_cases hk : k' = k
  · subst hk
    rw [AList.lookup_insert]
    by_cases hb : b = a
    · subst hb
      rw [update_self]
      exact iff_of_true rfl rfl
    · rw [update_of_ne hb]
      exact iff_of_false (fun h => hb (Option.some.inj h).symm) (hfr b)
  · rw [AList.lookup_insert_ne hk, h k' b]
    by_cases hb : b = a
    · subst hb
      rw [update_self, hnone]
      exact iff_of_false nofun fun h => hk (Option.some.inj h).symm
    · rw [update_of_ne hb]

theorem Inverse.erase (h : Inverse m name) (hname : name a = some k) :
    Inverse (m.erase k) (update name a none) := by
  intro k' b
  by_cases hk : k' = k
  · subst hk
    rw [AList.lookup_erase]
    refine iff_of_false nofun fun hb => ?_
    by_cases hba : b = a
    · subst hba
      rw [update_self] at hb
      cases hb
    · rw [update_of_ne hba] at hb
      exact hba (Option.some.inj (((h k' b).mpr hb).symm.trans ((h k' a).mpr hname)))
  · rw [AList.lookup_erase_ne hk, h k' b]
    by_cases hba : b = a
    · subst hba
      rw [update_self, hname]
      exact iff_of_false (fun h => hk (Option.some.inj h).symm) nofun
    · rw [update_of_ne hba]

end NameTable
