import Mathlib

/-!
# Durable — the first candidate that is free

A loop that goes through numbered candidates until one is not taken.  It ends when the candidates
differ: of one more candidate than there are taken ones, one is free.

* `firstFree_some`: what the loop finds.
* `firstFree_ends`: how soon it ends.
-/

namespace Durable

variable {α : Type} [DecidableEq α]

/-- The first candidate from a number on that is not taken, within so many tries. -/
def firstFree (candidate : Nat → α) (taken : List α) : Nat → Nat → Option α
  | 0, _ => none
  | fuel + 1, n =>
      if candidate n ∈ taken then firstFree candidate taken fuel (n + 1) else some (candidate n)

variable {candidate : Nat → α} {taken : List α}

/-- **What is found** is one of the candidates that were tried, and is free. -/
theorem firstFree_some {fuel n : Nat} {found : α}
    (h : firstFree candidate taken fuel n = some found) :
    found ∉ taken ∧ ∃ k, n ≤ k ∧ k < n + fuel ∧ found = candidate k := by
  induction fuel generalizing n with
  | zero => cases h
  | succ fuel ih =>
    rw [firstFree] at h
    by_cases htaken : candidate n ∈ taken
    · rw [if_pos htaken] at h
      obtain ⟨hfree, k, hle, hlt, rfl⟩ := ih h
      exact ⟨hfree, k, by omega, by omega, rfl⟩
    · rw [if_neg htaken] at h
      obtain rfl := Option.some.inj h
      exact ⟨htaken, n, le_rfl, by omega, rfl⟩

/-- Where nothing is found, every candidate is taken. -/
theorem firstFree_none {fuel n : Nat} (h : firstFree candidate taken fuel n = none) :
    ∀ k, n ≤ k → k < n + fuel → candidate k ∈ taken := by
  induction fuel generalizing n with
  | zero =>
    intro k hle hlt
    omega
  | succ fuel ih =>
    intro k hle hlt
    rw [firstFree] at h
    by_cases htaken : candidate n ∈ taken
    · rw [if_pos htaken] at h
      rcases Nat.eq_or_lt_of_le hle with rfl | hlt'
      · exact htaken
      · exact ih h k hlt' (by omega)
    · rw [if_neg htaken] at h
      cases h

/-- **Candidates that differ** are not all taken. -/
theorem firstFree_ends {fuel n : Nat}
    (hinj : ∀ j k, n ≤ j → n ≤ k → candidate j = candidate k → j = k)
    (hfuel : taken.length < fuel) : ∃ found, firstFree candidate taken fuel n = some found := by
  cases hfree : firstFree candidate taken fuel n with
  | some found => exact ⟨found, rfl⟩
  | none =>
    have hall := firstFree_none hfree
    have hnodup : ((List.range' n fuel).map candidate).Nodup := by
      refine (List.nodup_map_iff_inj_on (List.nodup_range' ..)).mpr fun j hj k hk => ?_
      exact hinj j k (List.mem_range'_1.mp hj).1 (List.mem_range'_1.mp hk).1
    have hsubset : (List.range' n fuel).map candidate ⊆ taken := by
      intro x hx
      obtain ⟨k, hk, rfl⟩ := List.mem_map.mp hx
      exact hall k (List.mem_range'_1.mp hk).1 (List.mem_range'_1.mp hk).2
    have hlength := (List.subperm_of_subset hnodup hsubset).length_le
    rw [List.length_map, List.length_range'] at hlength
    omega

end Durable
