import Mathlib

/-!
# Durable — numbers used once

A ledger of numbers that are used under keys: each key is bound to a scope when it is first used,
and a number is used under a key at most once, as often as the scope of the key allows.

* `Answer`: what an answer to a request leaves, whether the number may be used or not.
* `Sound.answer`: what every answer keeps.
* `Answer.kept`: a binding stays.
-/

namespace Durable

/-- The scopes that keys are bound to, and the numbers used under them. -/
structure OnceLedger (κ ν β : Type) where
  binding : κ → Option β
  used : List (κ × ν)

namespace OnceLedger

variable {κ ν β : Type} [DecidableEq κ]

omit [DecidableEq κ] in
/-- Nothing is bound or used. -/
def empty : OnceLedger κ ν β :=
  ⟨fun _ => none, []⟩

/-- How many numbers are used under a key. -/
def count (L : OnceLedger κ ν β) (key : κ) : Nat :=
  (L.used.filter fun x => x.1 = key).length

/-- The request to use a number under a key in a scope leaves another ledger: if it is granted the
number is new, the key has that scope, and the scope has room. -/
structure Answer (limit : β → Int) (L : OnceLedger κ ν β) (key : κ) (number : ν) (scope : β)
    (granted : Bool) (L' : OnceLedger κ ν β) : Prop where
  used : L'.used = L.used ++ if granted then [(key, number)] else []
  others : ∀ k, k ≠ key → L'.binding k = L.binding k
  own : L'.binding key = L.binding key ∨ L.binding key = none ∧ L'.binding key = some scope
  fresh : granted → (key, number) ∉ L.used
  bound : granted → L'.binding key = some scope
  room : granted → (L.count key : Int) < limit scope

/-- No number is used twice under a key, and no more of them than its scope allows. -/
structure Sound (limit : β → Int) (L : OnceLedger κ ν β) : Prop where
  once : L.used.Nodup
  within : ∀ key, L.count key ≠ 0 →
    ∃ scope, L.binding key = some scope ∧ (L.count key : Int) ≤ limit scope

variable {limit : β → Int} {L L' : OnceLedger κ ν β} {key : κ} {number : ν} {scope : β}
  {granted : Bool}

theorem Sound.empty : Sound limit (empty : OnceLedger κ ν β) :=
  ⟨List.nodup_nil, fun _ hne => absurd rfl hne⟩

/-- **A binding stays** what it is. -/
theorem Answer.kept (h : Answer limit L key number scope granted L') {k : κ} {b : β}
    (hb : L.binding k = some b) : L'.binding k = some b := by
  by_cases hk : k = key
  · subst hk
    rcases h.own with hsame | ⟨hnone, -⟩
    · rw [hsame, hb]
    · rw [hb] at hnone
      cases hnone
  · rw [h.others k hk, hb]

/-- One number more is used under the key of a request that is granted. -/
theorem Answer.count (h : Answer limit L key number scope granted L') (k : κ) :
    L'.count k = L.count k + if granted ∧ k = key then 1 else 0 := by
  unfold OnceLedger.count
  rw [h.used, List.filter_append, List.length_append]
  cases granted with
  | false => simp
  | true =>
    by_cases hk : key = k
    · simp [hk]
    · simp [hk, Ne.symm hk]

/-- **Every answer** keeps the ledger sound. -/
theorem Sound.answer (h : Sound limit L) (ha : Answer limit L key number scope granted L') :
    Sound limit L' := by
  constructor
  · rw [ha.used]
    cases granted with
    | false => simpa using h.once
    | true => exact List.nodup_append_comm.mp (List.nodup_cons.mpr ⟨ha.fresh rfl, h.once⟩)
  · intro k hne
    rw [ha.count] at hne ⊢
    by_cases hk : granted = true ∧ k = key
    · obtain ⟨hgranted, rfl⟩ := hk
      refine ⟨scope, ha.bound hgranted, ?_⟩
      have := ha.room hgranted
      rw [if_pos ⟨hgranted, rfl⟩]
      omega
    · rw [if_neg hk, Nat.add_zero] at hne ⊢
      obtain ⟨b, hb, hle⟩ := h.within k hne
      exact ⟨b, ha.kept hb, hle⟩

end OnceLedger

end Durable
