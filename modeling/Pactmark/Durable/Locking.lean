import Pactmark.Durable.OrderedMap

/-!
# Durable — the locks of open transactions

Transactions under their ids, each with the locks it holds to its end.  A statement that needs a
lock waits while another transaction holds it, so that no two hold one in common.

* `Exclusive.set`, `Exclusive.delete`: a transaction goes on, or ends.
* `Exclusive.free`: the locks a transaction has after a statement that does not wait.
-/

namespace Durable

namespace OrderedMap

variable {K T L : Type} [DecidableEq K]

/-- Another transaction holds one of the locks. -/
def waits [DecidableEq L] (locksOf : T → List L) (m : OrderedMap K T) (id : K) (locks : List L) :
    Bool :=
  m.entries.any fun x => x.1 ≠ id ∧ (locksOf x.2).any fun lock => lock ∈ locks

/-- No two transactions hold a lock in common. -/
def Exclusive (locksOf : T → List L) (m : OrderedMap K T) : Prop :=
  ∀ i j t t' lock, m.get i = some t → m.get j = some t' → lock ∈ locksOf t → lock ∈ locksOf t' →
    i = j

variable {locksOf : T → List L} {m : OrderedMap K T}

theorem exclusive_empty : Exclusive locksOf (empty : OrderedMap K T) :=
  fun _ _ _ _ _ h => nomatch h

/-- A transaction ends. -/
theorem Exclusive.delete (h : Exclusive locksOf m) (id : K) : Exclusive locksOf (m.delete id) := by
  intro i j t t' lock ht ht'
  exact h i j t t' lock (get_of_delete ht).2 (get_of_delete ht').2

/-- A transaction is there with locks that no other one holds. -/
theorem Exclusive.set (h : Exclusive locksOf m) {id : K} {t : T}
    (hfree : ∀ j t', m.get j = some t' → ∀ lock ∈ locksOf t, lock ∈ locksOf t' → j = id) :
    Exclusive locksOf (m.set id t) := by
  intro i j t₁ t₂ lock ht₁ ht₂ hlock₁ hlock₂
  rw [get_set] at ht₁ ht₂
  split at ht₁
  · rename_i hi
    obtain rfl := Option.some.inj ht₁
    split at ht₂
    · rename_i hj
      rw [hi, hj]
    · exact hi.trans (hfree j t₂ ht₂ lock hlock₁ hlock₂).symm
  · split at ht₂
    · rename_i hj
      obtain rfl := Option.some.inj ht₂
      exact (hfree i t₁ ht₁ lock hlock₂ hlock₁).trans hj.symm
    · exact h i j t₁ t₂ lock ht₁ ht₂ hlock₁ hlock₂

/-- **The locks after a statement that does not wait**: those the transaction had, and those it
needed. -/
theorem Exclusive.free [DecidableEq L] (h : Exclusive locksOf m) {id : K} {t : T} {locks : List L}
    (ht : m.get id = some t) (hwaits : waits locksOf m id locks = false) :
    ∀ j t', m.get j = some t' → ∀ lock ∈ locksOf t ++ locks, lock ∈ locksOf t' → j = id := by
  intro j t' ht' lock hlock hlock'
  rcases List.mem_append.mp hlock with hlock | hlock
  · exact h j id t' t lock ht' ht hlock' hlock
  · by_contra hne
    have : waits locksOf m id locks = true :=
      List.any_eq_true.mpr ⟨(j, t'), get_eq_some_iff.mp ht',
        decide_eq_true ⟨hne, List.any_eq_true.mpr ⟨lock, hlock', decide_eq_true hlock⟩⟩⟩
    rw [hwaits] at this
    cases this

end OrderedMap

end Durable
