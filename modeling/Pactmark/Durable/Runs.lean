import Mathlib

/-!
# Durable — runs whose steps meet a condition

A run is the fold of its steps.  `Along` says that every step of a run meets a condition on the
state it is made in and on itself.

* `snoc_eq_append_cons`: where an element stands in a run that makes one more step.
* `along_cons`, `along_snoc`: the condition of a run that makes a first or one more step.
* `Along.invariant`: what the steps that meet the condition keep holds after the run.
-/

namespace Durable

variable {σ ω : Type}

/-- **The places in a list that gets one more element**: the last one, or one of before. -/
theorem snoc_eq_append_cons {α : Type} {l before later : List α} {x y : α} :
    l ++ [x] = before ++ y :: later ↔
      (l = before ∧ x = y ∧ later = []) ∨ ∃ rest, l = before ++ y :: rest ∧ later = rest ++ [x] := by
  constructor
  · intro h
    rcases List.eq_nil_or_concat' later with rfl | ⟨rest, z, rfl⟩
    · obtain ⟨hl, hx⟩ := List.append_inj' h rfl
      exact .inl ⟨hl, List.singleton_inj.mp hx, rfl⟩
    · rw [← List.cons_append, ← List.append_assoc] at h
      obtain ⟨hl, hx⟩ := List.append_inj' h rfl
      exact .inr ⟨rest, hl, by rw [List.singleton_inj.mp hx]⟩
  · rintro (⟨rfl, rfl, rfl⟩ | ⟨rest, rfl, rfl⟩)
    · rfl
    · simp

/-- Every step of the run meets the condition in the state it is made in. -/
def Along (step : σ → ω → σ) (init : σ) (condition : σ → ω → Prop) (calls : List ω) : Prop :=
  ∀ before call later, calls = before ++ call :: later → condition (before.foldl step init) call

variable {step : σ → ω → σ} {init : σ} {condition : σ → ω → Prop}

theorem along_nil : Along step init condition [] := by
  intro before call later h
  have := congrArg List.length h
  simp at this

/-- **The first step.** -/
theorem along_cons {calls : List ω} {call : ω} :
    Along step init condition (call :: calls) ↔
      condition init call ∧ Along step (step init call) condition calls := by
  constructor
  · intro h
    refine ⟨h [] call calls rfl, fun before c later heq => ?_⟩
    exact h (call :: before) c later (by rw [heq, List.cons_append])
  · rintro ⟨hcall, hcalls⟩ before c later heq
    cases before with
    | nil =>
      obtain ⟨rfl, -⟩ := List.cons.inj heq
      exact hcall
    | cons c' before =>
      obtain ⟨rfl, hrest⟩ := List.cons.inj heq
      exact hcalls before c later hrest

variable (step condition) in
/-- A run that is given is checked step by step. -/
def Along.decidable [∀ s call, Decidable (condition s call)] :
    ∀ (init : σ) (calls : List ω), Decidable (Along step init condition calls)
  | _, [] => .isTrue along_nil
  | init, call :: calls =>
      have := Along.decidable (step init call) calls
      decidable_of_iff _ along_cons.symm

instance [∀ s call, Decidable (condition s call)] (calls : List ω) :
    Decidable (Along step init condition calls) :=
  Along.decidable step condition init calls

/-- **One more step.** -/
theorem along_snoc {calls : List ω} {call : ω} :
    Along step init condition (calls ++ [call]) ↔
      Along step init condition calls ∧ condition (calls.foldl step init) call := by
  constructor
  · intro h
    refine ⟨fun before c later heq => ?_, h calls call [] rfl⟩
    exact h before c (later ++ [call]) (by simp [heq])
  · rintro ⟨hcalls, hcall⟩ before c later heq
    rcases snoc_eq_append_cons.mp heq with ⟨rfl, rfl, -⟩ | ⟨rest, hrest, -⟩
    · exact hcall
    · exact hcalls before c rest hrest

/-- **What the steps that meet the condition keep** holds after the run. -/
theorem Along.invariant {calls : List ω} (h : Along step init condition calls)
    {P : σ → Prop} (hinit : P init)
    (hstep : ∀ s call, P s → condition s call → P (step s call)) :
    P (calls.foldl step init) := by
  induction calls using List.reverseRecOn with
  | nil => exact hinit
  | append_singleton calls call ih =>
    obtain ⟨hcalls, hcall⟩ := along_snoc.mp h
    rw [List.foldl_append]
    exact hstep _ call (ih hcalls) hcall

end Durable
