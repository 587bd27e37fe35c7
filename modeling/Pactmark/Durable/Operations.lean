import Mathlib

/-!
# Durable — operations

An `EStateM` in a state, as equations: what each of its primitives answers and leaves.  With these
an operation written with `do` is run by `simp`, and no proof unfolds the monad.  `bind_eq_ok` takes
an `Except` that succeeded apart, from its first step on, and `exists_of_mapM_ok` a `mapM`.  A loop
keeps what its body keeps (`foldlM_range'_ok`).
-/

namespace Durable

variable {ε σ α β : Type}

@[simp] theorem bind_apply (x : EStateM ε σ α) (f : α → EStateM ε σ β) (s : σ) :
    (x >>= f) s =
      match x s with
      | .ok a s' => f a s'
      | .error e s' => .error e s' := rfl

@[simp] theorem map_apply (f : α → β) (x : EStateM ε σ α) (s : σ) :
    (f <$> x) s =
      match x s with
      | .ok a s' => .ok (f a) s'
      | .error e s' => .error e s' := rfl

@[simp] theorem pure_apply (a : α) (s : σ) : (pure a : EStateM ε σ α) s = .ok a s := rfl

@[simp] theorem throw_apply (e : ε) (s : σ) : (throw e : EStateM ε σ α) s = .error e s := rfl

@[simp] theorem get_apply (s : σ) : (get : EStateM ε σ σ) s = .ok s s := rfl

@[simp] theorem set_apply (s s' : σ) : (set s' : EStateM ε σ PUnit) s = .ok ⟨⟩ s' := rfl

@[simp] theorem modify_apply (f : σ → σ) (s : σ) :
    (modify f : EStateM ε σ PUnit) s = .ok ⟨⟩ (f s) := rfl

theorem ok_bind (a : α) (f : α → Except ε β) : (.ok a >>= f) = f a := rfl

theorem bind_eq_ok {x : Except ε α} {f : α → Except ε β} {b : β} :
    x >>= f = .ok b ↔ ∃ a, x = .ok a ∧ f a = .ok b := by
  cases x with
  | error e =>
    constructor
    · intro h
      cases h
    · rintro ⟨a, ha, -⟩
      cases ha
  | ok a =>
    constructor
    · exact fun h => ⟨a, rfl, h⟩
    · rintro ⟨a', ha, hb⟩
      cases ha
      exact hb

/-- What a `mapM` that succeeded made of an element. -/
theorem exists_of_mapM_ok {f : α → Except ε β} {l : List α} {bs : List β} (h : l.mapM f = .ok bs)
    {a : α} (ha : a ∈ l) : ∃ b ∈ bs, f a = .ok b := by
  induction l generalizing bs with
  | nil => cases ha
  | cons x l ih =>
    rw [List.mapM_cons] at h
    obtain ⟨b, hb, h⟩ := bind_eq_ok.mp h
    obtain ⟨rest, hrest, h⟩ := bind_eq_ok.mp h
    cases h
    rcases List.mem_cons.mp ha with rfl | ha
    · exact ⟨b, List.mem_cons_self, hb⟩
    · obtain ⟨b', hb', hf⟩ := ih hrest ha
      exact ⟨b', List.mem_cons_of_mem _ hb', hf⟩

/-- **The rule for loops**: what holds before the loop, and is kept by its body, holds after it. -/
theorem foldlM_range'_ok {f : σ → Nat → Except ε σ} {P : Nat → σ → Prop} {start count step : Nat}
    {s : σ} (hinit : P 0 s)
    (hbody : ∀ i < count, ∀ s, P i s → ∃ s', f s (start + step * i) = .ok s' ∧ P (i + 1) s') :
    ∃ s', (List.range' start count step).foldlM f s = .ok s' ∧ P count s' := by
  induction count with
  | zero => exact ⟨s, rfl, hinit⟩
  | succ count ih =>
    obtain ⟨s₁, hs₁, hP⟩ := ih fun i hi => hbody i (by omega)
    obtain ⟨s₂, hs₂, hlast⟩ := hbody count (by omega) s₁ hP
    refine ⟨s₂, ?_, hlast⟩
    rw [List.range'_concat, List.foldlM_append, bind_eq_ok]
    exact ⟨s₁, hs₁, by simpa [List.foldlM_cons, bind_eq_ok] using hs₂⟩

end Durable
