import Mathlib.Data.List.Basic
import Mathlib.Data.List.Induction
import Pactmark.Durable.Runs

/-!
# Durable — a log and its replay

A state is rebuilt from a log of entries by a step that may refuse an entry.  The replay of a log
is the monadic left fold of the step; its laws are those of the last entry.

* `replay_snoc`, `replay_append`: the replay of a log, by its last entry and by a prefix.
* `replay_induction`: what one accepted entry preserves holds of every log that is accepted.
* `replay_split`: the entry at any place of an accepted log was accepted by the state before it.
* `written_eq_some`: a field that some entries set and some clear holds what the last of them set.
-/

namespace Durable

variable {σ α ε : Type} {step : σ → α → Except ε σ} {s t u : σ} {log pre post : List α} {x : α}

/-- The state after the log, if every entry of it is accepted. -/
def replay (step : σ → α → Except ε σ) (s : σ) (log : List α) : Except ε σ :=
  log.foldlM step s

@[simp] theorem replay_nil : replay step s [] = .ok s := rfl

theorem replay_append :
    replay step s (pre ++ post) = .ok u ↔
      ∃ t, replay step s pre = .ok t ∧ replay step t post = .ok u := by
  unfold replay
  rw [List.foldlM_append]
  cases List.foldlM step s pre with
  | error e => simp [bind, Except.bind]
  | ok t => simp [bind, Except.bind]

theorem replay_snoc :
    replay step s (log ++ [x]) = .ok u ↔
      ∃ t, replay step s log = .ok t ∧ step t x = .ok u := by
  rw [replay_append]
  simp only [replay, List.foldlM_cons, List.foldlM_nil]
  refine exists_congr fun t => and_congr_right fun _ => ?_
  cases step t x with
  | error e => simp [bind, Except.bind]
  | ok v => simp [bind, Except.bind, pure, Except.pure]

/-- **The induction on an accepted log.** -/
theorem replay_induction {P : List α → σ → Prop} (nil : P [] s)
    (snoc : ∀ {log t x u}, replay step s log = .ok t → P log t → step t x = .ok u →
      P (log ++ [x]) u)
    (h : replay step s log = .ok t) : P log t := by
  induction log using List.reverseRecOn generalizing t with
  | nil =>
    cases h
    exact nil
  | append_singleton log x ih =>
    obtain ⟨s', hlog, hx⟩ := replay_snoc.mp h
    exact snoc hlog (ih hlog) hx

/-- **The entry at any place of an accepted log.** -/
theorem replay_split (h : replay step s (pre ++ x :: post) = .ok u) :
    ∃ a b, replay step s pre = .ok a ∧ step a x = .ok b ∧ replay step s (pre ++ [x]) = .ok b ∧
      replay step b post = .ok u := by
  rw [List.append_cons, replay_append] at h
  obtain ⟨b, hb, hpost⟩ := h
  obtain ⟨a, ha, hx⟩ := replay_snoc.mp hb
  exact ⟨a, b, ha, hx, hb, hpost⟩

/-! ### A field of the state -/

section Written

variable {β : Type} {write : α → Option (Option β)} {v : β}

/-- What a field holds after the log, if an entry `x` with `write x = some v` sets it to `v` and
the other entries leave it. -/
def written (write : α → Option (Option β)) (log : List α) : Option β :=
  log.foldl (fun field x => (write x).getD field) none

theorem written_snoc : written write (log ++ [x]) = (write x).getD (written write log) := by
  simp [written]

/-- The last entry that writes the field sets it to `v`. -/
def LastWrite (write : α → Option (Option β)) (log : List α) (v : β) : Prop :=
  ∃ pre x post, log = pre ++ x :: post ∧ write x = some (some v) ∧ ∀ y ∈ post, write y = none

theorem lastWrite_nil : ¬ LastWrite write [] v := by
  rintro ⟨pre, x, post, h, -⟩
  simp at h

theorem lastWrite_snoc :
    LastWrite write (log ++ [x]) v ↔
      write x = some (some v) ∨ write x = none ∧ LastWrite write log v := by
  constructor
  · rintro ⟨pre, y, post, h, hy, hpost⟩
    rcases snoc_eq_append_cons.mp h with ⟨-, rfl, -⟩ | ⟨rest, rfl, rfl⟩
    · exact .inl hy
    · refine .inr ⟨hpost x (by simp), pre, y, rest, rfl, hy, fun w hw => ?_⟩
      exact hpost w (List.mem_append_left _ hw)
  · rintro (hx | ⟨hx, pre, y, post, rfl, hy, hpost⟩)
    · exact ⟨log, x, [], rfl, hx, nofun⟩
    · refine ⟨pre, y, post ++ [x], by simp, hy, fun w hw => ?_⟩
      rcases List.mem_append.mp hw with hw | hw
      · exact hpost w hw
      · rwa [List.mem_singleton.mp hw]

/-- **A field holds what the last entry that writes it has set.** -/
theorem written_eq_some : written write log = some v ↔ LastWrite write log v := by
  induction log using List.reverseRecOn with
  | nil => exact ⟨nofun, fun h => absurd h lastWrite_nil⟩
  | append_singleton log x ih =>
    rw [written_snoc, lastWrite_snoc, ← ih]
    cases write x <;> simp

end Written

end Durable
