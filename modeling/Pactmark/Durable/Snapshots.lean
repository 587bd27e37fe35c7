import Mathlib

/-!
# Durable — a state with snapshots

A state is operated on, copied into snapshots and restored from them.  A restore either copies the
snapshot back, or adopts it: then the state and the snapshot are one object, and what is done to
the state later is done to the snapshot too.

* `run_sublist`: in both cases the state is that of some of the operations called, in order; the
  others were rolled back.
* `run_invariant`: so an invariant of the operations is one of every run with snapshots.
* `run_advances`: and what each operation keeps is kept along those that were not rolled back.
-/

namespace Durable

variable {σ ω : Type}

/-- A call on a state with snapshots; a snapshot is restored by its number. -/
inductive SnapshotCall (ω : Type) where
  | operate (op : ω)
  | snapshot
  | restore (n : Nat)

/-- A state, the snapshots taken of it, and the snapshot it has adopted. -/
structure Snapshotted (σ : Type) where
  live : σ
  taken : List σ
  shared : Option Nat

namespace Snapshotted

/-- A state nobody has taken a snapshot of. -/
def start (init : σ) : Snapshotted σ :=
  ⟨init, [], none⟩

variable (step : σ → ω → σ) (adopts : Bool)

/-- What a call leaves. -/
def call (s : Snapshotted σ) : SnapshotCall ω → Snapshotted σ
  | .operate op =>
      { s with
        live := step s.live op
        taken := match s.shared with
          | some n => s.taken.set n (step s.live op)
          | none => s.taken }
  | .snapshot => { s with taken := s.taken ++ [s.live] }
  | .restore n =>
      match s.taken[n]? with
      | some t => { s with live := t, shared := if adopts then some n else none }
      | none => s

/-- What a sequence of calls leaves. -/
def run (init : σ) (calls : List (SnapshotCall ω)) : Snapshotted σ :=
  calls.foldl (call step adopts) (start init)

theorem run_snoc (init : σ) (calls : List (SnapshotCall ω)) (c : SnapshotCall ω) :
    run step adopts init (calls ++ [c]) = call step adopts (run step adopts init calls) c := by
  simp [run]

/-- The operations among the calls. -/
def operations (calls : List (SnapshotCall ω)) : List ω :=
  calls.filterMap fun
    | .operate op => some op
    | _ => none

theorem operations_append (calls calls' : List (SnapshotCall ω)) :
    operations (calls ++ calls') = operations calls ++ operations calls' := by
  simp [operations]

/-- The state is that of some of the operations among the calls, in order. -/
def OfSome (init : σ) (calls : List (SnapshotCall ω)) (s : σ) : Prop :=
  ∃ ops : List ω, ops.Sublist (operations calls) ∧ ops.foldl step init = s

variable {step} {init : σ} {calls : List (SnapshotCall ω)} {s : σ}

theorem OfSome.append (h : OfSome step init calls s) (calls' : List (SnapshotCall ω)) :
    OfSome step init (calls ++ calls') s := by
  obtain ⟨ops, hops, hs⟩ := h
  rw [OfSome, operations_append]
  exact ⟨ops, hops.trans (List.sublist_append_left _ _), hs⟩

theorem OfSome.operate (h : OfSome step init calls s) (op : ω) :
    OfSome step init (calls ++ [.operate op]) (step s op) := by
  obtain ⟨ops, hops, rfl⟩ := h
  refine ⟨ops ++ [op], ?_, by simp⟩
  rw [operations_append]
  exact hops.append (List.Sublist.refl [op])

/-- **The state is that of the operations that were not rolled back**, and so is every
snapshot. -/
theorem run_sublist (step : σ → ω → σ) (adopts : Bool) (init : σ)
    (calls : List (SnapshotCall ω)) :
    OfSome step init calls (run step adopts init calls).live ∧
      ∀ t ∈ (run step adopts init calls).taken, OfSome step init calls t := by
  induction calls using List.reverseRecOn with
  | nil => exact ⟨⟨[], List.Sublist.refl _, rfl⟩, fun t ht => absurd ht List.not_mem_nil⟩
  | append_singleton calls c ih =>
    obtain ⟨hlive, htaken⟩ := ih
    have hkept : ∀ t ∈ (run step adopts init calls).taken, OfSome step init (calls ++ [c]) t :=
      fun t ht => (htaken t ht).append _
    rw [run_snoc]
    cases c with
    | operate op =>
      refine ⟨hlive.operate op, fun t ht => ?_⟩
      simp only [call] at ht
      split at ht
      · rcases List.mem_or_eq_of_mem_set ht with ht | rfl
        · exact hkept t ht
        · exact hlive.operate op
      · exact hkept t ht
    | snapshot =>
      refine ⟨hlive.append _, fun t ht => ?_⟩
      rcases List.mem_append.mp ht with ht | ht
      · exact hkept t ht
      · rw [List.mem_singleton.mp ht]
        exact hlive.append _
    | restore n =>
      simp only [call]
      split
      · rename_i t ht
        exact ⟨hkept t (List.mem_of_getElem? ht), hkept⟩
      · exact ⟨hlive.append _, hkept⟩

theorem foldl_invariant {P : σ → Prop} (hstep : ∀ s op, P s → P (step s op)) (ops : List ω) :
    P s → P (ops.foldl step s) := by
  induction ops generalizing s with
  | nil => exact id
  | cons op ops ih => exact fun h => ih (hstep s op h)

/-- **An invariant of the operations** holds of the state, whatever was restored. -/
theorem run_invariant {P : σ → Prop} {adopts : Bool} (hinit : P init)
    (hstep : ∀ s op, P s → P (step s op)) (calls : List (SnapshotCall ω)) :
    P (run step adopts init calls).live := by
  obtain ⟨ops, -, h⟩ := (run_sublist step adopts init calls).1
  exact h ▸ foldl_invariant hstep ops hinit

/-- A relation that is reflexive and transitive, and holds over each operation, holds over all of
them. -/
theorem foldl_advances {R : σ → σ → Prop} (hrefl : ∀ s, R s s)
    (htrans : ∀ {s t u}, R s t → R t u → R s u) (hstep : ∀ s op, R s (step s op)) (s : σ)
    (ops : List ω) : R s (ops.foldl step s) :=
  foldl_invariant (fun t op h => htrans h (hstep t op)) ops (hrefl s)

/-- **What the operations keep** is kept along those that were not rolled back. -/
theorem run_advances {R : σ → σ → Prop} (adopts : Bool) (hrefl : ∀ s, R s s)
    (htrans : ∀ {s t u}, R s t → R t u → R s u) (hstep : ∀ s op, R s (step s op))
    (calls : List (SnapshotCall ω)) :
    ∃ ops : List ω, ops.Sublist (operations calls) ∧
      ops.foldl step init = (run step adopts init calls).live ∧
      ∀ pre post, ops = pre ++ post → R (pre.foldl step init) (run step adopts init calls).live := by
  obtain ⟨ops, hops, hlive⟩ := (run_sublist step adopts init calls).1
  refine ⟨ops, hops, hlive, ?_⟩
  rintro pre post rfl
  rw [← hlive, List.foldl_append]
  exact foldl_advances hrefl htrans hstep _ post

end Snapshotted

end Durable
