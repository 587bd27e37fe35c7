import Mathlib

/-!
# Durable — programs over a durable state

A program of a durable system talks to three things: to the collaborators it was configured
with (`ask`), to the durable state, which it reads (`look`), and to the same state through
atomic transactions (`transact`).  Everything else a program does is local to it and is lost
when it stops.

A `Transaction` is a partial function on states that never takes the state back: it replaces
the state by one that is not behind it, or it fails and leaves it.

`World` is the durable state together with the calls the collaborators have answered so far,
each with the thread that made it and the state it was made in.  Nothing a program does reads
the calls: they are what statements about a run talk about.

`Prog.wp` is the weakest precondition of a program under a rely–guarantee contract, with one
postcondition for what the program returns and one for what it throws.

The state, the thrown values and the questions are parameters throughout.
-/

namespace Durable

variable {σ ε Q : Type} [Preorder σ] {A : Q → Type} {α β : Type}

/-! ### Transactions -/

/-- An atomic change of the state. -/
structure Transaction (σ ε : Type) [Preorder σ] where
  run : σ → Except ε σ
  grows : ∀ {s s' : σ}, run s = .ok s' → s ≤ s'

namespace Transaction

/-- The transaction that changes nothing. -/
def skip : Transaction σ ε where
  run := .ok
  grows h := by cases h; exact le_refl _

/-- The transaction that always fails. -/
def fail (e : ε) : Transaction σ ε where
  run _ := .error e
  grows h := nomatch h

/-- One transaction and then another, as one. -/
def andThen (f g : Transaction σ ε) : Transaction σ ε where
  run s := match f.run s with
    | .ok s₁ => g.run s₁
    | .error e => .error e
  grows {s s'} h := by
    cases hf : f.run s with
    | ok s₁ =>
        rw [hf] at h
        exact (f.grows hf).trans (g.grows h)
    | error e =>
        rw [hf] at h
        cases h

/-- The transaction the state it finds calls for. -/
def choose (f : σ → Transaction σ ε) : Transaction σ ε where
  run s := (f s).run s
  grows {s _} h := (f s).grows h

/-- `if (bad) throw e`. -/
def throwIf (bad : Prop) [Decidable bad] (e : ε) : Transaction σ ε :=
  if bad then fail e else skip

/-- Several transactions as one, the first one first. -/
def sequence : List (Transaction σ ε) → Transaction σ ε
  | [] => skip
  | f :: fs => f.andThen (sequence fs)

@[simp] theorem skip_run (s : σ) : (skip : Transaction σ ε).run s = .ok s := rfl
@[simp] theorem fail_run (e : ε) (s : σ) : (fail e : Transaction σ ε).run s = .error e := rfl
@[simp] theorem choose_run (f : σ → Transaction σ ε) (s : σ) : (choose f).run s = (f s).run s :=
  rfl
@[simp] theorem sequence_nil : sequence ([] : List (Transaction σ ε)) = skip := rfl
@[simp] theorem sequence_cons (f : Transaction σ ε) (fs : List (Transaction σ ε)) :
    sequence (f :: fs) = f.andThen (sequence fs) := rfl

theorem andThen_ok {f g : Transaction σ ε} {s s' : σ} :
    (f.andThen g).run s = .ok s' ↔ ∃ s₁, f.run s = .ok s₁ ∧ g.run s₁ = .ok s' := by
  show (match f.run s with | .ok s₁ => g.run s₁ | .error e => .error e) = _ ↔ _
  cases f.run s with
  | ok s₁ => simp
  | error e => simp

theorem throwIf_ok {bad : Prop} [Decidable bad] {e : ε} {s s' : σ} :
    (throwIf bad e : Transaction σ ε).run s = .ok s' ↔ ¬ bad ∧ s' = s := by
  unfold throwIf
  split <;> simp_all [eq_comm]

end Transaction

/-! ### Programs -/

/-- A program that returns an `α` or throws an `ε`. -/
inductive Prog (σ ε Q : Type) [Preorder σ] (A : Q → Type) (α : Type) : Type where
  | pure (a : α)
  | throw (e : ε)
  | ask (q : Q) (k : A q → Prog σ ε Q A α)
  | look (k : σ → Prog σ ε Q A α)
  | transact (f : Transaction σ ε) (k : Except ε Unit → Prog σ ε Q A α)

namespace Prog

/-- Sequencing; a throw skips what follows. -/
protected def bind : Prog σ ε Q A α → (α → Prog σ ε Q A β) → Prog σ ε Q A β
  | .pure a, f => f a
  | .throw e, _ => .throw e
  | .ask q k, f => .ask q fun a => (k a).bind f
  | .look k, f => .look fun s => (k s).bind f
  | .transact t k, f => .transact t fun r => (k r).bind f

/-- `try p catch h`. -/
def tryCatch : Prog σ ε Q A α → (ε → Prog σ ε Q A α) → Prog σ ε Q A α
  | .pure a, _ => .pure a
  | .throw e, h => h e
  | .ask q k, h => .ask q fun a => (k a).tryCatch h
  | .look k, h => .look fun s => (k s).tryCatch h
  | .transact t k, h => .transact t fun r => (k r).tryCatch h

instance : Monad (Prog σ ε Q A) where
  pure := .pure
  bind := .bind

instance : MonadExceptOf ε (Prog σ ε Q A) where
  throw := .throw
  tryCatch := .tryCatch

/-- What a program ended with, as a value. -/
def attempt : Prog σ ε Q A α → Prog σ ε Q A (Except ε α)
  | .pure a => .pure (.ok a)
  | .throw e => .pure (.error e)
  | .ask q k => .ask q fun a => (k a).attempt
  | .look k => .look fun s => (k s).attempt
  | .transact t k => .transact t fun r => (k r).attempt

/-- A computation that may throw and does nothing else. -/
def ofExcept : Except ε α → Prog σ ε Q A α
  | .ok a => .pure a
  | .error e => .throw e

/-- `if (bad) throw e`. -/
def throwIf (bad : Prop) [Decidable bad] (e : ε) : Prog σ ε Q A Unit :=
  if bad then .throw e else .pure ()

/-- A question to a collaborator. -/
def query (q : Q) : Prog σ ε Q A (A q) :=
  .ask q .pure

/-- A part of the durable state, at this moment. -/
def read (f : σ → α) : Prog σ ε Q A α :=
  .look fun s => .pure (f s)

/-- One atomic transaction, whose failure is thrown. -/
def commit (f : Transaction σ ε) : Prog σ ε Q A Unit :=
  .transact f ofExcept

@[simp] theorem pure_eq (a : α) : (Pure.pure a : Prog σ ε Q A α) = .pure a := rfl
@[simp] theorem bind_eq (p : Prog σ ε Q A α) (f : α → Prog σ ε Q A β) : p >>= f = p.bind f := rfl
@[simp] theorem throw_eq (e : ε) : (MonadExcept.throw e : Prog σ ε Q A α) = .throw e := rfl
@[simp] theorem throwThe_eq (e : ε) : (throwThe ε e : Prog σ ε Q A α) = .throw e := rfl
@[simp] theorem tryCatch_eq (p : Prog σ ε Q A α) (h : ε → Prog σ ε Q A α) :
    MonadExcept.tryCatch p h = p.tryCatch h := rfl
@[simp] theorem tryCatchThe_eq (p : Prog σ ε Q A α) (h : ε → Prog σ ε Q A α) :
    tryCatchThe ε p h = p.tryCatch h := rfl
@[simp] theorem map_eq (f : α → β) (p : Prog σ ε Q A α) : f <$> p = p.bind fun a => .pure (f a) :=
  rfl

end Prog

/-! ### Worlds -/

/-- A call a collaborator has answered: who made it, and the state it was made in. -/
structure Call (σ Q : Type) (A : Q → Type) where
  thread : Nat
  question : Q
  answer : A question
  state : σ

/-- The durable state and the calls made so far, the last one last. -/
structure World (σ Q : Type) (A : Q → Type) where
  state : σ
  calls : List (Call σ Q A)

namespace World

omit [Preorder σ]

/-- The world once thread `t` has had `q` answered by `a`. -/
def answered (w : World σ Q A) (t : Nat) (q : Q) (a : A q) : World σ Q A :=
  { w with calls := w.calls ++ [⟨t, q, a, w.state⟩] }

/-- The world once a transaction has replaced the state. -/
def put (w : World σ Q A) (s : σ) : World σ Q A :=
  { w with state := s }

@[simp] theorem answered_state (w : World σ Q A) (t : Nat) (q : Q) (a : A q) :
    (w.answered t q a).state = w.state := rfl
@[simp] theorem answered_calls (w : World σ Q A) (t : Nat) (q : Q) (a : A q) :
    (w.answered t q a).calls = w.calls ++ [⟨t, q, a, w.state⟩] := rfl
@[simp] theorem put_state (w : World σ Q A) (s : σ) : (w.put s).state = s := rfl
@[simp] theorem put_calls (w : World σ Q A) (s : σ) : (w.put s).calls = w.calls := rfl

end World

/-! ### Weakest preconditions -/

/-- What a thread may count on and what it must keep to.  `rely` is what the rest of the system
may do between two of its steps, `guar` what one of its own steps may do, `inv` what holds of
every world, `allow` the answers it may be given and `fault` the failures the storage may add
to a transaction's own. -/
structure Contract (σ ε Q : Type) (A : Q → Type) where
  rely : World σ Q A → World σ Q A → Prop
  guar : World σ Q A → World σ Q A → Prop
  inv : World σ Q A → Prop
  allow : World σ Q A → (q : Q) → A q → Prop
  fault : ε → Prop
  rely_refl : ∀ w, rely w w
  rely_trans : ∀ {u v w}, rely u v → rely v w → rely u w

namespace Prog

variable (C : Contract σ ε Q A) (t : Nat)

/-- Every run of thread `t`'s program from `w`, under `C`, keeps to `C.guar` at each of its
steps and ends in `P` when it returns and in `E` when it throws. -/
def wp (P : α → World σ Q A → Prop) (E : ε → World σ Q A → Prop) :
    Prog σ ε Q A α → World σ Q A → Prop
  | .pure a, w => ∀ v, C.rely w v → C.inv v → P a v
  | .throw e, w => ∀ v, C.rely w v → C.inv v → E e v
  | .ask q k, w => ∀ v, C.rely w v → C.inv v → ∀ a, C.allow v q a →
      C.guar v (v.answered t q a) ∧ wp P E (k a) (v.answered t q a)
  | .look k, w => ∀ v, C.rely w v → C.inv v → wp P E (k v.state) v
  | .transact f k, w => ∀ v, C.rely w v → C.inv v →
      (∀ s, f.run v.state = .ok s → C.guar v (v.put s) ∧ wp P E (k (.ok ())) (v.put s)) ∧
      ∀ e, f.run v.state = .error e ∨ C.fault e → wp P E (k (.error e)) v

variable {C t} {P P' : α → World σ Q A → Prop} {E E' : ε → World σ Q A → Prop}

/-- A precondition is kept by whatever the others do. -/
theorem wp.stable {p : Prog σ ε Q A α} {v w : World σ Q A} (hr : C.rely v w)
    (h : wp C t P E p v) : wp C t P E p w := by
  cases p with
  | pure a | throw e => exact fun u hu => h u (C.rely_trans hr hu)
  | ask q k | look k | transact f k => exact fun u hu => h u (C.rely_trans hr hu)

/-- It is enough to have the precondition wherever the others may lead. -/
theorem wp_of_rely {p : Prog σ ε Q A α} {w : World σ Q A}
    (h : ∀ v, C.rely w v → C.inv v → wp C t P E p v) : wp C t P E p w := by
  cases p with
  | pure a | throw e => exact fun v hv hi => h v hv hi v (C.rely_refl v) hi
  | ask q k | look k | transact f k => exact fun v hv hi => h v hv hi v (C.rely_refl v) hi

theorem wp.mono {p : Prog σ ε Q A α} {w : World σ Q A} (h : wp C t P E p w)
    (hP : ∀ a v, C.inv v → P a v → P' a v) (hE : ∀ e v, C.inv v → E e v → E' e v) :
    wp C t P' E' p w := by
  induction p generalizing w with
  | pure a => exact fun v hv hi => hP _ _ hi (h v hv hi)
  | throw e => exact fun v hv hi => hE _ _ hi (h v hv hi)
  | ask q k ih => exact fun v hv hi a ha => ⟨(h v hv hi a ha).1, ih a (h v hv hi a ha).2⟩
  | look k ih => exact fun v hv hi => ih v.state (h v hv hi)
  | transact f k ih =>
      exact fun v hv hi => ⟨fun s hs => ⟨((h v hv hi).1 s hs).1, ih _ ((h v hv hi).1 s hs).2⟩,
        fun e he => ih _ ((h v hv hi).2 e he)⟩

theorem wp_bind {P : β → World σ Q A → Prop} {p : Prog σ ε Q A α} {f : α → Prog σ ε Q A β}
    {w : World σ Q A} (h : wp C t (fun a => wp C t P E (f a)) E p w) :
    wp C t P E (p.bind f) w := by
  induction p generalizing w with
  | pure a => exact wp_of_rely h
  | throw e => exact h
  | ask q k ih => exact fun v hv hi a ha => ⟨(h v hv hi a ha).1, ih a (h v hv hi a ha).2⟩
  | look k ih => exact fun v hv hi => ih v.state (h v hv hi)
  | transact g k ih =>
      exact fun v hv hi => ⟨fun s hs => ⟨((h v hv hi).1 s hs).1, ih _ ((h v hv hi).1 s hs).2⟩,
        fun e he => ih _ ((h v hv hi).2 e he)⟩

theorem wp_attempt {P : Except ε α → World σ Q A → Prop} {p : Prog σ ε Q A α}
    {w : World σ Q A} (h : wp C t (fun a => P (.ok a)) (fun e => P (.error e)) p w) :
    wp C t P E p.attempt w := by
  induction p generalizing w with
  | pure a | throw e => exact h
  | ask q k ih => exact fun v hv hi a ha => ⟨(h v hv hi a ha).1, ih a (h v hv hi a ha).2⟩
  | look k ih => exact fun v hv hi => ih v.state (h v hv hi)
  | transact g k ih =>
      exact fun v hv hi => ⟨fun s hs => ⟨((h v hv hi).1 s hs).1, ih _ ((h v hv hi).1 s hs).2⟩,
        fun e he => ih _ ((h v hv hi).2 e he)⟩

theorem wp_read {f : σ → α} {w : World σ Q A}
    (h : ∀ v, C.rely w v → C.inv v → ∀ u, C.rely v u → C.inv u → P (f v.state) u) :
    wp C t P E (read f) w := h

theorem wp_commit {P : Unit → World σ Q A → Prop} {f : Transaction σ ε} {w : World σ Q A}
    (hok : ∀ v, C.rely w v → C.inv v → ∀ s, f.run v.state = .ok s →
      C.guar v (v.put s) ∧ ∀ u, C.rely (v.put s) u → C.inv u → P () u)
    (herr : ∀ v, C.rely w v → C.inv v → ∀ e, f.run v.state = .error e ∨ C.fault e →
      ∀ u, C.rely v u → C.inv u → E e u) : wp C t P E (commit f) w :=
  fun v hv hi => ⟨hok v hv hi, herr v hv hi⟩

theorem wp_ofExcept {r : Except ε α} {w : World σ Q A}
    (hok : ∀ a, r = .ok a → ∀ v, C.rely w v → C.inv v → P a v)
    (herr : ∀ e, r = .error e → ∀ v, C.rely w v → C.inv v → E e v) :
    wp C t P E (ofExcept r) w := by
  cases r with
  | ok a => exact hok a rfl
  | error e => exact herr e rfl

theorem wp_throwIf {P : Unit → World σ Q A → Prop} {bad : Prop} [Decidable bad] {e : ε}
    {w : World σ Q A} (hok : ¬ bad → ∀ v, C.rely w v → C.inv v → P () v)
    (herr : bad → ∀ v, C.rely w v → C.inv v → E e v) : wp C t P E (throwIf bad e) w := by
  unfold throwIf
  split
  · exact herr ‹_›
  · exact hok ‹_›

/-! ### Programs that keep to some questions and transactions -/

/-- The program puts no question outside `ask` and makes no transaction outside `tx`. -/
def Confined (ask : Q → Prop) (tx : Transaction σ ε → Prop) : Prog σ ε Q A α → Prop
  | .pure _ | .throw _ => True
  | .ask q k => ask q ∧ ∀ a, Confined ask tx (k a)
  | .look k => ∀ s, Confined ask tx (k s)
  | .transact f k => tx f ∧ ∀ r, Confined ask tx (k r)

variable {ask : Q → Prop} {tx : Transaction σ ε → Prop}

theorem Confined.bind {p : Prog σ ε Q A α} {f : α → Prog σ ε Q A β} (hp : p.Confined ask tx)
    (hf : ∀ a, (f a).Confined ask tx) : (p.bind f).Confined ask tx := by
  induction p with
  | pure a => exact hf a
  | throw e => trivial
  | ask q k ih => exact ⟨hp.1, fun a => ih a (hp.2 a)⟩
  | look k ih => exact fun s => ih s (hp s)
  | transact f k ih => exact ⟨hp.1, fun r => ih r (hp.2 r)⟩

theorem Confined.tryCatch {p : Prog σ ε Q A α} {h : ε → Prog σ ε Q A α}
    (hp : p.Confined ask tx) (hh : ∀ e, (h e).Confined ask tx) :
    (p.tryCatch h).Confined ask tx := by
  induction p with
  | pure a => trivial
  | throw e => exact hh e
  | ask q k ih => exact ⟨hp.1, fun a => ih a (hp.2 a)⟩
  | look k ih => exact fun s => ih s (hp s)
  | transact f k ih => exact ⟨hp.1, fun r => ih r (hp.2 r)⟩

theorem Confined.attempt {p : Prog σ ε Q A α} (hp : p.Confined ask tx) :
    p.attempt.Confined ask tx := by
  induction p with
  | pure a | throw e => trivial
  | ask q k ih => exact ⟨hp.1, fun a => ih a (hp.2 a)⟩
  | look k ih => exact fun s => ih s (hp s)
  | transact f k ih => exact ⟨hp.1, fun r => ih r (hp.2 r)⟩

/-- A confined program keeps what its questions, its transactions and the others keep. -/
theorem wp_confined {R : World σ Q A → Prop} {p : Prog σ ε Q A α} {w : World σ Q A}
    (hp : p.Confined ask tx)
    (rely : ∀ {w v}, R w → C.rely w v → C.inv v → R v)
    (asks : ∀ {v q} (a : A q), ask q → C.inv v → R v →
      C.guar v (v.answered t q a) ∧ R (v.answered t q a))
    (commits : ∀ {v f s}, tx f → C.inv v → R v → f.run v.state = .ok s →
      C.guar v (v.put s) ∧ R (v.put s))
    (h : R w) : wp C t (fun _ => R) (fun _ => R) p w := by
  induction p generalizing w with
  | pure a | throw e => exact fun v hv hi => rely h hv hi
  | ask q k ih =>
      intro v hv hi a _
      obtain ⟨hg, hr⟩ := asks a hp.1 hi (rely h hv hi)
      exact ⟨hg, ih a (hp.2 a) hr⟩
  | look k ih => exact fun v hv hi => ih v.state (hp v.state) (rely h hv hi)
  | transact f k ih =>
      intro v hv hi
      have hr := rely h hv hi
      refine ⟨fun s hs => ?_, fun e _ => ih _ (hp.2 _) hr⟩
      obtain ⟨hg, hr'⟩ := commits hp.1 hi hr hs
      exact ⟨hg, ih _ (hp.2 _) hr'⟩

end Prog

end Durable
