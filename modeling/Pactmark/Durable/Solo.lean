import Pactmark.Durable.Program

/-!
# Durable — programs that run alone

`Prog.Ran` is one run of a program that has the durable state to itself: with the collaborators
giving any answer `allow` admits, the storage failing as `fault` admits, and the program
stopping for good wherever it pleases.  `Prog.eval` is the run in which every question has one
answer and the storage does not fail.

`Prog.solo` is what every such run keeps: an invariant of the state after each transaction, and
one postcondition for what the program returns and one for what it throws.
-/

namespace Durable

namespace Prog

variable {σ ε Q : Type} [Preorder σ] {A : Q → Type} {α β : Type}

section Runs

variable (allow : (q : Q) → A q → Prop) (fault : ε → Prop)

/-- A run from one state to another, with what it ended with unless it has stopped before. -/
inductive Ran : Prog σ ε Q A α → σ → σ → Option (Except ε α) → Prop where
  | stopped (p : Prog σ ε Q A α) (s : σ) : Ran p s s none
  | pure (a : α) (s : σ) : Ran (.pure a) s s (some (.ok a))
  | throw (e : ε) (s : σ) : Ran (.throw e) s s (some (.error e))
  | ask {q : Q} {k : A q → Prog σ ε Q A α} {s s' : σ} {r : Option (Except ε α)} (a : A q)
      (ha : allow q a) (h : Ran (k a) s s' r) : Ran (.ask q k) s s' r
  | look {k : σ → Prog σ ε Q A α} {s s' : σ} {r : Option (Except ε α)}
      (h : Ran (k s) s s' r) : Ran (.look k) s s' r
  | commit {f : Transaction σ ε} {k : Except ε Unit → Prog σ ε Q A α} {s s₁ s' : σ}
      {r : Option (Except ε α)} (hf : f.run s = .ok s₁) (h : Ran (k (.ok ())) s₁ s' r) :
      Ran (.transact f k) s s' r
  | fail {f : Transaction σ ε} {k : Except ε Unit → Prog σ ε Q A α} {s s' : σ} {e : ε}
      {r : Option (Except ε α)} (hf : f.run s = .error e ∨ fault e)
      (h : Ran (k (.error e)) s s' r) : Ran (.transact f k) s s' r

/-- Every run alone from `s` keeps `I` at each of its transactions, and ends in `P` when it
returns and in `E` when it throws. -/
def solo (I : σ → Prop) (P : α → σ → Prop) (E : ε → σ → Prop) : Prog σ ε Q A α → σ → Prop
  | .pure a, s => P a s
  | .throw e, s => E e s
  | .ask q k, s => ∀ a, allow q a → solo I P E (k a) s
  | .look k, s => solo I P E (k s) s
  | .transact f k, s =>
      (∀ s', f.run s = .ok s' → I s' ∧ solo I P E (k (.ok ())) s') ∧
      ∀ e, f.run s = .error e ∨ fault e → solo I P E (k (.error e)) s

end Runs

/-- The run in which every question has one answer and the storage does not fail. -/
def eval (answers : (q : Q) → A q) : Prog σ ε Q A α → σ → Except ε α × σ
  | .pure a, s => (.ok a, s)
  | .throw e, s => (.error e, s)
  | .ask q k, s => eval answers (k (answers q)) s
  | .look k, s => eval answers (k s) s
  | .transact f k, s =>
      match f.run s with
      | .ok s' => eval answers (k (.ok ())) s'
      | .error e => eval answers (k (.error e)) s

variable {allow : (q : Q) → A q → Prop} {fault : ε → Prop} {I : σ → Prop}
  {P P' : α → σ → Prop} {E E' : ε → σ → Prop}

theorem ran_eval {answers : (q : Q) → A q} (h : ∀ q, allow q (answers q))
    (p : Prog σ ε Q A α) (s : σ) :
    Ran allow fault p s (eval answers p s).2 (some (eval answers p s).1) := by
  induction p generalizing s with
  | pure a => exact .pure a s
  | throw e => exact .throw e s
  | ask q k ih => exact .ask _ (h q) (ih _ s)
  | look k ih => exact .look (ih s s)
  | transact f k ih =>
      simp only [eval]
      split
      next s' hf => exact .commit hf (ih _ s')
      next e hf => exact .fail (.inl hf) (ih _ s)

theorem Ran.bind {p : Prog σ ε Q A α} {f : α → Prog σ ε Q A β} {s s₁ s' : σ} {a : α}
    {r : Option (Except ε β)} (hp : Ran allow fault p s s₁ (some (.ok a)))
    (hf : Ran allow fault (f a) s₁ s' r) : Ran allow fault (p.bind f) s s' r := by
  generalize ho : some (Except.ok a) = o at hp
  induction hp with
  | stopped p s => cases ho
  | pure a s =>
      cases ho
      exact hf
  | throw e s => cases ho
  | ask a ha _ ih => exact .ask a ha (ih hf ho)
  | look _ ih => exact .look (ih hf ho)
  | commit hg _ ih => exact .commit hg (ih hf ho)
  | fail hg _ ih => exact .fail hg (ih hf ho)

theorem ran_ofExcept {r : Except ε α} {a : α} (h : r = .ok a) (s : σ) :
    Ran allow fault (ofExcept r) s s (some (.ok a)) := by
  subst h
  exact .pure a s

theorem ran_commit {f : Transaction σ ε} {s s' : σ} (h : f.run s = .ok s') :
    Ran allow fault (.commit f) s s' (some (.ok ())) :=
  .commit h (.pure () s')

theorem ran_throwIf {bad : Prop} [Decidable bad] {e : ε} (h : ¬ bad) (s : σ) :
    Ran allow fault (throwIf bad e) s s (some (.ok ())) := by
  rw [throwIf, if_neg h]
  exact .pure () s

/-- `solo` says what every run alone comes to. -/
theorem solo.ran {p : Prog σ ε Q A α} {s s' : σ} {r : Option (Except ε α)}
    (hr : Ran allow fault p s s' r) (h : solo allow fault I P E p s) (hi : I s) :
    I s' ∧ (∀ a, r = some (.ok a) → P a s') ∧ ∀ e, r = some (.error e) → E e s' := by
  induction hr with
  | stopped p s => exact ⟨hi, nofun, nofun⟩
  | pure a s =>
      refine ⟨hi, fun b hb => ?_, nofun⟩
      cases hb
      exact h
  | throw e s =>
      refine ⟨hi, nofun, fun b hb => ?_⟩
      cases hb
      exact h
  | ask a ha _ ih => exact ih (h a ha) hi
  | look _ ih => exact ih h hi
  | commit hf _ ih => exact ih (h.1 _ hf).2 (h.1 _ hf).1
  | fail hf _ ih => exact ih (h.2 _ hf) hi

theorem solo_pure {a : α} {s : σ} (h : P a s) : solo allow fault I P E (.pure a) s := h

theorem solo_throw {e : ε} {s : σ} (h : E e s) : solo allow fault I P E (.throw e) s := h

theorem solo_read {f : σ → α} {s : σ} (h : P (f s) s) : solo allow fault I P E (read f) s := h

theorem solo.mono {p : Prog σ ε Q A α} {s : σ} (h : solo allow fault I P E p s)
    (hP : ∀ a s, P a s → P' a s) (hE : ∀ e s, E e s → E' e s) :
    solo allow fault I P' E' p s := by
  induction p generalizing s with
  | pure a => exact hP a s h
  | throw e => exact hE e s h
  | ask q k ih => exact fun a ha => ih a (h a ha)
  | look k ih => exact ih s h
  | transact f k ih =>
      exact ⟨fun s' hs => ⟨(h.1 s' hs).1, ih _ (h.1 s' hs).2⟩, fun e he => ih _ (h.2 e he)⟩

theorem solo.weaken {I' : σ → Prop} {p : Prog σ ε Q A α} {s : σ}
    {allow' : (q : Q) → A q → Prop} {fault' : ε → Prop} (h : solo allow fault I P E p s)
    (ha : ∀ q a, allow' q a → allow q a) (hf : ∀ e, fault' e → fault e)
    (hI : ∀ s, I s → I' s) : solo allow' fault' I' P E p s := by
  induction p generalizing s with
  | pure a | throw e => exact h
  | ask q k ih => exact fun a hq => ih a (h a (ha q a hq))
  | look k ih => exact ih s h
  | transact f k ih =>
      refine ⟨fun s' hs => ⟨hI s' (h.1 s' hs).1, ih _ (h.1 s' hs).2⟩, fun e he => ih _ (h.2 e ?_)⟩
      exact he.imp_right (hf e)

theorem solo_bind {P : β → σ → Prop} {p : Prog σ ε Q A α} {f : α → Prog σ ε Q A β} {s : σ}
    (h : solo allow fault I (fun a s => solo allow fault I P E (f a) s) E p s) :
    solo allow fault I P E (p.bind f) s := by
  induction p generalizing s with
  | pure a | throw e => exact h
  | ask q k ih => exact fun a ha => ih a (h a ha)
  | look k ih => exact ih s h
  | transact g k ih =>
      exact ⟨fun s' hs => ⟨(h.1 s' hs).1, ih _ (h.1 s' hs).2⟩, fun e he => ih _ (h.2 e he)⟩

theorem solo_tryCatch {p : Prog σ ε Q A α} {c : ε → Prog σ ε Q A α} {s : σ}
    (h : solo allow fault I P (fun e s => solo allow fault I P E (c e) s) p s) :
    solo allow fault I P E (p.tryCatch c) s := by
  induction p generalizing s with
  | pure a | throw e => exact h
  | ask q k ih => exact fun a ha => ih a (h a ha)
  | look k ih => exact ih s h
  | transact g k ih =>
      exact ⟨fun s' hs => ⟨(h.1 s' hs).1, ih _ (h.1 s' hs).2⟩, fun e he => ih _ (h.2 e he)⟩

theorem solo_attempt {P : Except ε α → σ → Prop} {p : Prog σ ε Q A α} {s : σ}
    (h : solo allow fault I (fun a => P (.ok a)) (fun e => P (.error e)) p s) :
    solo allow fault I P E p.attempt s := by
  induction p generalizing s with
  | pure a | throw e => exact h
  | ask q k ih => exact fun a ha => ih a (h a ha)
  | look k ih => exact ih s h
  | transact g k ih =>
      exact ⟨fun s' hs => ⟨(h.1 s' hs).1, ih _ (h.1 s' hs).2⟩, fun e he => ih _ (h.2 e he)⟩

theorem solo_commit {P : Unit → σ → Prop} {f : Transaction σ ε} {s : σ}
    (hok : ∀ s', f.run s = .ok s' → I s' ∧ P () s') (herr : ∀ e, E e s) :
    solo allow fault I P E (commit f) s :=
  ⟨hok, fun e _ => herr e⟩

theorem solo_ofExcept {r : Except ε α} {s : σ} (hok : ∀ a, r = .ok a → P a s)
    (herr : ∀ e, r = .error e → E e s) : solo allow fault I P E (ofExcept r) s := by
  cases r with
  | ok a => exact hok a rfl
  | error e => exact herr e rfl

theorem solo_throwIf {P : Unit → σ → Prop} {bad : Prop} [Decidable bad] {e : ε} {s : σ}
    (hok : ¬ bad → P () s) (herr : bad → E e s) :
    solo allow fault I P E (throwIf bad e) s := by
  unfold throwIf
  split
  · exact herr ‹_›
  · exact hok ‹_›

/-- A program that makes no transaction outside `tx` keeps what those keep. -/
theorem solo_confined {ask : Q → Prop} {tx : Transaction σ ε → Prop} {R : σ → Prop}
    {p : Prog σ ε Q A α} {s : σ} (hp : p.Confined ask tx)
    (commits : ∀ {f s s'}, tx f → R s → f.run s = .ok s' → I s' ∧ R s') (h : R s) :
    solo allow fault I (fun _ => R) (fun _ => R) p s := by
  induction p generalizing s with
  | pure a | throw e => exact h
  | ask q k ih => exact fun a _ => ih a (hp.2 a) h
  | look k ih => exact ih s (hp s) h
  | transact f k ih =>
      refine ⟨fun s' hs => ?_, fun e _ => ih _ (hp.2 _) h⟩
      obtain ⟨hi, hr⟩ := commits hp.1 h hs
      exact ⟨hi, ih _ (hp.2 _) hr⟩

/-- Every program keeps what only becomes more true as the state grows. -/
theorem solo_up {U : σ → Prop} (up : ∀ {s s'}, s ≤ s' → U s → U s') (hI : ∀ s, U s → I s)
    (p : Prog σ ε Q A α) {s : σ} (h : U s) :
    solo allow fault I (fun _ => U) (fun _ => U) p s := by
  induction p generalizing s with
  | pure a | throw e => exact h
  | ask q k ih => exact fun a _ => ih a h
  | look k ih => exact ih s h
  | transact f k ih =>
      refine ⟨fun s' hs => ?_, fun e _ => ih _ h⟩
      have h' := up (f.grows hs) h
      exact ⟨hI s' h', ih _ h'⟩

/-! ### What a program returns -/

/-- Whatever the program returns satisfies `R`. -/
def Returns (R : α → Prop) : Prog σ ε Q A α → Prop
  | .pure a => R a
  | .throw _ => True
  | .ask _ k => ∀ a, Returns R (k a)
  | .look k => ∀ s, Returns R (k s)
  | .transact _ k => ∀ r, Returns R (k r)

theorem returns_true (p : Prog σ ε Q A α) : p.Returns fun _ => True := by
  induction p with
  | pure a | throw e => trivial
  | ask q k ih => exact fun a => ih a
  | look k ih => exact fun s => ih s
  | transact f k ih => exact fun r => ih r

theorem Returns.bind {R : α → Prop} {R' : β → Prop} {p : Prog σ ε Q A α}
    {f : α → Prog σ ε Q A β} (hp : p.Returns R) (hf : ∀ a, R a → (f a).Returns R') :
    (p.bind f).Returns R' := by
  induction p with
  | pure a => exact hf a hp
  | throw e => trivial
  | ask q k ih => exact fun a => ih a (hp a)
  | look k ih => exact fun s => ih s (hp s)
  | transact g k ih => exact fun r => ih r (hp r)

theorem Returns.mono {R R' : α → Prop} {p : Prog σ ε Q A α} (hp : p.Returns R)
    (h : ∀ a, R a → R' a) : p.Returns R' := by
  induction p with
  | pure a => exact h a hp
  | throw e => trivial
  | ask q k ih => exact fun a => ih a (hp a)
  | look k ih => exact fun s => ih s (hp s)
  | transact g k ih => exact fun r => ih r (hp r)

theorem Returns.tryCatch {R : α → Prop} {p : Prog σ ε Q A α} {c : ε → Prog σ ε Q A α}
    (hp : p.Returns R) (hc : ∀ e, (c e).Returns R) : (p.tryCatch c).Returns R := by
  induction p with
  | pure a => exact hp
  | throw e => exact hc e
  | ask q k ih => exact fun a => ih a (hp a)
  | look k ih => exact fun s => ih s (hp s)
  | transact g k ih => exact fun r => ih r (hp r)

theorem solo.returns {R : α → Prop} {p : Prog σ ε Q A α} {s : σ}
    (h : solo allow fault I P E p s) (hr : p.Returns R) :
    solo allow fault I (fun a s => P a s ∧ R a) E p s := by
  induction p generalizing s with
  | pure a => exact ⟨h, hr⟩
  | throw e => exact h
  | ask q k ih => exact fun a ha => ih a (h a ha) (hr a)
  | look k ih => exact ih s h (hr s)
  | transact f k ih =>
      exact ⟨fun s' hs => ⟨(h.1 s' hs).1, ih _ (h.1 s' hs).2 (hr _)⟩,
        fun e he => ih _ (h.2 e he) (hr _)⟩

/-! ### What a program may come to -/

section May

/-- A run that has ended may have been stopped there. -/
theorem Ran.cut {p : Prog σ ε Q A α} {s s' : σ} {r : Option (Except ε α)}
    (h : Ran allow fault p s s' r) : Ran allow fault p s s' none := by
  induction h with
  | stopped p s => exact .stopped p s
  | pure a s => exact .stopped _ s
  | throw e s => exact .stopped _ s
  | ask a ha _ ih => exact .ask a ha ih
  | look _ ih => exact .look ih
  | commit hf _ ih => exact .commit hf ih
  | fail hf _ ih => exact .fail hf ih

theorem Ran.bind_stopped {p : Prog σ ε Q A α} {f : α → Prog σ ε Q A β} {s s' : σ}
    (h : Ran allow fault p s s' none) : Ran allow fault (p.bind f) s s' none := by
  generalize ho : none = o at h
  induction h with
  | stopped p s => exact .stopped _ s
  | pure a s => cases ho
  | throw e s => cases ho
  | ask a ha _ ih => exact .ask a ha (ih ho)
  | look _ ih => exact .look (ih ho)
  | commit hf _ ih => exact .commit hf (ih ho)
  | fail hf _ ih => exact .fail hf (ih ho)

theorem Ran.attempt_stopped {p : Prog σ ε Q A α} {s s' : σ}
    (h : Ran allow fault p s s' none) : Ran allow fault p.attempt s s' none := by
  generalize ho : none = o at h
  induction h with
  | stopped p s => exact .stopped _ s
  | pure a s => cases ho
  | throw e s => cases ho
  | ask a ha _ ih => exact .ask a ha (ih ho)
  | look _ ih => exact .look (ih ho)
  | commit hf _ ih => exact .commit hf (ih ho)
  | fail hf _ ih => exact .fail hf (ih ho)

theorem Ran.tryCatch_stopped {p : Prog σ ε Q A α} {c : ε → Prog σ ε Q A α} {s s' : σ}
    (h : Ran allow fault p s s' none) : Ran allow fault (p.tryCatch c) s s' none := by
  generalize ho : none = o at h
  induction h with
  | stopped p s => exact .stopped _ s
  | pure a s => cases ho
  | throw e s => cases ho
  | ask a ha _ ih => exact .ask a ha (ih ho)
  | look _ ih => exact .look (ih ho)
  | commit hf _ ih => exact .commit hf (ih ho)
  | fail hf _ ih => exact .fail hf (ih ho)

theorem Ran.tryCatch_throws {p : Prog σ ε Q A α} {c : ε → Prog σ ε Q A α} {s s₁ s' : σ} {e : ε}
    {r : Option (Except ε α)} (h : Ran allow fault p s s₁ (some (.error e)))
    (hc : Ran allow fault (c e) s₁ s' r) : Ran allow fault (p.tryCatch c) s s' r := by
  generalize ho : some (Except.error e) = o at h
  induction h with
  | stopped p s => cases ho
  | pure a s => cases ho
  | throw e s =>
      cases ho
      exact hc
  | ask a ha _ ih => exact .ask a ha (ih hc ho)
  | look _ ih => exact .look (ih hc ho)
  | commit hf _ ih => exact .commit hf (ih hc ho)
  | fail hf _ ih => exact .fail hf (ih hc ho)

theorem Ran.bind_throws {p : Prog σ ε Q A α} {f : α → Prog σ ε Q A β} {s s' : σ} {e : ε}
    (h : Ran allow fault p s s' (some (.error e))) :
    Ran allow fault (p.bind f) s s' (some (.error e)) := by
  generalize ho : some (Except.error e) = o at h
  induction h with
  | stopped p s => cases ho
  | pure a s => cases ho
  | throw e s =>
      cases ho
      exact .throw e s
  | ask a ha _ ih => exact .ask a ha (ih ho)
  | look _ ih => exact .look (ih ho)
  | commit hf _ ih => exact .commit hf (ih ho)
  | fail hf _ ih => exact .fail hf (ih ho)

variable (allow fault) in
/-- Some run of the program alone comes to a state that satisfies `R`. -/
def May (R : σ → Prop) (p : Prog σ ε Q A α) (s : σ) : Prop :=
  ∃ s', Ran allow fault p s s' none ∧ R s'

variable {R : σ → Prop} {s s₁ : σ}

theorem may_of_ran {p : Prog σ ε Q A α} {r : Option (Except ε α)}
    (h : Ran allow fault p s s₁ r) (hR : R s₁) : May allow fault R p s :=
  ⟨s₁, h.cut, hR⟩

theorem may_bind {p : Prog σ ε Q A α} {f : α → Prog σ ε Q A β} (h : May allow fault R p s) :
    May allow fault R (p.bind f) s := by
  obtain ⟨s', h, hR⟩ := h
  exact ⟨s', h.bind_stopped, hR⟩

theorem may_after {p : Prog σ ε Q A α} {f : α → Prog σ ε Q A β} {a : α}
    (h : Ran allow fault p s s₁ (some (.ok a))) (hf : May allow fault R (f a) s₁) :
    May allow fault R (p.bind f) s := by
  obtain ⟨s', hf, hR⟩ := hf
  exact ⟨s', h.bind hf, hR⟩

theorem may_attempt {p : Prog σ ε Q A α} (h : May allow fault R p s) :
    May allow fault R p.attempt s := by
  obtain ⟨s', h, hR⟩ := h
  exact ⟨s', h.attempt_stopped, hR⟩

theorem may_tryCatch {p : Prog σ ε Q A α} {c : ε → Prog σ ε Q A α}
    (h : May allow fault R p s) : May allow fault R (p.tryCatch c) s := by
  obtain ⟨s', h, hR⟩ := h
  exact ⟨s', h.tryCatch_stopped, hR⟩

theorem may_caught {p : Prog σ ε Q A α} {c : ε → Prog σ ε Q A α} {e : ε}
    (h : Ran allow fault p s s₁ (some (.error e))) (hc : May allow fault R (c e) s₁) :
    May allow fault R (p.tryCatch c) s := by
  obtain ⟨s', hc, hR⟩ := hc
  exact ⟨s', h.tryCatch_throws hc, hR⟩

/-- The state in which the program is lost after its `n`-th transaction, when every question has
one answer and the storage does not fail. -/
def crash (answers : (q : Q) → A q) : Nat → Prog σ ε Q A α → σ → σ
  | _, .pure _, s | _, .throw _, s => s
  | n, .ask q k, s => crash answers n (k (answers q)) s
  | n, .look k, s => crash answers n (k s) s
  | 0, .transact _ _, s => s
  | n + 1, .transact f k, s =>
      match f.run s with
      | .ok s' => crash answers n (k (.ok ())) s'
      | .error e => crash answers n (k (.error e)) s

theorem ran_crash {answers : (q : Q) → A q} (h : ∀ q, allow q (answers q)) (n : Nat)
    (p : Prog σ ε Q A α) (s : σ) : Ran allow fault p s (crash answers n p s) none := by
  induction p generalizing n s with
  | pure a => exact .stopped _ s
  | throw e => exact .stopped _ s
  | ask q k ih => exact .ask _ (h q) (ih _ n s)
  | look k ih => exact .look (ih s n s)
  | transact f k ih =>
      cases n with
      | zero => exact .stopped _ s
      | succ n =>
          simp only [crash]
          split
          next s' hf => exact .commit hf (ih _ n s')
          next e hf => exact .fail (.inl hf) (ih _ n s)

/-- What no run keeps from is what no run may come to. -/
theorem not_may {p : Prog σ ε Q A α} {P : α → σ → Prop} {E : ε → σ → Prop}
    (h : solo allow fault (fun s => ¬ R s) P E p s) (hs : ¬ R s) : ¬ May allow fault R p s := by
  rintro ⟨s', hran, hR⟩
  exact (h.ran hran hs).1 hR

end May

/-! ### Evaluation -/

section Eval

variable (answers : (q : Q) → A q)

@[simp] theorem eval_pure (a : α) (s : σ) :
    eval answers (.pure a : Prog σ ε Q A α) s = (.ok a, s) := rfl
@[simp] theorem eval_throw (e : ε) (s : σ) :
    eval answers (.throw e : Prog σ ε Q A α) s = (.error e, s) := rfl
@[simp] theorem eval_ask (q : Q) (k : A q → Prog σ ε Q A α) (s : σ) :
    eval answers (.ask q k) s = eval answers (k (answers q)) s := rfl
@[simp] theorem eval_look (k : σ → Prog σ ε Q A α) (s : σ) :
    eval answers (.look k) s = eval answers (k s) s := rfl

end Eval

end Prog

end Durable
