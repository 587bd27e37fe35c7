import Pactmark.Durable.Program

/-!
# Durable — systems of stopping threads

A `System` is a durable world with the threads that are live in it.  A thread runs its program
one `ask`, `look` or `transact` at a time, in any interleaving with the others; it may stop for
good between any two of these (`Step.stop`), and a new thread may start whenever the roles that
are already live allow it (`Step.start`).  A thread whose turn ended with `some b` goes on with
`loop b`; one whose turn ended otherwise has nothing left to do.

`Safe.step` is the rely–guarantee rule.  If every program a role may start with, and every turn
it may go on with, satisfies its precondition under the role's contract, and if what one role
guarantees is what any role live beside it relies on, then every step of every run is a step
some role guarantees.  `Valid.invariant` is the invariant rule that follows.
-/

namespace Durable

variable {σ ε Q ρ β : Type} [Preorder σ] {A : Q → Type}

/-- One step of a program in thread `t`. -/
inductive Prog.Step {α : Type} (allow : World σ Q A → (q : Q) → A q → Prop) (fault : ε → Prop)
    (t : Nat) : Prog σ ε Q A α → World σ Q A → Prog σ ε Q A α → World σ Q A → Prop where
  | ask {q : Q} {k : A q → Prog σ ε Q A α} {w : World σ Q A} (a : A q) (h : allow w q a) :
      Step allow fault t (.ask q k) w (k a) (w.answered t q a)
  | look {k : σ → Prog σ ε Q A α} {w : World σ Q A} :
      Step allow fault t (.look k) w (k w.state) w
  | commit {f : Transaction σ ε} {k : Except ε Unit → Prog σ ε Q A α} {w : World σ Q A} {s : σ}
      (h : f.run w.state = .ok s) : Step allow fault t (.transact f k) w (k (.ok ())) (w.put s)
  | fail {f : Transaction σ ε} {k : Except ε Unit → Prog σ ε Q A α} {w : World σ Q A} {e : ε}
      (h : f.run w.state = .error e ∨ fault e) :
      Step allow fault t (.transact f k) w (k (.error e)) w

/-- A live thread. -/
structure Thread (σ ε Q : Type) [Preorder σ] (A : Q → Type) (ρ β : Type) where
  id : Nat
  role : ρ
  prog : Prog σ ε Q A (Option β)

/-- What may run: the programs a role may start with, how a thread goes on after a turn, and
which roles may be live at once. -/
structure Design (σ ε Q : Type) [Preorder σ] (A : Q → Type) (ρ β : Type) where
  starts : ρ → Prog σ ε Q A (Option β) → Prop
  loop : ρ → β → Prog σ ε Q A (Option β)
  together : ρ → ρ → Prop
  allow : World σ Q A → (q : Q) → A q → Prop
  fault : ε → Prop

/-- A world, its live threads, and the identity the next thread gets. -/
structure System (σ ε Q : Type) [Preorder σ] (A : Q → Type) (ρ β : Type) where
  world : World σ Q A
  threads : List (Thread σ ε Q A ρ β)
  next : Nat

variable (D : Design σ ε Q A ρ β)

/-- One step of a system. -/
inductive System.Step : System σ ε Q A ρ β → System σ ε Q A ρ β → Prop where
  | start {w : World σ Q A} {ths : List (Thread σ ε Q A ρ β)} {n : Nat} {r : ρ}
      {p : Prog σ ε Q A (Option β)} (hp : D.starts r p)
      (hr : ∀ th ∈ ths, D.together r th.role) :
      Step ⟨w, ths, n⟩ ⟨w, ⟨n, r, p⟩ :: ths, n + 1⟩
  | run {w w' : World σ Q A} {before after : List (Thread σ ε Q A ρ β)} {n id : Nat} {r : ρ}
      {p p' : Prog σ ε Q A (Option β)} (h : p.Step D.allow D.fault id w p' w') :
      Step ⟨w, before ++ ⟨id, r, p⟩ :: after, n⟩ ⟨w', before ++ ⟨id, r, p'⟩ :: after, n⟩
  | turn {w : World σ Q A} {before after : List (Thread σ ε Q A ρ β)} {n id : Nat} {r : ρ}
      {b : β} :
      Step ⟨w, before ++ ⟨id, r, .pure (some b)⟩ :: after, n⟩
        ⟨w, before ++ ⟨id, r, D.loop r b⟩ :: after, n⟩
  | stop {w : World σ Q A} {before after : List (Thread σ ε Q A ρ β)} {n : Nat}
      {th : Thread σ ε Q A ρ β} :
      Step ⟨w, before ++ th :: after, n⟩ ⟨w, before ++ after, n⟩

/-- A run. -/
abbrev System.Steps : System σ ε Q A ρ β → System σ ε Q A ρ β → Prop :=
  Relation.ReflTransGen (System.Step D)

/-- Reached from a world in which nothing is live. -/
def System.Reachable (w₀ : World σ Q A) (s : System σ ε Q A ρ β) : Prop :=
  System.Steps D ⟨w₀, [], 0⟩ s

/-! ### The rely–guarantee rule -/

/-- A contract for each role, with what holds of a thread between two of its turns. -/
structure Outline (D : Design σ ε Q A ρ β) where
  contract : ρ → Contract σ ε Q A
  Ready : ρ → Nat → β → World σ Q A → Prop
  inv : World σ Q A → Prop
  inv_eq : ∀ r, (contract r).inv = inv
  allow_eq : ∀ r, (contract r).allow = D.allow
  fault_eq : ∀ r, (contract r).fault = D.fault
  inv_guar : ∀ r {w v}, inv w → (contract r).guar w v → inv v
  rely_guar : ∀ {r r'}, D.together r r' ∨ D.together r' r → ∀ {w v}, inv w →
    (contract r).guar w v → (contract r').rely w v

namespace Outline

variable {D}

/-- What a turn of thread `t` ends in. -/
def Post (O : Outline D) (r : ρ) (t : Nat) : Option β → World σ Q A → Prop
  | some b, w => O.Ready r t b w
  | none, _ => True

/-- Thread `th` satisfies its precondition at `w`. -/
def Holds (O : Outline D) (w : World σ Q A) (th : Thread σ ε Q A ρ β) : Prop :=
  th.prog.wp (O.contract th.role) th.id (O.Post th.role th.id) (fun _ _ => True) w

/-- The roles of any two live threads may be live at once. -/
def Compatible (D : Design σ ε Q A ρ β) (ths : List (Thread σ ε Q A ρ β)) : Prop :=
  ths.Pairwise fun a b => D.together a.role b.role

/-- The obligations on the programs. -/
structure Valid (O : Outline D) : Prop where
  starts : ∀ {r p}, D.starts r p → ∀ {w}, O.inv w → ∀ t,
    p.wp (O.contract r) t (O.Post r t) (fun _ _ => True) w
  turns : ∀ {r t b w}, O.inv w → O.Ready r t b w →
    (D.loop r b).wp (O.contract r) t (O.Post r t) (fun _ _ => True) w

/-- Every live thread satisfies its precondition, and the world its invariant. -/
structure Safe (O : Outline D) (s : System σ ε Q A ρ β) : Prop where
  inv : O.inv s.world
  compatible : Compatible D s.threads
  holds : ∀ th ∈ s.threads, O.Holds s.world th

/-- A step of a program that satisfies its precondition is a step it guarantees, and leads to a
program that satisfies its own. -/
theorem step_wp {O : Outline D} {r : ρ} {t : Nat} {p p' : Prog σ ε Q A (Option β)}
    {w w' : World σ Q A} (hi : O.inv w)
    (hp : p.wp (O.contract r) t (O.Post r t) (fun _ _ => True) w) (h : p.Step D.allow D.fault t w p' w') :
    (w' = w ∨ (O.contract r).guar w w') ∧ p'.wp (O.contract r) t (O.Post r t) (fun _ _ => True) w' := by
  have hi' : (O.contract r).inv w := O.inv_eq r ▸ hi
  have hr := (O.contract r).rely_refl w
  cases h with
  | ask a ha =>
      obtain ⟨hg, hk⟩ := hp w hr hi' a (O.allow_eq r ▸ ha)
      exact ⟨.inr hg, hk⟩
  | look => exact ⟨.inl rfl, hp w hr hi'⟩
  | commit hs =>
      obtain ⟨hg, hk⟩ := (hp w hr hi').1 _ hs
      exact ⟨.inr hg, hk⟩
  | fail he =>
      refine ⟨.inl rfl, (hp w hr hi').2 _ ?_⟩
      rwa [O.fault_eq r]

/-- **The rely–guarantee rule.** -/
theorem Safe.step {O : Outline D} (hv : O.Valid) {s s' : System σ ε Q A ρ β} (hs : O.Safe s)
    (h : System.Step D s s') :
    O.Safe s' ∧ (s'.world = s.world ∨ ∃ r, (O.contract r).guar s.world s'.world) := by
  obtain ⟨hi, hc, hh⟩ := hs
  cases h with
  | start hp hr =>
      refine ⟨⟨hi, List.pairwise_cons.mpr ⟨hr, hc⟩, ?_⟩, .inl rfl⟩
      intro th hth
      rcases List.mem_cons.mp hth with rfl | hth
      · exact hv.starts hp hi _
      · exact hh th hth
  | @run w w' before after n id r p p' hp =>
      have hth : (⟨id, r, p⟩ : Thread σ ε Q A ρ β) ∈ before ++ ⟨id, r, p⟩ :: after := by simp
      obtain ⟨hg, hk⟩ := step_wp hi (hh _ hth) hp
      have hi' : O.inv w' := by
        rcases hg with rfl | hg
        · exact hi
        · exact O.inv_guar r hi hg
      simp only [Compatible, List.pairwise_append, List.pairwise_cons, List.mem_cons,
        forall_eq_or_imp] at hc
      obtain ⟨hb, ⟨ha, haa⟩, hba⟩ := hc
      have others : ∀ th ∈ before ++ after, O.Holds w' th := by
        intro th hm
        have h₀ : O.Holds w th := hh th (by
          rcases List.mem_append.mp hm with h | h <;> simp [h])
        rcases hg with rfl | hg
        · exact h₀
        · refine h₀.stable (O.rely_guar ?_ hi hg)
          rcases List.mem_append.mp hm with h | h
          · exact .inr (hba th h).1
          · exact .inl (ha th h)
      refine ⟨⟨hi', ?_, ?_⟩, ?_⟩
      · simp only [Compatible, List.pairwise_append, List.pairwise_cons, List.mem_cons,
          forall_eq_or_imp]
        exact ⟨hb, ⟨ha, haa⟩, hba⟩
      · intro th hm
        simp only [List.mem_append, List.mem_cons] at hm
        rcases hm with h | rfl | h
        · exact others th (List.mem_append_left _ h)
        · exact hk
        · exact others th (List.mem_append_right _ h)
      · exact hg.imp_right fun h => ⟨r, h⟩
  | @turn w before after n id r b =>
      have hth : (⟨id, r, .pure (some b)⟩ : Thread σ ε Q A ρ β) ∈
          before ++ ⟨id, r, .pure (some b)⟩ :: after := by simp
      have hb : O.Ready r id b w :=
        hh _ hth w ((O.contract r).rely_refl w) (O.inv_eq r ▸ hi)
      refine ⟨⟨hi, ?_, ?_⟩, .inl rfl⟩
      · simpa only [Compatible, List.pairwise_append, List.pairwise_cons, List.mem_cons,
          forall_eq_or_imp] using hc
      · intro th hm
        simp only [List.mem_append, List.mem_cons] at hm
        rcases hm with h | rfl | h
        · exact hh th (by simp [h])
        · exact hv.turns hi hb
        · exact hh th (by simp [h])
  | @stop w before after n th =>
      refine ⟨⟨hi, ?_, fun th' hm => hh th' ?_⟩, .inl rfl⟩
      · exact hc.sublist (List.Sublist.append_left (List.sublist_cons_self _ _) _)
      · rcases List.mem_append.mp hm with h | h <;> simp [h]

theorem Safe.init {O : Outline D} {w : World σ Q A} (hi : O.inv w) {n : Nat} :
    O.Safe ⟨w, [], n⟩ :=
  ⟨hi, List.Pairwise.nil, fun _ h => absurd h List.not_mem_nil⟩

theorem Safe.steps {O : Outline D} (hv : O.Valid) {s s' : System σ ε Q A ρ β} (hs : O.Safe s)
    (h : System.Steps D s s') : O.Safe s' := by
  induction h with
  | refl => exact hs
  | tail _ h ih => exact (ih.step hv h).1

/-- Every reachable system is safe. -/
theorem Valid.safe {O : Outline D} (hv : O.Valid) {w₀ : World σ Q A} (hi : O.inv w₀)
    {s : System σ ε Q A ρ β} (h : System.Reachable D w₀ s) : O.Safe s :=
  (Safe.init hi).steps hv h

/-- **The invariant rule.**  What holds at the start, and is kept by every step a role
guarantees, holds in every reachable world. -/
theorem Valid.invariant {O : Outline D} (hv : O.Valid) {w₀ : World σ Q A} (hi : O.inv w₀)
    {I : World σ Q A → Prop} (h₀ : I w₀)
    (hI : ∀ r {w v}, O.inv w → I w → (O.contract r).guar w v → I v)
    {s : System σ ε Q A ρ β} (h : System.Reachable D w₀ s) : I s.world := by
  induction h with
  | refl => exact h₀
  | tail hs h ih =>
      have hsafe := (Safe.init hi).steps hv hs
      rcases (hsafe.step hv h).2 with e | ⟨r, hg⟩
      · rw [e]; exact ih
      · exact hI r hsafe.inv ih hg

end Outline

end Durable
