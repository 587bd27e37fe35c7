import Pactmark.Agent.Alone

/-!
# Agent — the budget of a resumed turn

The counters of a resumed run come from its history, so they already include the turn it is in
and the model call it was interrupted in.  The boundary checks of the loop count that turn and
that call again: a run that is interrupted in its last permitted turn, or in its last permitted
model call, is refused when it is resumed (`resumption_continues_iff`).
-/

namespace Pactmark

open Durable

/-- What `#assertBoundary` throws at the end of a budget. -/
def budgetExhausted (dispatch : BoundaryDispatch) : Thrown :=
  .kaf { code := .KAF_RUNTIME_CAPABILITY_MISSING
         details := { reason := some "budget_exhausted"
                      others := [("boundary", dispatch.text)] } }

variable {K : Config} {allow : (q : Query) → Answer q → Prop} {fault : Thrown → Prop}
  {S : Session} {l l₁ : LoopState} {s s₁ : Store}

/-! ### The boundary checks -/

/-- The usage at a boundary at a reading of the clock. -/
def usageAt (S : Session) (l : LoopState) (milliseconds : Nat) : Usage where
  turns := l.turns
  modelCalls := l.modelCalls
  toolCalls := l.toolCalls
  activeExecutionMs :=
    persistedActiveExecutionMs S.history + (milliseconds - S.invocationStartedAt)

/-- The host may leave the signal alone, and its clock may stand before the deadline. -/
structure Attends (allow : (q : Query) → Answer q → Prop) (workOrder : WorkOrder) : Prop where
  aborted : allow .aborted false
  clock : ∃ milliseconds : Nat, allow .monotonicMilliseconds milliseconds
  deadline : ∀ deadline, workOrder.deadline = some deadline →
    ∃ now : Instant, now < deadline ∧ allow .now now

theorem solo_deadlineElapsed {deadline : Option Instant} :
    (deadlineElapsed deadline).solo allow fault (fun _ => True) (fun _ _ => True)
      (fun _ _ => False) s := by
  cases deadline with
  | none => trivial
  | some deadline => exact fun _ _ => trivial

theorem solo_assertBoundary {wo : WorkOrder} {d : BoundaryDispatch} {u : Usage} :
    (assertBoundary wo d u).solo allow fault (fun _ => True) (fun _ _ => True)
      (fun e _ => e = budgetExhausted d → u.exhausted d wo.budget = true) s := by
  unfold assertBoundary
  refine Prog.solo_bind (solo_consult fun aborted _ => ?_)
  refine Prog.solo_bind (Prog.solo_throwIf (fun _ => ?_) fun _ h => ?_)
  · refine Prog.solo_bind (solo_deadlineElapsed.mono (fun elapsed s₁ _ => ?_) fun _ _ => False.elim)
    refine Prog.solo_bind (Prog.solo_throwIf (fun _ => ?_) fun _ h => ?_)
    · exact Prog.solo_throwIf (fun _ => trivial) fun h _ => h
    · simp [kafReason, budgetExhausted] at h
  · cases h

/-- A boundary check throws `budget_exhausted` only at the end of a budget. -/
theorem solo_assertLoopBoundary {d : BoundaryDispatch} :
    (assertLoopBoundary S l d).solo allow fault (fun _ => True) (fun _ _ => True)
      (fun e _ => e = budgetExhausted d → ∃ milliseconds : Nat,
        allow .monotonicMilliseconds milliseconds ∧
          (usageAt S l milliseconds).exhausted d S.workOrder.budget = true) s := by
  unfold assertLoopBoundary boundaryUsage
  refine Prog.solo_bind (Prog.solo_bind (solo_consult fun milliseconds hclock => ?_))
  exact solo_assertBoundary.mono (fun _ _ => id) fun e _ h he => ⟨milliseconds, hclock, h he⟩

/-- At the end of a budget a host that attends lets the boundary check throw it. -/
theorem ran_assertLoopBoundary {d : BoundaryDispatch} {milliseconds : Nat}
    (h : Attends allow S.workOrder) (hclock : allow .monotonicMilliseconds milliseconds)
    (hx : (usageAt S l milliseconds).exhausted d S.workOrder.budget = true) :
    (assertLoopBoundary S l d).Ran allow fault s s (some (.error (budgetExhausted d))) := by
  have checked : (Prog.throwIf ((usageAt S l milliseconds).exhausted d S.workOrder.budget = true)
      (budgetExhausted d) : Runtime Unit).Ran allow fault s s
        (some (.error (budgetExhausted d))) := by
    rw [Prog.throwIf, if_pos hx]
    exact .throw _ s
  refine .ask milliseconds hclock (.ask false h.aborted ?_)
  cases hd : S.workOrder.deadline with
  | none => exact checked
  | some deadline =>
      obtain ⟨now, hlt, hnow⟩ := h.deadline deadline hd
      refine .ask now hnow ?_
      have hnot : decide (deadline ≤ now) = false := decide_eq_false (Nat.not_le.mpr hlt)
      change ((Prog.throwIf (decide (deadline ≤ now) = true) _).bind fun _ => _).Ran allow fault s s _
      rw [hnot]
      exact checked

/-! ### Up to the boundary checks of a pass -/

/-- The checkpoint a pass makes its boundary checks with: the one it began with, unless that
waited for an input or for a retry. -/
structure Prepares (l l₁ : LoopState) : Prop where
  turns : l₁.turns = l.turns
  modelCalls : l₁.modelCalls = l.modelCalls
  checkpoint : ∀ k, l.checkpoint = some k → l₁.checkpoint = some k ∧ k.phase ≠ .input ∧
      k.phase ≠ .scheduled_backoff ∨
    (k.phase = .input ∨ k.phase = .scheduled_backoff) ∧
      ∃ k₁, l₁.checkpoint = some k₁ ∧ (k₁.phase = .model ∨ k₁.phase = .tool)

theorem solo_inputPhase :
    (inputPhase K S l).solo allow fault (fun _ => True)
      (fun l' _ => l'.turns = l.turns ∧ l'.modelCalls = l.modelCalls ∧ ∀ k, l.checkpoint = some k →
        l'.checkpoint = some k ∧ k.phase ≠ .input ∨
          k.phase = .input ∧ ∃ k', l'.checkpoint = some k' ∧ k'.phase = .model)
      (fun _ _ => True) s := by
  unfold inputPhase
  split
  · rename_i k hk
    split
    · rename_i hp
      refine solo_calm_bind (fun _ _ => trivial) (fun input s₁ _ => ?_) fun _ _ _ => trivial
      refine Prog.solo_pure ⟨rfl, rfl, fun k' hk' => ?_⟩
      rw [hk] at hk'
      cases hk'
      exact .inr ⟨hp, _, rfl, rfl⟩
    · rename_i hp
      refine Prog.solo_pure ⟨rfl, rfl, fun k' hk' => ?_⟩
      rw [hk] at hk'
      cases hk'
      exact .inl ⟨hk, hp⟩
  · rename_i hk
    refine Prog.solo_pure ⟨rfl, rfl, fun k' hk' => ?_⟩
    rw [hk] at hk'
    cases hk'

theorem solo_backoffPhase :
    (backoffPhase K S l).solo allow fault (fun _ => True)
      (fun l' _ => l'.turns = l.turns ∧ l'.modelCalls = l.modelCalls ∧ ∀ k, l.checkpoint = some k →
        l'.checkpoint = some k ∧ k.phase ≠ .scheduled_backoff ∨
          k.phase = .scheduled_backoff ∧
            ∃ k', l'.checkpoint = some k' ∧ (k'.phase = .model ∨ k'.phase = .tool))
      (fun _ _ => True) s := by
  unfold backoffPhase
  split
  · rename_i k hk
    split
    · rename_i hp
      split
      · rename_i step boundary next notBefore target _ _ _ _ _
        refine solo_calm_bind (fun _ _ => trivial) (fun _ s₁ _ => ?_) fun _ _ _ => trivial
        refine solo_calm_bind (fun _ _ => trivial) (fun _ s₂ _ => ?_) fun _ _ _ => trivial
        refine Prog.solo_bind ((solo_trivial _ s₂).mono (fun p s₃ _ => ?_) fun _ _ => id)
        refine Prog.solo_pure ⟨rfl, rfl, fun k' hk' => ?_⟩
        rw [hk] at hk'
        cases hk'
        refine .inr ⟨hp, _, rfl, ?_⟩
        cases target with
        | model => exact .inl rfl
        | tool => exact .inr rfl
      · exact Prog.solo_throw trivial
    · rename_i hp
      refine Prog.solo_pure ⟨rfl, rfl, fun k' hk' => ?_⟩
      rw [hk] at hk'
      cases hk'
      exact .inl ⟨hk, hp⟩
  · rename_i hk
    refine Prog.solo_pure ⟨rfl, rfl, fun k' hk' => ?_⟩
    rw [hk] at hk'
    cases hk'

theorem inPhase_unique {k : Checkpoint} {phase : CheckpointPhase} (hk : l.checkpoint = some k) :
    l.inPhase phase = true ↔ k.phase = phase := by
  simp [LoopState.inPhase, hk]

/-- A pass comes to its boundary checks with the counters it began with. -/
theorem Prepares.of_ran (h : ((inputPhase K S l).bind (backoffPhase K S)).Ran allow fault s s₁
    (some (.ok l₁))) : Prepares l l₁ := by
  have hsolo : ((inputPhase K S l).bind (backoffPhase K S)).solo allow fault (fun _ => True)
      (fun l' _ => Prepares l l') (fun _ _ => True) s := by
    refine Prog.solo_bind (solo_inputPhase.mono (fun l₂ s₂ h₂ => ?_) fun _ _ => id)
    refine solo_backoffPhase.mono (fun l₃ s₃ h₃ => ?_) fun _ _ => id
    refine ⟨h₃.1.trans h₂.1, h₃.2.1.trans h₂.2.1, fun k hk => ?_⟩
    rcases h₂.2.2 k hk with ⟨hk₂, hne⟩ | ⟨hp, k₂, hk₂, hphase⟩
    · rcases h₃.2.2 k hk₂ with ⟨hk₃, hne'⟩ | ⟨hp, hin⟩
      · exact .inl ⟨hk₃, hne, hne'⟩
      · exact .inr ⟨.inr hp, hin⟩
    · rcases h₃.2.2 k₂ hk₂ with ⟨hk₃, -⟩ | ⟨hp', -⟩
      · exact .inr ⟨.inl hp, k₂, hk₃, .inl hphase⟩
      · rw [hphase] at hp'
        cases hp'
  exact (hsolo.ran h trivial).2.1 l₁ rfl

/-! ### A resumed turn -/

/-- No boundary check refuses the turn a pass goes on with, nor the model call it goes on with
when an earlier invocation has started that call. -/
structure Continues (allow : (q : Query) → Answer q → Prop) (fault : Thrown → Prop)
    (S : Session) (l : LoopState) (s : Store) : Prop where
  turn : l.finalCheckpoint = none → ∀ s' e,
    (assertLoopBoundary S l .turn).Ran allow fault s s' (some (.error e)) →
      e ≠ budgetExhausted .turn
  model : l.inPhase .model_inflight = true → ∀ s' e,
    (assertLoopBoundary S l .model).Ran allow fault s s' (some (.error e)) →
      e ≠ budgetExhausted .model

/-- Whenever the clock is read, the run has active execution time left. -/
def TimeLeft (allow : (q : Query) → Answer q → Prop) (S : Session) : Prop :=
  ∀ milliseconds : Nat, allow .monotonicMilliseconds milliseconds →
    persistedActiveExecutionMs S.history + (milliseconds - S.invocationStartedAt) <
      S.workOrder.budget.maxActiveExecutionMs

theorem never_refused_iff {d : BoundaryDispatch} (h : Attends allow S.workOrder) :
    (∀ s' e, (assertLoopBoundary S l d).Ran allow fault s s' (some (.error e)) →
      e ≠ budgetExhausted d) ↔
    ∀ milliseconds : Nat, allow .monotonicMilliseconds milliseconds →
      (usageAt S l milliseconds).exhausted d S.workOrder.budget = false := by
  constructor
  · intro hnot milliseconds hclock
    by_contra hx
    exact hnot s _ (ran_assertLoopBoundary h hclock (by simpa using hx)) rfl
  · rintro hclock s' e hran rfl
    obtain ⟨milliseconds, hm, hx⟩ := (solo_assertLoopBoundary.ran hran trivial).2.2 _ rfl rfl
    rw [hclock milliseconds hm] at hx
    cases hx

theorem unexhausted_iff {d : BoundaryDispatch} {used limit : Nat} (h : Attends allow S.workOrder)
    (hd : ∀ milliseconds, (usageAt S l milliseconds).exhausted d S.workOrder.budget = false ↔
      used < limit ∧ (usageAt S l milliseconds).activeExecutionMs <
        S.workOrder.budget.maxActiveExecutionMs) :
    (∀ milliseconds : Nat, allow .monotonicMilliseconds milliseconds →
      (usageAt S l milliseconds).exhausted d S.workOrder.budget = false) ↔
    TimeLeft allow S ∧ used < limit := by
  obtain ⟨m₀, hm₀⟩ := h.clock
  constructor
  · intro hx
    exact ⟨fun m hm => ((hd m).mp (hx m hm)).2, ((hd m₀).mp (hx m₀ hm₀)).1⟩
  · rintro ⟨htime, hlt⟩ m hm
    exact (hd m).mpr ⟨hlt, htime m hm⟩

/-- **A resumed turn goes on exactly when it was not the last one.**  `execute` resumes a run
from a checkpoint, and its loop comes to the boundary checks of its first pass.  They let it go
on exactly when it only has to be finalized, or when time is left, the stream has fewer turns
than the work order permits, and, if a model call was interrupted, fewer model calls. -/
theorem resumption_continues_iff {runId : String} {s₀ : Store} {k : Checkpoint}
    (hrun : (execute K runId).Ran allow fault s₀ s (some (.ok (.entered S l))))
    (hk : l.checkpoint = some k)
    (hpass : ((inputPhase K S l).bind (backoffPhase K S)).Ran allow fault s s₁ (some (.ok l₁)))
    (host : Attends allow s₀.workOrder) :
    Continues allow fault S l₁ s₁ ↔
      k.phase = .final ∨ k.phase = .verification ∨
        (TimeLeft allow S ∧
          countEvents s₀.truth.events .PlanningStarted < s₀.workOrder.budget.maxTurns ∧
          (k.phase = .model_inflight →
            countEvents s₀.truth.events .ModelCallStarted < s₀.workOrder.budget.maxModelCalls)) := by
  have hl := ((solo_execute.ran hrun trivial).2.1 _ rfl S l rfl).2
  have hs := Prepares.of_ran hpass
  rw [← hl.turns, ← hl.modelCalls, ← hs.turns, ← hs.modelCalls, ← hl.workOrder]
  rw [← hl.workOrder] at host
  have hfinal : l₁.finalCheckpoint = none ↔ ¬ (k.phase = .final ∨ k.phase = .verification) := by
    rcases hs.checkpoint k hk with ⟨hk₁, -, -⟩ | ⟨hp, k₁, hk₁, hp₁⟩
    · simp [LoopState.finalCheckpoint, hk₁, Option.filter_eq_none_iff]
    · have hk₁' : l₁.finalCheckpoint = none := by
        rcases hp₁ with hp₁ | hp₁ <;> simp [LoopState.finalCheckpoint, hk₁, hp₁]
      rcases hp with hp | hp <;> simp [hk₁', hp]
  have hinflight : l₁.inPhase .model_inflight = true ↔ k.phase = .model_inflight := by
    rcases hs.checkpoint k hk with ⟨hk₁, -, -⟩ | ⟨hp, k₁, hk₁, hp₁⟩
    · exact inPhase_unique hk₁
    · rw [inPhase_unique hk₁]
      rcases hp₁ with hp₁ | hp₁ <;> rcases hp with hp | hp <;> simp [hp₁, hp]
  have hturn : (∀ s' e, (assertLoopBoundary S l₁ .turn).Ran allow fault s₁ s' (some (.error e)) →
      e ≠ budgetExhausted .turn) ↔ TimeLeft allow S ∧ l₁.turns < S.workOrder.budget.maxTurns :=
    (never_refused_iff host).trans (unexhausted_iff host fun _ => by
      simp [Usage.exhausted, usageAt])
  have hmodel : (∀ s' e, (assertLoopBoundary S l₁ .model).Ran allow fault s₁ s'
      (some (.error e)) → e ≠ budgetExhausted .model) ↔
      TimeLeft allow S ∧ l₁.modelCalls < S.workOrder.budget.maxModelCalls :=
    (never_refused_iff host).trans (unexhausted_iff host fun _ => by
      simp [Usage.exhausted, usageAt])
  constructor
  · intro h
    by_cases hf : k.phase = .final ∨ k.phase = .verification
    · exact hf.elim .inl (fun hv => .inr (.inl hv))
    · obtain ⟨htime, hlt⟩ := hturn.mp (h.turn (hfinal.mpr hf))
      exact .inr (.inr ⟨htime, hlt, fun hp => (hmodel.mp (h.model (hinflight.mpr hp))).2⟩)
  · intro h
    refine ⟨fun hf => hturn.mpr ?_, fun hp => hmodel.mpr ?_⟩
    · rcases h with hp | hp | ⟨htime, hlt, -⟩
      · exact absurd (.inl hp) (hfinal.mp hf)
      · exact absurd (.inr hp) (hfinal.mp hf)
      · exact ⟨htime, hlt⟩
    · have hp := hinflight.mp hp
      rcases h with hp' | hp' | ⟨htime, -, hlt⟩
      · rw [hp] at hp'
        cases hp'
      · rw [hp] at hp'
        cases hp'
      · exact ⟨htime, hlt hp⟩

section Samples

set_option maxRecDepth 10000

/-- The host of a run that is resumed attends to it. -/
theorem attends_host (budget : WorkBudget) :
    Attends ({} : Host).Answers (Host.store budget).workOrder :=
  ⟨rfl, ⟨0, rfl⟩, nofun⟩

/-- The phase `execute` enters its loop in, the time its session has, and the time it has used. -/
def Host.entered (s : Store) : Option (Option CheckpointPhase × Nat × Nat) :=
  match ((execute config "run").eval ({} : Host).answers s).1 with
  | .ok (.entered S l) =>
      some (l.checkpoint.map (·.phase), S.workOrder.budget.maxActiveExecutionMs,
        persistedActiveExecutionMs S.history)
  | _ => none

/-- With a second turn permitted, a run interrupted in its first one goes on. -/
theorem resumption_continues_interrupted :
    ∃ (S : Session) (l : LoopState) (s : Store),
      (execute Host.config "run").eval ({} : Host).answers
        (Host.interrupted ⟨2, 2, 0, 1000, none, none, none, none, none, none, none⟩) =
          (.ok (.entered S l), s) ∧
      l.inPhase .model_inflight = true ∧
      Continues ({} : Host).Answers (fun _ => False) S l s := by
  generalize hs₀ : Host.interrupted ⟨2, 2, 0, 1000, none, none, none, none, none, none, none⟩ = s₀
  have hran : (execute Host.config "run").Ran ({} : Host).Answers
      (fun _ => False) s₀ _ _ := Prog.ran_eval ({} : Host).answers_self _ s₀
  have hentered : Host.entered s₀ = some (some .model_inflight, 1000, 0) := by
    subst hs₀
    rfl
  have hcounts : s₀.workOrder = (Host.store ⟨2, 2, 0, 1000, none, none, none, none, none, none,
        none⟩).workOrder ∧ countEvents s₀.truth.events .PlanningStarted = 1 ∧
      countEvents s₀.truth.events .ModelCallStarted = 1 := by
    subst hs₀
    exact ⟨rfl, rfl, rfl⟩
  simp only [Host.entered] at hentered
  split at hentered
  · rename_i S l hok
    simp only [Option.some.injEq, Prod.mk.injEq, Option.map_eq_some_iff] at hentered
    obtain ⟨⟨k, hk, hphase⟩, hmax, hused⟩ := hentered
    rw [hok] at hran
    refine ⟨S, l, _, Prod.ext hok rfl, (inPhase_unique hk).mpr hphase, ?_⟩
    have hpass : ((inputPhase Host.config S l).bind (backoffPhase Host.config S)).Ran
        ({} : Host).Answers (fun _ => False)
        ((execute Host.config "run").eval ({} : Host).answers s₀).2
        ((execute Host.config "run").eval ({} : Host).answers s₀).2 (some (.ok l)) := by
      have hinput : inputPhase Host.config S l = .pure l := by simp [inputPhase, hk, hphase]
      have hbackoff : backoffPhase Host.config S l = .pure l := by simp [backoffPhase, hk, hphase]
      rw [hinput, Prog.bind, hbackoff]
      exact .pure l _
    refine (resumption_continues_iff hran hk hpass (hcounts.1 ▸ attends_host _)).mpr
      (.inr (.inr ⟨?_, ?_, fun _ => ?_⟩))
    · rintro milliseconds rfl
      rw [hused, hmax]
      change 0 + (0 - S.invocationStartedAt) < 1000
      omega
    · rw [hcounts.2.1, hcounts.1]
      decide
    · rw [hcounts.2.2, hcounts.1]
      decide
  · cases hentered

/-- Resumed in its last permitted turn, a run fails for want of another one: the stream keeps
to its budget, its model call is under way, and the next `execute` ends it. -/
theorem resumption_refused_in_last_turn :
    let budget : WorkBudget := ⟨1, 2, 0, 1000, none, none, none, none, none, none, none⟩
    let s := Host.interrupted budget
    s.truth.events.map (·.eventType) = [.RunAccepted, .PlanningStarted, .ModelCallStarted] ∧
      (({} : Host).executes Host.config 1 s).truth.events.map (·.payload) =
        s.truth.events.map (·.payload) ++
          [.RunFailed (some "step-1") .KAF_RUNTIME_CAPABILITY_MISSING
            { reason := some "budget_exhausted", others := [("boundary", "turn")] }] :=
  ⟨rfl, rfl⟩

end Samples

end Pactmark
