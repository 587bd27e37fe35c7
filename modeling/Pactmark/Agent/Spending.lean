import Pactmark.Agent.Budget
import Pactmark.Agent.Calls

/-!
# Agent — a pass of the loop within the budgets

Every part of a pass keeps the budgets of the run and hands the loop on with counters that cover
the stream (`solo_executeTurn`).  A check of the loop comes before each budgeted event, against
a counter that is at least the count; what a part of a pass then adds to the stream it adds to
the counter, or the checkpoint it goes on with does.

From this, by induction over the steps of its service, no run exceeds its budgets as long as no
execution takes up a production call that is still accepted (`served_within_budget`).
-/

namespace Pactmark

open Durable

variable {K : Config} {tools : Digest → Option ToolRegistration} {wo : WorkOrder}
  {allow : (q : Query) → Answer q → Prop} {fault : Thrown → Prop} {s s' : Store}

/-! ### The checks -/

/-- A check of the loop that passes has found its counter below the budget. -/
theorem solo_boundaryPassed {S : Session} {l : LoopState} {d : BoundaryDispatch}
    {I : Store → Prop} {E : Thrown → Store → Prop} (hE : ∀ e, E e s) :
    (assertLoopBoundary S l d).solo allow fault I
      (fun _ s' => s' = s ∧
        (d = .turn → l.turns < S.workOrder.budget.maxTurns) ∧
        (d = .model → l.modelCalls < S.workOrder.budget.maxModelCalls) ∧
        (d = .tool → l.toolCalls < S.workOrder.budget.maxToolCalls)) E s := by
  unfold assertLoopBoundary boundaryUsage assertBoundary
  refine Prog.solo_bind (Prog.solo_bind (solo_consult fun milliseconds _ => ?_))
  refine solo_still_bind (fun aborted => solo_still_bind (fun _ => ?_) hE) hE
  refine solo_still_bind (fun elapsed => solo_still_bind (fun _ => ?_) hE) hE
  refine Prog.solo_throwIf (fun hex => ⟨rfl, ?_⟩) fun _ => hE _
  simp only [Usage.exhausted, decide_eq_true_eq, not_or, not_and] at hex
  exact ⟨fun h => Nat.lt_of_not_le (hex.1 h), fun h => Nat.lt_of_not_le (hex.2.1 h),
    fun h => Nat.lt_of_not_le (hex.2.2.1 h)⟩

/-! ### Starting a model call -/

/-- The call may be made: its attempt is above the calls that were made, or its reservation
keeps it from starting. -/
structure Callable (K : Config) (s : Store) (stepId : String) (attempt : Nat)
    (started : Bool) : Prop where
  le : countEvents s.truth.events .ModelCallStarted ≤ attempt
  fresh : started = false → attempt ≤ countEvents s.truth.events .ModelCallStarted →
    K.productionModelServices = true ∧ s.Spent stepId attempt
  resumed : started = true → K.productionModelServices = true → s.Spent stepId attempt

/-- What a model call comes to: one more, unless it had started before. -/
structure Called (K : Config) (tools : Digest → Option ToolRegistration) (wo : WorkOrder)
    (s : Store) (attempt : Nat) (started : Bool) (s' : Store) : Prop where
  kept : Kept K tools wo s'
  turns : countEvents s'.truth.events .PlanningStarted ≤
    countEvents s.truth.events .PlanningStarted
  toolCalls : countEvents s'.truth.events .ToolCallRequested ≤
    countEvents s.truth.events .ToolCallRequested
  perTool : ∀ d, toolCallCount s'.truth.events d ≤ toolCallCount s.truth.events d
  attempt : countEvents s'.truth.events .ModelCallStarted ≤ attempt
  again : started = true → countEvents s'.truth.events .ModelCallStarted ≤
    countEvents s.truth.events .ModelCallStarted
  calls : countEvents s'.truth.events .ModelCallStarted ≤
    countEvents s.truth.events .ModelCallStarted + 1

section Called

variable {attempt : Nat} {started : Bool}

theorem Called.noMore {s₁ s₂ : Store} (h : Called K tools wo s attempt started s₁)
    (hk : Kept K tools wo s₂) (hs : NoMore s₁ s₂) : Called K tools wo s attempt started s₂ where
  kept := hk
  turns := Nat.le_trans hs.turns h.turns
  toolCalls := Nat.le_trans hs.toolCalls h.toolCalls
  perTool d := Nat.le_trans (hs.perTool d) (h.perTool d)
  attempt := Nat.le_trans hs.modelCalls h.attempt
  again hst := Nat.le_trans hs.modelCalls (h.again hst)
  calls := Nat.le_trans hs.modelCalls h.calls

theorem Called.grew {s₁ s₂ : Store} (h : Called K tools wo s attempt started s₁)
    (hs : Grew s₁ s₂) : Called K tools wo s attempt started s₂ :=
  h.noMore (h.kept.grew hs) hs.noMore

theorem Called.of_same {s₁ : Store} (hs : SameRun s s₁)
    (h : Called K tools wo s₁ attempt started s') : Called K tools wo s attempt started s' where
  kept := h.kept
  turns := hs.truth ▸ h.turns
  toolCalls := hs.truth ▸ h.toolCalls
  perTool d := hs.truth ▸ h.perTool d
  attempt := h.attempt
  again hst := hs.truth ▸ h.again hst
  calls := hs.truth ▸ h.calls

theorem Kept.called (h : Kept K tools wo s)
    (hle : countEvents s.truth.events .ModelCallStarted ≤ attempt) :
    Called K tools wo s attempt started s :=
  ⟨h, Nat.le_refl _, Nat.le_refl _, fun _ => Nat.le_refl _, hle, fun _ => Nat.le_refl _,
    Nat.le_succ _⟩

/-- The counters of a loop cover a call that has failed. -/
theorem Called.counts_failed {l : LoopState} {p : RunProjection}
    (h : Called K tools wo s attempt started s') (hl : Counts s l) :
    Counts s' { l with projection := p, modelCalls := max l.modelCalls attempt } where
  turns := Nat.le_trans h.turns hl.turns
  modelCalls := Nat.le_trans h.attempt (Nat.le_max_right ..)
  toolCalls := Nat.le_trans h.toolCalls hl.toolCalls
  byRegistration d := Nat.le_trans (h.perTool d) (hl.byRegistration d)

/-- The counters of a loop cover a call that has returned. -/
theorem Called.counts_returned {l : LoopState}
    (h : Called K tools wo s attempt started s') (hl : Counts s l) :
    Counts s' { l with modelCalls := if started then l.modelCalls else l.modelCalls + 1 } where
  turns := Nat.le_trans h.turns hl.turns
  modelCalls := by
    cases hst : started with
    | true => exact Nat.le_trans (h.again hst) hl.modelCalls
    | false => exact Nat.le_trans h.calls (Nat.succ_le_succ hl.modelCalls)
  toolCalls := Nat.le_trans h.toolCalls hl.toolCalls
  byRegistration d := Nat.le_trans (h.perTool d) (hl.byRegistration d)

end Called

variable {i : ModelCallInput}

/-- `ModelCallStarted` of a call that has not started before. -/
theorem solo_startModelCall {reservationId : String} {digest : Digest} {commit : Tx}
    (hb : commit.Beside) (h : Kept K tools wo s) (hstarted : i.started = false)
    (hmax : countEvents s.truth.events .ModelCallStarted < wo.budget.maxModelCalls)
    (hle : countEvents s.truth.events .ModelCallStarted ≤ i.attempt)
    (hlt : ∀ s₁, commit.run s = .ok s₁ →
      countEvents s.truth.events .ModelCallStarted < i.attempt) :
    (append K i.workOrder i.projection i.lease
      (.ModelCallStarted i.stepId reservationId digest) none commit (some i.inflight)).solo
      allow fault (Kept K tools wo)
      (fun _ => Called K tools wo s i.attempt i.started)
      (fun _ => Called K tools wo s i.attempt i.started) s := by
  refine solo_append hb (fun _ s₂ s₁ h₁ _ hadds _ => ?_) fun _ => h.called hle
  have hturns := hadds.count_le .PlanningStarted
  have hmodel := hadds.count_le .ModelCallStarted
  have htool := hadds.count_le .ToolCallRequested
  have hper := hadds.toolCallCount_le
  simp only [EventPayload.eventType, reduceCtorEq, if_true, if_false, Nat.add_zero]
    at hturns hmodel htool
  have hattempt := hlt s₁ h₁
  have hkept : Kept K tools wo s₂ := by
    refine h.adds hadds ⟨?_, ?_, ?_, fun d r hr => ?_⟩ fun k hk => ?_
    · exact Nat.le_trans hturns h.budget.turns
    · omega
    · exact Nat.le_trans htool h.budget.toolCalls
    · exact Nat.le_trans (hper d) (h.budget.perTool d r hr)
    · cases hk
      exact ⟨i.attempt, rfl, by omega⟩
  refine ⟨hkept, hkept, hturns, htool, hper, by omega, fun hst => ?_, hmodel⟩
  rw [hstarted] at hst
  cases hst

/-! ### The reservation of a production call -/

theorem returns_prepareProductionCall (i : ModelCallInput) :
    (prepareProductionCall K i).Returns fun c =>
      c.identity.stepId = i.stepId ∧ c.identity.attempt = i.attempt := by
  unfold prepareProductionCall
  refine (Prog.returns_true _).bind fun security _ => (Prog.returns_true _).bind fun resource _ => ?_
  refine (Prog.returns_true _).bind fun registration _ => ?_
  split
  · refine (Prog.returns_true _).bind fun _ _ => (Prog.returns_true _).bind fun _ _ => ?_
    refine (Prog.returns_true _).bind fun bound _ => (Prog.returns_true _).bind fun now _ => ?_
    exact (Prog.returns_true _).bind fun _ _ => ⟨rfl, rfl⟩
  · trivial

/-- A reservation that has left its first status is not accepted again. -/
theorem Store.Spent.refuses {next : ModelCallReservation} (h : s.Spent next.stepId next.attempt)
    (hnext : next.status = .accepted) {s₁ : Store} :
    (putModelCallReservation next).run s ≠ .ok s₁ := by
  obtain ⟨r, hr, hstatus⟩ := h
  intro hrun
  simp only [putModelCallReservation, Transaction.choose_run, hr] at hrun
  split at hrun
  · rename_i heq
    exact hstatus (heq ▸ hnext)
  · split at hrun
    · cases hrun
    · have hallowed : r.status.allowed next.status = false := by
        rw [hnext]
        cases r.status <;> rfl
      rw [if_pos (by simp [hallowed])] at hrun
      cases hrun

/-! ### A model call -/

instance (c : ProductionCall) : Calm (authorizeProductionCall c) := by
  unfold authorizeProductionCall
  refine calm_bind inferInstance fun issued => ?_
  cases issued <;> infer_instance

instance (lease : RunLease) (c : ProductionCall) : Calm (driveAdapter lease c) := by
  unfold driveAdapter
  infer_instance

instance (e : Thrown) : Calm (adapterRetryClassification e) := by
  unfold adapterRetryClassification
  infer_instance

instance {α : Type} (lease : RunLease) (c : ProductionCall) (e : Thrown) :
    Calm (adapterFailed lease c e : Runtime α) := by
  unfold adapterFailed
  infer_instance

instance (run : RunProjection) (input : JsonValue) : Calm (driveModel run input) := by
  unfold driveModel
  infer_instance

section Calls

/-- The rest of a call that leaves the budgets alone. -/
theorem Called.within {α : Type} (p : Runtime α) [hp : Within p] {attempt : Nat}
    {started : Bool} {s₁ : Store} (h : Called K tools wo s attempt started s₁) :
    p.solo allow fault (Kept K tools wo) (fun _ => Called K tools wo s attempt started)
      (fun _ => Called K tools wo s attempt started) s₁ :=
  (solo_within p h.kept).mono (fun _ _ => h.grew) fun _ _ => h.grew

theorem solo_startLocalModelCall {reservationId : String} (h : Kept K tools wo s)
    (hK : K.productionModelServices = false)
    (hc : Callable K s i.stepId i.attempt i.started)
    (hmax : countEvents s.truth.events .ModelCallStarted < wo.budget.maxModelCalls) :
    (startLocalModelCall K i reservationId).solo allow fault (Kept K tools wo)
      (fun _ => Called K tools wo s i.attempt i.started)
      (fun _ => Called K tools wo s i.attempt i.started) s := by
  unfold startLocalModelCall
  split
  · exact Prog.solo_pure (h.called hc.le)
  · rename_i hstarted
    have hstarted : i.started = false := by simpa using hstarted
    refine solo_startModelCall (Tx.Aside.beside skip_aside) h hstarted hmax hc.le fun _ _ => ?_
    rcases Nat.lt_or_ge (countEvents s.truth.events .ModelCallStarted) i.attempt with hlt | hge
    · exact hlt
    · rw [(hc.fresh hstarted hge).1] at hK
      cases hK

theorem solo_invokeLocalModelCall (h : Kept K tools wo s)
    (hK : K.productionModelServices = false)
    (hc : Callable K s i.stepId i.attempt i.started)
    (hmax : countEvents s.truth.events .ModelCallStarted < wo.budget.maxModelCalls) :
    (invokeLocalModelCall K i).solo allow fault (Kept K tools wo)
      (fun _ => Called K tools wo s i.attempt i.started)
      (fun _ => Called K tools wo s i.attempt i.started) s := by
  unfold invokeLocalModelCall
  refine Prog.solo_bind (Prog.solo_throwIf (fun _ => ?_) fun _ => h.called hc.le)
  refine Prog.solo_bind ((solo_startLocalModelCall h hK hc hmax).mono (fun p s₁ h₁ => ?_)
    fun _ _ => id)
  exact Prog.solo_bind ((h₁.within _).mono (fun next s₂ h₂ => Prog.solo_pure h₂) fun _ _ => id)

/-- The checkpoint of a completed production call permits what it leads to. -/
theorem permits_completed {events : List RunEvent} (hK : K.productionModelServices = true)
    (hle : countEvents events .ModelCallStarted ≤ i.attempt) (next : Option ModelEmission) :
    Permits K tools wo events (i.completed next) := by
  cases next with
  | none =>
      intro a ha
      cases ha
      exact ⟨hle, fun hK' => by rw [hK] at hK'; cases hK'⟩
  | some next => exact permits_of_uncounted rfl

theorem solo_completeProductionCall {c : ProductionCall} {p : RunProjection}
    {next : Option ModelEmission} {s₁ : Store} (hK : K.productionModelServices = true)
    (h : Called K tools wo s i.attempt i.started s₁) :
    (completeProductionCall K i c p next).solo allow fault (Kept K tools wo)
      (fun _ => Called K tools wo s i.attempt i.started)
      (fun _ => Called K tools wo s i.attempt i.started) s₁ := by
  unfold completeProductionCall
  have hlimit : Within (next.elim (.pure ()) fun n =>
      assertJsonByteLimit n.toJson (some c.identity.outputBytesMaximum)
        "model_output_per_call") := by
    cases next <;> simp only [Option.elim] <;> infer_instance
  refine Prog.solo_bind ((h.within _).mono (fun _ s₂ h₂ => ?_) fun _ _ => id)
  refine Prog.solo_bind (solo_consult fun settlement _ => ?_)
  refine Prog.solo_bind ((solo_append_permits rfl (Tx.Aside.beside
    (putModelCallReservation_aside _)) h₂.kept fun k hk s₃ hs => ?_).mono
    (fun _ s₃ h₃ => Prog.solo_pure (h₂.noMore h₃.1 h₃.2)) fun _ s₃ h₃ => h₃ ▸ h₂)
  cases hk
  exact permits_completed hK (Nat.le_trans hs.modelCalls h₂.attempt) next

theorem solo_invokeProductionModelCall_called (h : Kept K tools wo s)
    (hK : K.productionModelServices = true) (hstarted : i.started = false)
    (hc : Callable K s i.stepId i.attempt i.started)
    (hmax : countEvents s.truth.events .ModelCallStarted < wo.budget.maxModelCalls) :
    (invokeProductionModelCall K i).solo allow fault (Kept K tools wo)
      (fun _ => Called K tools wo s i.attempt i.started)
      (fun _ => Called K tools wo s i.attempt i.started) s := by
  have hstill : Called K tools wo s i.attempt i.started s := h.called hc.le
  unfold invokeProductionModelCall
  refine Prog.solo_bind ((solo_prepareProductionCall.returns
    (returns_prepareProductionCall i)).mono (fun c s₁ h₁ => ?_) fun _ s₁ h₁ => h₁ ▸ hstill)
  obtain ⟨rfl, hstep, hattempt⟩ := h₁
  refine Prog.solo_bind ((solo_startModelCall
    (Tx.Aside.beside (putModelCallReservation_aside _)) h hstarted hmax hc.le
    fun s₂ h₂ => ?_).mono (fun p s₂ h₂ => ?_) fun _ _ => id)
  · -- a counted call is refused by its reservation
    rcases Nat.lt_or_ge (countEvents s₁.truth.events .ModelCallStarted) i.attempt with hlt | hge
    · exact hlt
    · have hspent := (hc.fresh hstarted hge).2
      rw [← hstep, ← hattempt] at hspent
      have hrefused : (putModelCallReservation (c.identity.withStatus .accepted)).run s₁ ≠ .ok s₂ :=
        Store.Spent.refuses hspent rfl
      exact absurd h₂ hrefused
  · refine Prog.solo_bind ((h₂.within _).mono (fun _ s₃ h₃ => ?_) fun _ _ => id)
    refine Prog.solo_bind ((h₃.within _).mono (fun _ s₄ h₄ => ?_) fun _ _ => id)
    refine Prog.solo_bind ((h₄.within _).mono (fun next s₅ h₅ => ?_) fun _ _ => id)
    exact solo_completeProductionCall hK h₅

theorem solo_invokeModelCall_called (h : Kept K tools wo s)
    (hc : Callable K s i.stepId i.attempt i.started)
    (hlocal : i.started = true → K.productionModelServices = false)
    (hmax : countEvents s.truth.events .ModelCallStarted < wo.budget.maxModelCalls) :
    (invokeModelCall K i).solo allow fault (Kept K tools wo)
      (fun _ => Called K tools wo s i.attempt i.started)
      (fun _ => Called K tools wo s i.attempt i.started) s := by
  have hstill : Called K tools wo s i.attempt i.started s := h.called hc.le
  unfold invokeModelCall
  refine Prog.solo_bind (solo_consult fun _ _ => ?_)
  refine Prog.solo_bind (solo_consult fun _ _ => ?_)
  refine Prog.solo_bind (solo_consult fun _ _ => ?_)
  refine Prog.solo_bind (Prog.solo_throwIf (fun _ => ?_) fun _ => hstill)
  refine Prog.solo_bind (solo_assertJsonByteLimit ?_ fun _ => hstill)
  split
  · rename_i hK
    have hstarted : i.started = false := by
      by_contra hst
      rw [hlocal (by simpa using hst)] at hK
      cases hK
    exact Prog.solo_bind (Prog.solo_throwIf
      (fun _ => solo_invokeProductionModelCall_called h hK hstarted hc hmax) fun _ => hstill)
  · rename_i hK
    exact solo_invokeLocalModelCall h (by simpa using hK) hc hmax

end Calls

/-! ### The active execution around a call -/

/-- Nothing has changed that a model call reads. -/
structure SameCalls (s s' : Store) : Prop extends SameRun s s' where
  modelCalls : s'.modelCalls = s.modelCalls

theorem SameCalls.refl (s : Store) : SameCalls s s := ⟨.refl s, rfl⟩

theorem Callable.same {stepId : String} {attempt : Nat} {started : Bool} (hs : SameCalls s s')
    (h : Callable K s stepId attempt started) : Callable K s' stepId attempt started := by
  have hspent : s.Spent stepId attempt → s'.Spent stepId attempt := by
    rintro ⟨r, hr, hstatus⟩
    exact ⟨r, by rwa [Store.modelCall, hs.modelCalls], hstatus⟩
  refine ⟨hs.truth ▸ h.le, fun hst hge => ?_, fun hst hK => hspent (h.resumed hst hK)⟩
  obtain ⟨hK, hsp⟩ := h.fresh hst (hs.truth ▸ hge)
  exact ⟨hK, hspent hsp⟩

theorem putActiveExecutionReservation_calls {r : ActiveExecutionReservation} {maximum : Nat}
    {now : Instant} (h : (putActiveExecutionReservation r maximum now).run s = .ok s') :
    SameCalls s s' := by
  refine ⟨⟨putActiveExecutionReservation_aside r maximum now h,
    ((putActiveExecutionReservation r maximum now).grows h).1⟩, ?_⟩
  simp only [putActiveExecutionReservation, Transaction.choose_run] at h
  split at h
  · cases h
  · split at h
    · split at h
      · cases h
      · split at h <;> cases h
        rfl
    · split at h
      · cases h
        rfl
      · split at h
        · cases h
        · split at h
          · unfold Transaction.throwIf at h
            split at h <;> cases h
            rfl
          · split at h <;> cases h <;> rfl

theorem solo_reserveActiveExecution {w : WorkOrder} {runId : String} {lease : RunLease}
    {key : ActiveExecutionKey} {I : Store → Prop} (hI : ∀ s', SameCalls s s' → I s') :
    (reserveActiveExecution K w runId lease key).solo allow fault I
      (fun _ => SameCalls s) (fun _ => SameCalls s) s := by
  unfold reserveActiveExecution transitionActiveExecution renew
  refine Prog.solo_bind (solo_consult fun _ _ => Prog.solo_bind (solo_consult fun configured _ => ?_))
  split
  · exact Prog.solo_throw (.refl s)
  · exact Prog.solo_throw (.refl s)
  · refine Prog.solo_bind (Prog.solo_throwIf (fun _ => ?_) fun _ => .refl s)
    refine Prog.solo_bind (solo_still_bind (fun _ => ?_) fun _ => .refl s)
    refine Prog.solo_bind (solo_consult fun now _ => ?_)
    refine Prog.solo_commit (fun s₁ h₁ => ?_) fun _ => .refl s
    have hs := putActiveExecutionReservation_calls h₁
    exact ⟨hI s₁ hs, Prog.solo_bind (Prog.solo_read (Prog.solo_pure hs))⟩

/-- A call under an active execution starts from the store it would have started from. -/
theorem solo_withActiveExecution {α : Type} {w : WorkOrder} {runId : String} {lease : RunLease}
    {key : ActiveExecutionKey} {callback : Runtime α} {R : Store → Prop}
    (hkept : ∀ s', R s' → Kept K tools wo s') (hR : ∀ s₁ s₂, SameRun s₁ s₂ → R s₁ → R s₂)
    (hs : R s)
    (h : ∀ s₁, SameCalls s s₁ → callback.solo allow fault (Kept K tools wo) (fun _ => R)
      (fun _ => R) s₁) :
    (withActiveExecution K w runId lease key callback).solo allow fault (Kept K tools wo)
      (fun _ => R) (fun _ => R) s := by
  have calm : ∀ {β : Type} (p : Runtime β) [Calm p] (s₁ : Store), R s₁ →
      p.solo allow fault (Kept K tools wo) (fun _ => R) (fun _ => R) s₁ :=
    fun p _ s₁ h₁ => solo_calm p (fun s₂ h₂ => hkept s₂ (hR s₁ s₂ h₂ h₁))
      (fun _ s₂ h₂ => hR s₁ s₂ h₂ h₁) fun _ s₂ h₂ => hR s₁ s₂ h₂ h₁
  have beating : ∀ s₁, SameCalls s s₁ → (withLeaseHeartbeat lease callback).solo allow fault
      (Kept K tools wo) (fun _ => R) (fun _ => R) s₁ :=
    fun s₁ h₁ => Prog.solo_bind (Prog.solo_attempt ((h s₁ h₁).mono
      (fun a s₂ h₂ => calm _ s₂ h₂) fun e s₂ h₂ => calm _ s₂ h₂))
  unfold withActiveExecution
  split
  · refine Prog.solo_bind (Prog.solo_throwIf (fun _ => ?_) fun _ => hs)
    refine Prog.solo_bind (Prog.solo_read ?_)
    split
    · refine Prog.solo_bind ((calm _ s hs).mono (fun _ s₁ h₁ => ?_) fun _ _ => id)
      exact Prog.solo_bind (Prog.solo_throwIf (fun hrepeat => absurd (by simp) hrepeat) fun _ => h₁)
    · refine Prog.solo_bind ((solo_reserveActiveExecution fun s₁ h₁ =>
        hkept s₁ (hR s s₁ h₁.toSameRun hs)).mono (fun r s₁ h₁ => ?_)
        fun _ s₁ h₁ => hR s s₁ h₁.toSameRun hs)
      have settled : ∀ (result : Except Thrown α) s₂, R s₂ →
          ((settleActiveExecution w lease r).bind fun _ => Prog.ofExcept result).solo allow fault
            (Kept K tools wo) (fun _ => R) (fun _ => R) s₂ :=
        fun result s₂ h₂ => Prog.solo_bind ((calm _ s₂ h₂).mono (fun _ s₃ h₃ =>
          Prog.solo_ofExcept (fun _ _ => h₃) fun _ _ => h₃) fun _ _ => id)
      exact Prog.solo_bind (Prog.solo_attempt ((beating s₁ h₁).mono (fun a => settled (.ok a))
        fun e => settled (.error e)))
  · exact beating s (.refl s)

/-! ### Retries of a model call -/

section Retries

variable {S : Session} {l : LoopState} {stepId : String} {attempt : Nat}
  {classification : BoundaryErrorClassification}

theorem permits_scheduled {events : List RunEvent} {k : Checkpoint} {n d : Nat}
    (hle : countEvents events .ModelCallStarted ≤ attempt) :
    Permits K tools wo events (k.scheduled .model attempt classification n d) := by
  rintro - m ⟨⟩
  omega

theorem solo_scheduleAttempt {w : WorkOrder} {p : RunProjection} {lease : RunLease}
    {key : String} {k : Checkpoint} (h : Kept K tools wo s)
    (hle : countEvents s.truth.events .ModelCallStarted ≤ attempt) :
    (scheduleAttempt K w p lease stepId .model key attempt classification k).solo allow fault
      (Kept K tools wo) (fun _ s' => Kept K tools wo s' ∧ NoMore s s') (fun _ s' => s' = s) s := by
  have hstill : Kept K tools wo s ∧ NoMore s s := ⟨h, .refl s⟩
  unfold scheduleAttempt
  refine Prog.solo_bind (solo_consult fun _ _ => ?_)
  refine Prog.solo_bind (Prog.solo_throwIf (fun _ => ?_) fun _ => rfl)
  refine Prog.solo_bind (solo_consult fun delay _ => ?_)
  cases delay with
  | none => exact Prog.solo_throw rfl
  | some delay =>
      refine Prog.solo_bind (Prog.solo_throwIf (fun _ => ?_) fun _ => rfl)
      refine Prog.solo_bind (solo_consult fun now _ => ?_)
      dsimp only
      split
      · exact Prog.solo_pure hstill
      · refine Prog.solo_bind ((solo_append_permits rfl (Tx.Aside.beside skip_aside) h
          fun k' hk' s₁ hs => ?_).mono (fun _ s₁ h₁ => Prog.solo_pure h₁) fun _ _ => id)
        cases hk'
        exact permits_scheduled (Nat.le_trans hs.modelCalls hle)

theorem solo_scheduleRetry {w : WorkOrder} {p : RunProjection} {lease : RunLease}
    {key : String} {k : Checkpoint} (h : Kept K tools wo s)
    (hle : countEvents s.truth.events .ModelCallStarted ≤ attempt) :
    (scheduleRetry K w p lease stepId .model key attempt classification k).solo allow fault
      (Kept K tools wo) (fun _ s' => Kept K tools wo s' ∧ NoMore s s') (fun _ s' => s' = s) s := by
  have hstill : Kept K tools wo s ∧ NoMore s s := ⟨h, .refl s⟩
  unfold scheduleRetry
  split
  · exact Prog.solo_pure hstill
  · refine Prog.solo_bind (solo_consult fun maximum _ => ?_)
    cases maximum with
    | none => exact Prog.solo_throw rfl
    | some maximum =>
        refine Prog.solo_bind (Prog.solo_throwIf (fun _ => ?_) fun _ => rfl)
        split
        · exact Prog.solo_pure hstill
        · exact solo_scheduleAttempt h hle

theorem solo_retryModelOr {otherwise : Runtime TurnOutcome} (h : Kept K tools wo s)
    (hl : Counts s l) (hle : countEvents s.truth.events .ModelCallStarted ≤ attempt)
    (ho : ∀ s', Kept K tools wo s' → Counts s' l → otherwise.solo allow fault (Kept K tools wo)
      (Passes K tools wo) (fun _ => Kept K tools wo) s') :
    (retryModelOr K S l stepId attempt classification otherwise).solo allow fault
      (Kept K tools wo) (Passes K tools wo) (fun _ => Kept K tools wo) s := by
  unfold retryModelOr
  refine Prog.solo_bind (((solo_scheduleRetry h hle).returns (returns_scheduleRetry ..)).mono
    (fun scheduled s₁ h₁ => ?_) fun _ s₁ h₁ => h₁ ▸ h)
  obtain ⟨⟨hkept, hmore⟩, hk⟩ := h₁
  rcases scheduled with _ | ⟨q, k⟩
  · exact ho s₁ hkept (hl.noMore hmore)
  · obtain ⟨n, d, rfl⟩ := hk q k rfl
    refine Prog.solo_pure ⟨hkept, ?_⟩
    rintro l' ⟨⟩
    have hcounts := hl.noMore hmore
    refine ⟨⟨hcounts.turns, hcounts.modelCalls, hcounts.toolCalls, hcounts.byRegistration⟩, ?_⟩
    rintro k ⟨⟩
    refine ⟨permits_scheduled (Nat.le_trans hmore.modelCalls hle), fun _ step a hr => ?_⟩
    rcases hr.2.2 with hp | ⟨hp, -⟩ <;> cases hp

/-- A call with a spent reservation is not made again. -/
theorem solo_resumeProductionCall (h : Kept K tools wo s) (hl : Counts s l)
    (hle : countEvents s.truth.events .ModelCallStarted ≤ attempt)
    (hspent : s.Spent stepId attempt) :
    (resumeProductionCall K S l stepId attempt).solo allow fault (Kept K tools wo)
      (fun out s' => ∃ outcome, out = some outcome ∧ Passes K tools wo outcome s')
      (fun _ => Kept K tools wo) s := by
  obtain ⟨r, hr, hstatus⟩ := hspent
  have passed : ∀ {p : Runtime TurnOutcome} {s₁ : Store},
      p.solo allow fault (Kept K tools wo) (Passes K tools wo) (fun _ => Kept K tools wo) s₁ →
      (some <$> p).solo allow fault (Kept K tools wo)
        (fun out s' => ∃ outcome, out = some outcome ∧ Passes K tools wo outcome s')
        (fun _ => Kept K tools wo) s₁ :=
    fun hp => Prog.solo_bind (hp.mono (fun out s₂ h₂ => Prog.solo_pure ⟨out, rfl, h₂⟩)
      fun _ _ => id)
  unfold resumeProductionCall
  refine Prog.solo_bind (Prog.solo_read ?_)
  simp only [hr]
  split
  · exact absurd ‹_› hstatus
  · refine solo_within_bind h (fun _ s₁ h₁ => ?_) fun _ _ => h.grew
    exact passed (solo_retryModelOr (h.grew h₁) (hl.noMore h₁.noMore)
      (Nat.le_trans h₁.noMore.modelCalls hle) fun s₂ h₂ hl₂ => solo_hands _ h₂ hl₂)
  · exact passed (solo_retryModelOr h hl hle fun s₂ h₂ hl₂ => solo_hands _ h₂ hl₂)
  · exact passed (solo_hands _ h hl)

theorem solo_resumeInflight (h : Kept K tools wo s) (hl : Counts s l)
    (hle : countEvents s.truth.events .ModelCallStarted ≤ attempt)
    (hspent : K.productionModelServices = true → s.Spent stepId attempt) :
    (resumeInflight K S l stepId attempt).solo allow fault (Kept K tools wo)
      (fun out s' => (∀ outcome, out = some outcome → Passes K tools wo outcome s') ∧
        (out = none → s' = s ∧ K.productionModelServices = false))
      (fun _ => Kept K tools wo) s := by
  unfold resumeInflight
  split
  · rename_i hK
    refine Prog.solo_bind ((solo_resumeProductionCall h hl hle (hspent hK)).mono
      (fun out s₁ h₁ => ?_) fun _ _ => id)
    obtain ⟨outcome, rfl, hpass⟩ := h₁
    refine Prog.solo_pure ⟨?_, fun hnone => by cases hnone⟩
    rintro _ ⟨⟩
    exact hpass
  · rename_i hK
    refine Prog.solo_bind (Prog.solo_pure ?_)
    refine Prog.solo_bind (solo_consult fun uncertain _ => ?_)
    split
    · refine Prog.solo_bind ((solo_hands (l := l) _ h hl).mono (fun out s₁ h₁ => ?_) fun _ _ => id)
      refine Prog.solo_pure ⟨?_, fun hnone => by cases hnone⟩
      rintro _ ⟨⟩
      exact h₁
    · refine Prog.solo_pure ⟨?_, fun _ => ⟨rfl, by simpa using hK⟩⟩
      rintro _ ⟨⟩

end Retries

/-! ### The model phase -/

/-- What the model phase comes to.  An emission of an earlier pass whose tool call was about to
be recorded is one that is still permitted. -/
def Models (K : Config) (tools : Digest → Option ToolRegistration) (wo : WorkOrder)
    (out : ModelPhase) (s : Store) : Prop :=
  match out with
  | .ended outcome => Passes K tools wo outcome s
  | .emitted l _ next => Kept K tools wo s ∧ Counts s l ∧
      (l.inPhase .tool_request = true → ∀ d input, next = .tool_call d input →
        PermitsTool tools wo s.truth.events d)

section ModelPhase

variable {S : Session} {l : LoopState} {stepId : String} {attempt : Nat} {started : Bool}

instance (call : ModelCallOutcome) (next : ModelEmission) :
    Within (completeModelCall K S l stepId call next) := by
  unfold completeModelCall
  infer_instance

theorem solo_modelCallFailed {e : Thrown} {s₁ : Store} (hl : Counts s l)
    (h : Called K tools wo s attempt started s₁) :
    (modelCallFailed K S l stepId attempt e).solo allow fault (Kept K tools wo)
      (Passes K tools wo) (fun _ => Kept K tools wo) s₁ := by
  unfold modelCallFailed
  refine Prog.solo_bind (Prog.solo_read ?_)
  dsimp only
  split
  · exact Prog.solo_throw h.kept
  · refine solo_within_bind h.kept (fun x s₂ h₂ => ?_) fun _ _ => h.kept.grew
    have hcalled := h.grew h₂
    split
    · exact solo_hands _ hcalled.kept (hcalled.counts_failed (p := l.projection) hl)
    · exact solo_retryModelOr hcalled.kept (hcalled.counts_failed hl) hcalled.attempt
        fun s₃ h₃ hl₃ => solo_hands _ h₃ hl₃

theorem solo_modelCallReturned {call : ModelCallOutcome} {s₁ : Store} (hl : Counts s l)
    (hp : l.inPhase .tool_request = false) (h : Called K tools wo s attempt started s₁) :
    (modelCallReturned K S l stepId started call).solo allow fault (Kept K tools wo)
      (Models K tools wo) (fun _ => Kept K tools wo) s₁ := by
  unfold modelCallReturned
  dsimp only
  have hcounts := h.counts_returned hl
  split
  · exact Prog.solo_bind ((solo_hands _ h.kept hcounts).mono
      (fun out s₂ h₂ => Prog.solo_pure h₂) fun _ _ => id)
  · refine solo_within_bind h.kept (fun _ s₂ h₂ => ?_) fun _ _ => h.kept.grew
    refine solo_within_bind (h.kept.grew h₂) (fun p s₃ h₃ => ?_) fun _ _ => (h.kept.grew h₂).grew
    have hmore := h₂.noMore.trans h₃.noMore
    have hnext := hcounts.noMore hmore
    refine Prog.solo_pure ⟨(h.kept.grew h₂).grew h₃, ⟨hnext.turns, hnext.modelCalls,
      hnext.toolCalls, hnext.byRegistration⟩, fun hphase => ?_⟩
    have hphase : l.inPhase .tool_request = true := hphase
    rw [hp] at hphase
    cases hphase

theorem solo_callModel (h : Kept K tools wo s) (hl : Counts s l)
    (hp : l.inPhase .tool_request = false) (hc : Callable K s stepId attempt started)
    (hlocal : started = true → K.productionModelServices = false)
    (hmax : l.modelCalls < wo.budget.maxModelCalls) :
    (callModel K S l stepId attempt started).solo allow fault (Kept K tools wo)
      (Models K tools wo) (fun _ => Kept K tools wo) s := by
  have hlt := Nat.lt_of_le_of_lt hl.modelCalls hmax
  unfold callModel
  refine Prog.solo_bind (Prog.solo_attempt ((solo_withActiveExecution
    (R := Called K tools wo s attempt started) (fun _ h₁ => h₁.kept)
    (fun _ _ hs h₁ => h₁.grew hs.grew) (h.called hc.le) fun s₁ h₁ => ?_).mono
    (fun call s₁ h₁ => solo_modelCallReturned hl hp h₁) fun e s₁ h₁ => ?_))
  · have hs := h₁.toSameRun.grew
    exact (solo_invokeModelCall_called (h.grew hs) (hc.same h₁) hlocal
      (Nat.lt_of_le_of_lt hs.noMore.modelCalls hlt)).mono (fun _ _ => Called.of_same h₁.toSameRun)
      fun _ _ => Called.of_same h₁.toSameRun
  · exact Prog.solo_bind ((solo_modelCallFailed hl h₁).mono
      (fun out s₂ h₂ => Prog.solo_pure h₂) fun _ _ => id)

theorem Affords.callable {k : Checkpoint} {calls : Nat} (h : Affords K tools wo s k)
    (hstep : k.stepId = some stepId) (hle : countEvents s.truth.events .ModelCallStarted ≤ calls)
    (hp : k.phase = .model ∨ k.phase = .model_inflight) :
    Callable K s stepId (k.attempt.getD (calls + 1)) (k.phase = .model_inflight) := by
  obtain ⟨hpermits, hspent⟩ := h
  unfold Permits at hpermits
  rcases hp with hp | hp <;> rw [hp] at hpermits ⊢
  · cases ha : k.attempt with
    | none => exact ⟨by simp; omega, fun _ hge => by simp at hge; omega, fun hst => by cases hst⟩
    | some a =>
        obtain ⟨hle, hlocal⟩ := hpermits a ha
        refine ⟨hle, fun _ hge => ?_, fun hst => by cases hst⟩
        have hK : K.productionModelServices = true := by
          by_contra hK
          have := hlocal (by simpa using hK)
          have : a ≤ countEvents s.truth.events .ModelCallStarted := hge
          omega
        exact ⟨hK, hspent hK stepId a ⟨hstep, ha, .inr ⟨hp, hge⟩⟩⟩
  · obtain ⟨a, ha, hle⟩ := hpermits
    rw [ha]
    refine ⟨hle, fun hst => ?_, fun _ hK => hspent hK stepId a ⟨hstep, ha, .inl hp⟩⟩
    cases hst

/-- A step that has to be planned is one no checkpoint says anything about. -/
theorem solo_planStep (h : Kept K tools S.workOrder s) (hl : InLoop K tools S.workOrder s l)
    (hphase : ∀ k, l.checkpoint = some k →
      k.phase = .turn ∨ k.phase = .model ∨ k.phase = .model_inflight)
    (hturn : l.turns < S.workOrder.budget.maxTurns) :
    (planStep K S l).solo allow fault (Kept K tools S.workOrder)
      (fun out s' => Kept K tools S.workOrder s' ∧ Counts s' out.1 ∧
        out.1.checkpoint = l.checkpoint ∧
        Callable K s' out.2 ((out.1.checkpoint.bind (·.attempt)).getD (out.1.modelCalls + 1))
          (l.inPhase .model_inflight))
      (fun _ => Kept K tools S.workOrder) s := by
  have hcalls := hl.counts.modelCalls
  unfold planStep
  split
  · rename_i hin
    cases hk : l.checkpoint with
    | none => simp [LoopState.inPhase, hk] at hin
    | some k =>
        simp only [Option.bind_some]
        cases hstep : k.stepId with
        | none => exact Prog.solo_throw h
        | some step =>
            refine Prog.solo_pure ⟨h, hl.counts, hk, ?_⟩
            simp only [LoopState.inPhase, hk, Option.any_some, decide_eq_true_eq] at hin ⊢
            exact (hl.affords k hk).callable hstep hcalls hin
  · rename_i hin
    have hattempt : l.checkpoint.bind (·.attempt) = none := by
      cases hk : l.checkpoint with
      | none => rfl
      | some k =>
          simp only [LoopState.inPhase, hk, Option.any_some, decide_eq_true_eq] at hin
          have hp : k.phase = .turn := (hphase k hk).resolve_right hin
          have hpermits := (hl.affords k hk).1
          unfold Permits at hpermits
          rw [hp] at hpermits
          exact hpermits
    refine Prog.solo_bind (solo_append (Tx.Aside.beside skip_aside)
      (fun p s₁ _ _ _ hadds _ => ?_) fun _ => h)
    have hturns := hadds.count_le .PlanningStarted
    have hmodel := hadds.count_le .ModelCallStarted
    have htool := hadds.count_le .ToolCallRequested
    have hper := hadds.toolCallCount_le
    simp only [EventPayload.eventType, reduceCtorEq, if_true, if_false, Nat.add_zero]
      at hturns hmodel htool
    have hkept : Kept K tools S.workOrder s₁ := by
      refine h.adds hadds ⟨?_, ?_, ?_, fun d r hr => ?_⟩ fun k hk => ?_
      · have := hl.counts.turns
        omega
      · exact Nat.le_trans hmodel h.budget.modelCalls
      · exact Nat.le_trans htool h.budget.toolCalls
      · exact Nat.le_trans (hper d) (h.budget.perTool d r hr)
      · cases hk
        rintro a ⟨⟩
        exact ⟨by omega, fun _ => by omega⟩
    refine ⟨hkept, Prog.solo_pure ⟨hkept, ⟨?_, ?_, ?_, fun d => ?_⟩, rfl, ?_⟩⟩
    · exact Nat.le_trans hturns (Nat.succ_le_succ hl.counts.turns)
    · exact Nat.le_trans hmodel hcalls
    · exact Nat.le_trans htool hl.counts.toolCalls
    · exact Nat.le_trans (hper d) (hl.counts.byRegistration d)
    · simp only [hattempt, Option.getD_none]
      refine ⟨by omega, fun _ hge => by omega, fun hst => ?_⟩
      exact absurd (.inr hst) hin

theorem solo_modelPhase (h : Kept K tools S.workOrder s) (hl : InLoop K tools S.workOrder s l)
    (hphase : ∀ k, l.checkpoint = some k →
      k.phase = .turn ∨ k.phase = .model ∨ k.phase = .model_inflight)
    (hturn : l.turns < S.workOrder.budget.maxTurns) :
    (modelPhase K S l).solo allow fault (Kept K tools S.workOrder)
      (Models K tools S.workOrder) (fun _ => Kept K tools S.workOrder) s := by
  unfold modelPhase
  refine Prog.solo_bind ((solo_planStep h hl hphase hturn).mono (fun out s₁ h₁ => ?_) fun _ _ => id)
  obtain ⟨l₁, step⟩ := out
  obtain ⟨hkept, hcounts, hk, hc⟩ := h₁
  dsimp only at hcounts hk hc
  have hrequest : l₁.inPhase .tool_request = false := by
    simp only [LoopState.inPhase, hk]
    cases hk' : l.checkpoint with
    | none => rfl
    | some k => rcases hphase k hk' with hp | hp | hp <;> simp [hp]
  refine Prog.solo_bind ((solo_boundaryPassed fun _ => hkept).mono (fun _ s₂ h₂ => ?_) fun _ _ => id)
  obtain ⟨rfl, -, hmax, -⟩ := h₂
  dsimp only
  split
  · rename_i hst
    rw [hst] at hc ⊢
    refine Prog.solo_bind ((solo_resumeInflight hkept hcounts hc.le (hc.resumed rfl)).mono
      (fun out s₃ h₃ => ?_) fun _ _ => id)
    obtain ⟨hsome, hnone⟩ := h₃
    cases out with
    | some outcome => exact Prog.solo_pure (hsome outcome rfl)
    | none =>
        obtain ⟨rfl, hK⟩ := hnone rfl
        exact solo_callModel hkept hcounts hrequest hc (fun _ => hK) (hmax rfl)
  · rename_i hst
    refine Prog.solo_bind (Prog.solo_pure ?_)
    exact solo_callModel hkept hcounts hrequest hc (fun hst' => absurd hst' hst) (hmax rfl)

end ModelPhase

/-! ### The tool phase -/

section ToolPhase

variable {S : Session} {l : LoopState} {c : ToolCall}

/-- `ToolCallRequested` of a call that is still permitted. -/
theorem solo_recordToolCall (h : Kept K tools wo s) (hl : Counts s l)
    (hc : PermitsTool tools wo s.truth.events c.registration.toolRegistrationDigest) :
    (recordToolCall K S l c).solo allow fault (Kept K tools wo) (Passes K tools wo)
      (fun _ => Kept K tools wo) s := by
  unfold recordToolCall
  refine Prog.solo_bind (solo_append (Tx.Aside.beside skip_aside)
    (fun p s₁ _ _ _ hadds _ => ?_) fun _ => h)
  have hturns := hadds.count_le .PlanningStarted
  have hmodel := hadds.count_le .ModelCallStarted
  have htool := hadds.count_le .ToolCallRequested
  have hper := hadds.toolCallCount_le
  simp only [EventPayload.eventType, EventPayload.callsOf, reduceCtorEq, if_true, if_false,
    Nat.add_zero] at hturns hmodel htool hper
  have hkept : Kept K tools wo s₁ := by
    refine h.adds hadds ⟨?_, ?_, ?_, fun d r hr => ?_⟩ fun k hk => ?_
    · exact Nat.le_trans hturns h.budget.turns
    · exact Nat.le_trans hmodel h.budget.modelCalls
    · have := hc.toolCalls
      omega
    · have hd := hper d
      split at hd
      · rename_i heq
        subst heq
        have := hc.perTool r hr
        omega
      · exact Nat.le_trans hd (h.budget.perTool d r hr)
    · cases hk
      exact permits_of_uncounted rfl
  have hnext : Counts s₁ { l with
      projection := p
      toolCalls := l.toolCalls + 1
      toolCallsByRegistration := fun d =>
        if d = c.registration.toolRegistrationDigest then
          l.toolCallsByRegistration c.registration.toolRegistrationDigest + 1
        else l.toolCallsByRegistration d } := by
    refine ⟨?_, ?_, ?_, fun d => ?_⟩
    · exact Nat.le_trans hturns hl.turns
    · exact Nat.le_trans hmodel hl.modelCalls
    · exact Nat.le_trans htool (Nat.succ_le_succ hl.toolCalls)
    · have hd := hper d
      have := hl.byRegistration d
      dsimp only
      split at hd
      · rename_i heq
        subst heq
        rw [if_pos rfl]
        omega
      · rename_i hne
        rw [if_neg (Ne.symm hne)]
        omega
  exact ⟨hkept, solo_hands _ hkept hnext⟩

/-- A call that starts is within the budget of the run and within that of its tool. -/
theorem solo_startToolCall {d : Digest} {input : JsonValue} (h : Kept K tools S.workOrder s)
    (hl : Counts s l) (hregistered : tools d = some c.registration)
    (hdigest : c.registration.toolRegistrationDigest = d)
    (hemission : c.emission = .tool_call d input)
    (hused : toolCallCount s.truth.events d ≤ c.callsAlreadyUsed) :
    (startToolCall K S l c).solo allow fault (Kept K tools S.workOrder)
      (Passes K tools S.workOrder) (fun _ => Kept K tools S.workOrder) s := by
  unfold startToolCall
  refine Prog.solo_bind ((solo_boundaryPassed fun _ => h).mono (fun _ s₁ h₁ => ?_) fun _ _ => id)
  obtain ⟨rfl, -, -, hmax⟩ := h₁
  split
  · exact solo_hands _ h hl
  · rename_i hcalls
    have hpermits : PermitsTool tools S.workOrder s₁.truth.events d := by
      refine ⟨Nat.lt_of_le_of_lt hl.toolCalls (hmax rfl), fun r hr => ?_⟩
      rw [hregistered] at hr
      cases hr
      omega
    refine Prog.solo_bind ((solo_append_permits rfl (Tx.Aside.beside skip_aside) h
      fun k hk s₂ hs => ?_).mono (fun p s₂ h₂ => ?_) fun _ s₂ h₂ => h₂ ▸ h)
    · cases hk
      rintro d' input' hd'
      have hd' : c.emission = .tool_call d' input' := Option.some.inj hd'
      rw [hemission] at hd'
      cases hd'
      exact ⟨Nat.lt_of_le_of_lt hs.toolCalls hpermits.toolCalls, fun r hr =>
        Nat.lt_of_le_of_lt (hs.perTool d) (hpermits.perTool r hr)⟩
    · obtain ⟨hkept, hmore⟩ := h₂
      have hcounts := hl.noMore hmore
      refine solo_recordToolCall hkept ⟨hcounts.turns, hcounts.modelCalls, hcounts.toolCalls,
        hcounts.byRegistration⟩ ?_
      rw [hdigest]
      exact ⟨Nat.lt_of_le_of_lt hmore.toolCalls hpermits.toolCalls, fun r hr =>
        Nat.lt_of_le_of_lt (hmore.perTool d) (hpermits.perTool r hr)⟩

/-- A tool call is recorded when the emission it comes from still permits it, or once it has
started. -/
theorem solo_resolvedToolPhase {stepId : String} {r : ToolRegistration} {d : Digest}
    {input : JsonValue} (h : Kept K tools S.workOrder s) (hl : Counts s l)
    (hregistered : tools d = some r) (hdigest : r.toolRegistrationDigest = d)
    (hrequest : l.inPhase .tool_request = true → PermitsTool tools S.workOrder s.truth.events d) :
    (resolvedToolPhase K S l stepId r (.tool_call d input) input).solo allow fault
      (Kept K tools S.workOrder) (Passes K tools S.workOrder) (fun _ => Kept K tools S.workOrder)
      s := by
  unfold resolvedToolPhase
  refine Prog.solo_bind (solo_consult fun resolved _ => ?_)
  split
  · exact solo_hands _ h hl
  · dsimp only
    split
    · exact solo_hands _ h hl
    · rename_i hnotTool
      split
      · rename_i hin
        refine solo_recordToolCall h hl ?_
        rw [hdigest]
        exact hrequest hin
      · refine solo_startToolCall h hl hregistered hdigest rfl ?_
        simp only [callsAlreadyUsed, if_neg hnotTool, hdigest]
        exact hl.byRegistration d

theorem solo_toolPhase {stepId : String} {d : Digest} {input : JsonValue}
    (registry : Registry allow tools) (h : Kept K tools S.workOrder s) (hl : Counts s l)
    (hrequest : l.inPhase .tool_request = true → PermitsTool tools S.workOrder s.truth.events d) :
    (toolPhase K S l stepId d input).solo allow fault
      (Kept K tools S.workOrder) (Passes K tools S.workOrder) (fun _ => Kept K tools S.workOrder)
      s := by
  unfold toolPhase
  refine Prog.solo_bind (solo_consult fun registration hreg => ?_)
  have hreg := registry.resolves d registration hreg
  subst hreg
  split
  · exact solo_hands _ h hl
  · rename_i r hr
    have hr := (Option.filter_eq_some_iff.mp hr).1
    exact solo_resolvedToolPhase h hl hr (registry.keyed d r hr) hrequest

end ToolPhase

/-! ### A pass of the loop -/

section Pass

variable {S : Session} {l : LoopState}

theorem solo_emissionPhase {stepId : String} {next : ModelEmission}
    (registry : Registry allow tools) (h : Kept K tools S.workOrder s) (hl : Counts s l)
    (hrequest : l.inPhase .tool_request = true → ∀ d input, next = .tool_call d input →
      PermitsTool tools S.workOrder s.truth.events d) :
    (emissionPhase K S l stepId next).solo allow fault (Kept K tools S.workOrder)
      (Passes K tools S.workOrder) (fun _ => Kept K tools S.workOrder) s := by
  cases next with
  | input_request schema prompt => exact solo_hands (requestInput K S l _ _ _) h hl
  | tool_call d input => exact solo_toolPhase registry h hl fun hin => hrequest hin d input rfl
  | final value => exact solo_hands (finalPhase K S l _ _) h hl

theorem solo_emissionOf (h : Kept K tools S.workOrder s) (hl : InLoop K tools S.workOrder s l)
    (hsettled : ∀ k, l.checkpoint = some k → k.phase ≠ .input ∧ k.phase ≠ .scheduled_backoff)
    (hfinal : l.finalCheckpoint = none)
    (hturn : l.turns < S.workOrder.budget.maxTurns) :
    (emissionOf K S l).solo allow fault (Kept K tools S.workOrder)
      (Models K tools S.workOrder) (fun _ => Kept K tools S.workOrder) s := by
  unfold emissionOf
  split
  · split
    · rename_i step next hstep hnext
      refine Prog.solo_pure ⟨h, hl.counts, fun hin d input hd => ?_⟩
      cases hk : l.checkpoint with
      | none => simp [hk] at hstep
      | some k =>
          simp only [LoopState.inPhase, hk, Option.any_some, decide_eq_true_eq] at hin
          simp only [hk, Option.bind_some, hd] at hnext
          have hpermits := (hl.affords k hk).1
          unfold Permits at hpermits
          rw [hin] at hpermits
          exact hpermits d input hnext
    · exact Prog.solo_throw h
  · rename_i hin
    refine solo_modelPhase h hl (fun k hk => ?_) hturn
    obtain ⟨hinput, hbackoff⟩ := hsettled k hk
    simp only [LoopState.finalCheckpoint, hk, Option.filter_eq_none_iff] at hfinal
    have hfinal := hfinal k rfl
    simp only [LoopState.inPhase, hk, Option.any_some, decide_eq_true_eq, not_or] at hin hfinal
    cases hp : k.phase <;> simp_all

theorem solo_inputPhase_inLoop (h : Kept K tools S.workOrder s) (hl : InLoop K tools S.workOrder s l) :
    (inputPhase K S l).solo allow fault (Kept K tools S.workOrder)
      (fun l' s' => Kept K tools S.workOrder s' ∧ InLoop K tools S.workOrder s' l' ∧
        ∀ k, l'.checkpoint = some k → k.phase ≠ .input)
      (fun _ => Kept K tools S.workOrder) s := by
  unfold inputPhase
  split
  · rename_i k hk
    split
    · refine solo_within_bind h (fun modelInput s₁ h₁ => ?_) fun _ _ => h.grew
      have hcounts := hl.counts.noMore h₁.noMore
      refine Prog.solo_pure ⟨h.grew h₁, ⟨⟨hcounts.turns, hcounts.modelCalls, hcounts.toolCalls,
        hcounts.byRegistration⟩, ?_⟩, ?_⟩
      · rintro k' ⟨⟩
        have hcalls := hcounts.modelCalls
        refine ⟨?_, ?_⟩
        · rintro a ⟨⟩
          exact ⟨by omega, fun _ => by omega⟩
        · rintro - step a ⟨-, ⟨⟩, ⟨⟨⟩⟩ | ⟨-, hge⟩⟩
          omega
      · rintro k' ⟨⟩ hp
        cases hp
    · rename_i hp
      exact Prog.solo_pure ⟨h, hl, fun k' hk' => by rw [hk] at hk'; cases hk'; exact hp⟩
  · rename_i hk
    exact Prog.solo_pure ⟨h, hl, fun k' hk' => by rw [hk] at hk'; cases hk'⟩

theorem solo_backoffPhase_inLoop (h : Kept K tools S.workOrder s) (hl : InLoop K tools S.workOrder s l)
    (hinput : ∀ k, l.checkpoint = some k → k.phase ≠ .input) :
    (backoffPhase K S l).solo allow fault (Kept K tools S.workOrder)
      (fun l' s' => Kept K tools S.workOrder s' ∧ InLoop K tools S.workOrder s' l' ∧
        ∀ k, l'.checkpoint = some k → k.phase ≠ .input ∧ k.phase ≠ .scheduled_backoff)
      (fun _ => Kept K tools S.workOrder) s := by
  unfold backoffPhase
  split
  · rename_i k hk
    split
    · rename_i hp
      split
      · rename_i step boundary n notBefore resumePhase _ _ hn _ hresume
        refine solo_within_bind h (fun _ s₁ h₁ => ?_) fun _ _ => h.grew
        refine Prog.solo_bind ((solo_boundaryPassed fun _ => h.grew h₁).mono
          (fun _ s₂ h₂ => ?_) fun _ _ => id)
        obtain ⟨rfl, -⟩ := h₂
        have hpermits := (hl.affords k hk).1
        unfold Permits at hpermits
        rw [hp] at hpermits
        -- what a retry of a model call resumes with is above the calls that were made
        have hresumed : ∀ s₃, NoMore s s₃ → resumePhase = .model →
            countEvents s₃.truth.events .ModelCallStarted < n := by
          rintro s₃ h₃ rfl
          exact Nat.lt_of_le_of_lt h₃.modelCalls (hpermits hresume n hn)
        have hpermitted : ∀ s₃, NoMore s s₃ →
            Permits K tools S.workOrder s₃.truth.events (k.resumed resumePhase n) := by
          intro s₃ h₃
          cases resumePhase with
          | model =>
              rintro a ⟨⟩
              have := hresumed s₃ h₃ rfl
              exact ⟨by omega, fun _ => this⟩
          | tool => trivial
        refine Prog.solo_bind ((solo_append_permits rfl (Tx.Aside.beside skip_aside) (h.grew h₁)
          fun k' hk' s₃ h₃ => ?_).mono (fun p s₃ h₃ => ?_) fun _ s₃ h₃ => h₃ ▸ h.grew h₁)
        · cases hk'
          exact hpermitted s₃ (h₁.noMore.trans h₃)
        · obtain ⟨hkept, hmore⟩ := h₃
          have hmore := h₁.noMore.trans hmore
          have hcounts := hl.counts.noMore hmore
          refine Prog.solo_pure ⟨hkept, ⟨⟨hcounts.turns, hcounts.modelCalls, hcounts.toolCalls,
            hcounts.byRegistration⟩, ?_⟩, ?_⟩
          · rintro k' ⟨⟩
            refine ⟨hpermitted s₃ hmore, fun _ step a hr => ?_⟩
            obtain ⟨-, ha, hr⟩ := hr
            cases ha
            cases resumePhase with
            | model =>
                have := hresumed s₃ hmore rfl
                rcases hr with hr | ⟨-, hge⟩
                · cases hr
                · omega
            | tool => rcases hr with hr | ⟨hr, -⟩ <;> cases hr
          · rintro k' ⟨⟩
            cases resumePhase <;> simp [Checkpoint.resumed, RetryBoundary.phase]
      · exact Prog.solo_throw h
    · rename_i hp
      refine Prog.solo_pure ⟨h, hl, fun k' hk' => ?_⟩
      have hne := hinput k' hk'
      rw [hk] at hk'
      cases hk'
      exact ⟨hne, hp⟩
  · rename_i hk
    exact Prog.solo_pure ⟨h, hl, fun k' hk' => by rw [hk] at hk'; cases hk'⟩

theorem solo_turn (registry : Registry allow tools) (h : Kept K tools S.workOrder s)
    (hl : InLoop K tools S.workOrder s l) :
    (turn K S l).solo allow fault (Kept K tools S.workOrder) (Passes K tools S.workOrder)
      (fun _ => Kept K tools S.workOrder) s := by
  unfold turn
  refine Prog.solo_bind ((solo_inputPhase_inLoop h hl).mono (fun l₁ s₁ h₁ => ?_) fun _ _ => id)
  obtain ⟨hkept, hl₁, hinput⟩ := h₁
  refine Prog.solo_bind ((solo_backoffPhase_inLoop hkept hl₁ hinput).mono (fun l₂ s₂ h₂ => ?_)
    fun _ _ => id)
  obtain ⟨hkept, hl₂, hsettled⟩ := h₂
  split
  · exact solo_hands _ hkept hl₂.counts
  · rename_i hfinal
    unfold turnBody
    refine Prog.solo_bind ((solo_boundaryPassed fun _ => hkept).mono (fun _ s₃ h₃ => ?_)
      fun _ _ => id)
    obtain ⟨rfl, hturn, -⟩ := h₃
    refine Prog.solo_bind ((solo_emissionOf hkept hl₂ hsettled hfinal (hturn rfl)).mono
      (fun out s₄ h₄ => ?_) fun _ _ => id)
    cases out with
    | ended outcome => exact Prog.solo_pure h₄
    | emitted l₃ step next =>
        obtain ⟨hkept, hcounts, hrequest⟩ := h₄
        exact solo_emissionPhase registry hkept hcounts hrequest

/-- **A pass of the loop keeps the budgets**, however it ends, and hands the loop on as it was
handed it. -/
theorem solo_executeTurn (registry : Registry allow tools) (h : Kept K tools S.workOrder s)
    (hl : InLoop K tools S.workOrder s l) :
    (executeTurn K S l).solo allow fault (Kept K tools S.workOrder)
      (Passes K tools S.workOrder) (fun _ => Kept K tools S.workOrder) s := by
  have released : ∀ {q : Runtime TurnOutcome} {s₁ : Store}, Kept K tools S.workOrder s₁ →
      (∀ s₂, Kept K tools S.workOrder s₂ → q.solo allow fault (Kept K tools S.workOrder)
        (Passes K tools S.workOrder) (fun _ => Kept K tools S.workOrder) s₂) →
      ((release S.lease).bind fun _ => q).solo allow fault (Kept K tools S.workOrder)
        (Passes K tools S.workOrder) (fun _ => Kept K tools S.workOrder) s₁ :=
    fun h₁ hq => solo_within_bind h₁ (fun _ s₂ h₂ => hq s₂ (h₁.grew h₂)) fun _ _ => h₁.grew
  unfold executeTurn guarded
  refine Prog.solo_bind (Prog.solo_attempt (Prog.solo_tryCatch ((solo_turn registry h hl).mono
    (fun out s₁ h₁ => ?_) fun e s₁ h₁ => ?_)))
  · obtain ⟨hkept, hnext⟩ := h₁
    cases out with
    | next l' => exact Prog.solo_pure ⟨hkept, hnext⟩
    | done status =>
        exact released hkept fun s₂ h₂ => Prog.solo_pure ⟨h₂, fun _ hd => by cases hd⟩
  · refine solo_within_bind h₁ (fun status s₂ h₂ => Prog.solo_pure ?_) fun e' s₂ h₂ => ?_
    · exact released (h₁.grew h₂) fun s₃ h₃ => Prog.solo_pure ⟨h₃, fun _ hd => by cases hd⟩
    · exact released (h₁.grew h₂) fun _ h₃ => Prog.solo_throw h₃

end Pass

/-! ### Executions and commands -/

section Entering

variable {runId : String}

instance (claims : Claims) (w : WorkOrder) (definition : AgentDefinition) (lease : RunLease)
    (p : RunProjection) (history : List RunEvent) :
    Within (resumeRun K claims w definition lease p history) := by
  unfold resumeRun
  extract_lets rest
  have resumed : ∀ out, Within (rest out) := fun out => by cases out <;> infer_instance
  split
  · exact within_bind inferInstance resumed
  · exact within_bind inferInstance resumed

instance (claims : Claims) (w : WorkOrder) (definition : AgentDefinition) (lease : RunLease)
    (p : RunProjection) : Within (enterLoop K claims w definition lease p) := by
  unfold enterLoop
  infer_instance

instance (w : WorkOrder) (lease : RunLease) (actor : String) (body : Runtime Started)
    [Within body] : Within (guardedStart K w lease actor body) := by
  unfold guardedStart
  refine within_bind inferInstance fun out => ?_
  rcases out with e | ⟨outcome⟩ | ⟨S, l⟩ <;> infer_instance

instance (claims : Claims) (w : WorkOrder) (p : RunProjection) :
    Within (executeAgent K claims w p) := by
  unfold executeAgent
  refine within_bind inferInstance fun definition => ?_
  cases definition <;> infer_instance

/-- What `execute` does before its loop keeps the budgets. -/
theorem solo_execute_kept (h : Kept K tools wo s) :
    (execute K runId).solo allow fault (Kept K tools wo) (fun _ => Kept K tools wo)
      (fun _ => Kept K tools wo) s := by
  have hagent : s.workOrder.isCompensation = false := h.workOrder ▸ h.agent
  unfold execute getRun
  refine solo_still_bind (fun claims => ?_) fun _ => h
  refine Prog.solo_bind (solo_still_bind (fun _ => ?_) fun _ => h)
  refine Prog.solo_bind (Prog.solo_read ?_)
  refine solo_still_bind (fun _ => Prog.solo_pure ?_) fun _ => h
  split
  · exact Prog.solo_pure h
  · refine Prog.solo_bind (Prog.solo_read ?_)
    rw [if_neg (by simp [hagent])]
    exact (solo_within _ h).mono (fun _ _ => h.grew) fun _ _ => h.grew

theorem transactCommand_calls {scope : String} {digest : Digest}
    (h : (transactCommand scope digest .skip).run s = .ok s') : SameCalls s s' := by
  simp only [transactCommand, Transaction.choose_run] at h
  split at h
  · unfold Transaction.throwIf at h
    split at h <;> cases h
    exact .refl s
  · obtain ⟨s₁, h₁, h⟩ := Transaction.andThen_ok.mp h
    cases h₁
    cases h
    exact ⟨⟨rfl, rfl⟩, rfl⟩

/-- The command of a `resume` records itself and nothing else. -/
theorem solo_commandTransaction_skip {command : CommandContext} {I : Store → Prop}
    (hI : ∀ s', SameCalls s s' → I s') :
    (commandTransaction command (.pure .skip)).solo allow fault I (fun _ => SameCalls s)
      (fun _ => SameCalls s) s := by
  unfold commandTransaction
  refine Prog.solo_bind (Prog.solo_read ?_)
  split
  · exact Prog.solo_throwIf (fun _ => .refl s) fun _ => .refl s
  · refine Prog.solo_bind (Prog.solo_pure (Prog.solo_commit (fun s₁ h₁ => ?_) fun _ => .refl s))
    have hs := transactCommand_calls h₁
    exact ⟨hI s₁ hs, hs⟩

theorem solo_resume {command : CommandContext} :
    (resume K runId command).solo allow fault (fun _ => True)
      (fun out s' => ∀ S l, out = .entered S l → SameCalls s s' ∧ Enters s' S l)
      (fun _ _ => True) s := by
  unfold resume
  refine solo_still_bind (fun _ => ?_) fun _ => trivial
  refine Prog.solo_bind ((solo_commandTransaction_skip fun _ _ => trivial).mono
    (fun _ s₁ h₁ => ?_) fun _ _ _ => trivial)
  refine Prog.solo_bind (Prog.solo_read ?_)
  split
  · exact Prog.solo_pure fun _ _ hd => by cases hd
  · split
    · exact Prog.solo_pure fun _ _ hd => by cases hd
    · refine solo_execute.mono (fun out s₂ h₂ S l hout => ?_) fun _ _ _ => trivial
      obtain ⟨rfl, henters⟩ := h₂ S l hout
      exact ⟨h₁, henters⟩

theorem solo_resume_kept {command : CommandContext} (h : Kept K tools wo s) :
    (resume K runId command).solo allow fault (Kept K tools wo) (fun _ => Kept K tools wo)
      (fun _ => Kept K tools wo) s := by
  have same : ∀ s₁, SameCalls s s₁ → Kept K tools wo s₁ := fun s₁ h₁ =>
    h.grew h₁.toSameRun.grew
  unfold resume
  refine solo_still_bind (fun _ => ?_) fun _ => h
  refine Prog.solo_bind ((solo_commandTransaction_skip same).mono (fun _ s₁ h₁ => ?_)
    fun _ => same)
  refine Prog.solo_bind (Prog.solo_read ?_)
  split
  · exact Prog.solo_pure (same s₁ h₁)
  · split
    · exact Prog.solo_pure (same s₁ h₁)
    · exact solo_execute_kept (same s₁ h₁)

/-- **The executions the condition admits.**  A production call that the snapshot to resume from
recalls, because it has been interrupted or counted, has a reservation that is no longer
accepted. -/
def Startable (K : Config) (s : Store) : Prop :=
  K.productionModelServices = true → ∀ x ∈ s.truth.snapshots,
    x.sequence = s.truth.projection.lastSequence → ∀ step a,
      x.checkpoint.Recalls s.truth.events step a → s.Spent step a

theorem Startable.same (hs : SameCalls s s') (h : Startable K s) : Startable K s' := by
  intro hK x hx hseq step a hr
  rw [hs.truth] at hx hseq hr
  obtain ⟨r, hr, hstatus⟩ := h hK x hx hseq step a hr
  exact ⟨r, by rwa [Store.modelCall, hs.modelCalls], hstatus⟩

/-- An execution enters its loop with counters that cover the stream and with a checkpoint it
affords. -/
theorem Enters.inLoop {S : Session} {l : LoopState} (h : Enters s S l) (hk : Kept K tools wo s)
    (hs : Startable K s) : InLoop K tools wo s l where
  counts := by
    refine ⟨?_, ?_, ?_, fun d => ?_⟩
    · exact Nat.le_of_eq h.turns.symm
    · exact Nat.le_of_eq h.modelCalls.symm
    · exact Nat.le_of_eq h.toolCalls.symm
    · exact Nat.le_of_eq (congrFun h.byRegistration d).symm
  affords k hl := by
    rcases h.loaded with hnone | ⟨x, hx, hsome, hup⟩
    · rw [hl] at hnone
      cases hnone
    · obtain rfl : k = x.checkpoint := Option.some.inj (hl.symm.trans hsome)
      rcases hup with hseq | hp | hp
      · have hpermits := (hk.saved x hx).2
        rw [hseq, hk.stream.length, List.take_length] at hpermits
        exact ⟨hpermits, fun hK => hs hK x hx hseq⟩
      · exact affords_of_uncounted (by simp [Checkpoint.counted, hp])
      · exact affords_of_uncounted (by simp [Checkpoint.counted, hp])

/-! ### Runs -/

/-- The store of a run of an agent whose work order has just been accepted. -/
structure Store.JustAccepted (s : Store) : Prop where
  agent : s.workOrder.isCompensation = false
  stream : Stream s.workOrder s.truth.events s.truth.projection
  event : ∃ e, s.truth.events = [e] ∧ e.eventType = .RunAccepted
  snapshots : s.truth.snapshots = []

theorem Store.JustAccepted.kept (h : s.JustAccepted) : Kept K tools s.workOrder s where
  workOrder := rfl
  agent := h.agent
  stream := h.stream
  budget := by
    obtain ⟨e, he, htype⟩ := h.event
    have hcount : ∀ t, t ≠ .RunAccepted → countEvents s.truth.events t = 0 := by
      intro t ht
      simp [countEvents, he, htype, ht.symm]
    refine ⟨?_, ?_, ?_, fun d r _ => ?_⟩
    · simp [hcount]
    · simp [hcount]
    · simp [hcount]
    · have hcalls : toolCallCount s.truth.events d = 0 := by
        unfold RunEvent.eventType at htype
        cases hp : e.payload <;> simp [EventPayload.eventType, hp] at htype
        simp [toolCallCount, he, hp]
      omega
  saved x hx := by
    rw [h.snapshots] at hx
    cases hx

/-- What every step of serving a run keeps: the budgets, and a loop that may go on. -/
structure Keeps (K : Config) (tools : Digest → Option ToolRegistration) (wo : WorkOrder)
    (v : Service) : Prop where
  kept : Kept K tools wo v.store
  loop : ∀ S l, v.running = some (S, l) → S.workOrder = wo ∧ InLoop K tools wo v.store l

theorem Keeps.idle (h : Kept K tools wo s) : Keeps K tools wo ⟨s, none⟩ :=
  ⟨h, fun _ _ hr => by cases hr⟩

theorem Serves.keeps {v v' : Service} (registry : Registry allow tools)
    (hv : Keeps K tools wo v) (h : Serves K runId allow fault (Startable K) v v') :
    Keeps K tools wo v' := by
  cases h with
  | @enter p s s' S l hp hs h =>
      have entered : SameCalls s s' ∧ Enters s' S l := by
        cases hp with
        | execute =>
            obtain ⟨rfl, henters⟩ := (solo_execute.ran h trivial).2.1 _ rfl S l rfl
            exact ⟨.refl _, henters⟩
        | resume command => exact (solo_resume.ran h trivial).2.1 _ rfl S l rfl
      obtain ⟨hsame, henters⟩ := entered
      have hkept := hv.kept.grew hsame.toSameRun.grew
      refine ⟨hkept, ?_⟩
      rintro _ _ ⟨⟩
      exact ⟨henters.workOrder.trans hkept.workOrder, henters.inLoop hkept (hs.same hsame)⟩
  | miss hp hs h =>
      cases hp with
      | execute => exact .idle ((solo_execute_kept hv.kept).ran h hv.kept).1
      | resume command => exact .idle ((solo_resume_kept hv.kept).ran h hv.kept).1
  | @turn s s' S l l' h =>
      obtain ⟨rfl, hl⟩ := hv.loop S l rfl
      obtain ⟨hkept, hnext⟩ := ((solo_executeTurn registry hv.kept hl).ran h hv.kept).2.1 _ rfl
      refine ⟨hkept, ?_⟩
      rintro _ _ ⟨⟩
      exact ⟨rfl, hnext l' rfl⟩
  | @leave s s' S l r h =>
      obtain ⟨rfl, hl⟩ := hv.loop S l rfl
      exact .idle ((solo_executeTurn registry hv.kept hl).ran h hv.kept).1
  | command hp h =>
      have hwithin := hp.within
      exact .idle ((solo_within _ hv.kept).ran h hv.kept).1

/-- **No run exceeds its budgets**, over any number of executions, crashes and commands, as long
as no execution takes up a production call that is still accepted. -/
theorem served_within_budget {s₀ : Store} {v : Service} (h₀ : s₀.JustAccepted)
    (registry : Registry allow tools)
    (h : Served K runId allow fault (Startable K) s₀ v) :
    WithinBudget tools s₀.workOrder v.store.truth.events := by
  have keeps : Keeps K tools s₀.workOrder v := by
    induction h with
    | refl => exact .idle h₀.kept
    | tail _ hstep ih => exact hstep.keeps registry ih
  exact keeps.kept.budget

end Entering

section Samples

set_option maxRecDepth 10000

namespace Host

/-- A budget of two model calls. -/
def twoCalls : WorkBudget := ⟨2, 2, 0, 1000, none, none, none, none, none, none, none⟩

/-- A host that cannot issue a credential. -/
def uncredentialed : Host := { credential := .error .abort }

/-- A host whose adapter fails, and whose policy retries. -/
def failing : Host := { adapter := .error .abort, classified := some .retryable, maximumAttempts := 3 }

theorem justAccepted_store : (store twoCalls).JustAccepted where
  agent := rfl
  stream := .of_map (by decide) (by decide) (by decide) (by decide) (by decide) (by decide)
  event := ⟨accepted, rfl, rfl⟩
  snapshots := rfl

end Host

theorem registry_answers (h : Host) (hh : h.tool = none) :
    Registry h.Answers fun _ => none :=
  ⟨fun _ _ ha => ha.trans hh, fun _ _ hr => by cases hr⟩

theorem startable_of_snapshots (hs : s.truth.snapshots = []) : Startable K s := by
  intro _ x hx
  rw [hs] at hx
  cases hx

/-- A run whose first call is answered. -/
theorem served_within_budget_first :
    WithinBudget (fun _ => none) (Host.store Host.twoCalls).workOrder
      (({} : Host).executes Host.production 1 (Host.store Host.twoCalls)).truth.events := by
  have hserved : Served Host.production "run" ({} : Host).Answers (fun _ => False)
      (Startable Host.production) (Host.store Host.twoCalls)
      ⟨({} : Host).executes Host.production 1 (Host.store Host.twoCalls), none⟩ :=
    served_executes ({} : Host).answers_self 1 (startable_of_snapshots rfl)
  exact served_within_budget Host.justAccepted_store (registry_answers {} rfl) hserved

/-- A run that is lost between the start and the dispatch of its first call starts that call
again, and its next call after that is its third. -/
theorem budget_exceeded_after_restart :
    ∃ (allow : (q : Query) → Answer q → Prop) (v : Service),
      Registry allow (fun _ => none) ∧ (Host.store Host.twoCalls).JustAccepted ∧
      Served Host.production "run" allow (fun _ => False) (fun _ => True)
        (Host.store Host.twoCalls) v ∧
      v.store.workOrder.budget.maxModelCalls = 2 ∧
      countEvents v.store.truth.events .ModelCallStarted = 3 := by
  refine ⟨fun q a => Host.uncredentialed.Answers q a ∨ Host.failing.Answers q a,
    ⟨Host.failing.executes Host.production 2
      (Host.uncredentialed.executes Host.production 1 (Host.store Host.twoCalls)), none⟩,
    ⟨fun d a h => ?_, nofun⟩, Host.justAccepted_store, ?_, by decide +kernel, by decide +kernel⟩
  · rcases h with h | h <;> exact h
  · exact (served_executes (h := Host.uncredentialed) (fun _ => .inl rfl) 1 trivial).trans
      (served_executes (h := Host.failing) (fun _ => .inr rfl) 2 trivial)

end Samples

end Pactmark
