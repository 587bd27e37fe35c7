import Pactmark.Agent.Interruption

/-!
# Agent — the way out of a compensation run

Three calls drive a compensation run on: `execute`, `cancel` and `reconcileEffect`.  Once the
run has left its accepted status, none of them commits an event any more, but an `execute` under
an aborted signal, and on a suspended run not even that one (`compensation_alive_iff`).

`#executeCompensation` refuses every status but `accepted`, and the commands load the work order
through `#loadWorkOrder`, which knows those of agents only.
-/

namespace Pactmark

open Durable

variable {K : Config} {runId : String} {allow : (q : Query) → Answer q → Prop}
  {fault : Thrown → Prop} {s : Store}

/-- The stream has another event. -/
def Further (s s' : Store) : Prop := s.truth.events.length < s'.truth.events.length

/-- One of the calls that drive a run may commit an event. -/
def Alive (K : Config) (runId : String) (allow : (q : Query) → Answer q → Prop)
    (fault : Thrown → Prop) (s : Store) : Prop :=
  (execute K runId).May allow fault (Further s) s ∨
    (∃ reasonCode command, (cancel K runId reasonCode command).May allow fault (Further s) s) ∨
    ∃ effectId resolution command,
      (reconcileEffect K runId effectId resolution command).May allow fault (Further s) s

theorem not_further (s : Store) : ¬ Further s s := Nat.lt_irrefl _

theorem SameRun.not_further {s' : Store} (h : SameRun s s') : ¬ Further s s' := by
  unfold Further
  rw [h.truth]
  exact Nat.lt_irrefl _

/-! ### The commands -/

section Commands

/-- `#loadWorkOrder` does not find the work order of a compensation run. -/
theorem solo_loadWorkOrder {I : Store → Prop} {P : WorkOrder → Store → Prop}
    (hc : s.workOrder.isCompensation = true) :
    loadWorkOrder.solo allow fault I P (fun _ s' => s' = s) s := by
  unfold loadWorkOrder
  refine Prog.solo_bind (Prog.solo_read ?_)
  exact Prog.solo_bind (Prog.solo_throwIf (fun h => absurd hc h) fun _ => rfl)

theorem solo_cancel_compensation {reasonCode : String} {command : CommandContext}
    (hc : s.workOrder.isCompensation = true) (hlive : s.truth.projection.status.terminal = false) :
    (cancel K runId reasonCode command).solo allow fault (fun s' => ¬ Further s s')
      (fun _ _ => True) (fun _ _ => True) s := by
  unfold cancel commandTransaction
  refine solo_still_bind (fun claims => ?_) fun _ => trivial
  refine Prog.solo_bind (Prog.solo_read ?_)
  split
  · exact Prog.solo_throwIf (fun _ => trivial) fun _ => trivial
  · refine Prog.solo_bind (Prog.solo_bind (Prog.solo_read ?_))
    rw [if_neg (by simp [hlive])]
    exact Prog.solo_bind ((solo_loadWorkOrder hc).mono (fun _ _ h => h) fun _ _ _ => trivial)

instance (effectId : String) : Still (suspendedEffect effectId) := by
  unfold suspendedEffect
  refine still_bind inferInstance fun _ => still_bind inferInstance fun _ => ?_
  refine still_bind inferInstance fun record => ?_
  split <;> infer_instance

theorem solo_reconcileEffect_compensation {effectId : String} {resolution : Resolution}
    {command : CommandContext} (hc : s.workOrder.isCompensation = true) :
    (reconcileEffect K runId effectId resolution command).solo allow fault
      (fun s' => ¬ Further s s') (fun _ _ => True) (fun _ _ => True) s := by
  unfold reconcileEffect
  refine solo_still_bind (fun claims => ?_) fun _ => trivial
  refine Prog.solo_bind (Prog.solo_throwIf (fun _ => ?_) fun _ => trivial)
  refine Prog.solo_bind (Prog.solo_throwIf (fun _ => ?_) fun _ => trivial)
  refine solo_still_bind (fun record => ?_) fun _ => trivial
  exact Prog.solo_bind ((solo_loadWorkOrder hc).mono (fun _ _ h => h) fun _ _ _ => trivial)

end Commands

/-! ### Executions -/

section Executions

instance (w : WorkOrder) : Still (compensationKilled w) := by
  unfold compensationKilled
  split <;> infer_instance

instance (w : WorkOrder) : Still (compensationDefinition K w) := by
  unfold compensationDefinition
  refine still_bind inferInstance fun _ => still_bind inferInstance fun definition => ?_
  refine still_bind inferInstance fun killed => still_bind inferInstance fun _ => ?_
  split <;> infer_instance

instance (definition : CompensationRunDefinition) : Still (compensationTool definition) := by
  unfold compensationTool
  refine still_bind inferInstance fun registration => ?_
  split <;> infer_instance

instance (lease : RunLease) : Still (release lease) := by
  unfold release
  infer_instance

/-- A refused execution commits nothing, unless its signal is aborted. -/
theorem solo_guarded_refused {w : WorkOrder} {lease : RunLease} {actor : String}
    {body : Runtime TurnOutcome} {I : Store → Prop}
    (hbody : (∃ status, body = .pure (.done status)) ∨
      (∃ reason, body = .throw (kafReason .KAF_RUNTIME_INVALID_TRANSITION reason)) ∧
        ¬ allow .aborted true) :
    (guarded K w lease actor body).solo allow fault I (fun _ _ => True) (fun _ _ => True) s := by
  have released : ∀ {q : Runtime TurnOutcome},
      q.solo allow fault I (fun _ _ => True) (fun _ _ => True) s →
      ((release lease).bind fun _ => q).solo allow fault I (fun _ _ => True)
        (fun _ _ => True) s :=
    fun hq => solo_still_bind (fun _ => hq) fun _ => trivial
  unfold guarded
  rcases hbody with ⟨status, rfl⟩ | ⟨⟨reason, rfl⟩, hsignal⟩
  · exact Prog.solo_bind (Prog.solo_attempt (released trivial))
  · refine Prog.solo_bind (Prog.solo_attempt ?_)
    refine Prog.solo_bind (Prog.solo_bind (solo_consult fun aborted ha => ?_))
    have haborted : id aborted = false := by
      cases aborted with
      | false => rfl
      | true => exact absurd ha hsignal
    rw [haborted]
    exact released trivial

theorem solo_execute_compensation (hc : s.workOrder.isCompensation = true)
    (haccepted : s.truth.projection.status ≠ .accepted)
    (h : s.truth.projection.status = .suspended ∨ ¬ allow .aborted true) :
    (execute K runId).solo allow fault (fun s' => ¬ Further s s')
      (fun _ _ => True) (fun _ _ => True) s := by
  unfold execute getRun
  refine solo_still_bind (fun claims => ?_) fun _ => trivial
  refine Prog.solo_bind (solo_still_bind (fun _ => ?_) fun _ => trivial)
  refine Prog.solo_bind (Prog.solo_read ?_)
  refine solo_still_bind (fun _ => Prog.solo_pure ?_) fun _ => trivial
  split
  · trivial
  · refine Prog.solo_bind (Prog.solo_read ?_)
    rw [if_pos (by simpa using hc)]
    unfold executeCompensation
    refine Prog.solo_bind ?_
    refine solo_still_bind (fun definition => ?_) fun _ => trivial
    refine solo_still_bind (fun registration => ?_) fun _ => trivial
    refine solo_still_bind (fun lease => ?_) fun _ => trivial
    refine (solo_guarded_refused ?_).mono (fun _ _ _ => trivial) fun _ _ _ => trivial
    unfold compensationBody
    rcases h with hs | hsignal
    · exact .inl ⟨.parked, if_pos hs⟩
    · by_cases hs : s.truth.projection.status = .suspended
      · exact .inl ⟨.parked, if_pos hs⟩
      · exact .inr ⟨⟨_, by rw [if_neg hs, if_pos haccepted]⟩, hsignal⟩

end Executions

/-! ### A host that lets a compensation run go on -/

/-- The host has the services and the registrations of the compensation, gives its lease and
can tell the time. -/
structure Cooperates (K : Config) (allow : (q : Query) → Answer q → Prop) (s : Store) : Prop where
  services : K.compensationServices = true
  authority : ∃ claims : Claims, claims.runScope = none ∧ allow .verifyAuthority (.ok claims)
  registered : ∃ (d : CompensationRunDefinition) (r : ToolRegistration),
    allow (.resolveCompensation s.workOrder.executionDefinition) (.ok (some d)) ∧
    compensationDefinitionMismatch s.workOrder d = false ∧
    allow (.resolveTool d.compensationToolRegistrationDigest) (some r) ∧
    r.id = d.compensationToolId ∧ r.implementationVersion = d.compensationToolVersion ∧
    r.toolRegistrationDigest = d.compensationToolRegistrationDigest ∧
    r.effectStrategyKind ≠ none
  switches : ∀ kind key, allow (.isKilled kind key) false
  lease : ∃ lease, allow .acquireLease (.ok (some lease)) ∧ allow (.renewLease lease) (.ok ())
  clock : ∃ now : Instant, allow .now now
  signal : ∃ aborted : Bool, allow .aborted aborted
  ids : ∀ kind, ∃ id : String, allow (.generateId kind) id

section Cooperates

variable {wo : WorkOrder} {lease : RunLease}

theorem ran_compensationKilled (h : Cooperates K allow s) (w : WorkOrder) :
    (compensationKilled w).Ran allow fault s s (some (.ok false)) := by
  unfold compensationKilled
  split
  · exact .pure false s
  · refine .bind (.ask false (h.switches _ _) (.pure _ s)) ?_
    exact .bind (.ask false (h.switches _ _) (.pure _ s)) (.pure _ s)

theorem ran_compensationDefinition (h : Cooperates K allow s) {d : CompensationRunDefinition}
    (hd : allow (.resolveCompensation s.workOrder.executionDefinition) (.ok (some d)))
    (hm : compensationDefinitionMismatch s.workOrder d = false) :
    (compensationDefinition K s.workOrder).Ran allow fault s s (some (.ok d)) := by
  unfold compensationDefinition
  refine .bind (Prog.ran_throwIf (not_not.mpr h.services) s) ?_
  refine .bind (.ask (.ok (some d)) hd (.pure _ s)) ?_
  refine .bind (ran_compensationKilled h s.workOrder) ?_
  refine .bind (Prog.ran_throwIf (by simp) s) ?_
  simp only [Option.filter_some, hm, Bool.not_false, if_true]
  exact .pure d s

theorem ran_compensationTool {d : CompensationRunDefinition} {r : ToolRegistration}
    (hr : allow (.resolveTool d.compensationToolRegistrationDigest) (some r))
    (hd : r.id = d.compensationToolId ∧ r.implementationVersion = d.compensationToolVersion ∧
      r.toolRegistrationDigest = d.compensationToolRegistrationDigest ∧
      r.effectStrategyKind ≠ none) :
    (compensationTool d).Ran allow fault s s (some (.ok r)) := by
  unfold compensationTool
  refine .bind (.ask (some r) hr (.pure _ s)) ?_
  have hfilter : (some r).filter (fun r => decide (r.id = d.compensationToolId ∧
      r.implementationVersion = d.compensationToolVersion ∧
      r.toolRegistrationDigest = d.compensationToolRegistrationDigest ∧
      r.effectStrategyKind ≠ none)) = some r := by
    simp [Option.filter_some, hd]
  simp only [id, hfilter]
  exact .pure r s

theorem ran_verifyAuthority {operation : String} {claims : Claims}
    (hscope : claims.runScope = none) (h : allow .verifyAuthority (.ok claims)) :
    (verifyAuthority operation runId).Ran allow fault s s (some (.ok claims)) := by
  unfold verifyAuthority
  refine .bind (.ask (.ok claims) h (.pure _ s)) ?_
  refine .bind (Prog.ran_throwIf (by simp [hscope]) s) ?_
  exact .bind (Prog.ran_throwIf (by simp [hscope]) s) (.pure claims s)

/-- What the body of an execution may commit, the execution may commit. -/
theorem may_execute_compensation (h : Cooperates K allow s)
    (hc : s.workOrder.isCompensation = true) (hlive : s.truth.projection.status.terminal = false)
    (hbody : ∀ claims d r lease, allow (.renewLease lease) (.ok ()) →
      (guarded K s.workOrder lease claims (compensationBody K s.workOrder d r
        s.truth.projection lease)).May allow fault (Further s) s) :
    (execute K runId).May allow fault (Further s) s := by
  obtain ⟨claims, hscope, hclaims⟩ := h.authority
  obtain ⟨d, r, hd, hm, hr, hbound⟩ := h.registered
  obtain ⟨lease, hlease, hrenew⟩ := h.lease
  have hscoped : (assertAuthorityWorkOrderScope claims s.truth.projection).Ran allow fault s s
      (some (.ok ())) := Prog.ran_throwIf (by simp [hscope]) s
  have hacquired : acquire.Ran allow fault s s (some (.ok lease)) :=
    .bind (.ask (.ok (some lease)) hlease (.pure _ s)) (.pure lease s)
  unfold execute getRun
  refine Prog.may_after (ran_verifyAuthority hscope hclaims) ?_
  refine Prog.may_after (.bind (ran_verifyAuthority hscope hclaims) (.bind (.look (.pure _ s))
    (.bind hscoped (.pure _ s)))) ?_
  rw [if_neg (by simp [hlive])]
  refine Prog.may_after (.look (.pure _ s)) ?_
  rw [if_pos hc]
  refine Prog.may_bind ?_
  unfold executeCompensation
  refine Prog.may_after (ran_compensationDefinition h hd hm) ?_
  refine Prog.may_after (ran_compensationTool hr hbound) ?_
  exact Prog.may_after hacquired (hbody _ d r lease hrenew)

/-- The event that `#append` makes is new. -/
def NextIdFresh (K : Config) (s : Store) : Prop :=
  ∀ t, ∀ e ∈ s.truth.events, e.eventId ≠
    K.eventId s.workOrder.tenantId s.truth.projection.runId (s.truth.projection.lastSequence + 1) t

/-- `#append` commits an event the reducer accepts. -/
theorem ran_append {payload : EventPayload} {now : Instant}
    (hst : Stream s.workOrder s.truth.events s.truth.projection) (hid : NextIdFresh K s)
    (hlive : s.truth.projection.status.terminal = false)
    (hkind : KindAllowed s.truth.projection.executionDefinition.isCompensation payload)
    (hstatus : StatusAllowed s.truth.projection.status payload)
    (hne : payload.eventType ≠ .RunCompleted)
    (hrenew : allow (.renewLease lease) (.ok ())) (hnow : allow .now now) :
    ∃ s₁ next, (append K s.workOrder s.truth.projection lease payload).Ran allow fault s s₁
      (some (.ok next)) ∧ Further s s₁ := by
  let e : RunEvent :=
    { eventId := K.eventId s.workOrder.tenantId s.truth.projection.runId
        (s.truth.projection.lastSequence + 1) payload.eventType
      runId := s.truth.projection.runId
      tenantId := s.workOrder.tenantId
      sequence := s.truth.projection.lastSequence + 1
      occurredAt := now
      correlationId := s.workOrder.correlationId.getD s.truth.projection.runId
      dataClass := s.workOrder.dataClass
      executionDefinition := s.workOrder.executionDefinition
      executionDefinitionDigest := s.workOrder.executionDefinitionDigest
      payload }
  have hf : Foldable s.truth.projection e :=
    ⟨hlive, rfl, hst.tenant.symm, hst.definitionDigest.symm, hst.definition.symm, rfl, hkind,
      hstatus, fun h => absurd h hne⟩
  have happend := appendTransaction_of (hid payload.eventType) (by rw [← hst.length]) hf
  refine ⟨{ s with truth := s.truth.push e (s.truth.projection.fold e) },
    s.truth.projection.fold e, ?_, ?_⟩
  · refine .bind (.ask (.ok ()) hrenew (.pure _ s)) ?_
    refine .bind (.ask now hnow (.pure _ s)) ?_
    refine .bind (Prog.ran_ofExcept (reduceRunEvent_ok.mpr ⟨hf, rfl⟩) s) ?_
    refine .bind (.pure none s) ?_
    exact .bind (Prog.ran_commit happend) (.pure _ _)
  · simp [Further, RunTruth.push]

/-- A compensation run that is not over, on a coherent stream. -/
structure Compensating (K : Config) (s : Store) : Prop where
  kind : s.workOrder.isCompensation = true
  stream : Stream s.workOrder s.truth.events s.truth.projection
  fresh : NextIdFresh K s
  live : s.truth.projection.status.terminal = false
  born : s.truth.projection.status ≠ .created

/-- The end of a run may be appended from every status it has before. -/
theorem Compensating.ran_end {now : Instant} (h : Compensating K s) (payload : EventPayload)
    (hp : payload.eventType = .RunCancelled ∨ payload.eventType = .RunFailed)
    (hrenew : allow (.renewLease lease) (.ok ())) (hnow : allow .now now) :
    ∃ s₁ next, (append K s.workOrder s.truth.projection lease payload).Ran allow fault s s₁
      (some (.ok next)) ∧ Further s s₁ := by
  have hborn := h.born
  have hlive := h.live
  refine ran_append h.stream h.fresh hlive ?_ ?_ ?_ hrenew hnow
  · cases payload <;> simp [EventPayload.eventType] at hp <;>
      simp [KindAllowed, EventPayload.eventType, nextStatusFor]
  · cases payload <;> simp [EventPayload.eventType] at hp <;>
      simp only [StatusAllowed, nextStatusFor] <;>
      cases hs : s.truth.projection.status <;>
      simp_all [RUN_TRANSITIONS, RunStatus.terminal]
  · rcases hp with hp | hp <;> rw [hp] <;> decide

/-- Under an aborted signal, the `catch` block of `execute` cancels the run. -/
theorem Compensating.may_abort {actor : String} {e : Thrown} (h : Compensating K s)
    (host : Cooperates K allow s) (hrenew : allow (.renewLease lease) (.ok ()))
    (haborted : allow .aborted true) :
    (executionFailed K s.workOrder lease actor e).May allow fault (Further s) s := by
  obtain ⟨now, hnow⟩ := host.clock
  have hend : ∃ s₁ next, (append K s.workOrder s.truth.projection lease
      (.RunCancelled s.truth.projection.currentStepId "abort_signal" actor)).Ran allow fault s s₁
      (some (.ok next)) ∧ Further s s₁ := h.ran_end _ (.inl rfl) hrenew hnow
  obtain ⟨s₁, next, hran, hfurther⟩ := hend
  refine Prog.may_after (.ask true haborted (.pure _ s)) ?_
  refine Prog.may_after (.look (.pure _ s)) ?_
  rw [if_neg (by simp [h.live])]
  exact Prog.may_bind (Prog.may_of_ran hran hfurther)

/-- An error that ends the run does so. -/
theorem Compensating.may_fail {actor : String} {e : Thrown} {failure : KafError}
    (h : Compensating K s) (host : Cooperates K allow s)
    (hrenew : allow (.renewLease lease) (.ok ())) (haborted : allow .aborted false)
    (he : terminalRunError e = some failure) :
    (executionFailed K s.workOrder lease actor e).May allow fault (Further s) s := by
  obtain ⟨now, hnow⟩ := host.clock
  have hend : ∃ s₁ next, (append K s.workOrder s.truth.projection lease
      (.RunFailed s.truth.projection.currentStepId failure.code failure.details)).Ran allow fault
      s s₁ (some (.ok next)) ∧ Further s s₁ := h.ran_end _ (.inr rfl) hrenew hnow
  obtain ⟨s₁, next, hran, hfurther⟩ := hend
  refine Prog.may_after (.ask false haborted (.pure _ s)) ?_
  rw [if_neg (by simp)]
  unfold terminalizeExecutionFailure
  simp only [he]
  refine Prog.may_after (.look (.pure _ s)) ?_
  rw [if_neg (by simp [h.live])]
  exact Prog.may_bind (Prog.may_of_ran hran hfurther)

/-- A boundary check passes, or it ends the run. -/
theorem ran_assertBoundary {w : WorkOrder} {d : BoundaryDispatch} {u : Usage} {now : Instant}
    (haborted : allow .aborted false) (hnow : allow .now now) :
    (assertBoundary w d u).Ran allow fault s s (some (.ok ())) ∨
      ∃ e failure, terminalRunError e = some failure ∧
        (assertBoundary w d u).Ran allow fault s s (some (.error e)) := by
  have elapsed : ∃ b, (deadlineElapsed w.deadline).Ran allow fault s s (some (.ok b)) := by
    unfold deadlineElapsed
    split
    · exact ⟨false, .pure false s⟩
    · exact ⟨_, .ask now hnow (.pure _ s)⟩
  obtain ⟨b, hb⟩ := elapsed
  have hfirst : ∀ {r}, ((deadlineElapsed w.deadline).bind fun elapsed => do
      Prog.throwIf elapsed (kafReason .KAF_RUNTIME_TERMINAL "deadline_elapsed")
      Prog.throwIf (u.exhausted d w.budget) (budgetExhausted d)).Ran allow fault s s r →
      (assertBoundary w d u).Ran allow fault s s r := fun hr =>
    .bind (.ask false haborted (.pure _ s)) (.bind (Prog.ran_throwIf (by simp) s) hr)
  cases b with
  | true =>
      refine .inr ⟨kafReason .KAF_RUNTIME_TERMINAL "deadline_elapsed", _, rfl,
        hfirst (.bind hb (Prog.Ran.bind_throws ?_))⟩
      exact .throw _ s
  | false =>
      by_cases hex : u.exhausted d w.budget = true
      · refine .inr ⟨budgetExhausted d, _, rfl,
          hfirst (.bind hb (.bind (Prog.ran_throwIf (by simp) s) ?_))⟩
        rw [Prog.throwIf, if_pos hex]
        exact .throw _ s
      · exact .inl (hfirst (.bind hb (.bind (Prog.ran_throwIf (by simp) s)
          (Prog.ran_throwIf hex s))))

theorem may_guarded {w : WorkOrder} {actor : String} {body : Runtime TurnOutcome}
    (h : body.May allow fault (Further s) s ∨
      ∃ e, body.Ran allow fault s s (some (.error e)) ∧
        (executionFailed K w lease actor e).May allow fault (Further s) s) :
    (guarded K w lease actor body).May allow fault (Further s) s := by
  unfold guarded
  refine Prog.may_bind (Prog.may_attempt ?_)
  rcases h with hbody | ⟨e, hthrows, hcaught⟩
  · exact Prog.may_tryCatch hbody
  · exact Prog.may_caught hthrows (Prog.may_bind hcaught)

/-- An accepted compensation starts, or it ends with what keeps it from starting. -/
theorem Compensating.may_start {actor : String} {d : CompensationRunDefinition}
    {r : ToolRegistration} (h : Compensating K s) (host : Cooperates K allow s)
    (haccepted : s.truth.projection.status = .accepted)
    (hrenew : allow (.renewLease lease) (.ok ())) (haborted : allow .aborted false) :
    (guarded K s.workOrder lease actor
      (compensationBody K s.workOrder d r s.truth.projection lease)).May allow fault
      (Further s) s := by
  obtain ⟨now, hnow⟩ := host.clock
  obtain ⟨step, hstep⟩ := host.ids "compensation_step"
  obtain ⟨call, hcall⟩ := host.ids "compensation_tool_call"
  refine may_guarded ?_
  unfold compensationBody
  rw [if_neg (by simp [haccepted]), if_neg (by simp [haccepted])]
  have hboundary : (assertBoundary s.workOrder .tool ⟨0, 0, 0, 0⟩).Ran allow fault s s
        (some (.ok ())) ∨ ∃ e failure, terminalRunError e = some failure ∧
      (assertBoundary s.workOrder .tool ⟨0, 0, 0, 0⟩).Ran allow fault s s (some (.error e)) :=
    ran_assertBoundary haborted hnow
  rcases hboundary with hok | ⟨e, failure, hfailure, hthrows⟩
  · left
    have hstart : ∃ s₁ next, (append K s.workOrder s.truth.projection lease
        (.ExecutionStarted step (some call))).Ran allow fault s s₁ (some (.ok next)) ∧
          Further s s₁ := by
      refine ran_append h.stream h.fresh h.live ?_ ?_ (by simp [EventPayload.eventType]) hrenew hnow
      · simp [KindAllowed, EventPayload.eventType, nextStatusFor]
      · simp [StatusAllowed, nextStatusFor, haccepted, RUN_TRANSITIONS]
    obtain ⟨s₁, next, hran, hfurther⟩ := hstart
    refine Prog.may_bind ?_
    unfold compensate
    refine Prog.may_after (.ask step hstep (.pure _ s)) ?_
    refine Prog.may_after (.ask call hcall (.pure _ s)) ?_
    exact Prog.may_after hok (Prog.may_bind (Prog.may_of_ran hran hfurther))
  · right
    refine ⟨e, ?_, h.may_fail host hrenew haborted hfailure⟩
    refine Prog.Ran.bind_throws ?_
    unfold compensate
    refine .bind (.ask step hstep (.pure _ s)) ?_
    refine .bind (.ask call hcall (.pure _ s)) ?_
    exact .bind_throws hthrows

/-- An accepted compensation under an aborted signal is cancelled. -/
theorem Compensating.may_start_aborted {actor : String} {d : CompensationRunDefinition}
    {r : ToolRegistration} (h : Compensating K s) (host : Cooperates K allow s)
    (haccepted : s.truth.projection.status = .accepted)
    (hrenew : allow (.renewLease lease) (.ok ())) (haborted : allow .aborted true) :
    (guarded K s.workOrder lease actor
      (compensationBody K s.workOrder d r s.truth.projection lease)).May allow fault
      (Further s) s := by
  obtain ⟨step, hstep⟩ := host.ids "compensation_step"
  obtain ⟨call, hcall⟩ := host.ids "compensation_tool_call"
  refine may_guarded (.inr ⟨.abort, ?_, h.may_abort host hrenew haborted⟩)
  unfold compensationBody compensate
  rw [if_neg (by simp [haccepted]), if_neg (by simp [haccepted])]
  refine Prog.Ran.bind_throws ?_
  refine .bind (.ask step hstep (.pure _ s)) ?_
  refine .bind (.ask call hcall (.pure _ s)) ?_
  refine .bind_throws (.bind (.ask true haborted (.pure _ s)) (.bind_throws ?_))
  exact .throw Thrown.abort s

/-- **When a compensation run can be driven on.**  One of `execute`, `cancel` and
`reconcileEffect` may commit an event for a compensation run exactly when it has not started, or
when it is not suspended and the signal of an `execute` may be aborted. -/
theorem compensation_alive_iff (h : Compensating K s) (host : Cooperates K allow s) :
    Alive K runId allow fault s ↔
      s.truth.projection.status = .accepted ∨
        (s.truth.projection.status ≠ .suspended ∧ allow .aborted true) := by
  constructor
  · intro halive
    by_contra hnot
    obtain ⟨haccepted, hsignal⟩ := not_or.mp hnot
    have hstuck : s.truth.projection.status = .suspended ∨ ¬ allow .aborted true := by
      by_cases hs : s.truth.projection.status = .suspended
      · exact .inl hs
      · exact .inr fun ha => hsignal ⟨hs, ha⟩
    rcases halive with hmay | ⟨reason, command, hmay⟩ | ⟨effectId, resolution, command, hmay⟩
    · exact Prog.not_may (solo_execute_compensation h.kind haccepted hstuck) (not_further s) hmay
    · exact Prog.not_may (solo_cancel_compensation h.kind h.live) (not_further s) hmay
    · exact Prog.not_may (solo_reconcileEffect_compensation h.kind) (not_further s) hmay
  · intro hcond
    refine .inl (may_execute_compensation host h.kind h.live fun actor d r lease hrenew => ?_)
    by_cases haccepted : s.truth.projection.status = .accepted
    · obtain ⟨aborted, haborted⟩ := host.signal
      cases aborted with
      | false => exact h.may_start host haccepted hrenew haborted
      | true => exact h.may_start_aborted host haccepted hrenew haborted
    · obtain ⟨hs, haborted⟩ := hcond.resolve_left haccepted
      refine may_guarded (.inr ⟨kafReason .KAF_RUNTIME_INVALID_TRANSITION
        "compensation_requires_accepted_checkpoint", ?_, h.may_abort host hrenew haborted⟩)
      unfold compensationBody
      rw [if_neg hs, if_pos haccepted]
      exact .throw _ s

end Cooperates

section Samples

set_option maxRecDepth 10000

namespace Host

/-- A runtime with compensation services. -/
def compensatingConfig : Config := { config with compensationServices := true }

/-- The work order of a compensation. -/
def compensationOrder : WorkOrder :=
  { workOrder ⟨0, 0, 1, 1000, none, none, none, none, none, none, none⟩ with
    executionDefinition :=
      .compensation "compensation" "1" "run-definition" "agent" "effect" "strategy" "tool"
    originalRunId := "original"
    originalEffectDigest := "effect" }

/-- The event that accepts it. -/
def compensationAccepted : RunEvent :=
  { accepted with executionDefinition := compensationOrder.executionDefinition }

/-- The store of a compensation run that has just been accepted. -/
def compensationStore : Store :=
  { store compensationOrder.budget with
    workOrder := compensationOrder
    truth :=
      { (store compensationOrder.budget).truth with
        events := [compensationAccepted]
        projection :=
          (createRunProjection (compensationAccepted.run "order" "binding")).fold
            compensationAccepted } }

/-- The tool that compensates. -/
def compensatingTool : ToolRegistration where
  id := "tool"
  implementationVersion := "1"
  toolRegistrationDigest := "tool"
  effectStrategyKind := some .native
  effectStrategyRegistrationDigest := "strategy"
  previewStrategyRegistrationDigest := none
  outputSchemaDigest := "schema"
  riskClass := .R3
  requiredScopes := []
  maxCallsPerRun := 1

/-- A host that knows the compensation. -/
def compensating : Host where
  tool := some compensatingTool
  compensation := some
    { compensationRunDefinitionDigest := "run-definition"
      originalAgentDefinitionDigest := "agent"
      compensationStrategyRegistrationDigest := "strategy"
      compensationToolRegistrationDigest := "tool"
      compensationToolId := "tool"
      compensationToolVersion := "1"
      policyRegistrationDigest := "policy" }

/-- The run after its worker was lost right after `ExecutionStarted`. -/
def compensationStarted : Store :=
  (execute compensatingConfig "run").crash compensating.answers 1 compensationStore

theorem compensating_store : Compensating compensatingConfig compensationStore where
  kind := rfl
  stream := .of_map (by decide) (by decide) (by decide) (by decide) (by decide) (by decide)
  fresh t e he := by
    rw [List.mem_singleton.mp he]
    cases t <;> decide
  live := rfl
  born := by decide

theorem cooperates_store : Cooperates compensatingConfig compensating.Answers compensationStore where
  services := rfl
  authority := ⟨claims, rfl, rfl⟩
  registered := ⟨_, compensatingTool, rfl, rfl, rfl, rfl, rfl, rfl, nofun⟩
  switches _ _ := rfl
  lease := ⟨lease, rfl, rfl⟩
  clock := ⟨0, rfl⟩
  signal := ⟨false, rfl⟩
  ids kind := ⟨kind, rfl⟩

end Host

/-- An accepted compensation run can be driven on. -/
theorem compensation_alive_accepted :
    Alive Host.compensatingConfig "run" Host.compensating.Answers (fun _ => False)
      Host.compensationStore :=
  (compensation_alive_iff Host.compensating_store Host.cooperates_store).mpr (.inl rfl)

/-- A compensation run whose worker was lost after its first event: it is running, it is not
over, and no call drives it on. -/
theorem compensation_run_is_dead :
    (execute Host.compensatingConfig "run").Ran Host.compensating.Answers (fun _ => False)
        Host.compensationStore Host.compensationStarted none ∧
      Host.compensationStarted.truth.events.map (·.eventType) = [.RunAccepted, .ExecutionStarted] ∧
      Host.compensationStarted.truth.projection.status.terminal = false ∧
      ¬ Alive Host.compensatingConfig "run" Host.compensating.Answers (fun _ => False)
        Host.compensationStarted := by
  refine ⟨Prog.ran_crash Host.compensating.answers_self .., rfl, rfl, ?_⟩
  have hsignal : ¬ Host.compensating.Answers .aborted true := nofun
  rintro (hmay | ⟨reason, command, hmay⟩ | ⟨effectId, resolution, command, hmay⟩)
  · exact Prog.not_may (solo_execute_compensation rfl (by decide) (.inr hsignal)) (not_further _)
      hmay
  · exact Prog.not_may (solo_cancel_compensation rfl rfl) (not_further _) hmay
  · exact Prog.not_may (solo_reconcileEffect_compensation rfl) (not_further _) hmay

end Samples

end Pactmark
