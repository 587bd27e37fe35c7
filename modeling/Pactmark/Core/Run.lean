import Pactmark.Core.Values

/-!
# Core — runs and their events

`core/src/run.ts` and `core/src/events.ts`: the statuses of a run, the events of its stream,
and `reduceRunEvent`, which folds an event into the projection of the run or rejects it.
-/

namespace Pactmark

/-- `RunStatusSchema`. -/
inductive RunStatus where
  | created
  | accepted
  | planning
  | running
  | waiting_for_input
  | waiting_for_approval
  | suspended
  | verifying
  | completed
  | failed
  | cancelled
  deriving DecidableEq, Repr

/-- `TerminalRunStatusSchema.safeParse(status).success`. -/
def RunStatus.terminal : RunStatus → Bool
  | .completed | .failed | .cancelled => true
  | _ => false

/-- `ResumeTargetSchema`. -/
inductive ResumeTarget where
  | planning
  | running
  | verifying
  deriving DecidableEq, Repr

/-- `RUN_TRANSITIONS`. -/
def RUN_TRANSITIONS : RunStatus → List RunStatus
  | .created => [.accepted, .failed]
  | .accepted => [.planning, .running, .waiting_for_approval, .failed, .cancelled]
  | .planning =>
      [.running, .waiting_for_input, .waiting_for_approval, .suspended, .failed, .cancelled]
  | .running =>
      [.planning, .waiting_for_input, .waiting_for_approval, .verifying, .suspended, .failed,
        .cancelled]
  | .waiting_for_input => [.planning, .failed, .cancelled]
  | .waiting_for_approval => [.running, .planning, .failed, .cancelled]
  | .suspended => [.planning, .running, .verifying, .failed, .cancelled]
  | .verifying =>
      [.completed, .planning, .waiting_for_input, .waiting_for_approval, .suspended, .failed,
        .cancelled]
  | .completed | .failed | .cancelled => []

/-- `DataClassSchema`; `public_data` is its `public`. -/
inductive DataClass where
  | public_data
  | internal
  | confidential
  | restricted
  | highly_restricted
  deriving DecidableEq, Repr

/-- `ExecutionDefinitionRefSchema`. -/
inductive ExecutionDefinition where
  | agent (id version : String) (agentDefinitionDigest : Digest)
  | compensation (id version : String) (compensationRunDefinitionDigest : Digest)
      (originalAgentDefinitionDigest originalEffectDigest : Digest)
      (compensationStrategyRegistrationDigest compensationToolRegistrationDigest : Digest)
  deriving DecidableEq, Repr

/-- `executionDefinition.kind === "compensation"`. -/
def ExecutionDefinition.isCompensation : ExecutionDefinition → Bool
  | .agent .. => false
  | .compensation .. => true

/-- `EffectStrategyKindSchema`. -/
inductive EffectStrategyKind where
  | native
  | transactional
  | reconcilable
  | none
  deriving DecidableEq, Repr

/-- `proofKind` of an acknowledgement. -/
inductive ProofKind where
  | receiver_receipt
  | transaction_commit
  | successful_response
  | lookup_recovery
  deriving DecidableEq, Repr

/-- `EffectAcknowledgementSchema`. -/
structure EffectAcknowledgement where
  acknowledgementId : String
  proofKind : ProofKind
  effectKey : String
  operationKey : Option String
  toolRegistrationDigest : Digest
  strategyRegistrationDigest : Digest
  normalizedTargetDigest : Digest
  resultSchemaDigest : Digest
  resultDigest : Digest
  proofDigest : Digest
  acknowledgedAt : Instant
  deriving DecidableEq, Repr

/-- The boundary of a retry. -/
inductive RetryBoundary where
  | model
  | tool
  deriving DecidableEq, Repr

/-- The status of a verification. -/
inductive VerificationStatus where
  | pass
  | fail
  | needs_review
  deriving DecidableEq, Repr

/-- `resolution` of an `EffectReconciliationRecorded` event. -/
inductive ResolutionKind where
  | recovered_acknowledgement
  | abandon_uncertain
  deriving DecidableEq, Repr

/-- `eventType` and `payload` of a `RunEvent`. -/
inductive EventPayload where
  | RunAccepted (workOrderId : String) (workOrderBindingDigest : Digest)
      (requiredVerifierIds : List String)
  | PlanningStarted (stepId : String)
  | ModelCallStarted (stepId modelCallReservationId : String) (requestDigest : Digest)
  | ModelCallCompleted (stepId modelCallReservationId : String) (responseDigest : Digest)
      (finishReason : String)
  | ExecutionStarted (stepId : String) (toolCallId : Option String)
  | ToolCallRequested (stepId toolCallId : String)
      (toolRegistrationDigest argumentsDigest : Digest)
  | ToolCallCompleted (stepId toolCallId : String) (resultDigest : Digest)
  | RetryScheduled (stepId : String) (boundary : RetryBoundary) (boundaryKey : String)
      (attempt nextAttempt : Nat) (classification : BoundaryErrorClassification)
      (delayMs : Nat) (notBefore : Instant)
  | RetryResumed (stepId : String) (boundary : RetryBoundary) (boundaryKey : String)
      (attempt : Nat)
  | InputRequested (stepId requestId : String) (inputSchemaDigest : Digest)
      (safePrompt : String)
  | InputSubmitted (stepId requestId inputSubmissionRecordId : String)
      (inputSchemaDigest valueDigest : Digest)
  | ApprovalRequested (stepId decisionId : String)
      (decisionGateDigest proposedEffectDigest : Digest)
  | ApprovalRecorded (stepId decisionId approvalId : String) (resumeTarget : ResumeTarget)
  | ApprovalRejected (stepId decisionId : String) (nextStatus : RunStatus)
      (reasonCode : String)
  | EffectPrepared (stepId effectId : String) (effectDigest : Digest) (effectKey : String)
      (strategy : EffectStrategyKind)
  | EffectDispatched (stepId effectId : String) (attempt : Nat)
  | EffectAcknowledged (stepId effectId : String) (resultDigest : Digest)
      (acknowledgement : EffectAcknowledgement)
  | EffectUncertain (stepId effectId uncertaintyCode : String)
  | EffectNeedsReconciliation (stepId effectId : String)
  | EffectReconciliationRecorded (stepId effectId : String) (resolution : ResolutionKind)
      (commandId : String)
  | EffectAbandoned (stepId effectId reason : String)
  | CompensationRequested (stepId originalRunId : String) (originalEffectDigest : Digest)
      (compensationRunId : String)
  | EffectCompensated (stepId : String)
      (originalEffectDigest compensationEffectDigest acknowledgementDigest : Digest)
  | ArtifactProduced (stepId artifactId : String) (artifactDigest : Digest)
  | VerificationStarted (stepId : String) (artifactDigest : Digest)
  | VerificationRecorded (stepId verificationId verifierId : String)
      (status : VerificationStatus) (verificationDigest : Digest)
  | VerificationExceptionRecorded (stepId exceptionId verifierId : String)
  | RunSuspended (stepId : String) (resumeTarget : ResumeTarget) (reasonCode : String)
      (effectId : Option String)
  | RunCompleted (stepId evidenceRecordId : String) (outputDigest : Digest)
  | RunFailed (stepId : Option String) (errorCode : KafErrorCode) (safeDetails : ErrorDetails)
  | RunCancelled (stepId : Option String) (reasonCode actorId : String)
  deriving DecidableEq, Repr

/-- `RunEventType`. -/
inductive RunEventType where
  | RunAccepted | PlanningStarted | ModelCallStarted | ModelCallCompleted | ExecutionStarted
  | ToolCallRequested | ToolCallCompleted | RetryScheduled | RetryResumed | InputRequested
  | InputSubmitted | ApprovalRequested | ApprovalRecorded | ApprovalRejected | EffectPrepared
  | EffectDispatched | EffectAcknowledged | EffectUncertain | EffectNeedsReconciliation
  | EffectReconciliationRecorded | EffectAbandoned | CompensationRequested | EffectCompensated
  | ArtifactProduced | VerificationStarted | VerificationRecorded
  | VerificationExceptionRecorded | RunSuspended | RunCompleted | RunFailed | RunCancelled
  deriving DecidableEq, Repr

/-- `event.eventType`. -/
def EventPayload.eventType : EventPayload → RunEventType
  | .RunAccepted .. => .RunAccepted
  | .PlanningStarted .. => .PlanningStarted
  | .ModelCallStarted .. => .ModelCallStarted
  | .ModelCallCompleted .. => .ModelCallCompleted
  | .ExecutionStarted .. => .ExecutionStarted
  | .ToolCallRequested .. => .ToolCallRequested
  | .ToolCallCompleted .. => .ToolCallCompleted
  | .RetryScheduled .. => .RetryScheduled
  | .RetryResumed .. => .RetryResumed
  | .InputRequested .. => .InputRequested
  | .InputSubmitted .. => .InputSubmitted
  | .ApprovalRequested .. => .ApprovalRequested
  | .ApprovalRecorded .. => .ApprovalRecorded
  | .ApprovalRejected .. => .ApprovalRejected
  | .EffectPrepared .. => .EffectPrepared
  | .EffectDispatched .. => .EffectDispatched
  | .EffectAcknowledged .. => .EffectAcknowledged
  | .EffectUncertain .. => .EffectUncertain
  | .EffectNeedsReconciliation .. => .EffectNeedsReconciliation
  | .EffectReconciliationRecorded .. => .EffectReconciliationRecorded
  | .EffectAbandoned .. => .EffectAbandoned
  | .CompensationRequested .. => .CompensationRequested
  | .EffectCompensated .. => .EffectCompensated
  | .ArtifactProduced .. => .ArtifactProduced
  | .VerificationStarted .. => .VerificationStarted
  | .VerificationRecorded .. => .VerificationRecorded
  | .VerificationExceptionRecorded .. => .VerificationExceptionRecorded
  | .RunSuspended .. => .RunSuspended
  | .RunCompleted .. => .RunCompleted
  | .RunFailed .. => .RunFailed
  | .RunCancelled .. => .RunCancelled

/-- `RunEventSchema`. -/
structure RunEvent where
  eventId : String
  runId : String
  tenantId : String
  sequence : Nat
  occurredAt : Instant
  correlationId : String
  dataClass : DataClass
  executionDefinition : ExecutionDefinition
  executionDefinitionDigest : Digest
  payload : EventPayload
  deriving DecidableEq, Repr

/-- `event.eventType`. -/
def RunEvent.eventType (e : RunEvent) : RunEventType :=
  e.payload.eventType

/-- `RunSchema`. -/
structure Run where
  runId : String
  tenantId : String
  workOrderId : String
  workOrderBindingDigest : Digest
  executionDefinition : ExecutionDefinition
  executionDefinitionDigest : Digest
  status : RunStatus
  createdAt : Instant
  updatedAt : Instant
  dataClass : DataClass
  correlationId : String
  deriving DecidableEq, Repr

/-- `RunProjectionSchema`. -/
structure RunProjection extends Run where
  lastSequence : Nat
  lastEventId : Option String
  currentStepId : Option String
  resumeTarget : Option ResumeTarget
  waitingRequestId : Option String
  waitingDecisionId : Option String
  activeEffectId : Option String
  artifactIds : List String
  verificationIds : List String
  requiredVerifierIds : List String
  passedVerifierIds : List String
  verificationExceptionIds : List String
  terminalErrorCode : Option KafErrorCode
  deriving DecidableEq, Repr

/-! ### The reducer -/

/-- `STATE_PRESERVING_EVENTS`. -/
def STATE_PRESERVING_EVENTS : RunStatus → List RunEventType
  | .planning => [.ModelCallStarted, .ModelCallCompleted, .RetryScheduled, .RetryResumed]
  | .running =>
      [.ToolCallRequested, .ToolCallCompleted, .RetryScheduled, .RetryResumed, .EffectPrepared,
        .EffectDispatched, .EffectAcknowledged, .EffectUncertain, .ArtifactProduced,
        .CompensationRequested, .EffectCompensated]
  | .suspended =>
      [.EffectNeedsReconciliation, .EffectReconciliationRecorded, .EffectAcknowledged]
  | .verifying => [.VerificationRecorded, .VerificationExceptionRecorded]
  | _ => []

/-- The status a run is resumed to. -/
def ResumeTarget.status : ResumeTarget → RunStatus
  | .planning => .planning
  | .running => .running
  | .verifying => .verifying

/-- `nextStatusFor`. -/
def nextStatusFor : EventPayload → Option RunStatus
  | .RunAccepted .. => some .accepted
  | .PlanningStarted .. => some .planning
  | .ExecutionStarted .. => some .running
  | .InputRequested .. => some .waiting_for_input
  | .InputSubmitted .. => some .planning
  | .ApprovalRequested .. => some .waiting_for_approval
  | .ApprovalRecorded _ _ _ resumeTarget => some resumeTarget.status
  | .ApprovalRejected _ _ nextStatus _ => some nextStatus
  | .VerificationStarted .. => some .verifying
  | .RunSuspended .. => some .suspended
  | .RunCompleted .. => some .completed
  | .RunFailed .. => some .failed
  | .RunCancelled .. => some .cancelled
  | _ => none

/-- `assertKindAllowed`. -/
def assertKindAllowed (projection : RunProjection) (payload : EventPayload)
    (next : Option RunStatus) : Except Thrown Unit := do
  if projection.executionDefinition.isCompensation then
    if payload.eventType ∈ [.PlanningStarted, .ModelCallStarted, .ModelCallCompleted,
        .InputRequested, .InputSubmitted] ∨ next = some .planning then
      throw (kafReason .KAF_RUNTIME_INVALID_TRANSITION "compensation_has_no_model_or_input")
  if payload.eventType = .CompensationRequested ∧
      ¬ projection.executionDefinition.isCompensation then
    throw (kafReason .KAF_RUNTIME_INVALID_TRANSITION
      "compensation_event_requires_compensation_run")

/-- `eventValue.payload.stepId`, for the events that set `currentStepId`. -/
def EventPayload.currentStep : EventPayload → Option String
  | .PlanningStarted stepId | .ExecutionStarted stepId _ | .InputRequested stepId _ _ _
  | .InputSubmitted stepId _ _ _ _ | .ApprovalRequested stepId _ _ _
  | .ApprovalRecorded stepId _ _ _ | .ApprovalRejected stepId _ _ _
  | .VerificationStarted stepId _ | .RunSuspended stepId _ _ _ | .RunCompleted stepId _ _ =>
      some stepId
  | _ => none

/-- `[...new Set([...ids, id])]`. -/
def addId (ids : List String) (id : String) : List String :=
  if id ∈ ids then ids else ids ++ [id]

/-- The second `switch` of `reduceRunEvent`. -/
def RunProjection.apply (base : RunProjection) : EventPayload → RunProjection
  | .RunAccepted _ _ requiredVerifierIds => { base with requiredVerifierIds }
  | .InputRequested _ requestId _ _ => { base with waitingRequestId := some requestId }
  | .InputSubmitted .. => { base with waitingRequestId := none }
  | .ApprovalRequested _ decisionId _ _ => { base with waitingDecisionId := some decisionId }
  | .ApprovalRecorded .. | .ApprovalRejected .. => { base with waitingDecisionId := none }
  | .RunSuspended _ resumeTarget _ effectId =>
      { base with resumeTarget := some resumeTarget, activeEffectId := effectId }
  | .PlanningStarted .. | .ExecutionStarted .. | .VerificationStarted .. =>
      { base with resumeTarget := none }
  | .EffectPrepared _ effectId _ _ _ => { base with activeEffectId := some effectId }
  | .EffectAcknowledged .. | .EffectAbandoned .. => { base with activeEffectId := none }
  | .ArtifactProduced _ artifactId _ =>
      { base with artifactIds := base.artifactIds ++ [artifactId] }
  | .VerificationRecorded _ verificationId verifierId status _ =>
      { base with
        verificationIds := base.verificationIds ++ [verificationId]
        passedVerifierIds :=
          if status = .pass then addId base.passedVerifierIds verifierId
          else base.passedVerifierIds }
  | .VerificationExceptionRecorded _ _ verifierId =>
      { base with
        verificationExceptionIds := addId base.verificationExceptionIds verifierId }
  | .RunFailed _ errorCode _ => { base with terminalErrorCode := some errorCode }
  | _ => base

/-- `projection` with `event` folded in, once every check has passed. -/
def RunProjection.fold (projection : RunProjection) (event : RunEvent) : RunProjection :=
  RunProjection.apply
    { projection with
      status := (nextStatusFor event.payload).getD projection.status
      lastSequence := event.sequence
      lastEventId := some event.eventId
      updatedAt := event.occurredAt
      currentStepId := event.payload.currentStep.or projection.currentStepId }
    event.payload

/-- `reduceRunEvent`. -/
def reduceRunEvent (projection : RunProjection) (event : RunEvent) :
    Except Thrown RunProjection := do
  if projection.status.terminal then
    throw (kafError .KAF_RUNTIME_TERMINAL)
  if event.runId ≠ projection.runId ∨ event.tenantId ≠ projection.tenantId ∨
      event.executionDefinitionDigest ≠ projection.executionDefinitionDigest ∨
      event.executionDefinition ≠ projection.executionDefinition then
    throw (kafError .KAF_RUNTIME_EVENT_BINDING)
  if event.sequence ≠ projection.lastSequence + 1 then
    throw (kafError .KAF_RUNTIME_EVENT_SEQUENCE)
  let next := nextStatusFor event.payload
  assertKindAllowed projection event.payload next
  match next with
  | none =>
      if event.eventType ∉ STATE_PRESERVING_EVENTS projection.status then
        throw (kafError .KAF_RUNTIME_INVALID_TRANSITION)
  | some status =>
      if status ∉ RUN_TRANSITIONS projection.status then
        throw (kafError .KAF_RUNTIME_INVALID_TRANSITION)
  if event.eventType = .RunCompleted then
    if ¬ projection.requiredVerifierIds.all (fun id =>
        id ∈ projection.passedVerifierIds ∨ id ∈ projection.verificationExceptionIds) then
      throw (kafError .KAF_VERIFICATION_REQUIRED)
  return projection.fold event

/-- `createRunProjection`. -/
def createRunProjection (run : Run) : RunProjection where
  toRun := run
  lastSequence := 0
  lastEventId := none
  currentStepId := none
  resumeTarget := none
  waitingRequestId := none
  waitingDecisionId := none
  activeEffectId := none
  artifactIds := []
  verificationIds := []
  requiredVerifierIds := []
  passedVerifierIds := []
  verificationExceptionIds := []
  terminalErrorCode := none

/-- The run that a `RunAccepted` event starts. -/
def RunEvent.run (event : RunEvent) (workOrderId : String) (workOrderBindingDigest : Digest) :
    Run where
  runId := event.runId
  tenantId := event.tenantId
  workOrderId
  workOrderBindingDigest
  executionDefinition := event.executionDefinition
  executionDefinitionDigest := event.executionDefinitionDigest
  status := .created
  createdAt := event.occurredAt
  updatedAt := event.occurredAt
  dataClass := event.dataClass
  correlationId := event.correlationId

end Pactmark
