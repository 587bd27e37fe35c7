import Pactmark.Runtime.Collaborators

/-!
# Runtime — the kernel's own steps

The private methods of `AgentRuntime` that every path of `execute` goes through: building and
appending an event (`append`), writing and loading context checkpoints, the budget checks at a
boundary, boundary calls under a lease heartbeat and an active-execution reservation, and the
scheduling of retries.
-/

namespace Pactmark

open Durable

/-- A call that answers a value. -/
def consult {α : Type} (q : Query) (decode : Answer q → α := by exact id) : Runtime α :=
  .ask q fun a => .pure (decode a)

/-- A call that throws what it answers as an error. -/
def invoke {α : Type} (q : Query) (decode : Answer q → Except Thrown α := by exact id) :
    Runtime α :=
  .ask q fun a => .ofExcept (decode a)

/-- `RuntimeExecutionResult.status`. -/
inductive ExecutionStatus where
  | completed
  | parked
  | failed
  | cancelled
  deriving DecidableEq, Repr

/-- The status `execute` reports for a terminal run. -/
def RunStatus.toExecutionStatus : RunStatus → ExecutionStatus
  | .completed => .completed
  | .cancelled => .cancelled
  | _ => .failed

/-! ### JSON the kernel builds -/

/-- `RuntimeModelEmission` as JSON. -/
def ModelEmission.toJson : ModelEmission → JsonValue
  | .tool_call toolRegistrationDigest input =>
      .object [("type", .string "tool_call"),
        ("value", .object [("toolRegistrationDigest", .string toolRegistrationDigest),
          ("input", input)])]
  | .final value => .object [("type", .string "final"), ("value", value)]
  | .input_request inputSchemaDigest safePrompt =>
      .object [("type", .string "input_request"),
        ("value", .object [("inputSchemaDigest", .string inputSchemaDigest),
          ("safePrompt", .string safePrompt)])]

/-- The model input of a run's first turn. -/
def WorkOrder.initialModelInput (workOrder : WorkOrder) : JsonValue :=
  .object [("goal", .string workOrder.goal), ("input", workOrder.input)]

/-- The model input after a tool result. -/
def WorkOrder.toolResultInput (workOrder : WorkOrder) (result : JsonValue) : JsonValue :=
  .object [("goal", .string workOrder.goal), ("input", workOrder.input), ("toolResult", result)]

/-- The model input after a submitted input. -/
def WorkOrder.submittedInput (workOrder : WorkOrder) (value : JsonValue) (requestId : String) :
    JsonValue :=
  .object [("goal", .string workOrder.goal), ("input", workOrder.input),
    ("submittedInput", value), ("inputRequestId", .string requestId)]

/-- `#assertJsonByteLimit`. -/
def assertJsonByteLimit (value : JsonValue) (limit : Option Nat) (category : String) :
    Runtime Unit :=
  match limit with
  | none => .pure ()
  | some limit =>
      .throwIf (jsonByteLength value > limit)
        (.kaf { code := .KAF_RUNTIME_CAPABILITY_MISSING
                details := { reason := some "byte_limit_exceeded"
                             others := [("category", category)] } })

/-! ### Budgets -/

/-- `dispatch` of `#assertBoundary`. -/
inductive BoundaryDispatch where
  | turn
  | model
  | tool
  | internal
  deriving DecidableEq, Repr

/-- The name of a boundary in the details of `budget_exhausted`. -/
def BoundaryDispatch.text : BoundaryDispatch → String
  | .turn => "turn"
  | .model => "model"
  | .tool => "tool"
  | .internal => "internal"

/-- `usage` of `#assertBoundary`. -/
structure Usage where
  turns : Nat
  modelCalls : Nat
  toolCalls : Nat
  activeExecutionMs : Nat
  deriving DecidableEq, Repr

/-- `exhausted` of `#assertBoundary`. -/
def Usage.exhausted (usage : Usage) (dispatch : BoundaryDispatch) (budget : WorkBudget) : Bool :=
  (dispatch = .turn ∧ usage.turns ≥ budget.maxTurns) ∨
    (dispatch = .model ∧ usage.modelCalls ≥ budget.maxModelCalls) ∨
    (dispatch = .tool ∧ usage.toolCalls ≥ budget.maxToolCalls) ∨
    usage.activeExecutionMs ≥ budget.maxActiveExecutionMs

/-- `Date.parse(clock.now()) >= Date.parse(deadline)`. -/
def deadlineElapsed (deadline : Option Instant) : Runtime Bool :=
  match deadline with
  | none => .pure false
  | some deadline => do
      let now : Instant ← consult .now
      return decide (deadline ≤ now)

/-- `#assertBoundary`. -/
def assertBoundary (workOrder : WorkOrder) (dispatch : BoundaryDispatch) (usage : Usage) :
    Runtime Unit := do
  let aborted : Bool ← consult .aborted
  Prog.throwIf aborted .abort
  let elapsed ← deadlineElapsed workOrder.deadline
  Prog.throwIf elapsed (kafReason .KAF_RUNTIME_TERMINAL "deadline_elapsed")
  Prog.throwIf (usage.exhausted dispatch workOrder.budget)
    (.kaf { code := .KAF_RUNTIME_CAPABILITY_MISSING
            details := { reason := some "budget_exhausted"
                         others := [("boundary", dispatch.text)] } })

/-- `#toolCallCounts(events).get(digest) ?? 0`. -/
def toolCallCount (events : List RunEvent) (toolRegistrationDigest : Digest) : Nat :=
  (events.filter fun event =>
    match event.payload with
    | .ToolCallRequested _ _ digest _ => digest = toolRegistrationDigest
    | _ => false).length

/-- The state of the loop of `#persistedActiveExecutionMs`. -/
structure ActiveExecutionFold where
  modelStarts : Table Instant
  toolStarts : Table Instant
  total : Nat

/-- One event of the loop of `#persistedActiveExecutionMs`. -/
def ActiveExecutionFold.add (f : ActiveExecutionFold) (event : RunEvent) : ActiveExecutionFold :=
  match event.payload with
  | .ModelCallStarted _ id _ => { f with modelStarts := f.modelStarts.set id event.occurredAt }
  | .ModelCallCompleted _ id _ _ =>
      { f with total := f.total + ((f.modelStarts id).elim 0 (event.occurredAt - ·)) }
  | .ToolCallRequested _ id _ _ => { f with toolStarts := f.toolStarts.set id event.occurredAt }
  | .ToolCallCompleted _ id _ =>
      { f with total := f.total + ((f.toolStarts id).elim 0 (event.occurredAt - ·)) }
  | _ => f

/-- `#persistedActiveExecutionMs`. -/
def persistedActiveExecutionMs (events : List RunEvent) : Nat :=
  (events.foldl ActiveExecutionFold.add ⟨fun _ => none, fun _ => none, 0⟩).total

/-! ### Appending an event -/

/-- `digest.slice("sha256:".length)`. -/
def hexOf (digest : Digest) : String :=
  String.ofList (digest.toList.drop 7)

/-- The identity of an event that is not given one. -/
def Config.eventId (K : Config) (tenantId runId : String) (sequence : Nat)
    (eventType : RunEventType) : String :=
  "event-" ++ String.ofList
    (((K.encoding.digest (.event tenantId runId sequence eventType)).toList.drop 7).take 32)

variable (K : Config)

/-- `#event`. -/
def event (workOrder : WorkOrder) (runId : String) (sequence : Nat) (payload : EventPayload)
    (eventId : Option String) : Runtime RunEvent := do
  let occurredAt : Instant ← consult .now
  return {
    eventId := eventId.getD (K.eventId workOrder.tenantId runId sequence payload.eventType)
    runId
    tenantId := workOrder.tenantId
    sequence
    occurredAt
    correlationId := workOrder.correlationId.getD runId
    dataClass := workOrder.dataClass
    executionDefinition := workOrder.executionDefinition
    executionDefinitionDigest := workOrder.executionDefinitionDigest
    payload }

/-- `#contextBinding`. -/
def contextBinding (s : ContextSnapshot) : DigestMaterial :=
  .contextBinding s.snapshotId s.tenantId s.runId s.stepId s.sequence
    s.executionDefinitionDigest s.workOrderBindingDigest s.contextDigest

/-- `material` of `#createContextSnapshot`, before it is protected. -/
def contextMaterial (workOrder : WorkOrder) (event : RunEvent) (checkpoint : Checkpoint)
    (stepId : String) : ContextSnapshot where
  snapshotId := "context-" ++ event.eventId
  tenantId := workOrder.tenantId
  runId := event.runId
  sequence := event.sequence
  stepId
  executionDefinition := workOrder.executionDefinition
  executionDefinitionDigest := workOrder.executionDefinitionDigest
  workOrderBindingDigest := workOrder.workOrderBindingDigest
  contextDigest := K.encoding.digest (.checkpoint checkpoint)
  byteSize := K.encoding.byteSize (.checkpoint checkpoint)
  expiresAt := workOrder.retentionExpiresAt
  aadDigest := ""
  checkpoint

/-- `#createContextSnapshot`. -/
def createContextSnapshot (workOrder : WorkOrder) (event : RunEvent) (checkpoint : Checkpoint) :
    Runtime (Option ContextSnapshot) :=
  if K.contextCheckpointEnabled then
    match checkpoint.stepId with
    | none =>
        .throw (.kaf { code := .KAF_SCHEMA_INVALID
                       details := { others := [("path", "context.stepId"),
                         ("issue", "required")] } })
    | some stepId => do
        let material := contextMaterial K workOrder event checkpoint stepId
        Prog.throwIf (workOrder.budget.maxContextSnapshotBytes.any (· < material.byteSize))
          (kafReason .KAF_RUNTIME_CAPABILITY_MISSING "context_snapshot_budget_exhausted")
        let aadDigest : Digest ← invoke (.protect (contextBinding material))
        Prog.throwIf (aadDigest ≠ K.encoding.digest (contextBinding material))
          (kafReason .KAF_AUTHORIZATION_BINDING_MISMATCH "context_protector_aad_mismatch")
        return some { material with aadDigest }
  else .pure none

/-- `if (snapshot !== undefined) await transaction.putContextSnapshot(snapshot)`. -/
def putSnapshot : Option ContextSnapshot → Tx
  | none => .skip
  | some snapshot => putContextSnapshot snapshot

/-- The transaction of `#append`. -/
def appendTransaction (commit : Tx) (snapshot : Option ContextSnapshot) (event : RunEvent)
    (next : RunProjection) : Tx :=
  .sequence [commit, putSnapshot snapshot, appendRunEvent event, putRunProjection next]

/-- `leaseStore.renew(lease.current)`. -/
def renew (lease : RunLease) : Runtime Unit :=
  invoke (.renewLease lease)

/-- `checkpoint === undefined ? undefined : await this.#createContextSnapshot(..)`. -/
def snapshotOf (workOrder : WorkOrder) (event : RunEvent) :
    Option Checkpoint → Runtime (Option ContextSnapshot)
  | none => .pure none
  | some checkpoint => createContextSnapshot K workOrder event checkpoint

/-- `#append`. -/
def append (workOrder : WorkOrder) (projection : RunProjection) (lease : RunLease)
    (payload : EventPayload) (eventId : Option String := none) (commit : Tx := .skip)
    (checkpoint : Option Checkpoint := none) : Runtime RunProjection := do
  renew lease
  let event ← event K workOrder projection.runId (projection.lastSequence + 1) payload eventId
  let next ← Prog.ofExcept (reduceRunEvent projection event)
  let snapshot ← snapshotOf K workOrder event checkpoint
  Prog.commit (appendTransaction commit snapshot event next)
  return next

/-- `#fail`. -/
def fail (workOrder : WorkOrder) (projection : RunProjection) (lease : RunLease)
    (stepId : String) (errorCode : KafErrorCode) (safeDetails : ErrorDetails := {}) :
    Runtime ExecutionStatus := do
  let _ ← append K workOrder projection lease (.RunFailed (some stepId) errorCode safeDetails)
  return .failed

/-! ### Loading a context checkpoint -/

/-- `safeApprovalSuffix` of `#assertContextCheckpointSuffix`. -/
def safeApprovalSuffix (workOrder : WorkOrder) (projection : RunProjection)
    (snapshot : ContextSnapshot) (checkpoint : Checkpoint) : List RunEvent → Bool
  | [requested, recorded] =>
      match requested.payload, recorded.payload with
      | .ApprovalRequested requestedStep requestedDecision _ _,
        .ApprovalRecorded recordedStep recordedDecision _ resumeTarget =>
          checkpoint.phase = .tool ∧ requested.sequence = snapshot.sequence + 1 ∧
            recorded.sequence = snapshot.sequence + 2 ∧
            projection.lastEventId = some recorded.eventId ∧ projection.status = .running ∧
            requested.executionDefinitionDigest = workOrder.executionDefinitionDigest ∧
            recorded.executionDefinitionDigest = workOrder.executionDefinitionDigest ∧
            checkpoint.stepId = some requestedStep ∧ checkpoint.stepId = some recordedStep ∧
            requestedDecision = recordedDecision ∧ resumeTarget = .running
      | _, _ => false
  | _ => false

/-- `safeInputSuffix` of `#assertContextCheckpointSuffix`. -/
def safeInputSuffix (workOrder : WorkOrder) (projection : RunProjection)
    (snapshot : ContextSnapshot) (checkpoint : Checkpoint) : List RunEvent → Bool
  | [submitted] =>
      match submitted.payload with
      | .InputSubmitted stepId requestId _ inputSchemaDigest _ =>
          checkpoint.phase = .input ∧ submitted.sequence = snapshot.sequence + 1 ∧
            projection.lastEventId = some submitted.eventId ∧ projection.status = .planning ∧
            submitted.executionDefinitionDigest = workOrder.executionDefinitionDigest ∧
            checkpoint.stepId = some stepId ∧ checkpoint.requestId = some requestId ∧
            checkpoint.inputSchemaDigest = some inputSchemaDigest
      | _ => false
  | _ => false

/-- `#assertContextCheckpointSuffix`. -/
def assertContextCheckpointSuffix (workOrder : WorkOrder) (projection : RunProjection)
    (snapshot : ContextSnapshot) (checkpoint : Checkpoint) : Runtime Unit :=
  if snapshot.sequence = projection.lastSequence then .pure ()
  else do
    let events ← Prog.read fun s => s.truth.events
    let suffix := events.filter (·.sequence > snapshot.sequence)
    Prog.throwIf (¬ safeApprovalSuffix workOrder projection snapshot checkpoint suffix ∧
        ¬ safeInputSuffix workOrder projection snapshot checkpoint suffix)
      (conflict "context_checkpoint_suffix_invalid")

/-- The binding checks of `#loadContextCheckpoint`. -/
def contextBindingChanged (workOrder : WorkOrder) (projection : RunProjection)
    (snapshot : ContextSnapshot) : Bool :=
  snapshot.tenantId ≠ workOrder.tenantId ∨ snapshot.runId ≠ projection.runId ∨
    snapshot.sequence > projection.lastSequence ∨
    snapshot.executionDefinitionDigest ≠ workOrder.executionDefinitionDigest ∨
    snapshot.workOrderBindingDigest ≠ workOrder.workOrderBindingDigest ∨
    projection.executionDefinitionDigest ≠ workOrder.executionDefinitionDigest ∨
    projection.workOrderBindingDigest ≠ workOrder.workOrderBindingDigest ∨
    snapshot.executionDefinition ≠ workOrder.executionDefinition

/-- `#loadContextCheckpoint`, of the latest snapshot. -/
def openContextSnapshot (workOrder : WorkOrder) (projection : RunProjection)
    (snapshot : ContextSnapshot) : Runtime Checkpoint := do
  Prog.throwIf (contextBindingChanged workOrder projection snapshot)
    (conflict "context_checkpoint_binding_changed")
  Prog.throwIf (snapshot.aadDigest ≠ K.encoding.digest (contextBinding snapshot))
    (kafReason .KAF_AUTHORIZATION_BINDING_MISMATCH "context_checkpoint_aad_changed")
  let _ : Unit ← invoke (.unprotect (contextBinding snapshot))
  Prog.throwIf (snapshot.byteSize ≠ K.encoding.byteSize (.checkpoint snapshot.checkpoint) ∨
      snapshot.contextDigest ≠ K.encoding.digest (.checkpoint snapshot.checkpoint))
    (conflict "context_checkpoint_payload_changed")
  assertContextCheckpointSuffix workOrder projection snapshot snapshot.checkpoint
  Prog.throwIf (snapshot.checkpoint.stepId ≠ some snapshot.stepId ∨
      (projection.currentStepId ≠ none ∧
        snapshot.checkpoint.stepId ≠ projection.currentStepId))
    (conflict "context_checkpoint_step_changed")
  return snapshot.checkpoint

/-- `#loadContextCheckpoint`. -/
def loadContextCheckpoint (workOrder : WorkOrder) (projection : RunProjection) :
    Runtime (Option Checkpoint) :=
  if K.contextCheckpointEnabled then do
    let now : Instant ← consult .contextStoreNow
    let latest ← Prog.read fun s => s.truth.getLatestSnapshot now
    match latest with
    | none => return none
    | some snapshot => some <$> openContextSnapshot K workOrder projection snapshot
  else .pure none

/-! ### Boundary calls -/

/-- `#throwBoundaryError`. -/
def throwBoundaryError {α : Type} : Thrown → Runtime α
  | .host _ false => .throw (kafError .KAF_STORAGE_CONCURRENCY_CONFLICT)
  | e => .throw e

/-- What `#withLeaseHeartbeat` does once the operation has ended. -/
def endHeartbeat {α : Type} (lease : RunLease) (outcome : Except Thrown α) : Runtime α := do
  let failure : Option Thrown ← consult (.heartbeat lease)
  match failure with
  | some e => throwBoundaryError e
  | none =>
      match outcome with
      | .error e => throwBoundaryError e
      | .ok a =>
          Prog.tryCatch (renew lease) throwBoundaryError
          return a

/-- `#withLeaseHeartbeat`. -/
def withLeaseHeartbeat {α : Type} (lease : RunLease) (operation : Runtime α) : Runtime α := do
  let outcome ← Prog.attempt operation
  endHeartbeat lease outcome

/-- `#captureBoundaryInvocation`. -/
def captureBoundaryInvocation {α : Type} (operation : Runtime α) : Runtime α :=
  operation.tryCatch fun e => .throw (.boundaryInvocation e)

/-- `#capturedBoundaryError`. -/
def capturedBoundaryError : Thrown → Option Thrown
  | .boundaryInvocation e => some e
  | .kaf e => if e.details.retryClassification.isSome then some (.kaf e) else none
  | _ => none

/-- `#transitionActiveExecution` of one `putActiveExecutionReservation`. -/
def transitionActiveExecution (workOrder : WorkOrder) (lease : RunLease)
    (reservation : ActiveExecutionReservation) : Runtime Unit := do
  renew lease
  let now : Instant ← consult .activeExecutionStoreNow
  Prog.commit
    (putActiveExecutionReservation reservation workOrder.budget.maxActiveExecutionMs now)

/-- The identity of an active-execution reservation. -/
def activeExecutionId (tenantId runId : String) (key : ActiveExecutionKey) : String :=
  "active-" ++ hexOf (K.encoding.digest (.activeExecution tenantId runId key))

/-- `#settleActiveExecution`. -/
def settleActiveExecution (workOrder : WorkOrder) (lease : RunLease)
    (reservation : ActiveExecutionReservation) : Runtime Unit := do
  let settledAt : Instant ← consult .now
  transitionActiveExecution workOrder lease
    { reservation with state := .settled 0 reservation.maxChargeMs settledAt }

/-- The `close-uncertain` transition of `#withActiveExecution`. -/
def closeUncertain (workOrder : WorkOrder) (lease : RunLease)
    (prior : ActiveExecutionReservation) : Runtime Unit :=
  if prior.state.name = .reserved then do
    let settledAt : Instant ← consult .now
    transitionActiveExecution workOrder lease
      { prior with state := .closed_uncertain prior.maxChargeMs 0 settledAt }
  else .pure ()

/-- `maxChargeMs` of `#withActiveExecution`. -/
def activeExecutionCharge (workOrder : WorkOrder) (configuredMaximum : Nat)
    (startedAt : Instant) : Nat :=
  min configuredMaximum
    (min workOrder.budget.maxActiveExecutionMs
      (workOrder.deadline.elim configuredMaximum (· - startedAt)))

/-- The text of a boundary kind. -/
def ActiveBoundary.text : ActiveBoundary → String
  | .model => "model"
  | .tool => "tool"
  | .verifier => "verifier"
  | .scheduled_backoff => "scheduled_backoff"
  | .runtime_internal => "runtime_internal"

/-- What `#withActiveExecution` throws when an earlier call reserved this boundary. -/
def activeExecutionResultUnavailable (boundary : ActiveBoundary) : Thrown :=
  .kaf { code := .KAF_STORAGE_CONCURRENCY_CONFLICT
         details := { reason := some "active_execution_result_unavailable"
                      retryClassification := some .uncertain
                      others := [("boundary", boundary.text)] } }

/-- The reservation of `#withActiveExecution`. -/
def reserveActiveExecution (workOrder : WorkOrder) (runId : String) (lease : RunLease)
    (key : ActiveExecutionKey) : Runtime ActiveExecutionReservation := do
  let startedAt : Instant ← consult .now
  let configured : Option Nat ← consult (.maximumChargeMilliseconds key.boundary)
  match configured with
  | none | some 0 =>
      .throw (.kaf { code := .KAF_SCHEMA_INVALID
                     details := { others := [("path", "activeExecution.maximumChargeMs"),
                       ("issue", "positive_safe_integer")] } })
  | some configuredMaximum => do
      let maxChargeMs := activeExecutionCharge workOrder configuredMaximum startedAt
      Prog.throwIf (maxChargeMs = 0)
        (kafReason .KAF_RUNTIME_TERMINAL "active_execution_deadline_elapsed")
      let reservation : ActiveExecutionReservation :=
        { id := activeExecutionId K workOrder.tenantId runId key
          tenantId := workOrder.tenantId
          runId
          key
          leaseId := lease.leaseId
          fencingToken := lease.fencingToken
          startedAtServerTime := startedAt
          maxChargeMs
          state := .reserved
          expiresAt := startedAt + maxChargeMs }
      transitionActiveExecution workOrder lease reservation
      -- `persistedReservation` is what the store made of it
      let persisted ← Prog.read fun s => s.activeExecution key
      return persisted.getD reservation

/-- `#withActiveExecution`. -/
def withActiveExecution {α : Type} (workOrder : WorkOrder) (runId : String) (lease : RunLease)
    (key : ActiveExecutionKey) (callback : Runtime α)
    (repeatAfterRecoveredReservation : Bool := false) : Runtime α :=
  if K.activeExecutionServices then do
    Prog.throwIf (¬ K.activeExecutionDomainMatches)
      (kafReason .KAF_RUNTIME_NOT_READY "active_execution_transaction_domain_mismatch")
    let prior ← Prog.read fun s => s.activeExecution key
    match prior with
    | some prior => do
        closeUncertain workOrder lease prior
        Prog.throwIf (¬ repeatAfterRecoveredReservation)
          (activeExecutionResultUnavailable key.boundary)
        withLeaseHeartbeat lease callback
    | none => do
        let reservation ← reserveActiveExecution K workOrder runId lease key
        let result ← Prog.attempt (withLeaseHeartbeat lease callback)
        settleActiveExecution workOrder lease reservation
        Prog.ofExcept result
  else withLeaseHeartbeat lease callback

/-! ### Retries -/

/-- `#classifyBoundaryError("model", error)`. -/
def classifyModelBoundaryError (error : Thrown) : Runtime BoundaryErrorClassification :=
  match error with
  | .abort => .pure .aborted
  | .kaf { details := { retryClassification := some c, .. }, .. } => .pure c
  | .kaf e => do
      let classified : Option BoundaryErrorClassification ← consult (.classifyModelError error)
      return classified.getD (if e.retryable then .retryable else .non_retryable)
  | _ => do
      let classified : Option BoundaryErrorClassification ← consult (.classifyModelError error)
      return classified.getD .uncertain

/-- `#classifyBoundaryError("tool", error, registration)`. -/
def classifyToolBoundaryError (error : Thrown) (registration : ToolRegistration) :
    Runtime BoundaryErrorClassification :=
  match error with
  | .abort => .pure .aborted
  | .kaf { details := { retryClassification := some c, .. }, .. } => .pure c
  | .kaf e => do
      let classified : Option BoundaryErrorClassification ←
        consult (.classifyToolError error registration)
      return classified.getD (if e.retryable then .retryable else .non_retryable)
  | _ => do
      let classified : Option BoundaryErrorClassification ←
        consult (.classifyToolError error registration)
      return classified.getD .uncertain

/-- `#normalizeBoundaryFailure`. -/
def normalizeBoundaryFailure (boundary : RetryBoundary) (error : Thrown)
    (classification : BoundaryErrorClassification) : Thrown :=
  match error, boundary with
  | .kaf e, _ => .kaf e
  | _, .model =>
      .kaf { code := .KAF_MODEL_ADAPTER_MISMATCH
             details := { reason := some "model_call_failed_without_safe_result"
                          retryClassification := some classification } }
  | _, .tool =>
      .kaf { code := .KAF_TOOL_EXECUTION_FAILED
             details := { reason := some "tool_call_failed_without_safe_result"
                          retryClassification := some classification } }

/-- `KAF_SCHEMA_INVALID` at a path of the retry configuration. -/
def retryConfigurationInvalid (path issue : String) : Thrown :=
  .kaf { code := .KAF_SCHEMA_INVALID, details := { others := [("path", path), ("issue", issue)] } }

/-- The checkpoint of a scheduled retry. -/
def Checkpoint.scheduled (checkpoint : Checkpoint) (boundary : RetryBoundary) (attempt : Nat)
    (classification : BoundaryErrorClassification) (notBefore delayMs : Nat) : Checkpoint :=
  { checkpoint with
    phase := .scheduled_backoff
    attempt := some attempt
    retryBoundary := some boundary
    retryClassification := some classification
    nextAttempt := some (attempt + 1)
    notBefore := some notBefore
    delayMs := some delayMs
    resumePhase := some boundary }

/-- `#scheduleRetry`, from where the policy has admitted another attempt. -/
def scheduleAttempt (workOrder : WorkOrder) (projection : RunProjection) (lease : RunLease)
    (stepId : String) (boundary : RetryBoundary) (boundaryKey : String) (attempt : Nat)
    (classification : BoundaryErrorClassification) (checkpoint : Checkpoint) :
    Runtime (Option (RunProjection × Checkpoint)) := do
  let jitter : Bool ← consult .retryJitter
  Prog.throwIf (¬ jitter) (retryConfigurationInvalid "retryJitterSource" "unit_interval_required")
  let delay : Option Nat ←
    consult (.backoffMilliseconds boundary attempt classification)
  match delay with
  | none =>
      .throw (retryConfigurationInvalid "retryPolicy.backoffMilliseconds"
        "bounded_integer_required")
  | some delayMs => do
      Prog.throwIf (delayMs > 86400000)
        (retryConfigurationInvalid "retryPolicy.backoffMilliseconds" "bounded_integer_required")
      let now : Instant ← consult .now
      let notBefore := now + delayMs
      if workOrder.deadline.any (· ≤ notBefore) then return none
      else do
        let scheduled := checkpoint.scheduled boundary attempt classification notBefore delayMs
        let next ← append K workOrder projection lease
          (.RetryScheduled stepId boundary boundaryKey attempt (attempt + 1) classification
            delayMs notBefore) none .skip (some scheduled)
        return some (next, scheduled)

/-- `#scheduleRetry`. -/
def scheduleRetry (workOrder : WorkOrder) (projection : RunProjection) (lease : RunLease)
    (stepId : String) (boundary : RetryBoundary) (boundaryKey : String) (attempt : Nat)
    (classification : BoundaryErrorClassification) (checkpoint : Checkpoint) :
    Runtime (Option (RunProjection × Checkpoint)) :=
  if classification = .aborted ∨ classification = .non_retryable ∨ ¬ K.retryPolicy then
    .pure none
  else do
    let maximumAttempts : Option Nat ← consult (.maximumAttempts boundary)
    match maximumAttempts with
    | none =>
        .throw (retryConfigurationInvalid "retryPolicy.maximumAttempts"
          "bounded_integer_required")
    | some maximum => do
        Prog.throwIf (maximum < 1 ∨ 100 < maximum)
          (retryConfigurationInvalid "retryPolicy.maximumAttempts" "bounded_integer_required")
        if attempt ≥ maximum then return none
        else
          scheduleAttempt K workOrder projection lease stepId boundary boundaryKey attempt
            classification checkpoint

end Pactmark
