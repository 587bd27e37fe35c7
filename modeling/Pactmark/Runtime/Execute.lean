import Pactmark.Runtime.Effects
import Pactmark.Runtime.Models

/-!
# Runtime — execute

`AgentRuntime.execute` and `#executeCompensation`.  The `for (;;)` of `execute` is cut into
turns: `turn` is one pass of its body, and `executeTurn` puts the `try`, `catch` and `finally`
around it that stand around the whole loop.  A turn that ends in `continue` hands its
`LoopState` to the next one.
-/

namespace Pactmark

open Durable

variable (K : Config)

/-- What `execute` fixes before its loop. -/
structure Session where
  claims : Claims
  workOrder : WorkOrder
  definition : AgentDefinition
  lease : RunLease
  history : List RunEvent
  invocationStartedAt : Nat

/-- The variables of the loop of `execute`. -/
structure LoopState where
  projection : RunProjection
  checkpoint : Option Checkpoint
  modelInput : JsonValue
  turns : Nat
  modelCalls : Nat
  toolCalls : Nat
  toolCallsByRegistration : Digest → Nat

/-- How a turn ends: with a `return` of `execute`, or with a `continue`. -/
inductive TurnOutcome where
  | done (status : ExecutionStatus)
  | next (l : LoopState)

/-- The usage at a boundary of the loop. -/
def boundaryUsage (S : Session) (l : LoopState) : Runtime Usage := do
  let milliseconds : Nat ← consult .monotonicMilliseconds
  return {
    turns := l.turns
    modelCalls := l.modelCalls
    toolCalls := l.toolCalls
    activeExecutionMs :=
      persistedActiveExecutionMs S.history + (milliseconds - S.invocationStartedAt) }

/-- `#assertBoundary` in the loop. -/
def assertLoopBoundary (S : Session) (l : LoopState) (dispatch : BoundaryDispatch) :
    Runtime Unit := do
  let usage ← boundaryUsage S l
  assertBoundary S.workOrder dispatch usage

/-- `projection = await #append(.., "RunSuspended", ..); return parked`. -/
def park (S : Session) (projection : RunProjection) (stepId : String)
    (resumeTarget : ResumeTarget) (reasonCode : String) : Runtime TurnOutcome := do
  let _ ← append K S.workOrder projection S.lease
    (.RunSuspended stepId resumeTarget reasonCode none)
  return .done .parked

/-- `return await #fail(..)`. -/
def failTurn (S : Session) (projection : RunProjection) (stepId : String)
    (errorCode : KafErrorCode) (safeDetails : ErrorDetails := {}) : Runtime TurnOutcome := do
  let status ← fail K S.workOrder projection S.lease stepId errorCode safeDetails
  return .done status

/-! ### Finalization -/

/-- `#validateVerificationResult`. -/
def validateVerificationResult (result : Option VerificationResult) (verifierId : String)
    (artifact : Artifact) : Except Thrown VerificationResult :=
  match result with
  | none => .error (kafReason .KAF_VERIFICATION_REQUIRED "verifier_result_invalid")
  | some result =>
      if result.verifierId ≠ verifierId ∨ result.verifierRegistrationDigest ≠ verifierId ∨
          result.artifactDigest ≠ artifact.artifactDigest ∨
          result.verificationDigest ≠ result.materialDigest then
        .error (kafReason .KAF_VERIFICATION_REQUIRED "verifier_result_binding_mismatch")
      else .ok result

/-- `#validateEvidenceRecord`. -/
def validateEvidenceRecord : Option EvidenceRecord → Except Thrown EvidenceRecord
  | none => .error (kafReason .KAF_EVIDENCE_INVALID_REFERENCE "evidence_record_invalid")
  | some evidence =>
      if evidence.bound then .ok evidence
      else .error (kafReason .KAF_EVIDENCE_INVALID_REFERENCE "evidence_record_binding_mismatch")

/-- The checkpoint of the verification of an artifact. -/
def verificationCheckpoint (stepId : String) (output : JsonValue) (artifact : Artifact)
    (verificationStarted : Bool) (verifications : List VerificationResult) : Checkpoint :=
  { phase := .verification
    stepId := some stepId
    emission := some (.final output)
    artifact := some artifact
    verificationStarted
    verifications }

/-- The artifact of a final output. -/
def producedArtifact (projection : RunProjection) (stepId : String) (output : JsonValue) :
    Artifact × String :=
  let contentDigest := K.encoding.digest (.json output)
  let suffix := String.ofList ((hexOf (K.encoding.digest
    (.artifactIdentity projection.runId stepId contentDigest))).toList.take 32)
  let artifactId := "artifact-" ++ suffix
  ({ artifactId
     artifactDigest := K.encoding.digest (.artifact artifactId contentDigest projection.updatedAt)
     contentDigest },
   "event-artifact-" ++ suffix)

/-- The artifact of `#finalize`: the checkpoint's, or a new one. -/
def finalizeArtifact (workOrder : WorkOrder) (projection : RunProjection) (lease : RunLease)
    (stepId : String) (output : JsonValue) (checkpoint : Option Checkpoint) :
    Runtime (RunProjection × Artifact) :=
  match checkpoint.bind (·.artifact) with
  | some artifact => .pure (projection, artifact)
  | none => do
      let (artifact, artifactEventId) := producedArtifact K projection stepId output
      withLeaseHeartbeat lease (invoke (.putArtifact artifact))
      let next ← append K workOrder projection lease
        (.ArtifactProduced stepId artifact.artifactId artifact.artifactDigest)
        (some artifactEventId) .skip
        (some (verificationCheckpoint stepId output artifact false
          (checkpoint.elim [] (·.verifications))))
      return (next, artifact)

/-- `VerificationStarted`, unless the checkpoint is past it. -/
def startVerification (workOrder : WorkOrder) (projection : RunProjection) (lease : RunLease)
    (stepId : String) (output : JsonValue) (artifact : Artifact)
    (checkpoint : Option Checkpoint) : Runtime RunProjection :=
  if checkpoint.elim false (·.verificationStarted) then .pure projection
  else
    append K workOrder projection lease (.VerificationStarted stepId artifact.artifactDigest)
      none .skip
      (some (verificationCheckpoint stepId output artifact true
        (checkpoint.elim [] (·.verifications))))

/-- The verifier boundary of `#finalize`. -/
def runVerifier (workOrder : WorkOrder) (runId : String) (lease : RunLease) (stepId : String)
    (verifierId : String) (artifact : Artifact) : Runtime VerificationResult := do
  let answer : Option VerificationResult ← withActiveExecution K workOrder runId lease
    ⟨stepId, .verifier, verifierId⟩ (invoke (.verify verifierId artifact))
  Prog.ofExcept (validateVerificationResult answer verifierId artifact)

/-- The loop of `#finalize` over the required verifiers; `none` when it has failed the run. -/
def verifyAll (workOrder : WorkOrder) (lease : RunLease) (stepId : String) (output : JsonValue)
    (artifact : Artifact) :
    List String → RunProjection → List VerificationResult →
      Runtime (Option (RunProjection × List VerificationResult))
  | [], projection, verifications => .pure (some (projection, verifications))
  | verifierId :: rest, projection, verifications =>
      if verifications.any (·.verifierId = verifierId) then
        verifyAll workOrder lease stepId output artifact rest projection verifications
      else do
        let registered : Bool ← consult (.hasVerifier verifierId)
        if registered then do
          let verification ←
            runVerifier K workOrder projection.runId lease stepId verifierId artifact
          let next ← append K workOrder projection lease
            (.VerificationRecorded stepId verification.verificationId verification.verifierId
              verification.status verification.verificationDigest) none .skip
            (some (verificationCheckpoint stepId output artifact true
              (verifications ++ [verification])))
          if verification.status = .pass then
            verifyAll workOrder lease stepId output artifact rest next
              (verifications ++ [verification])
          else do
            let _ ← fail K workOrder next lease stepId .KAF_VERIFICATION_REQUIRED
            return none
        else do
          let _ ← fail K workOrder projection lease stepId .KAF_VERIFICATION_REQUIRED
          return none

/-- The evidence boundary of `#finalize`. -/
def runEvidence (workOrder : WorkOrder) (projection : RunProjection) (lease : RunLease)
    (stepId : String) (artifact : Artifact) (verifications : List VerificationResult) :
    Runtime EvidenceRecord := do
  let events ← Prog.read fun s => s.truth.events
  let answer : Option EvidenceRecord ← withActiveExecution K workOrder projection.runId lease
    ⟨stepId, .runtime_internal, "evidence:" ++ artifact.contentDigest⟩
    (invoke (.buildEvidence projection events artifact verifications))
  Prog.ofExcept (validateEvidenceRecord answer)

/-- `#finalize`. -/
def finalize (workOrder : WorkOrder) (projection : RunProjection) (lease : RunLease)
    (stepId : String) (output : JsonValue) (checkpoint : Option Checkpoint) :
    Runtime ExecutionStatus := do
  Prog.throwIf (workOrder.dataClass = .highly_restricted)
    (kafError .KAF_STORAGE_SECURITY_PROFILE)
  let (projection, artifact) ←
    finalizeArtifact K workOrder projection lease stepId output checkpoint
  let projection ←
    startVerification K workOrder projection lease stepId output artifact checkpoint
  let verified ← verifyAll K workOrder lease stepId output artifact
    projection.requiredVerifierIds projection (checkpoint.elim [] (·.verifications))
  match verified with
  | none => return .failed
  | some (projection, verifications) => do
      let evidence ←
        runEvidence K workOrder projection lease stepId artifact verifications
      let _ ← append K workOrder projection lease
        (.RunCompleted stepId evidence.evidenceRecordId
          (K.encoding.digest (.json output)))
      return .completed

/-! ### Submitted input and scheduled retries -/

/-- The bindings `#loadSubmittedInput` checks of the stored record. -/
def submittedInputBindingChanged (workOrder : WorkOrder) (projection : RunProjection)
    (stepId requestId : String) (inputSchemaDigest : Digest) (requestingEventId : Option String)
    (valueDigest : Digest) (recordId : String) (record : InputSubmissionRecord) : Bool :=
  ¬ (record.tenantId = workOrder.tenantId ∧ record.runId = projection.runId ∧
    record.requestId = requestId ∧ record.requestingStepId = stepId ∧
    some record.requestingEventId = requestingEventId ∧
    record.executionDefinition = workOrder.executionDefinition ∧
    record.executionDefinitionDigest = workOrder.executionDefinitionDigest ∧
    record.workOrderBindingDigest = workOrder.workOrderBindingDigest ∧
    record.inputSchemaDigest = inputSchemaDigest ∧ record.valueDigest = valueDigest ∧
    record.inputSubmissionRecordId = recordId)

/-- The binding a submitted value is protected with. -/
def InputSubmissionRecord.aad (record : InputSubmissionRecord) : DigestMaterial :=
  .inputBinding record.tenantId record.runId record.requestId record.inputSubmissionRecordId
    record.workOrderBindingDigest record.inputSchemaDigest record.valueDigest
    record.consumingCommandId

/-- `#loadSubmittedInput`, of a checkpoint that has what it needs. -/
def openSubmittedInput (workOrder : WorkOrder) (projection : RunProjection)
    (history : List RunEvent) (stepId requestId : String) (inputSchemaDigest : Digest) :
    Runtime JsonValue :=
  match history.getLast?.map RunEvent.payload with
  | some (.InputSubmitted step request recordId schema valueDigest) => do
      Prog.throwIf (step ≠ stepId ∨ request ≠ requestId ∨ schema ≠ inputSchemaDigest)
        (kafReason .KAF_RUNTIME_EVENT_BINDING "input_submission_event_changed")
      let now : Instant ← consult .inputStoreNow
      let record ← Prog.read fun s => s.truth.getSubmission requestId now
      match record with
      | none => .throw (kafError .KAF_STORAGE_NOT_FOUND)
      | some record => do
          Prog.throwIf (submittedInputBindingChanged workOrder projection stepId requestId
              inputSchemaDigest (history.dropLast.getLast?.map RunEvent.eventId) valueDigest
              recordId record)
            (kafReason .KAF_AUTHORIZATION_BINDING_MISMATCH "input_submission_binding_changed")
          Prog.throwIf (record.aadDigest ≠ K.encoding.digest record.aad)
            (kafReason .KAF_AUTHORIZATION_BINDING_MISMATCH "input_submission_aad_changed")
          let _ : Unit ← invoke (.unprotect record.aad)
          let (schema, value) : Digest × JsonValue ←
            invoke (.validateInput inputSchemaDigest record.value)
          Prog.throwIf (schema ≠ inputSchemaDigest ∨
              K.encoding.digest (.json value) ≠ record.valueDigest)
            (kafReason .KAF_AUTHORIZATION_BINDING_MISMATCH
              "input_submission_schema_or_digest_changed")
          let nextInput := workOrder.submittedInput value requestId
          assertJsonByteLimit nextInput workOrder.budget.maxModelInputBytesPerCall
            "submitted_input_to_model"
          return nextInput
  | _ => .throw (kafReason .KAF_RUNTIME_EVENT_BINDING "input_submission_event_changed")

/-- `#loadSubmittedInput`. -/
def loadSubmittedInput (S : Session) (projection : RunProjection) (checkpoint : Checkpoint) :
    Runtime JsonValue :=
  match checkpoint.stepId, checkpoint.requestId, checkpoint.inputSchemaDigest,
    checkpoint.emission with
  | some stepId, some requestId, some inputSchemaDigest, some (.input_request ..) =>
      if K.typedInput then
        openSubmittedInput K S.workOrder projection S.history stepId requestId inputSchemaDigest
      else .throw (kafError .KAF_RUNTIME_CAPABILITY_MISSING)
  | _, _, _, _ => .throw (kafError .KAF_RUNTIME_CAPABILITY_MISSING)

/-- `checkpoint?.phase === phase`. -/
def LoopState.inPhase (l : LoopState) (phase : CheckpointPhase) : Bool :=
  l.checkpoint.any (·.phase = phase)

/-- The `input` phase of a turn. -/
def inputPhase (S : Session) (l : LoopState) : Runtime LoopState :=
  match l.checkpoint with
  | some checkpoint =>
      if checkpoint.phase = .input then do
        let modelInput ← loadSubmittedInput K S l.projection checkpoint
        return { l with
          modelInput
          checkpoint := some
            { phase := .model
              stepId := checkpoint.stepId
              attempt := some (l.modelCalls + 1)
              modelInput := some modelInput } }
      else .pure l
  | none => .pure l

/-- The name of a retry boundary. -/
def RetryBoundary.text : RetryBoundary → String
  | .model => "model"
  | .tool => "tool"

/-- The phase a scheduled retry resumes in. -/
def RetryBoundary.phase : RetryBoundary → CheckpointPhase
  | .model => .model
  | .tool => .tool

/-- The checkpoint a scheduled retry resumes with. -/
def Checkpoint.resumed (checkpoint : Checkpoint) (resumePhase : RetryBoundary)
    (nextAttempt : Nat) : Checkpoint :=
  { checkpoint with
    phase := resumePhase.phase
    attempt := some nextAttempt
    retryBoundary := none
    retryClassification := none
    nextAttempt := none
    notBefore := none
    delayMs := none
    resumePhase := none }

/-- The wait of a scheduled retry. -/
def awaitBackoff (S : Session) (l : LoopState) (stepId : String) (boundary : RetryBoundary)
    (nextAttempt : Nat) (notBefore : Instant) : Runtime Unit := do
  let now : Instant ← consult .now
  if notBefore - now = 0 then .pure ()
  else
    withActiveExecution K S.workOrder l.projection.runId S.lease
      ⟨stepId, .scheduled_backoff,
        boundary.text ++ ":" ++ toString nextAttempt ++ ":" ++ toString notBefore⟩
      (invoke (.sleep (notBefore - now))) true

/-- `boundaryKey` of `RetryResumed`. -/
def retryBoundaryKey (checkpoint : Checkpoint) (boundary : RetryBoundary) (stepId : String) :
    String :=
  match boundary with
  | .model => "model:" ++ stepId
  | .tool => checkpoint.toolCallId.getD ("tool:" ++ stepId)

/-- The `scheduled_backoff` phase of a turn. -/
def backoffPhase (S : Session) (l : LoopState) : Runtime LoopState :=
  match l.checkpoint with
  | some checkpoint =>
      if checkpoint.phase = .scheduled_backoff then
        match checkpoint.stepId, checkpoint.retryBoundary, checkpoint.nextAttempt,
          checkpoint.notBefore, checkpoint.resumePhase with
        | some stepId, some boundary, some nextAttempt, some notBefore, some resumePhase => do
            awaitBackoff K S l stepId boundary nextAttempt notBefore
            assertLoopBoundary S l .internal
            let resumed := checkpoint.resumed resumePhase nextAttempt
            let projection ← append K S.workOrder l.projection S.lease
              (.RetryResumed stepId boundary (retryBoundaryKey checkpoint boundary stepId)
                nextAttempt) none .skip (some resumed)
            return { l with projection, checkpoint := some resumed }
        | _, _, _, _, _ => .throw (conflict "retry_checkpoint_invalid")
      else .pure l
  | none => .pure l

/-! ### The model phase -/

/-- What the model phase ends in: the end of the turn, or an emission of a step. -/
inductive ModelPhase where
  | ended (outcome : TurnOutcome)
  | emitted (l : LoopState) (stepId : String) (next : ModelEmission)

/-- The checkpoint a failed model call is retried from. -/
def modelRetryCheckpoint (stepId : String) (attempt : Nat) (modelInput : JsonValue) :
    Checkpoint :=
  { phase := .model
    stepId := some stepId
    attempt := some (attempt + 1)
    modelInput := some modelInput }

/-- A retry of the model call if the policy schedules one, and `otherwise` if it does not. -/
def retryModelOr (S : Session) (l : LoopState) (stepId : String) (attempt : Nat)
    (classification : BoundaryErrorClassification) (otherwise : Runtime TurnOutcome) :
    Runtime TurnOutcome := do
  let scheduled ← scheduleRetry K S.workOrder l.projection S.lease stepId .model
    ("model:" ++ stepId) attempt classification (modelRetryCheckpoint stepId attempt l.modelInput)
  match scheduled with
  | some (projection, checkpoint) =>
      return .next { l with projection, checkpoint := some checkpoint }
  | none => otherwise

/-- The text of a reservation status in a suspension reason. -/
def ModelCallStatus.text : ModelCallStatus → String
  | .accepted => "accepted"
  | .dispatched => "dispatched"
  | .settled .. => "settled"
  | .uncertain => "uncertain"
  | .expired => "expired"

/-- The reservation of an interrupted production call: `none` when the call may be made. -/
def resumeProductionCall (S : Session) (l : LoopState) (stepId : String) (attempt : Nat) :
    Runtime (Option TurnOutcome) := do
  let reservation ← Prog.read fun s => s.modelCall stepId attempt
  match reservation with
  | none =>
      some <$> park K S l.projection stepId .planning
        "model_call_reservation_missing_after_start"
  | some reservation =>
      match reservation.status with
      | .accepted => return none
      | .dispatched => do
          transitionModelReservation S.lease { reservation with status := .uncertain }
          some <$> retryModelOr K S l stepId attempt .uncertain
            (park K S l.projection stepId .planning "model_call_dispatched_outcome_uncertain")
      | .uncertain =>
          some <$> retryModelOr K S l stepId attempt .uncertain
            (park K S l.projection stepId .planning "model_call_dispatched_outcome_uncertain")
      | status =>
          some <$> park K S l.projection stepId .planning
            ("model_call_" ++ status.text ++ "_without_result")

/-- The checks of a model call an earlier invocation started: `none` when it may be made. -/
def resumeInflight (S : Session) (l : LoopState) (stepId : String) (attempt : Nat) :
    Runtime (Option TurnOutcome) := do
  let production ←
    if K.productionModelServices then resumeProductionCall K S l stepId attempt
    else .pure none
  match production with
  | some outcome => return some outcome
  | none => do
      let uncertain : Bool ← consult (.uncertainLocalModelCall stepId)
      if uncertain then
        some <$> park K S l.projection stepId .planning "model_call_outcome_unknown"
      else return none

/-- The `catch` block around a model call. -/
def modelCallFailed (S : Session) (l : LoopState) (stepId : String) (attempt : Nat)
    (error : Thrown) : Runtime TurnOutcome := do
  let projection ← Prog.read fun s => s.truth.projection
  let l := { l with projection, modelCalls := max l.modelCalls attempt }
  match capturedBoundaryError error with
  | none => .throw error
  | some boundaryError => do
      let classification ← classifyModelBoundaryError boundaryError
      if classification = .aborted then throwBoundaryError boundaryError
      else
        retryModelOr K S l stepId attempt classification
          (if classification = .uncertain then
            park K S l.projection stepId .planning "model_call_outcome_uncertain"
          else .throw (normalizeBoundaryFailure .model boundaryError classification))

/-- `ModelCallCompleted` of a call that has not committed it itself. -/
def completeModelCall (S : Session) (l : LoopState) (stepId : String) (call : ModelCallOutcome)
    (next : ModelEmission) : Runtime RunProjection :=
  if call.completedEventCommitted then .pure call.projection
  else
    append K S.workOrder call.projection S.lease
      (.ModelCallCompleted stepId call.reservationId (K.encoding.digest (.json next.toJson))
        next.type) none .skip
      (some { phase := .emission, stepId := some stepId, modelInput := some l.modelInput
              emission := some next })

/-- The loop of a model call that has returned. -/
def modelCallReturned (S : Session) (l : LoopState) (stepId : String) (resumedInflight : Bool)
    (call : ModelCallOutcome) : Runtime ModelPhase := do
  let l := { l with
    modelCalls := if resumedInflight then l.modelCalls else l.modelCalls + 1 }
  match call.next with
  | none => do
      let outcome ← failTurn K S call.projection stepId .KAF_RUNTIME_MODEL_EMPTY
      return .ended outcome
  | some next => do
      assertJsonByteLimit next.toJson S.workOrder.budget.maxStreamedOutputBytesPerCall
        "model_output_per_call"
      let projection ← completeModelCall K S l stepId call next
      return .emitted { l with projection } stepId next

/-- The model boundary of a turn. -/
def callModel (S : Session) (l : LoopState) (stepId : String) (attempt : Nat)
    (resumedInflight : Bool) : Runtime ModelPhase := do
  let outcome ← Prog.attempt (withActiveExecution K S.workOrder l.projection.runId S.lease
    ⟨stepId, .model, "model:" ++ stepId ++ ":" ++ toString attempt⟩
    (invokeModelCall K
      { workOrder := S.workOrder, definition := S.definition, projection := l.projection
        lease := S.lease, stepId, attempt, modelInput := l.modelInput
        started := resumedInflight }))
  match outcome with
  | .error e => .ended <$> modelCallFailed K S l stepId attempt e
  | .ok call => modelCallReturned K S l stepId resumedInflight call

/-- The step of a model call, planned unless the checkpoint is already in it. -/
def planStep (S : Session) (l : LoopState) : Runtime (LoopState × String) :=
  if l.inPhase .model ∨ l.inPhase .model_inflight then
    match l.checkpoint.bind (·.stepId) with
    | none => .throw (conflict "model_context_step_missing")
    | some stepId => .pure (l, stepId)
  else do
    let stepId := "step-" ++ toString (l.turns + 1)
    let projection ← append K S.workOrder l.projection S.lease (.PlanningStarted stepId) none
      .skip
      (some { phase := .model, stepId := some stepId, attempt := some (l.modelCalls + 1)
              modelInput := some l.modelInput })
    return ({ l with projection, turns := l.turns + 1 }, stepId)

/-- The model phase of a turn. -/
def modelPhase (S : Session) (l : LoopState) : Runtime ModelPhase := do
  let resumedInflight := l.inPhase .model_inflight
  let (l, stepId) ← planStep K S l
  assertLoopBoundary S l .model
  let attempt := (l.checkpoint.bind (·.attempt)).getD (l.modelCalls + 1)
  let interrupted ←
    if resumedInflight then resumeInflight K S l stepId attempt else .pure none
  match interrupted with
  | some outcome => return .ended outcome
  | none => callModel K S l stepId attempt resumedInflight

/-! ### The tool phase -/

/-- A tool call of a turn, once its arguments are resolved. -/
structure ToolCall where
  stepId : String
  toolCallId : String
  registration : ToolRegistration
  emission : ModelEmission
  value : JsonValue
  argumentsDigest : Digest
  callsAlreadyUsed : Nat

/-- The checkpoint of a tool call. -/
def toolCheckpoint (phase : CheckpointPhase) (c : ToolCall) (modelInput : JsonValue)
    (attempt : Option Nat) : Checkpoint :=
  { phase
    stepId := some c.stepId
    modelInput := some modelInput
    emission := some c.emission
    toolCallId := some c.toolCallId
    attempt }

/-- `ToolCallCompleted`, and the turn's `continue`. -/
def completeToolCall (S : Session) (l : LoopState) (c : ToolCall) (result : JsonValue) :
    Runtime TurnOutcome := do
  assertJsonByteLimit result S.workOrder.budget.maxToolResultContextBytesPerCall
    "tool_result_per_call"
  let modelInput := S.workOrder.toolResultInput result
  let projection ← append K S.workOrder l.projection S.lease
    (.ToolCallCompleted c.stepId c.toolCallId (K.encoding.digest (.json result))) none .skip
    (some { phase := .turn, stepId := some c.stepId, modelInput := some modelInput })
  return .next { l with projection, modelInput, checkpoint := none }

/-- The `catch` block around a read. -/
def readFailed (S : Session) (l : LoopState) (c : ToolCall) (toolAttempt : Nat)
    (error : Thrown) : Runtime TurnOutcome :=
  match capturedBoundaryError error with
  | none => .throw error
  | some boundaryError => do
      let classification ← classifyToolBoundaryError boundaryError c.registration
      if classification = .aborted then throwBoundaryError boundaryError
      else do
        let scheduled ← scheduleRetry K S.workOrder l.projection S.lease c.stepId .tool
          c.toolCallId toolAttempt classification
          (toolCheckpoint .tool c l.modelInput (some (toolAttempt + 1)))
        match scheduled with
        | some (projection, checkpoint) =>
            return .next { l with projection, checkpoint := some checkpoint }
        | none =>
            if classification = .uncertain then
              park K S l.projection c.stepId .running "tool_call_outcome_uncertain"
            else .throw (normalizeBoundaryFailure .tool boundaryError classification)

/-- The claim of an approved read. -/
def claimApprovedRead (S : Session) (l : LoopState) (c : ToolCall)
    (normalizedTargetDigest : Digest) : Option Approval → Runtime Unit
  | none => .pure ()
  | some approval =>
      claimReadApproval K S.workOrder l.projection.runId S.lease approval c.stepId c.toolCallId
        c.argumentsDigest normalizedTargetDigest

/-- A tool call of the strategy `read`. -/
def readTool (S : Session) (l : LoopState) (c : ToolCall) (normalizedTargetDigest : Digest)
    (approval : Option Approval) : Runtime TurnOutcome := do
  claimApprovedRead K S l c normalizedTargetDigest approval
  if c.registration.riskClass ≠ .R0 ∧ c.registration.riskClass ≠ .R1 then
    failTurn K S l.projection c.stepId .KAF_RUNTIME_CAPABILITY_MISSING
      { reason := some "read_effect_strategy_risk_mismatch" }
  else do
    let toolAttempt := (l.checkpoint.bind (·.attempt)).getD 1
    let outcome ← Prog.attempt (withActiveExecution K S.workOrder l.projection.runId S.lease
      ⟨c.stepId, .tool, c.toolCallId ++ ":" ++ toString toolAttempt⟩
      (captureBoundaryInvocation (invoke (.executeTool c.registration c.value))))
    match outcome with
    | .error e => readFailed K S l c toolAttempt e
    | .ok result => completeToolCall K S l c result

/-- A tool call with a write strategy. -/
def writeTool (S : Session) (l : LoopState) (c : ToolCall) (normalizedTargetDigest : Digest)
    (approval : Option Approval) : Runtime TurnOutcome := do
  let outcome ← executeWriteEffect K
    { workOrder := S.workOrder
      policyRegistrationDigest := S.definition.policyRegistrationDigest
      projection := l.projection
      lease := S.lease
      registration := c.registration
      stepId := c.stepId
      toolCallId := c.toolCallId
      value := c.value
      normalizedTargetDigest
      approval
      checkpoint := some (toolCheckpoint .tool c l.modelInput
        (some ((l.checkpoint.bind (·.attempt)).getD 1))) }
  match outcome with
  | .parked _ => return .done .parked
  | .acknowledged projection result => completeToolCall K S { l with projection } c result

/-- A tool call the policy has let through. -/
def executeToolCall (S : Session) (l : LoopState) (c : ToolCall)
    (normalizedTargetDigest : Digest) (approval : Option Approval) : Runtime TurnOutcome := do
  assertLoopBoundary S l .internal
  if c.registration.effectStrategyKind = none then
    readTool K S l c normalizedTargetDigest approval
  else writeTool K S l c normalizedTargetDigest approval

/-- The strength an approval of a tool call requires. -/
def RiskClass.requiredStrength : RiskClass → AuthenticationStrength
  | .R5 => .user_presence
  | .R4 => .phishing_resistant
  | _ => .multi_factor

/-- The binding of a decision about a tool call. -/
def decisionBinding (S : Session) (runId : String) (c : ToolCall)
    (normalizedTargetDigest : Digest) (owner decisionId : String) (preview : DecisionPreview) :
    DecisionBinding where
  tenantId := S.workOrder.tenantId
  principalId := owner
  runId
  stepId := c.stepId
  decisionId
  workOrderBindingDigest := S.workOrder.workOrderBindingDigest
  executionDefinition := S.workOrder.executionDefinition
  executionDefinitionDigest := S.workOrder.executionDefinitionDigest
  toolId := c.registration.id
  toolVersion := c.registration.implementationVersion
  toolRegistrationDigest := c.registration.toolRegistrationDigest
  argumentsDigest := c.argumentsDigest
  targetDigest := normalizedTargetDigest
  contentDigest := preview.contentDigest
  previewDigest := preview.previewDigest
  purposeCode := S.workOrder.purposeCode
  purposeRegistryVersion := S.workOrder.purposeRegistryVersion
  policyRegistrationDigest := S.definition.policyRegistrationDigest

/-- `ApprovalRequested` of a tool call. -/
def requestApproval (S : Session) (l : LoopState) (c : ToolCall)
    (normalizedTargetDigest : Digest) (owner : String) : Runtime TurnOutcome := do
  let decisionId : String ← consult (.generateId "decision")
  let preview : DecisionPreview ← invoke (.previewDecision c.stepId decisionId c.registration
    c.argumentsDigest normalizedTargetDigest c.value)
  let binding :=
    decisionBinding S l.projection.runId c normalizedTargetDigest owner decisionId preview
  let strength := c.registration.riskClass.requiredStrength
  let requestingEventId : String ← consult (.generateId "event")
  let createdAt : Instant ← consult .now
  let decisionGateDigest :=
    K.encoding.digest (.decisionGate decisionId requestingEventId binding strength)
  let gate : DecisionGate :=
    { decisionId
      tenantId := S.workOrder.tenantId
      runId := l.projection.runId
      requestingEventId
      binding
      decisionGateDigest
      requiredAuthenticationStrength := strength
      createdAt }
  let _ ← append K S.workOrder l.projection S.lease
    (.ApprovalRequested c.stepId decisionId decisionGateDigest
      (K.encoding.digest (.decisionBinding binding)))
    (some requestingEventId) (putDecisionGate gate)
  return .done .parked

/-- A tool call that needs an approval nobody has given. -/
def seekApproval (S : Session) (l : LoopState) (c : ToolCall) (normalizedTargetDigest : Digest) :
    Runtime TurnOutcome :=
  if ¬ K.decisionPreviewer ∨ ¬ K.decisionStore then
    failTurn K S l.projection c.stepId .KAF_RUNTIME_CAPABILITY_MISSING
      { reason := some "decision_preview_or_store_missing" }
  else
    match S.workOrder.decisionOwner with
    | .registered_role _ =>
        failTurn K S l.projection c.stepId .KAF_RUNTIME_CAPABILITY_MISSING
          { reason := some "registered_role_resolution_required" }
    | .principal owner => requestApproval K S l c normalizedTargetDigest owner

/-- `evaluateHostToolCall`. -/
def evaluateHostToolCall (registration : ToolRegistration) (argumentsDigest : Digest)
    (callsAlreadyUsed : Nat) : Runtime PolicyDecision := do
  let answer : Option PolicyDecision ←
    invoke (.evaluatePolicy registration argumentsDigest callsAlreadyUsed)
  match answer with
  | none => .throw (kafReason .KAF_POLICY_DENIED "policy_result_invalid")
  | some decision => return decision

/-- The policy's decision about a tool call, and what follows from it. -/
def decideToolCall (S : Session) (l : LoopState) (c : ToolCall) : Runtime TurnOutcome := do
  let decision ← evaluateHostToolCall c.registration c.argumentsDigest c.callsAlreadyUsed
  match decision with
  | .deny => failTurn K S l.projection c.stepId .KAF_POLICY_DENIED
  | .allow_with_grant normalizedTargetDigest =>
      executeToolCall K S l c normalizedTargetDigest none
  | .require_approval normalizedTargetDigest => do
      let approval ← approvedToolCall K S.workOrder l.projection
        S.definition.policyRegistrationDigest c.registration c.stepId c.argumentsDigest
        normalizedTargetDigest
      match approval with
      | none => seekApproval K S l c normalizedTargetDigest
      | some approval => executeToolCall K S l c normalizedTargetDigest (some approval)

/-- `ToolCallRequested` of a tool call. -/
def recordToolCall (S : Session) (l : LoopState) (c : ToolCall) : Runtime TurnOutcome := do
  let projection ← append K S.workOrder l.projection S.lease
    (.ToolCallRequested c.stepId c.toolCallId c.registration.toolRegistrationDigest
      c.argumentsDigest) none .skip
    (some (toolCheckpoint .tool c l.modelInput (some 1)))
  let digest := c.registration.toolRegistrationDigest
  decideToolCall K S
    { l with
      projection
      toolCalls := l.toolCalls + 1
      toolCallsByRegistration := fun d =>
        if d = digest then l.toolCallsByRegistration digest + 1
        else l.toolCallsByRegistration d } c

/-- `ExecutionStarted` of a tool call. -/
def startToolCall (S : Session) (l : LoopState) (c : ToolCall) : Runtime TurnOutcome := do
  assertLoopBoundary S l .tool
  if c.callsAlreadyUsed ≥ c.registration.maxCallsPerRun then
    failTurn K S l.projection c.stepId .KAF_RUNTIME_CAPABILITY_MISSING
      { reason := some "per_tool_budget_exhausted" }
  else do
    let projection ← append K S.workOrder l.projection S.lease
      (.ExecutionStarted c.stepId (some c.toolCallId)) none .skip
      (some (toolCheckpoint .tool_request c l.modelInput none))
    recordToolCall K S { l with projection } c

/-- `callsAlreadyUsed` of a tool call. -/
def callsAlreadyUsed (l : LoopState) (toolRegistrationDigest : Digest) : Nat :=
  if l.inPhase .tool then l.toolCallsByRegistration toolRegistrationDigest - 1
  else l.toolCallsByRegistration toolRegistrationDigest

/-- The tool phase of a turn, with the registration the model asked for. -/
def resolvedToolPhase (S : Session) (l : LoopState) (stepId : String)
    (registration : ToolRegistration) (emission : ModelEmission) (input : JsonValue) :
    Runtime TurnOutcome := do
  let resolved : Except Thrown JsonValue ← consult (.resolveToolCall registration input)
  match resolved with
  | .error _ =>
      failTurn K S l.projection stepId .KAF_POLICY_DENIED
        { reason := some "tool_input_or_resource_resolution_failed" }
  | .ok value => do
      let c : ToolCall :=
        { stepId
          toolCallId := (l.checkpoint.bind (·.toolCallId)).getD ("tool-call-" ++ stepId)
          registration
          emission
          value
          argumentsDigest := K.encoding.digest (.json value)
          callsAlreadyUsed := callsAlreadyUsed l registration.toolRegistrationDigest }
      if l.inPhase .tool then decideToolCall K S l c
      else if l.inPhase .tool_request then recordToolCall K S l c
      else startToolCall K S l c

/-- The tool phase of a turn. -/
def toolPhase (S : Session) (l : LoopState) (stepId : String) (toolRegistrationDigest : Digest)
    (input : JsonValue) : Runtime TurnOutcome := do
  let registration : Option ToolRegistration ← consult (.resolveTool toolRegistrationDigest)
  match registration.filter (fun registration =>
      toolRegistrationDigest ∈ S.definition.toolRegistrationDigests ∧
        registration.requiredScopes.all (· ∈ S.workOrder.requestedCapabilities)) with
  | none => failTurn K S l.projection stepId .KAF_AUTHORIZATION_BINDING_MISMATCH
  | some registration =>
      resolvedToolPhase K S l stepId registration (.tool_call toolRegistrationDigest input) input

/-! ### A turn -/

/-- `InputRequested` of an emission. -/
def requestInput (S : Session) (l : LoopState) (stepId : String) (inputSchemaDigest : Digest)
    (safePrompt : String) : Runtime TurnOutcome := do
  let requestId := "input-request-" ++ stepId
  let _ ← append K S.workOrder l.projection S.lease
    (.InputRequested stepId requestId inputSchemaDigest safePrompt) none .skip
    (some { phase := .input
            stepId := some stepId
            modelInput := some l.modelInput
            emission := some (.input_request inputSchemaDigest safePrompt)
            requestId := some requestId
            inputSchemaDigest := some inputSchemaDigest })
  return .done .parked

/-- The final phase of a turn. -/
def finalPhase (S : Session) (l : LoopState) (stepId : String) (value : JsonValue) :
    Runtime TurnOutcome := do
  let checkpoint : Checkpoint :=
    { phase := .final
      stepId := some stepId
      modelInput := some l.modelInput
      emission := some (.final value) }
  let projection ← append K S.workOrder l.projection S.lease (.ExecutionStarted stepId none)
    none .skip (some checkpoint)
  let status ← finalize K S.workOrder projection S.lease stepId value (some checkpoint)
  return .done status

/-- What a turn does with an emission. -/
def emissionPhase (S : Session) (l : LoopState) (stepId : String) :
    ModelEmission → Runtime TurnOutcome
  | .input_request inputSchemaDigest safePrompt =>
      requestInput K S l stepId inputSchemaDigest safePrompt
  | .tool_call toolRegistrationDigest input =>
      toolPhase K S l stepId toolRegistrationDigest input
  | .final value => finalPhase K S l stepId value

/-- The `final` and `verification` phases of a turn. -/
def resumeFinal (S : Session) (l : LoopState) (checkpoint : Checkpoint) :
    Runtime TurnOutcome :=
  match checkpoint.stepId, checkpoint.emission with
  | some stepId, some (.final value) => do
      let status ←
        finalize K S.workOrder l.projection S.lease stepId value (some checkpoint)
      return .done status
  | _, _ => .throw (conflict "final_context_checkpoint_invalid")

/-- The emission of a turn: the checkpoint's, or the model's. -/
def emissionOf (S : Session) (l : LoopState) : Runtime ModelPhase :=
  if l.inPhase .emission ∨ l.inPhase .tool_request ∨ l.inPhase .tool then
    match l.checkpoint.bind (·.stepId), l.checkpoint.bind (·.emission) with
    | some stepId, some next => .pure (.emitted l stepId next)
    | _, _ => .throw (conflict "model_context_checkpoint_invalid")
  else modelPhase K S l

/-- The part of a turn after its checkpoint is settled. -/
def turnBody (S : Session) (l : LoopState) : Runtime TurnOutcome := do
  assertLoopBoundary S l .turn
  let phase ← emissionOf K S l
  match phase with
  | .ended outcome => return outcome
  | .emitted l stepId next => emissionPhase K S l stepId next

/-- The checkpoint of a turn that resumes a finalization. -/
def LoopState.finalCheckpoint (l : LoopState) : Option Checkpoint :=
  l.checkpoint.filter fun c => c.phase = .final ∨ c.phase = .verification

/-- One pass of the `for (;;)` of `execute`. -/
def turn (S : Session) (l : LoopState) : Runtime TurnOutcome := do
  let l ← inputPhase K S l
  let l ← backoffPhase K S l
  match l.finalCheckpoint with
  | some checkpoint => resumeFinal K S l checkpoint
  | none => turnBody K S l

/-! ### The end of an execution -/

/-- `TERMINAL_RUN_ERROR_CODES`. -/
def TERMINAL_RUN_ERROR_CODES : List KafErrorCode :=
  [.KAF_RUNTIME_CAPABILITY_MISSING, .KAF_RUNTIME_TERMINAL, .KAF_POLICY_DENIED,
    .KAF_EFFECT_ABANDONED_UNCERTAIN, .KAF_MODEL_RESOURCE_LIMIT_EXCEEDED,
    .KAF_TOOL_EXECUTION_FAILED, .KAF_VERIFICATION_REQUIRED, .KAF_EVIDENCE_INVALID_REFERENCE]

/-- `TERMINAL_MODEL_ADAPTER_REASONS`. -/
def TERMINAL_MODEL_ADAPTER_REASONS : List String :=
  ["model_emission_schema_invalid", "model_call_failed_without_safe_result"]

/-- `TERMINAL_EFFECT_AUTHORIZATION_REASONS`. -/
def TERMINAL_EFFECT_AUTHORIZATION_REASONS : List String :=
  ["effect_approval_required", "effect_authorization_reservation_mismatch",
    "effect_operation_key_empty", "effect_preview_binding_or_determinism_failed",
    "effect_secret_ref_claim_port_unavailable"]

/-- `#terminalRunError`. -/
def terminalRunError : Thrown → Option KafError
  | .kaf e =>
      if e.code ∈ TERMINAL_RUN_ERROR_CODES ∨
          (e.code = .KAF_MODEL_ADAPTER_MISMATCH ∧
            e.details.reason.any (· ∈ TERMINAL_MODEL_ADAPTER_REASONS)) ∨
          (e.code = .KAF_AUTHORIZATION_BINDING_MISMATCH ∧
            e.details.reason.any (· ∈ TERMINAL_EFFECT_AUTHORIZATION_REASONS)) then some e
      else none
  | _ => none

/-- `#terminalizeExecutionFailure`, and the rethrow after it. -/
def terminalizeExecutionFailure (workOrder : WorkOrder) (lease : RunLease) (error : Thrown) :
    Runtime ExecutionStatus :=
  match terminalRunError error with
  | none => .throw error
  | some failure => do
      let latest ← Prog.read fun s => s.truth.projection
      if latest.status.terminal then return latest.status.toExecutionStatus
      else do
        let _ ← append K workOrder latest lease
          (.RunFailed latest.currentStepId failure.code failure.details)
        return .failed

/-- The abort branch of the `catch` block of `execute`. -/
def cancelExecution (workOrder : WorkOrder) (lease : RunLease) (actorId : String) :
    Runtime ExecutionStatus := do
  let latest ← Prog.read fun s => s.truth.projection
  if latest.status.terminal then return .cancelled
  else do
    let _ ← append K workOrder latest lease
      (.RunCancelled latest.currentStepId "abort_signal" actorId)
    return .cancelled

/-- The `catch` block of `execute`. -/
def executionFailed (workOrder : WorkOrder) (lease : RunLease) (actorId : String)
    (error : Thrown) : Runtime ExecutionStatus := do
  let aborted : Bool ← consult .aborted
  if aborted then cancelExecution K workOrder lease actorId
  else terminalizeExecutionFailure K workOrder lease error

/-- The `finally` block of `execute`. -/
def release (lease : RunLease) : Runtime Unit :=
  invoke (.releaseLease lease)

/-- The `catch` and `finally` blocks of `execute`, around one turn of its loop. -/
def guarded (workOrder : WorkOrder) (lease : RunLease) (actorId : String)
    (body : Runtime TurnOutcome) : Runtime TurnOutcome := do
  let outcome ← Prog.attempt (body.tryCatch fun e =>
    .done <$> executionFailed K workOrder lease actorId e)
  match outcome with
  | .ok (.next l) => return .next l
  | .ok (.done status) => do
      release lease
      return .done status
  | .error e => do
      release lease
      .throw e

/-- A pass of the loop of `execute`. -/
def executeTurn (S : Session) (l : LoopState) : Runtime TurnOutcome :=
  guarded K S.workOrder S.lease S.claims.actorId (turn K S l)

/-! ### The beginning of an execution -/

/-- `#verifyAuthority` with a run requirement. -/
def verifyAuthority (operation runId : String) : Runtime Claims := do
  let verification : Except String Claims ← consult .verifyAuthority
  match verification with
  | .error reason => .throw (kafReason .KAF_AUTHORIZATION_BINDING_MISMATCH reason)
  | .ok claims => do
      Prog.throwIf (claims.runScope.any (·.1 ≠ runId))
        (kafReason .KAF_AUTHORIZATION_BINDING_MISMATCH "run_scope_mismatch")
      Prog.throwIf (claims.runScope.isSome ∧ claims.systemWorker ∧
          operation ∉ ["run.execute", "run.get", "run.events"])
        (kafReason .KAF_AUTHORIZATION_BINDING_MISMATCH "run_scope_operation_denied")
      return claims

/-- `#assertAuthorityWorkOrderScope`. -/
def assertAuthorityWorkOrderScope (claims : Claims) (projection : RunProjection) :
    Runtime Unit :=
  Prog.throwIf (claims.runScope.any (· ≠ (projection.runId, projection.workOrderId)))
    (kafReason .KAF_AUTHORIZATION_BINDING_MISMATCH "run_scope_mismatch")

/-- `getRun`. -/
def getRun (runId : String) : Runtime RunProjection := do
  let claims ← verifyAuthority "run.get" runId
  let projection ← Prog.read fun s => s.truth.projection
  assertAuthorityWorkOrderScope claims projection
  return projection

/-- The name of an event type in a suspension reason. -/
def RunEventType.text (t : RunEventType) : String :=
  match t with
  | .RunAccepted => "RunAccepted" | .PlanningStarted => "PlanningStarted"
  | .ModelCallStarted => "ModelCallStarted" | .ModelCallCompleted => "ModelCallCompleted"
  | .ExecutionStarted => "ExecutionStarted" | .ToolCallRequested => "ToolCallRequested"
  | .ToolCallCompleted => "ToolCallCompleted" | .RetryScheduled => "RetryScheduled"
  | .RetryResumed => "RetryResumed" | .InputRequested => "InputRequested"
  | .InputSubmitted => "InputSubmitted" | .ApprovalRequested => "ApprovalRequested"
  | .ApprovalRecorded => "ApprovalRecorded" | .ApprovalRejected => "ApprovalRejected"
  | .EffectPrepared => "EffectPrepared" | .EffectDispatched => "EffectDispatched"
  | .EffectAcknowledged => "EffectAcknowledged" | .EffectUncertain => "EffectUncertain"
  | .EffectNeedsReconciliation => "EffectNeedsReconciliation"
  | .EffectReconciliationRecorded => "EffectReconciliationRecorded"
  | .EffectAbandoned => "EffectAbandoned" | .CompensationRequested => "CompensationRequested"
  | .EffectCompensated => "EffectCompensated" | .ArtifactProduced => "ArtifactProduced"
  | .VerificationStarted => "VerificationStarted"
  | .VerificationRecorded => "VerificationRecorded"
  | .VerificationExceptionRecorded => "VerificationExceptionRecorded"
  | .RunSuspended => "RunSuspended" | .RunCompleted => "RunCompleted"
  | .RunFailed => "RunFailed" | .RunCancelled => "RunCancelled"

/-- The resume target of a run without a checkpoint. -/
def RunStatus.checkpointTarget : RunStatus → ResumeTarget
  | .verifying => .verifying
  | .running => .running
  | _ => .planning

/-- `projection.currentStepId ?? idGenerator.generate("step")`. -/
def currentStepOr : Option String → Runtime String
  | some stepId => .pure stepId
  | none => consult (.generateId "step")

/-- The suspension of a run without a checkpoint. -/
def parkWithoutCheckpoint (workOrder : WorkOrder) (projection : RunProjection)
    (lease : RunLease) (history : List RunEvent) : Runtime TurnOutcome := do
  let stepId ← currentStepOr projection.currentStepId
  let _ ← append K workOrder projection lease
    (.RunSuspended stepId projection.status.checkpointTarget
      ("checkpoint_required_after_" ++
        (history.getLast?.elim "unknown" (·.eventType.text))) none)
  return .done .parked

/-- The events of a type. -/
def countEvents (events : List RunEvent) (eventType : RunEventType) : Nat :=
  (events.filter (·.eventType = eventType)).length

/-- The variables `execute` enters its loop with. -/
def firstTurn (claims : Claims) (workOrder : WorkOrder) (definition : AgentDefinition)
    (lease : RunLease) (projection : RunProjection) (history : List RunEvent)
    (checkpoint : Option Checkpoint) : Runtime (Session × LoopState) := do
  let invocationStartedAt : Nat ← consult .monotonicMilliseconds
  return (
    { claims, workOrder, definition, lease, history, invocationStartedAt },
    { projection
      checkpoint
      modelInput := (checkpoint.bind (·.modelInput)).getD workOrder.initialModelInput
      turns := countEvents history .PlanningStarted
      modelCalls := countEvents history .ModelCallStarted
      toolCalls := countEvents history .ToolCallRequested
      toolCallsByRegistration := toolCallCount history })

/-- The checkpoint `execute` starts from. -/
def startingCheckpoint (workOrder : WorkOrder) (projection : RunProjection) :
    Runtime (Option Checkpoint) :=
  if projection.status = .accepted then .pure none
  else loadContextCheckpoint K workOrder projection

/-- What becomes of an `execute` before its loop: it ends, or it enters the loop. -/
inductive Started where
  | ended (outcome : TurnOutcome)
  | entered (S : Session) (l : LoopState)

/-- From the recovery of an interrupted effect to the loop of `execute`. -/
def resumeRun (claims : Claims) (workOrder : WorkOrder) (definition : AgentDefinition)
    (lease : RunLease) (projection : RunProjection) (history : List RunEvent) :
    Runtime Started := do
  let recovered ←
    if projection.status = .running then
      recoverInterruptedEffect K workOrder projection lease history
    else .pure none
  match recovered with
  | some _ => return .ended (.done .parked)
  | none => do
      let checkpoint ← startingCheckpoint K workOrder projection
      if projection.status ≠ .accepted ∧ checkpoint.isNone then
        .ended <$> parkWithoutCheckpoint K workOrder projection lease history
      else do
        let (S, l) ← firstTurn claims workOrder definition lease projection history checkpoint
        return .entered S l

/-- The `try` block of `execute` up to its loop. -/
def enterLoop (claims : Claims) (workOrder : WorkOrder) (definition : AgentDefinition)
    (lease : RunLease) (projection : RunProjection) : Runtime Started := do
  let history ← Prog.read fun s => s.truth.events
  if projection.status = .waiting_for_input ∨ projection.status = .waiting_for_approval ∨
      projection.status = .suspended then
    return .ended (.done .parked)
  else resumeRun K claims workOrder definition lease projection history

/-- `leaseStore.acquire`. -/
def acquire : Runtime RunLease := do
  let lease : Option RunLease ← invoke .acquireLease
  match lease with
  | none => .throw (kafError .KAF_STORAGE_CONCURRENCY_CONFLICT)
  | some lease => return lease

/-- The `catch` and `finally` blocks of `execute`, around what comes before its loop. -/
def guardedStart (workOrder : WorkOrder) (lease : RunLease) (actorId : String)
    (body : Runtime Started) : Runtime Started := do
  let outcome ← Prog.attempt (body.tryCatch fun e =>
    (fun status => .ended (.done status)) <$> executionFailed K workOrder lease actorId e)
  match outcome with
  | .ok (.entered S l) => return .entered S l
  | .ok (.ended outcome) => do
      release lease
      return .ended outcome
  | .error e => do
      release lease
      .throw e

/-- `execute` of an agent run, up to its loop. -/
def executeAgent (claims : Claims) (workOrder : WorkOrder) (projection : RunProjection) :
    Runtime Started := do
  let definition : Option AgentDefinition ←
    invoke (.resolveAgent workOrder.executionDefinition)
  match definition with
  | none => .throw (kafError .KAF_RUNTIME_AGENT_DEFINITION_MISMATCH)
  | some definition => do
      let lease ← acquire
      guardedStart K workOrder lease claims.actorId
        (enterLoop K claims workOrder definition lease projection)

/-! ### Compensation -/

/-- The definition checks of `#executeCompensation`. -/
def compensationDefinitionMismatch (workOrder : WorkOrder)
    (definition : CompensationRunDefinition) : Bool :=
  match workOrder.executionDefinition with
  | .agent .. => true
  | .compensation _ _ runDefinition originalAgent originalEffect strategy tool =>
      definition.compensationRunDefinitionDigest ≠ runDefinition ∨
        definition.originalAgentDefinitionDigest ≠ originalAgent ∨
        definition.compensationStrategyRegistrationDigest ≠ strategy ∨
        definition.compensationToolRegistrationDigest ≠ tool ∨
        workOrder.originalEffectDigest ≠ originalEffect

/-- The kill switches of `#executeCompensation`. -/
def compensationKilled (workOrder : WorkOrder) : Runtime Bool :=
  match workOrder.executionDefinition with
  | .agent .. => .pure false
  | .compensation _ _ runDefinition _ _ strategy _ => do
      let definitionKilled : Bool ← consult (.isKilled "compensation_definition" runDefinition)
      let strategyKilled : Bool ← consult (.isKilled "compensation_strategy" strategy)
      return definitionKilled || strategyKilled

/-- The compensation of an effect, from the policy's decision on. -/
def compensateEffect (workOrder : WorkOrder) (definition : CompensationRunDefinition)
    (registration : ToolRegistration) (projection : RunProjection) (lease : RunLease)
    (stepId toolCallId : String) (value : JsonValue) (normalizedTargetDigest : Digest) :
    Runtime ExecutionStatus := do
  let outcome ← executeWriteEffect K
    { workOrder
      policyRegistrationDigest := definition.policyRegistrationDigest
      projection
      lease
      registration
      stepId
      toolCallId
      value
      normalizedTargetDigest }
  match outcome with
  | .parked _ => return .parked
  | .acknowledged projection result => do
      assertJsonByteLimit result workOrder.budget.maxToolResultContextBytesPerCall
        "tool_result_per_call"
      let projection ← append K workOrder projection lease
        (.ToolCallCompleted stepId toolCallId (K.encoding.digest (.json result)))
      finalize K workOrder projection lease stepId result none

/-- The tool call of a compensation, with its arguments resolved. -/
def compensationToolCall (workOrder : WorkOrder) (definition : CompensationRunDefinition)
    (registration : ToolRegistration) (projection : RunProjection) (lease : RunLease)
    (stepId toolCallId : String) (value : JsonValue) : Runtime ExecutionStatus := do
  let argumentsDigest := K.encoding.digest (.json value)
  let projection ← append K workOrder projection lease
    (.ToolCallRequested stepId toolCallId registration.toolRegistrationDigest argumentsDigest)
  let decision ← evaluateHostToolCall registration argumentsDigest 0
  match decision with
  | .deny =>
      fail K workOrder projection lease stepId .KAF_POLICY_DENIED
        { reason := some "compensation_approval_gate_not_materialized" }
  | .require_approval _ =>
      fail K workOrder projection lease stepId .KAF_RUNTIME_CAPABILITY_MISSING
        { reason := some "compensation_approval_gate_not_materialized" }
  | .allow_with_grant normalizedTargetDigest =>
      compensateEffect K workOrder definition registration projection lease stepId toolCallId
        value normalizedTargetDigest

/-- `#executeCompensation`, from its accepted state on. -/
def compensate (workOrder : WorkOrder) (definition : CompensationRunDefinition)
    (registration : ToolRegistration) (projection : RunProjection) (lease : RunLease) :
    Runtime ExecutionStatus := do
  let stepId : String ← consult (.generateId "compensation_step")
  let toolCallId : String ← consult (.generateId "compensation_tool_call")
  assertBoundary workOrder .tool ⟨0, 0, 0, 0⟩
  let projection ← append K workOrder projection lease
    (.ExecutionStarted stepId (some toolCallId))
  let projection ← append K workOrder projection lease
    (.CompensationRequested stepId workOrder.originalRunId workOrder.originalEffectDigest
      projection.runId)
  let resolved : Except Thrown JsonValue ←
    consult (.resolveToolCall registration workOrder.input)
  match resolved with
  | .error _ =>
      fail K workOrder projection lease stepId .KAF_POLICY_DENIED
        { reason := some "compensation_input_or_resource_resolution_failed" }
  | .ok value =>
      compensationToolCall K workOrder definition registration projection lease stepId
        toolCallId value

/-- The `try` block of `#executeCompensation`. -/
def compensationBody (workOrder : WorkOrder) (definition : CompensationRunDefinition)
    (registration : ToolRegistration) (projection : RunProjection) (lease : RunLease) :
    Runtime TurnOutcome :=
  if projection.status = .suspended then .pure (.done .parked)
  else if projection.status ≠ .accepted then
    .throw (kafReason .KAF_RUNTIME_INVALID_TRANSITION
      "compensation_requires_accepted_checkpoint")
  else .done <$> compensate K workOrder definition registration projection lease

/-- The tool registration of a compensation. -/
def compensationTool (definition : CompensationRunDefinition) : Runtime ToolRegistration := do
  let registration : Option ToolRegistration ←
    consult (.resolveTool definition.compensationToolRegistrationDigest)
  match registration.filter (fun registration =>
      registration.id = definition.compensationToolId ∧
        registration.implementationVersion = definition.compensationToolVersion ∧
        registration.toolRegistrationDigest = definition.compensationToolRegistrationDigest ∧
        registration.effectStrategyKind ≠ none) with
  | none =>
      .throw (kafReason .KAF_AUTHORIZATION_BINDING_MISMATCH
        "compensation_tool_registration_mismatch")
  | some registration => return registration

/-- The definition of a compensation run. -/
def compensationDefinition (workOrder : WorkOrder) : Runtime CompensationRunDefinition := do
  Prog.throwIf (¬ K.compensationServices)
    (kafReason .KAF_RUNTIME_NOT_READY "compensation_transaction_domain_unavailable")
  let definition : Option CompensationRunDefinition ←
    invoke (.resolveCompensation workOrder.executionDefinition)
  let killed ← compensationKilled workOrder
  Prog.throwIf killed (kafReason .KAF_RUNTIME_NOT_READY "compensation_registration_killed")
  match definition.filter (fun d => !compensationDefinitionMismatch workOrder d) with
  | none =>
      .throw (kafReason .KAF_AUTHORIZATION_BINDING_MISMATCH
        "compensation_execution_definition_mismatch")
  | some definition => return definition

/-- `#executeCompensation`. -/
def executeCompensation (claims : Claims) (workOrder : WorkOrder) (projection : RunProjection) :
    Runtime TurnOutcome := do
  let definition ← compensationDefinition K workOrder
  let registration ← compensationTool definition
  let lease ← acquire
  guarded K workOrder lease claims.actorId
    (compensationBody K workOrder definition registration projection lease)

/-- `execute`, up to its loop. -/
def execute (runId : String) : Runtime Started := do
  let claims ← verifyAuthority "run.execute" runId
  let projection ← getRun runId
  if projection.status.terminal then
    return .ended (.done projection.status.toExecutionStatus)
  else do
    let workOrder ← Prog.read fun s => s.workOrder
    if workOrder.isCompensation then
      .ended <$> executeCompensation K claims workOrder projection
    else executeAgent K claims workOrder projection

end Pactmark
