import Pactmark.Runtime.Kernel

/-!
# Runtime — the effect protocol

`#executeWriteEffect` with what it calls: the preview and authorization of an effect, the
commits that prepare, dispatch and acknowledge it, the reconciliation of an interrupted one,
and `#parkEffectForReconciliation` for an outcome nobody knows.  `#recoverInterruptedEffect` is
what a new `execute` does first with a run that stopped in the middle of an effect.

The approval of a tool call (`#approvedToolCall`, `#claimReadApproval`) is here too.
-/

namespace Pactmark

open Durable

variable (K : Config)

/-! ### Effect results -/

/-- `#protectEffectResult`. -/
def protectEffectResult (workOrder : WorkOrder) (record : EffectRecord)
    (execution : EffectExecution) (createdAt : Instant) : Runtime ProtectedEffectResult := do
  Prog.throwIf (¬ K.effectResultProtector)
    (kafReason .KAF_RUNTIME_CAPABILITY_MISSING "protected_effect_result_store_required")
  Prog.throwIf (workOrder.dataClass = .highly_restricted)
    (kafReason .KAF_STORAGE_SECURITY_PROFILE "highly_restricted_effect_result_forbidden")
  assertJsonByteLimit execution.result workOrder.budget.maxToolResultContextBytesPerCall
    "protected_effect_result"
  let binding : EffectResultBinding :=
    { tenantId := workOrder.tenantId
      runId := record.runId
      effectId := record.effectId
      effectDigest := record.effectDigest
      resultDigest := K.encoding.digest (.json execution.result)
      workOrderBindingDigest := workOrder.workOrderBindingDigest
      executionDefinition := workOrder.executionDefinition
      executionDefinitionDigest := workOrder.executionDefinitionDigest
      toolId := record.toolId
      toolVersion := record.toolVersion
      toolRegistrationDigest := record.toolRegistrationDigest
      strategy := record.strategy
      strategyRegistrationDigest := record.strategyRegistrationDigest
      resultSchemaDigest := execution.acknowledgement.resultSchemaDigest
      createdAt }
  let byteSize := K.encoding.byteSize (.json execution.result)
  let aad : DigestMaterial :=
    .effectResultAad binding byteSize workOrder.id workOrder.purposeCode
      workOrder.purposeRegistryVersion workOrder.dataClass
  let aadDigest : Digest ← invoke (.protect aad)
  Prog.throwIf (aadDigest ≠ K.encoding.digest aad)
    (kafReason .KAF_AUTHORIZATION_BINDING_MISMATCH "effect_result_protector_aad_mismatch")
  return {
    binding
    byteSize
    workOrderId := workOrder.id
    purposeCode := workOrder.purposeCode
    purposeRegistryVersion := workOrder.purposeRegistryVersion
    dataClass := workOrder.dataClass
    result := execution.result }

/-- `RuntimeEffectStore.getAcknowledgedResult`. -/
def getAcknowledgedResult (record : EffectRecord) : Runtime (Option JsonValue) := do
  Prog.throwIf (record.state.name ≠ .acknowledged)
    (conflict "effect_result_requires_acknowledged_effect")
  let stored ← Prog.read fun s => s.truth.results record.effectId
  match stored with
  | none => return none
  | some result => do
      Prog.ofExcept (assertEffectResultRecordBinding result record)
      let _ : Unit ← invoke (.unprotect (.effectResultAad result.binding result.byteSize
        result.workOrderId result.purposeCode result.purposeRegistryVersion result.dataClass))
      Prog.throwIf (K.encoding.byteSize (.json result.result) ≠ result.byteSize)
        (conflict "acknowledged_effect_result_byte_size_changed")
      Prog.throwIf (K.encoding.digest (.json result.result) ≠ result.binding.resultDigest)
        (conflict "acknowledged_effect_result_payload_changed")
      return some result.result

/-! ### Validation of what strategies answer -/

/-- `effectProofDigest`. -/
def effectProofDigest (acknowledgement : EffectAcknowledgement) : Digest :=
  K.encoding.digest
    (.effectProof { acknowledgement with acknowledgementId := "", proofDigest := "" })

/-- `validateEffectExecution`. -/
def validateEffectExecution (execution : EffectExecution) (registration : ToolRegistration)
    (effectKey : String) (operationKey : Option String) (normalizedTargetDigest : Digest) :
    Runtime EffectExecution := do
  let result : JsonValue ←
    invoke (.validateOutput registration.toolRegistrationDigest execution.result)
  let acknowledgement := execution.acknowledgement
  Prog.throwIf (acknowledgement.effectKey ≠ effectKey ∨
      acknowledgement.operationKey ≠ operationKey ∨
      acknowledgement.toolRegistrationDigest ≠ registration.toolRegistrationDigest ∨
      acknowledgement.strategyRegistrationDigest ≠
        registration.effectStrategyRegistrationDigest ∨
      acknowledgement.normalizedTargetDigest ≠ normalizedTargetDigest ∨
      acknowledgement.resultSchemaDigest ≠ registration.outputSchemaDigest ∨
      acknowledgement.resultDigest ≠ K.encoding.digest (.json result))
    (kafReason .KAF_AUTHORIZATION_BINDING_MISMATCH "effect_acknowledgement_binding_mismatch")
  Prog.throwIf (acknowledgement.proofDigest ≠ effectProofDigest K acknowledgement)
    (kafReason .KAF_AUTHORIZATION_BINDING_MISMATCH "effect_acknowledgement_proof_mismatch")
  return { result, acknowledgement }

/-- `validateEffectPreview`. -/
def validateEffectPreview (strategy : EffectStrategy) (registration : ToolRegistration)
    (value : JsonValue) (context : EffectDispatchContext) (normalizedTargetDigest : Digest) :
    Runtime EffectPreview := do
  let first : EffectPreview ← invoke (.previewEffect value context)
  let second : EffectPreview ← invoke (.previewEffect value context)
  Prog.throwIf
    (registration.previewStrategyRegistrationDigest ≠
        some strategy.previewRegistrationDigest ∨
      first.normalizedTargetDigest ≠ normalizedTargetDigest ∨
      first.previewDigest ≠ first.materialDigest ∨ first.canonical ≠ second.canonical)
    (kafReason .KAF_POLICY_DENIED "effect_preview_binding_or_determinism_failed")
  return first

/-- `validateEffectLookupResult`. -/
def validateEffectLookupResult : Option EffectLookupResult → Except Thrown EffectLookupResult
  | some result => .ok result
  | none =>
      .error (kafReason .KAF_AUTHORIZATION_BINDING_MISMATCH "effect_lookup_result_invalid")

/-- `validateAuthorizationReservation`. -/
def validateAuthorizationReservation (workOrder : WorkOrder) (runId : String)
    (registration : ToolRegistration) (request : EffectAuthorizationRequest)
    (reservation : AuthorizationReservation) (now : Instant) : Except Thrown Unit :=
  if reservation.authorizationKey ≠ request.authorizationKey ∨
      reservation.binding ≠
        { tenantId := workOrder.tenantId
          runId
          stepId := request.stepId
          toolCallId := request.toolCallId
          effectKey := request.effectKey
          executionDefinition := workOrder.executionDefinition
          executionDefinitionDigest := workOrder.executionDefinitionDigest
          workOrderBindingDigest := workOrder.workOrderBindingDigest
          toolId := registration.id
          toolVersion := registration.implementationVersion
          toolRegistrationDigest := registration.toolRegistrationDigest
          argumentsDigest := request.argumentsDigest
          normalizedTargetDigest := request.normalizedTargetDigest } ∨
      reservation.policyRegistrationDigest ≠ request.policyRegistrationDigest ∨
      reservation.approvalId ≠ request.approvalId ∨
      reservation.purposeCode ≠ workOrder.purposeCode ∨
      reservation.purposeRegistryVersion ≠ workOrder.purposeRegistryVersion ∨
      reservation.state ≠ .reserved ∨ now < reservation.createdAt ∨
      reservation.expiresAt ≤ now ∨ reservation.consumedAt ≠ none ∨
      reservation.secretRefIds ≠ [] then
    .error (kafReason .KAF_AUTHORIZATION_BINDING_MISMATCH
      (if reservation.secretRefIds ≠ [] then "effect_secret_ref_claim_port_unavailable"
       else "effect_authorization_reservation_mismatch"))
  else .ok ()

/-- `markAuthorizationReservationConsumed`. -/
def markAuthorizationReservationConsumed (reservation : AuthorizationReservation)
    (consumedAt : Instant) : Except Thrown AuthorizationReservation :=
  if reservation.state ≠ .reserved ∨ reservation.consumedAt ≠ none ∨
      consumedAt < reservation.createdAt ∨ reservation.expiresAt ≤ consumedAt then
    .error (kafReason .KAF_AUTHORIZATION_BINDING_MISMATCH
      "effect_authorization_reservation_not_consumable")
  else .ok { reservation with state := .consumed, consumedAt := some consumedAt }

/-! ### Acknowledging and parking -/

/-- `#acknowledgeEffect`. -/
def acknowledgeEffect (workOrder : WorkOrder) (projection : RunProjection) (lease : RunLease)
    (record : EffectRecord) (stepId : String) (execution : EffectExecution)
    (checkpoint : Option Checkpoint) : Runtime RunProjection := do
  let updatedAt : Instant ← consult .now
  let protectedResult ← protectEffectResult K workOrder record execution updatedAt
  let resultDigest := protectedResult.binding.resultDigest
  let acknowledged :=
    record.advance updatedAt (.acknowledged resultDigest execution.acknowledgement)
  append K workOrder projection lease
    (.EffectAcknowledged stepId record.effectId resultDigest execution.acknowledgement) none
    ((putEffectRecord K.encoding acknowledged).andThen (putProtectedEffectResult protectedResult))
    checkpoint

/-- The `EffectUncertain` commit of `#parkEffectForReconciliation`. -/
def recordUncertain (workOrder : WorkOrder) (projection : RunProjection) (lease : RunLease)
    (record : EffectRecord) (stepId uncertaintyCode : String) (dispatchedAt : Instant) :
    Runtime (RunProjection × EffectRecord) := do
  let updatedAt : Instant ← consult .now
  let unknown := record.advance updatedAt (.unknown dispatchedAt uncertaintyCode)
  let next ← append K workOrder projection lease
    (.EffectUncertain stepId record.effectId uncertaintyCode) none
    (putEffectRecord K.encoding unknown)
  return (next, unknown)

/-- The `RunSuspended` commit of `#parkEffectForReconciliation`. -/
def suspendForReconciliation (workOrder : WorkOrder) (projection : RunProjection)
    (lease : RunLease) (record : EffectRecord) (stepId : String) : Runtime RunProjection :=
  if projection.status = .running then
    append K workOrder projection lease
      (.RunSuspended stepId .running "effect_needs_reconciliation" (some record.effectId))
  else .pure projection

/-- The `EffectNeedsReconciliation` commit of `#parkEffectForReconciliation`. -/
def recordNeedsReconciliation (workOrder : WorkOrder) (projection : RunProjection)
    (lease : RunLease) (record : EffectRecord) (stepId : String) : Runtime RunProjection :=
  match record.state with
  | .unknown _ uncertaintyCode => do
      let updatedAt : Instant ← consult .now
      append K workOrder projection lease
        (.EffectNeedsReconciliation stepId record.effectId) none
        (putEffectRecord K.encoding
          (record.advance updatedAt (.needs_reconciliation uncertaintyCode)))
  | _ => .pure projection

/-- The record and projection `#parkEffectForReconciliation` goes on with after its first
commit. -/
def parkUncertain (workOrder : WorkOrder) (projection : RunProjection) (lease : RunLease)
    (record : EffectRecord) (stepId uncertaintyCode : String) :
    Runtime (RunProjection × EffectRecord) :=
  match record.state with
  | .dispatched dispatchedAt =>
      recordUncertain K workOrder projection lease record stepId uncertaintyCode dispatchedAt
  | _ => .pure (projection, record)

/-- `#parkEffectForReconciliation`. -/
def parkEffectForReconciliation (workOrder : WorkOrder) (projection : RunProjection)
    (lease : RunLease) (record : EffectRecord) (stepId uncertaintyCode : String) :
    Runtime RunProjection := do
  let (projection, record) ←
    parkUncertain K workOrder projection lease record stepId uncertaintyCode
  let projection ← suspendForReconciliation K workOrder projection lease record stepId
  recordNeedsReconciliation K workOrder projection lease record stepId

/-- The uncertainty code of an interrupted dispatch. -/
def EffectStrategyKind.interruptedCode (strategy : EffectStrategyKind) : String :=
  if strategy = .native then "native_replay_safety_unproven" else "dispatch_response_unavailable"

/-- Suspending a run whose acknowledged result cannot be read back. -/
def suspendResultUnavailable (workOrder : WorkOrder) (projection : RunProjection)
    (lease : RunLease) (stepId : String) : Runtime RunProjection :=
  append K workOrder projection lease
    (.RunSuspended stepId .running "acknowledged_effect_result_unavailable" none)

/-- The `EffectAcknowledged` case of `#recoverInterruptedEffect`. -/
def recoverAcknowledged (workOrder : WorkOrder) (projection : RunProjection) (lease : RunLease)
    (stepId effectId : String) (resultDigest : Digest) : Runtime (Option RunProjection) := do
  let record ←
    Prog.read fun s => if K.effectServices then s.truth.effects effectId else none
  match record with
  | some record =>
      match record.state with
      | .acknowledged recordDigest _ => do
          let recovered ← getAcknowledgedResult K record
          if recovered.any (fun result =>
              K.encoding.digest (.json result) = resultDigest ∧
                K.encoding.digest (.json result) = recordDigest) then
            return none
          else
            some <$> suspendResultUnavailable K workOrder projection lease stepId
      | _ => some <$> suspendResultUnavailable K workOrder projection lease stepId
  | none => some <$> suspendResultUnavailable K workOrder projection lease stepId

/-- The `EffectDispatched` and `EffectUncertain` cases of `#recoverInterruptedEffect`. -/
def recoverDispatched (workOrder : WorkOrder) (projection : RunProjection) (lease : RunLease)
    (stepId effectId : String) (uncertaintyCode : Option String) :
    Runtime (Option RunProjection) :=
  if K.effectServices then do
    let record ← Prog.read fun s => s.truth.effects effectId
    match record with
    | none => return none
    | some record =>
        if record.strategy = .reconcilable ∧ record.state.name = .dispatched then return none
        else
          some <$> parkEffectForReconciliation K workOrder projection lease record stepId
            (uncertaintyCode.getD record.strategy.interruptedCode)
  else .pure none

/-- `#recoverInterruptedEffect`. -/
def recoverInterruptedEffect (workOrder : WorkOrder) (projection : RunProjection)
    (lease : RunLease) (history : List RunEvent) : Runtime (Option RunProjection) :=
  match history.getLast?.map RunEvent.payload with
  | some (.EffectAcknowledged stepId effectId resultDigest _) =>
      recoverAcknowledged K workOrder projection lease stepId effectId resultDigest
  | some (.EffectDispatched stepId effectId _) =>
      recoverDispatched K workOrder projection lease stepId effectId none
  | some (.EffectUncertain stepId effectId uncertaintyCode) =>
      recoverDispatched K workOrder projection lease stepId effectId (some uncertaintyCode)
  | _ => .pure none

/-! ### Executing a write effect -/

/-- `input` of `#executeWriteEffect`. -/
structure EffectInput where
  workOrder : WorkOrder
  policyRegistrationDigest : Digest
  projection : RunProjection
  lease : RunLease
  registration : ToolRegistration
  stepId : String
  toolCallId : String
  value : JsonValue
  normalizedTargetDigest : Digest
  approval : Option Approval := none
  checkpoint : Option Checkpoint := none

/-- What `#executeWriteEffect` returns. -/
inductive EffectOutcome where
  | acknowledged (projection : RunProjection) (result : JsonValue)
  | parked (projection : RunProjection)

/-- What `#executeWriteEffect` has settled before it looks at the ledger record. -/
structure EffectPlan extends EffectInput where
  strategy : EffectStrategy
  argumentsDigest : Digest
  effectKey : String
  operationKey : Option String
  context : EffectDispatchContext

/-- `effectId` of the plan. -/
def EffectPlan.effectId (i : EffectPlan) : String :=
  i.context.effectId

/-- The key of the boundary a dispatch is made in. -/
def EffectPlan.dispatchKey (i : EffectPlan) (attempt : Nat) : ActiveExecutionKey :=
  ⟨i.stepId, .tool, i.toolCallId ++ ":effect-dispatch:" ++ toString attempt⟩

/-- The `callback` of the dispatch boundary. -/
def dispatchEffect (i : EffectPlan) : Runtime EffectExecution :=
  match i.strategy.kind, i.operationKey with
  | .none, _ => invoke (.dispatch i.value none i.context)
  | _, none =>
      .throw (kafReason .KAF_AUTHORIZATION_BINDING_MISMATCH "effect_operation_key_empty")
  | _, some operationKey => invoke (.dispatch i.value (some operationKey) i.context)

/-- The `try` block around a dispatch. -/
def attemptDispatch (i : EffectPlan) (attempt : Nat) : Runtime EffectExecution := do
  let execution ← withActiveExecution K i.workOrder i.projection.runId i.lease
    (i.dispatchKey attempt) (dispatchEffect i)
  validateEffectExecution K execution i.registration i.effectKey i.operationKey
    i.normalizedTargetDigest

/-- `error instanceof KafError ? error.code : "effect_dispatch_outcome_unknown"`. -/
def uncertaintyCodeOf : Thrown → String
  | .kaf e => e.code.text
  | _ => "effect_dispatch_outcome_unknown"

/-- The `catch` block around a dispatch. -/
def dispatchFailed (i : EffectPlan) (projection : RunProjection) (record : EffectRecord)
    (error : Thrown) : Runtime EffectOutcome := do
  let aborted : Bool ← consult .aborted
  Prog.throwIf aborted error
  let projection ← parkEffectForReconciliation K i.workOrder projection i.lease record i.stepId
    (uncertaintyCodeOf error)
  return .parked projection

/-- From a committed `EffectDispatched` on: the dispatch, and what is made of its outcome. -/
def callDispatch (i : EffectPlan) (projection : RunProjection) (record : EffectRecord)
    (attempt : Nat) : Runtime EffectOutcome := do
  let outcome ← Prog.attempt (attemptDispatch K i attempt)
  match outcome with
  | .error e => dispatchFailed K i projection record e
  | .ok execution => do
      let next ← acknowledgeEffect K i.workOrder projection i.lease record i.stepId execution
        i.checkpoint
      return .acknowledged next execution.result

/-- The prepared record: its dispatch is committed before it is made. -/
def dispatchPrepared (i : EffectPlan) (projection : RunProjection) (record : EffectRecord) :
    Runtime EffectOutcome := do
  let dispatchedAt : Instant ← consult .now
  let dispatched := record.advance dispatchedAt (.dispatched dispatchedAt)
  let projection ← append K i.workOrder projection i.lease
    (.EffectDispatched i.stepId i.effectId 1) none (putEffectRecord K.encoding dispatched)
    i.checkpoint
  callDispatch K i projection dispatched 1

/-- `#parkEffectForReconciliation` as the outcome of the effect. -/
def parkEffect (i : EffectPlan) (record : EffectRecord) (uncertaintyCode : String) :
    Runtime EffectOutcome := do
  let projection ← parkEffectForReconciliation K i.workOrder i.projection i.lease record i.stepId
    uncertaintyCode
  return .parked projection

/-- `priorAttempt`: the highest attempt among the dispatches of an effect. -/
def priorAttempt (events : List RunEvent) (effectId : String) : Nat :=
  events.foldl (fun maximum event =>
    match event.payload with
    | .EffectDispatched _ id attempt => if id = effectId then max maximum attempt else maximum
    | _ => maximum) 0

/-- The lookup of a dispatched reconcilable effect. -/
def lookupEffect (i : EffectPlan) (operationKey : String) : Runtime EffectLookupResult := do
  let answer : Option EffectLookupResult ←
    withActiveExecution K i.workOrder i.projection.runId i.lease
      ⟨i.stepId, .tool, i.toolCallId ++ ":effect-lookup"⟩
      (invoke (.lookup operationKey i.context)) true
  Prog.ofExcept (validateEffectLookupResult answer)

/-- `lookup.status === "applied"`. -/
def recoverApplied (i : EffectPlan) (record : EffectRecord) (operationKey : String)
    (execution : EffectExecution) : Runtime EffectOutcome := do
  let recovered ← validateEffectExecution K execution i.registration i.effectKey
    (some operationKey) i.normalizedTargetDigest
  Prog.throwIf (recovered.acknowledgement.proofKind ≠ .lookup_recovery)
    (kafReason .KAF_AUTHORIZATION_BINDING_MISMATCH "reconciliation_lookup_proof_required")
  let projection ← acknowledgeEffect K i.workOrder i.projection i.lease record i.stepId recovered
    i.checkpoint
  return .acknowledged projection recovered.result

/-- `lookup.status === "not_applied"`: another dispatch is committed, then made. -/
def dispatchAgain (i : EffectPlan) (record : EffectRecord) : Runtime EffectOutcome := do
  let history ← Prog.read fun s => s.truth.events
  let attempt := priorAttempt history i.effectId + 1
  let projection ← append K i.workOrder i.projection i.lease
    (.EffectDispatched i.stepId i.effectId attempt) none .skip i.checkpoint
  callDispatch K i projection record attempt

/-- The record was dispatched by an earlier invocation. -/
def resumeDispatched (i : EffectPlan) (record : EffectRecord) : Runtime EffectOutcome :=
  match i.strategy.kind, i.operationKey with
  | .native, _ => parkEffect K i record "native_replay_safety_unproven"
  | .none, _ => parkEffect K i record "dispatch_response_unavailable"
  | .reconcilable, none =>
      .throw (kafReason .KAF_AUTHORIZATION_BINDING_MISMATCH "effect_operation_key_empty")
  | .reconcilable, some operationKey => do
      let lookup ← lookupEffect K i operationKey
      match lookup with
      | .unknown => parkEffect K i record "reconciliation_lookup_unknown"
      | .applied execution => recoverApplied K i record operationKey execution
      | .not_applied => dispatchAgain K i record

/-- The record was acknowledged by an earlier invocation. -/
def resumeAcknowledged (i : EffectPlan) (record : EffectRecord) (resultDigest : Digest) :
    Runtime EffectOutcome := do
  let recovered ← getAcknowledgedResult K record
  match recovered.filter (fun result => K.encoding.digest (.json result) = resultDigest) with
  | some result => do
      let output : JsonValue ←
        invoke (.validateOutput i.registration.toolRegistrationDigest result)
      return .acknowledged i.projection output
  | none => do
      let projection ← suspendResultUnavailable K i.workOrder i.projection i.lease i.stepId
      return .parked projection

/-- The authorization of an effect without a record. -/
def authorizeEffect (i : EffectPlan) : Runtime AuthorizationReservation := do
  let request : EffectAuthorizationRequest :=
    { stepId := i.stepId
      toolCallId := i.toolCallId
      effectId := i.effectId
      effectKey := i.effectKey
      argumentsDigest := i.argumentsDigest
      normalizedTargetDigest := i.normalizedTargetDigest
      authorizationKey := i.effectKey
      policyRegistrationDigest := i.policyRegistrationDigest
      approvalId := i.approval.map (·.id) }
  let reservation : AuthorizationReservation ← invoke (.authorize request)
  let now : Instant ← consult .now
  Prog.ofExcept (validateAuthorizationReservation i.workOrder i.projection.runId i.registration
    request reservation now)
  Prog.throwIf ((i.registration.riskClass = .R4 ∨ i.registration.riskClass = .R5) ∧
      i.approval.isNone)
    (kafReason .KAF_AUTHORIZATION_BINDING_MISMATCH "effect_approval_required")
  return reservation

/-- The identity of a new effect record. -/
def EffectPlan.identity (i : EffectPlan) (authorization : AuthorizationReservation)
    (createdAt : Instant) : EffectIdentity where
  effectId := i.effectId
  tenantId := i.workOrder.tenantId
  runId := i.projection.runId
  stepId := i.stepId
  toolCallId := i.toolCallId
  effectKey := i.effectKey
  operationKey := i.operationKey
  executionDefinition := i.workOrder.executionDefinition
  executionDefinitionDigest := i.workOrder.executionDefinitionDigest
  workOrderBindingDigest := i.workOrder.workOrderBindingDigest
  toolId := i.registration.id
  toolVersion := i.registration.implementationVersion
  toolRegistrationDigest := i.registration.toolRegistrationDigest
  strategy := i.strategy.kind.toStrategyKind
  strategyRegistrationDigest := i.strategy.registrationDigest
  authorizationReservationId := authorization.authorizationReservationId
  argumentsDigest := i.argumentsDigest
  normalizedTargetDigest := i.normalizedTargetDigest
  createdAt

/-- The record of a new effect. -/
def EffectPlan.preparedRecord (i : EffectPlan) (authorization : AuthorizationReservation)
    (createdAt : Instant) : EffectRecord :=
  { i.identity authorization createdAt with
    effectDigest := K.encoding.digest (.effectIdentity (i.identity authorization createdAt))
    updatedAt := createdAt
    state := .prepared }

/-- The commit of `EffectPrepared`: the grant and the approval are claimed, the authorization is
consumed and the record is written. -/
def prepareCommit (authorization consumed : AuthorizationReservation) (record : EffectRecord)
    (createdAt : Instant) : Tx :=
  .sequence [
    reserveCapabilityGrantUse authorization.grantId authorization.authorizationKey createdAt,
    (match authorization.approvalId with
      | some approvalId => claimApproval approvalId authorization.authorizationKey createdAt
      | none => .skip),
    putAuthorizationReservation consumed,
    putEffectRecord K.encoding record]

/-- An effect without a record is authorized, prepared and dispatched. -/
def prepareEffect (i : EffectPlan) : Runtime EffectOutcome := do
  let authorization ← authorizeEffect i
  let createdAt : Instant ← consult .now
  let consumed ← Prog.ofExcept (markAuthorizationReservationConsumed authorization createdAt)
  let record := i.preparedRecord K authorization createdAt
  let projection ← append K i.workOrder i.projection i.lease
    (.EffectPrepared i.stepId i.effectId record.effectDigest i.effectKey record.strategy) none
    (prepareCommit K authorization consumed record createdAt)
  dispatchPrepared K i projection record

/-- What `#executeWriteEffect` does with the ledger record it found. -/
def resumeEffect (i : EffectPlan) (record : EffectRecord) : Runtime EffectOutcome :=
  match record.state with
  | .acknowledged resultDigest _ | .compensated resultDigest _ _ _ =>
      resumeAcknowledged K i record resultDigest
  | .unknown _ uncertaintyCode => parkEffect K i record uncertaintyCode
  | .needs_reconciliation _ => parkEffect K i record "effect_outcome_unknown"
  | .abandoned .. => .throw (kafError .KAF_EFFECT_ABANDONED_UNCERTAIN)
  | .dispatched _ => resumeDispatched K i record
  | .prepared => dispatchPrepared K i i.projection record

/-- `assertEffectRecordBinding`. -/
def assertEffectRecordBinding (i : EffectInput) (strategy : EffectStrategy)
    (argumentsDigest : Digest) (effectKey : String) (record : EffectRecord) :
    Except Thrown Unit :=
  if record.tenantId = i.workOrder.tenantId ∧ record.runId = i.projection.runId ∧
      record.effectKey = effectKey ∧
      record.toolRegistrationDigest = i.registration.toolRegistrationDigest ∧
      record.strategy = strategy.kind.toStrategyKind ∧
      record.strategyRegistrationDigest = strategy.registrationDigest ∧
      record.argumentsDigest = argumentsDigest ∧
      record.normalizedTargetDigest = i.normalizedTargetDigest then .ok ()
  else .error (kafReason .KAF_AUTHORIZATION_BINDING_MISMATCH "effect_ledger_binding_mismatch")

/-- The approval must have been given for this preview. -/
def assertApprovalPreview (i : EffectInput) (argumentsDigest : Digest)
    (preview : EffectPreview) : Except Thrown Unit :=
  match i.approval with
  | none => .ok ()
  | some approval =>
      if approval.binding.tenantId = i.workOrder.tenantId ∧
          approval.binding.runId = i.projection.runId ∧
          approval.binding.stepId = i.stepId ∧
          approval.binding.toolRegistrationDigest = i.registration.toolRegistrationDigest ∧
          approval.binding.argumentsDigest = argumentsDigest ∧
          approval.binding.targetDigest = i.normalizedTargetDigest ∧
          approval.binding.previewDigest = preview.previewDigest ∧
          approval.binding.contentDigest = some preview.contentDigest then .ok ()
      else .error (kafReason .KAF_AUTHORIZATION_BINDING_MISMATCH "effect_approval_preview_changed")

/-- `operationKey` of `#executeWriteEffect`. -/
def effectOperationKey (strategy : EffectStrategy) (i : EffectInput) (effectKey : String) :
    Runtime (Option String) :=
  match strategy.kind with
  | .none => .pure none
  | _ => do
      let operationKey : String ← invoke (.operationKey i.value effectKey
        i.normalizedTargetDigest i.registration.toolRegistrationDigest)
      Prog.throwIf (operationKey = "")
        (kafReason .KAF_AUTHORIZATION_BINDING_MISMATCH "effect_operation_key_empty")
      return some operationKey

/-- `RuntimeEffectStore.getByEffectKey`. -/
def RunTruth.getByEffectKey (c : RunTruth) (effectKey : String) : Option EffectRecord :=
  (c.effectKeys effectKey).bind c.effects

/-- `record?.effectId ?? idGenerator.generate("effect")`. -/
def effectIdFor : Option EffectRecord → Runtime String
  | some record => .pure record.effectId
  | none => consult (.generateId "effect")

/-- The record binding check of `#executeWriteEffect`, where there is a record. -/
def checkRecord (i : EffectInput) (strategy : EffectStrategy) (argumentsDigest : Digest)
    (effectKey : String) : Option EffectRecord → Except Thrown Unit
  | some record => assertEffectRecordBinding i strategy argumentsDigest effectKey record
  | none => .ok ()

/-- `effectKey` of `#executeWriteEffect`. -/
def EffectInput.effectKey (i : EffectInput) : String :=
  createEffectKey K.encoding
    { workOrderBindingDigest := i.workOrder.workOrderBindingDigest
      executionDefinitionDigest := i.workOrder.executionDefinitionDigest
      runId := i.projection.runId
      stepId := i.stepId
      toolCallId := i.toolCallId
      toolRegistrationDigest := i.registration.toolRegistrationDigest
      argumentsDigest := K.encoding.digest (.json i.value)
      normalizedTargetDigest := i.normalizedTargetDigest }

/-- `context` of `#executeWriteEffect`. -/
def EffectInput.context (i : EffectInput) (effectId : String) : EffectDispatchContext where
  tenantId := i.workOrder.tenantId
  runId := i.projection.runId
  stepId := i.stepId
  toolCallId := i.toolCallId
  effectId
  effectKey := i.effectKey K
  normalizedTargetDigest := i.normalizedTargetDigest
  purposeCode := i.workOrder.purposeCode
  dataClass := i.workOrder.dataClass

/-- The plan of an effect, once its operation key is known. -/
def EffectInput.plan (i : EffectInput) (strategy : EffectStrategy) (effectId : String)
    (operationKey : Option String) : EffectPlan :=
  { i with
    strategy
    argumentsDigest := K.encoding.digest (.json i.value)
    effectKey := i.effectKey K
    operationKey
    context := i.context K effectId }

/-- `#executeWriteEffect`. -/
def executeWriteEffect (i : EffectInput) : Runtime EffectOutcome := do
  Prog.throwIf (¬ K.effectServices)
    (kafReason .KAF_RUNTIME_CAPABILITY_MISSING "effect_strategy_requires_governed_runtime")
  let strategy? : Option EffectStrategy ←
    consult (.resolveStrategy i.registration.toolRegistrationDigest)
  match strategy?.filter (fun strategy =>
      i.registration.effectStrategyKind = some strategy.kind.toStrategyKind ∧
        strategy.registrationDigest = i.registration.effectStrategyRegistrationDigest) with
  | none =>
      .throw (kafReason .KAF_RUNTIME_CAPABILITY_MISSING
        "executable_effect_strategy_registration_mismatch")
  | some strategy => do
      let argumentsDigest := K.encoding.digest (.json i.value)
      let record? ← Prog.read fun s => s.truth.getByEffectKey (i.effectKey K)
      Prog.ofExcept (checkRecord i strategy argumentsDigest (i.effectKey K) record?)
      let effectId ← effectIdFor record?
      let preview ← validateEffectPreview strategy i.registration i.value (i.context K effectId)
        i.normalizedTargetDigest
      Prog.ofExcept (assertApprovalPreview i argumentsDigest preview)
      let operationKey ← effectOperationKey strategy i (i.effectKey K)
      Prog.throwIf (record?.any (·.operationKey ≠ operationKey))
        (kafReason .KAF_AUTHORIZATION_BINDING_MISMATCH "effect_operation_key_changed")
      match record? with
      | some record => resumeEffect K (i.plan K strategy effectId operationKey) record
      | none => prepareEffect K (i.plan K strategy effectId operationKey)

/-! ### Approvals -/

/-- The last `ApprovalRecorded` of a step, with the event before it. -/
def lastApproval (stepId : String) : List RunEvent → Option (RunEvent × RunEvent)
  | before :: recorded :: rest =>
      (lastApproval stepId (recorded :: rest)).or
        (match recorded.payload with
          | .ApprovalRecorded step _ _ _ =>
              if step = stepId then some (before, recorded) else none
          | _ => none)
  | _ => none

/-- The checks of `#approvedToolCall` on the recorded decision. -/
def assertApprovedToolCall (workOrder : WorkOrder) (projection : RunProjection)
    (policyRegistrationDigest : Digest) (registration : ToolRegistration) (stepId : String)
    (argumentsDigest normalizedTargetDigest : Digest) (requested : RunEvent)
    (requestedGateDigest proposedEffectDigest : Digest) (decisionId approvalId : String)
    (gate : DecisionGate) (approval : Approval) : Except Thrown Unit := do
  match workOrder.decisionOwner with
  | .registered_role _ =>
      throw (kafReason .KAF_AUTHORIZATION_BINDING_MISMATCH "approval_owner_changed")
  | .principal owner =>
      if ¬ (gate.decisionId = decisionId ∧ gate.tenantId = workOrder.tenantId ∧
          gate.runId = projection.runId ∧ gate.requestingEventId = requested.eventId ∧
          gate.decisionGateDigest = requestedGateDigest) then
        throw (kafReason .KAF_AUTHORIZATION_BINDING_MISMATCH "approved_decision_gate_changed")
      if gate.decisionGateDigest ≠ K.encoding.digest (.decisionGate gate.decisionId
            gate.requestingEventId gate.binding gate.requiredAuthenticationStrength) ∨
          proposedEffectDigest ≠ K.encoding.digest (.decisionBinding gate.binding) then
        throw (kafReason .KAF_AUTHORIZATION_BINDING_MISMATCH
          "approved_decision_gate_digest_changed")
      if ¬ (gate.binding.tenantId = workOrder.tenantId ∧ gate.binding.principalId = owner ∧
          gate.binding.runId = projection.runId ∧ gate.binding.stepId = stepId ∧
          gate.binding.decisionId = decisionId ∧
          gate.binding.workOrderBindingDigest = workOrder.workOrderBindingDigest ∧
          gate.binding.executionDefinition = workOrder.executionDefinition ∧
          gate.binding.executionDefinitionDigest = workOrder.executionDefinitionDigest ∧
          gate.binding.toolId = registration.id ∧
          gate.binding.toolVersion = registration.implementationVersion ∧
          gate.binding.toolRegistrationDigest = registration.toolRegistrationDigest ∧
          gate.binding.argumentsDigest = argumentsDigest ∧
          gate.binding.targetDigest = normalizedTargetDigest ∧
          gate.binding.purposeCode = workOrder.purposeCode ∧
          gate.binding.purposeRegistryVersion = workOrder.purposeRegistryVersion ∧
          gate.binding.policyRegistrationDigest = policyRegistrationDigest) then
        throw (kafReason .KAF_AUTHORIZATION_BINDING_MISMATCH "approved_effect_binding_changed")
      if ¬ (approval.id = approvalId ∧ approval.binding = gate.binding) then
        throw (kafReason .KAF_AUTHORIZATION_BINDING_MISMATCH "recorded_approval_binding_changed")

/-- `#approvedToolCall`. -/
def approvedToolCall (workOrder : WorkOrder) (projection : RunProjection)
    (policyRegistrationDigest : Digest) (registration : ToolRegistration) (stepId : String)
    (argumentsDigest normalizedTargetDigest : Digest) : Runtime (Option Approval) :=
  if K.decisionStore then do
    let events ← Prog.read fun s => s.truth.events
    match lastApproval stepId events with
    | none => return none
    | some (requested, recorded) =>
        match requested.payload, recorded.payload with
        | .ApprovalRequested requestedStep requestedDecision gateDigest proposedEffectDigest,
          .ApprovalRecorded _ decisionId approvalId _ => do
            Prog.throwIf (requestedStep ≠ stepId ∨ requestedDecision ≠ decisionId)
              (conflict "approval_event_sequence_changed")
            let gate ← Prog.read fun s => s.truth.gates decisionId
            let approval ← Prog.read fun s => s.truth.approvals approvalId
            match gate, approval with
            | some gate, some approval => do
                Prog.ofExcept (assertApprovedToolCall K workOrder projection
                  policyRegistrationDigest registration stepId argumentsDigest
                  normalizedTargetDigest requested gateDigest proposedEffectDigest decisionId
                  approvalId gate approval)
                return some approval
            | _, _ => .throw (kafError .KAF_STORAGE_NOT_FOUND)
        | _, _ => .throw (conflict "approval_event_sequence_changed")
  else .pure none

/-- The authorization key of an approved read. -/
def readAuthorizationKey (workOrder : WorkOrder) (runId stepId toolCallId : String)
    (argumentsDigest normalizedTargetDigest : Digest) : String :=
  "pactmark-read:" ++ K.encoding.digest (.readAuthorization workOrder.workOrderBindingDigest runId
    stepId toolCallId argumentsDigest normalizedTargetDigest)

/-- `#claimReadApproval`. -/
def claimReadApproval (workOrder : WorkOrder) (runId : String) (lease : RunLease)
    (approval : Approval) (stepId toolCallId : String)
    (argumentsDigest normalizedTargetDigest : Digest) : Runtime Unit := do
  renew lease
  let now : Instant ← consult .now
  Prog.commit (claimApproval approval.id
    (readAuthorizationKey K workOrder runId stepId toolCallId argumentsDigest
      normalizedTargetDigest) now)

end Pactmark
