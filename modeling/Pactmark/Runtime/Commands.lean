import Pactmark.Runtime.Execute

/-!
# Runtime — the commands

`submitInput`, `issueDecisionChallenge`, `approve`, `reject`, `reconcileEffect`, `cancel` and
`resume`.  A command reads the run, asks its collaborators, and commits everything it changes
in one transaction.  The callback of `transactCommand` has the store to itself.  Here its reads
come before its transaction, which `asRead` refuses when the run has moved on in between: such
an interleaving is not one of a callback that was alone.
-/

namespace Pactmark

open Durable

variable (K : Config)

/-- `CommandContextSchema`; `scope` is the key of `#commandScope`. -/
structure CommandContext where
  commandId : String
  scope : String
  requestDigest : Digest
  deriving DecidableEq, Repr

/-- `runCommandUnitOfWork.transactCommand`. -/
def commandTransaction (command : CommandContext) (callback : Runtime Tx) : Runtime Unit := do
  let seen ← Prog.read fun s => s.commands command.scope
  match seen with
  | some digest =>
      Prog.throwIf (digest ≠ command.requestDigest) (kafError .KAF_HTTP_IDEMPOTENCY_CONFLICT)
  | none => do
      let transaction ← callback
      Prog.commit (transactCommand command.scope command.requestDigest transaction)

/-- The checks every command starts with. -/
def commandClaims (operation runId : String) (command : CommandContext) : Runtime Claims := do
  let claims ← verifyAuthority operation runId
  let projection ← Prog.read fun s => s.truth.projection
  assertAuthorityWorkOrderScope claims projection
  invoke (.admitCommand operation command.commandId)
  return claims

/-- `#loadWorkOrder`. -/
def loadWorkOrder : Runtime WorkOrder := do
  let workOrder ← Prog.read fun s => s.workOrder
  Prog.throwIf workOrder.isCompensation (kafError .KAF_STORAGE_NOT_FOUND)
  return workOrder

/-- The callback was alone: the run is still the one it has read. -/
def asRead (projection : RunProjection) : Tx :=
  .choose fun s => .throwIf (s.truth.projection ≠ projection) (conflict "callback_not_exclusive")

/-- The writes of a command that appends one event. -/
def eventTransaction (projection : RunProjection) (writes : Tx) (event : RunEvent)
    (next : RunProjection) : Tx :=
  .sequence [asRead projection, writes, appendRunEvent event, putRunProjection next]

/-- A command that appends one event to the run it has read. -/
def appendCommand (workOrder : WorkOrder) (projection : RunProjection) (payload : EventPayload)
    (writes : Tx) : Runtime Tx := do
  let event ← event K workOrder projection.runId (projection.lastSequence + 1) payload none
  let next ← Prog.ofExcept (reduceRunEvent projection event)
  return eventTransaction projection writes event next

/-! ### Input -/

/-- `#findEvent(projection.lastEventId)`. -/
def findEvent (events : List RunEvent) (eventId : Option String) : Option RunEvent :=
  eventId.bind fun id => events.find? (·.eventId = id)

/-- The early branch of `submitInput`: an answer to the request is already stored. -/
def resubmitInput (claims : Claims) (existing : InputSubmissionRecord) (valueInput : JsonValue) :
    Runtime Tx := do
  let (_, value) : Digest × JsonValue ←
    invoke (.validateInput existing.inputSchemaDigest valueInput)
  Prog.throwIf (existing.valueDigest ≠ K.encoding.digest (.json value) ∨
      existing.submittingPrincipalId ≠ claims.actorId)
    (kafReason .KAF_HTTP_IDEMPOTENCY_CONFLICT "input_submission_changed")
  return .skip

/-- The record of a submitted value, before it is protected. -/
def submissionMaterial (workOrder : WorkOrder) (runId requestId stepId : String)
    (requestingEvent : RunEvent) (inputSchemaDigest : Digest) (value : JsonValue)
    (recordId : String) (claims : Claims) (command : CommandContext) :
    InputSubmissionRecord where
  inputSubmissionRecordId := recordId
  tenantId := workOrder.tenantId
  runId
  requestId
  requestingStepId := stepId
  requestingEventId := requestingEvent.eventId
  executionDefinition := workOrder.executionDefinition
  executionDefinitionDigest := workOrder.executionDefinitionDigest
  workOrderBindingDigest := workOrder.workOrderBindingDigest
  inputSchemaDigest
  valueDigest := K.encoding.digest (.json value)
  value
  aadDigest := ""
  submittingPrincipalId := claims.actorId
  consumingCommandId := command.commandId
  expiresAt := workOrder.retentionExpiresAt

/-- The answer to an `InputRequested` event. -/
def answerRequest (workOrder : WorkOrder) (projection : RunProjection) (requestId stepId : String)
    (requestingEvent : RunEvent) (requestedSchema : Digest) (valueInput : JsonValue)
    (claims : Claims) (command : CommandContext) (now : Instant) : Runtime Tx := do
  let (inputSchemaDigest, value) : Digest × JsonValue ←
    invoke (.validateInput requestedSchema valueInput)
  Prog.throwIf (inputSchemaDigest ≠ requestedSchema)
    (kafReason .KAF_AUTHORIZATION_BINDING_MISMATCH "input_schema_changed")
  let recordId : String ← consult (.generateId "input_submission")
  let material := submissionMaterial K workOrder projection.runId requestId stepId requestingEvent
    inputSchemaDigest value recordId claims command
  let aadDigest : Digest ← invoke (.protect material.aad)
  Prog.throwIf (aadDigest ≠ K.encoding.digest material.aad)
    (kafReason .KAF_STORAGE_SECURITY_PROFILE "input_protector_aad_mismatch")
  appendCommand K workOrder projection
    (.InputSubmitted stepId requestId recordId inputSchemaDigest material.valueDigest)
    (putInputSubmission { material with aadDigest } now)

/-- The branch of `submitInput` for a request nothing is stored for. -/
def submitFresh (claims : Claims) (requestId : String) (valueInput : JsonValue)
    (command : CommandContext) (now : Instant) : Runtime Tx := do
  let projection ← Prog.read fun s => s.truth.projection
  Prog.throwIf (projection.status ≠ .waiting_for_input ∨
      projection.waitingRequestId ≠ some requestId)
    (kafReason .KAF_RUNTIME_INVALID_TRANSITION "run_not_waiting_for_exact_input")
  let workOrder ← loadWorkOrder
  Prog.throwIf (workOrder.dataClass = .highly_restricted)
    (kafReason .KAF_STORAGE_SECURITY_PROFILE "highly_restricted_input_forbidden")
  let events ← Prog.read fun s => s.truth.events
  match findEvent events projection.lastEventId with
  | none => .throw (kafError .KAF_RUNTIME_EVENT_BINDING)
  | some requestingEvent =>
      match requestingEvent.payload with
      | .InputRequested stepId _ requestedSchema _ =>
          answerRequest K workOrder projection requestId stepId requestingEvent requestedSchema
            valueInput claims command now
      | _ => .throw (kafError .KAF_RUNTIME_EVENT_BINDING)

/-- `submitInput`. -/
def submitInput (runId requestId : String) (valueInput : JsonValue) (command : CommandContext) :
    Runtime Unit := do
  let claims ← commandClaims "run.submit_input" runId command
  Prog.throwIf (¬ K.typedInput) (kafError .KAF_RUNTIME_CAPABILITY_MISSING)
  commandTransaction command do
    let now : Instant ← consult .inputStoreNow
    let existing ← Prog.read fun s => s.truth.getSubmission requestId now
    match existing with
    | some existing => resubmitInput K claims existing valueInput
    | none => submitFresh K claims requestId valueInput command now

/-! ### Decisions -/

/-- `#assertDecisionGateAuthority`. -/
def assertDecisionGateAuthority (gate : DecisionGate) (claims : Claims)
    (projection : RunProjection) : Except Thrown Unit :=
  if gate.tenantId ≠ claims.tenantId ∨ gate.runId ≠ projection.runId ∨
      gate.binding.tenantId ≠ claims.tenantId ∨ gate.binding.principalId ≠ claims.actorId ∨
      gate.binding.workOrderBindingDigest ≠ projection.workOrderBindingDigest ∨
      gate.binding.executionDefinitionDigest ≠ projection.executionDefinitionDigest ∨
      gate.decisionGateDigest ≠ K.encoding.digest (.decisionGate gate.decisionId
        gate.requestingEventId gate.binding gate.requiredAuthenticationStrength) then
    .error (kafReason .KAF_AUTHORIZATION_BINDING_MISMATCH "decision_gate_binding_mismatch")
  else .ok ()

/-- The run is waiting for exactly this decision. -/
def waitingDecision (decisionId : String) : Runtime RunProjection := do
  let projection ← Prog.read fun s => s.truth.projection
  Prog.throwIf (projection.status ≠ .waiting_for_approval ∨
      projection.waitingDecisionId ≠ some decisionId)
    (kafReason .KAF_RUNTIME_INVALID_TRANSITION "run_not_waiting_for_exact_decision")
  return projection

/-- `decisionStore.getGate`, and the check of who may decide. -/
def waitingGate (claims : Claims) (projection : RunProjection) (decisionId : String) :
    Runtime DecisionGate := do
  let gate ← Prog.read fun s => s.truth.gates decisionId
  match gate with
  | none => .throw (kafError .KAF_STORAGE_NOT_FOUND)
  | some gate => do
      Prog.ofExcept (assertDecisionGateAuthority K gate claims projection)
      return gate

/-- `issueDecisionChallenge`. -/
def issueDecisionChallenge (runId decisionId : String) (command : CommandContext) :
    Runtime Unit := do
  let claims ← commandClaims "run.issue_decision_challenge" runId command
  Prog.throwIf (¬ K.decisionStore ∨ ¬ K.decisionChallengeIssuer)
    (kafError .KAF_RUNTIME_CAPABILITY_MISSING)
  let now : Instant ← consult .now
  let expiresAt := now + K.decisionChallengeTtlMs
  let projection ← waitingDecision decisionId
  let gate ← waitingGate K claims projection decisionId
  let (challenge, proofDigest) : DecisionChallenge × Digest ←
    invoke (.issueChallenge gate.binding gate.requiredAuthenticationStrength expiresAt)
  Prog.throwIf (challenge.binding ≠ gate.binding ∨
      challenge.requiredAuthenticationStrength ≠ gate.requiredAuthenticationStrength ∨
      challenge.expiresAt ≠ expiresAt ∨ challenge.consumingCommandId ≠ none ∨
      challenge.proofDigest ≠ proofDigest)
    (kafReason .KAF_AUTHORIZATION_BINDING_MISMATCH "issued_challenge_binding_mismatch")
  commandTransaction command do
    let projection ← waitingDecision decisionId
    let gate ← waitingGate K claims projection decisionId
    Prog.throwIf (gate.binding ≠ challenge.binding)
      (kafReason .KAF_AUTHORIZATION_BINDING_MISMATCH "issued_challenge_gate_changed")
    return putDecisionChallenge challenge

/-- The checks of `#decisionContext` on the challenge. -/
def assertDecisionChallenge (claims : Claims) (gate : DecisionGate) (challenge : DecisionChallenge)
    (proofDigest : Digest) (now : Instant) : Except Thrown Unit := do
  if challenge.consumingCommandId ≠ none ∨ challenge.proofDigest ≠ proofDigest ∨
      challenge.binding ≠ gate.binding ∨ challenge.expiresAt ≤ now then
    throw (kafReason .KAF_AUTHORIZATION_BINDING_MISMATCH "decision_challenge_invalid")
  if claims.authenticationStrength.rank < challenge.requiredAuthenticationStrength.rank then
    throw (kafReason .KAF_AUTHORIZATION_BINDING_MISMATCH "authentication_strength_insufficient")
  if challenge.requiredAuthenticationStrength = .user_presence ∧
      claims.authenticatedAt + K.freshAuthenticationMaximumAgeMs < now then
    throw (kafReason .KAF_AUTHORIZATION_EXPIRED "fresh_authentication_required")

/-- `#decisionContext`, and the verification of the challenge. -/
def decisionContext (claims : Claims) (decisionId : String) (proofDigest : Digest) :
    Runtime (RunProjection × DecisionGate × DecisionChallenge) := do
  Prog.throwIf (¬ K.decisionStore ∨ ¬ K.decisionChallengeIssuer)
    (kafError .KAF_RUNTIME_CAPABILITY_MISSING)
  let projection ← waitingDecision decisionId
  let challenge ← Prog.read fun s => s.getActiveChallenge decisionId
  let gate ← waitingGate K claims projection decisionId
  match challenge with
  | none => .throw (kafError .KAF_STORAGE_NOT_FOUND)
  | some challenge => do
      let now : Instant ← consult .now
      Prog.ofExcept (assertDecisionChallenge K claims gate challenge proofDigest now)
      let verified : DecisionChallenge ← invoke (.verifyChallenge proofDigest gate.binding)
      Prog.throwIf (verified ≠ challenge)
        (kafReason .KAF_AUTHORIZATION_BINDING_MISMATCH "decision_challenge_verification_mismatch")
      return (projection, gate, challenge)

/-- The checks of `#decideApprove` on the approval the issuer made. -/
def approvalMismatch (claims : Claims) (gate : DecisionGate) (challenge : DecisionChallenge)
    (approval : Approval) (now : Instant) : Bool :=
  approval.challengeId ≠ challenge.id ∨ approval.challengeProofDigest ≠ challenge.proofDigest ∨
    approval.binding ≠ gate.binding ∨ approval.approvedBy ≠ claims.actorId ∨
    approval.authenticationStrength ≠ claims.authenticationStrength ∨
    approval.createdAt < challenge.issuedAt ∨ now < approval.createdAt ∨
    approval.expiresAt ≤ now ∨ now + K.approvalTtlMs < approval.expiresAt

/-- `approve`. -/
def approve (runId decisionId : String) (proofDigest : Digest) (command : CommandContext) :
    Runtime Unit := do
  let claims ← commandClaims "run.approve" runId command
  commandTransaction command do
    let (projection, gate, challenge) ← decisionContext K claims decisionId proofDigest
    let approval : Approval ← invoke (.createApproval challenge)
    let now : Instant ← consult .now
    Prog.throwIf (approvalMismatch K claims gate challenge approval now)
      (kafReason .KAF_AUTHORIZATION_BINDING_MISMATCH "approval_binding_mismatch")
    let workOrder ← loadWorkOrder
    appendCommand K workOrder projection
      (.ApprovalRecorded gate.binding.stepId decisionId approval.id .running)
      ((consumeDecisionChallenge challenge.id command.commandId now).andThen
        (putApproval approval))

/-- `reject`. -/
def reject (runId decisionId : String) (proofDigest : Digest) (reasonCode : String)
    (command : CommandContext) : Runtime Unit := do
  let claims ← commandClaims "run.reject" runId command
  commandTransaction command do
    let (projection, gate, challenge) ← decisionContext K claims decisionId proofDigest
    let now : Instant ← consult .now
    let workOrder ← loadWorkOrder
    appendCommand K workOrder projection
      (.ApprovalRejected gate.binding.stepId decisionId .failed reasonCode)
      ((consumeDecisionChallenge challenge.id command.commandId now).andThen
        (putDecisionRejection decisionId reasonCode))

/-! ### Reconciliation -/

/-- `EffectReconciliationResolutionSchema`. -/
inductive Resolution where
  | recovered_acknowledgement
  | abandon_uncertain (reason : String) (evidenceRefs : List String)
  deriving DecidableEq, Repr

/-- `resolution.kind`. -/
def Resolution.kind : Resolution → ResolutionKind
  | .recovered_acknowledgement => .recovered_acknowledgement
  | .abandon_uncertain .. => .abandon_uncertain

/-- `reconciliation_lookup_${lookup.status}`. -/
def EffectLookupResult.status : EffectLookupResult → String
  | .applied _ => "applied"
  | .not_applied => "not_applied"
  | .unknown => "unknown"

/-- The context a reconciliation looks an effect up with. -/
def reconciliationContext (workOrder : WorkOrder) (record : EffectRecord) :
    EffectDispatchContext where
  tenantId := workOrder.tenantId
  runId := record.runId
  stepId := record.stepId
  toolCallId := record.toolCallId
  effectId := record.effectId
  effectKey := record.effectKey
  normalizedTargetDigest := record.normalizedTargetDigest
  purposeCode := workOrder.purposeCode
  dataClass := workOrder.dataClass

/-- The lookup of a recovered acknowledgement. -/
def lookupRecovered (workOrder : WorkOrder) (record : EffectRecord)
    (registration : ToolRegistration) (operationKey : String) : Runtime EffectExecution := do
  let answer : Option EffectLookupResult ←
    invoke (.lookup operationKey (reconciliationContext workOrder record))
  let lookup ← Prog.ofExcept (validateEffectLookupResult answer)
  match lookup with
  | .applied execution => do
      let recovered ← validateEffectExecution K execution registration record.effectKey
        (some operationKey) record.normalizedTargetDigest
      Prog.throwIf (recovered.acknowledgement.proofKind ≠ .lookup_recovery)
        (kafReason .KAF_AUTHORIZATION_BINDING_MISMATCH "reconciliation_lookup_proof_required")
      return recovered
  | other =>
      .throw (kafReason .KAF_RUNTIME_INVALID_TRANSITION
        ("reconciliation_lookup_" ++ other.status))

/-- `recovered` and `recoveredProtectedResult` of `reconcileEffect`. -/
def recoverResult (workOrder : WorkOrder) (record : EffectRecord)
    (registration : ToolRegistration) (strategy : EffectStrategy) :
    Resolution → Runtime (Option (EffectExecution × ProtectedEffectResult))
  | .abandon_uncertain .. => .pure none
  | .recovered_acknowledgement =>
      match strategy.kind, record.operationKey with
      | .reconcilable, some operationKey => do
          let recovered ← lookupRecovered K workOrder record registration operationKey
          let now : Instant ← consult .now
          let protectedResult ← protectEffectResult K workOrder record recovered now
          return some (recovered, protectedResult)
      | _, _ =>
          .throw (kafReason .KAF_RUNTIME_CAPABILITY_MISSING "effect_has_no_registered_lookup")

/-- The record and the projection the transaction of `reconcileEffect` starts from. -/
def reconciling (effectId : String) (effectDigest : Digest) :
    Runtime (RunProjection × EffectRecord) := do
  let projection ← Prog.read fun s => s.truth.projection
  let current ← Prog.read fun s => s.truth.effects effectId
  match current.filter (fun current =>
      projection.status = .suspended ∧ projection.activeEffectId = some effectId ∧
        current.state.name = .needs_reconciliation ∧ current.effectDigest = effectDigest) with
  | none => .throw (kafError .KAF_STORAGE_CONCURRENCY_CONFLICT)
  | some current => return (projection, current)

/-- The transaction of a recovered acknowledgement. -/
def recoverTransaction (projection : RunProjection) (recordedEvent acknowledgedEvent : RunEvent)
    (acknowledged : EffectRecord) (protectedResult : ProtectedEffectResult)
    (next : RunProjection) : Tx :=
  .sequence [asRead projection, appendRunEvent recordedEvent,
    putEffectRecord K.encoding acknowledged, putProtectedEffectResult protectedResult,
    appendRunEvent acknowledgedEvent, putRunProjection next]

/-- The transaction of an abandonment. -/
def abandonTransaction (projection : RunProjection) (recordedEvent failedEvent : RunEvent)
    (abandoned : EffectRecord) (next : RunProjection) : Tx :=
  .sequence [asRead projection, appendRunEvent recordedEvent,
    putEffectRecord K.encoding abandoned, appendRunEvent failedEvent, putRunProjection next]

/-- A recovered acknowledgement, from its recorded event on. -/
def acknowledgeRecovered (workOrder : WorkOrder) (before : RunProjection)
    (recordedEvent : RunEvent) (projection : RunProjection) (current : EffectRecord) (recovered : EffectExecution)
    (protectedResult : ProtectedEffectResult) : Runtime Tx := do
  let resultDigest := K.encoding.digest (.json recovered.result)
  let acknowledged := current.advance protectedResult.binding.createdAt
    (.acknowledged resultDigest recovered.acknowledgement)
  let acknowledgedEvent ← event K workOrder projection.runId (projection.lastSequence + 1)
    (.EffectAcknowledged current.stepId current.effectId resultDigest recovered.acknowledgement)
    none
  let next ← Prog.ofExcept (reduceRunEvent projection acknowledgedEvent)
  return recoverTransaction K before recordedEvent acknowledgedEvent acknowledged protectedResult
    next

/-- An abandonment, from its recorded event on. -/
def abandonUncertain (workOrder : WorkOrder) (before : RunProjection)
    (recordedEvent : RunEvent) (projection : RunProjection) (current : EffectRecord) (reason : String)
    (evidenceRefs : List String) : Runtime Tx := do
  let updatedAt : Instant ← consult .now
  let abandoned := current.advance updatedAt (.abandoned reason evidenceRefs)
  let failedEvent ← event K workOrder projection.runId (projection.lastSequence + 1)
    (.RunFailed (some current.stepId) .KAF_EFFECT_ABANDONED_UNCERTAIN
      { others := [("effectId", current.effectId), ("effectMayHaveOccurred", "true")] }) none
  let next ← Prog.ofExcept (reduceRunEvent projection failedEvent)
  return abandonTransaction K before recordedEvent failedEvent abandoned next

/-- The callback of `reconcileEffect`. -/
def resolveEffect (workOrder : WorkOrder) (effectId : String) (effectDigest : Digest)
    (resolution : Resolution) (commandId : String)
    (recovered : Option (EffectExecution × ProtectedEffectResult)) : Runtime Tx := do
  let (projection, current) ← reconciling effectId effectDigest
  let recordedEvent ← event K workOrder projection.runId (projection.lastSequence + 1)
    (.EffectReconciliationRecorded current.stepId effectId resolution.kind commandId) none
  let next ← Prog.ofExcept (reduceRunEvent projection recordedEvent)
  match resolution, recovered with
  | .recovered_acknowledgement, some (recovered, protectedResult) =>
      acknowledgeRecovered K workOrder projection recordedEvent next current recovered
        protectedResult
  | .abandon_uncertain reason evidenceRefs, _ =>
      abandonUncertain K workOrder projection recordedEvent next current reason evidenceRefs
  | .recovered_acknowledgement, none =>
      .throw (kafError .KAF_STORAGE_CONCURRENCY_CONFLICT)

/-- `recordBefore` of `reconcileEffect`. -/
def suspendedEffect (effectId : String) : Runtime EffectRecord := do
  let projection ← Prog.read fun s => s.truth.projection
  Prog.throwIf (projection.status ≠ .suspended ∨ projection.activeEffectId ≠ some effectId)
    (kafReason .KAF_RUNTIME_INVALID_TRANSITION "run_not_suspended_at_exact_effect")
  let record ← Prog.read fun s => s.truth.effects effectId
  match record.filter (·.state.name = .needs_reconciliation) with
  | none =>
      .throw (kafReason .KAF_RUNTIME_INVALID_TRANSITION "effect_not_waiting_for_reconciliation")
  | some record => return record

/-- The registrations of the effect to reconcile. -/
def reconciliationRegistration (workOrder : WorkOrder) (record : EffectRecord) :
    Runtime (ToolRegistration × EffectStrategy) := do
  let definition : Option AgentDefinition ←
    invoke (.resolveAgent workOrder.executionDefinition)
  Prog.throwIf definition.isNone (kafError .KAF_RUNTIME_AGENT_DEFINITION_MISMATCH)
  let registration : Option ToolRegistration ←
    consult (.resolveTool record.toolRegistrationDigest)
  let strategy : Option EffectStrategy ←
    consult (.resolveStrategy record.toolRegistrationDigest)
  match registration, strategy.filter
      (·.registrationDigest = record.strategyRegistrationDigest) with
  | some registration, some strategy => return (registration, strategy)
  | _, _ =>
      .throw (kafReason .KAF_RUNTIME_CAPABILITY_MISSING
        "reconciliation_registration_unavailable")

/-- `reconcileEffect`. -/
def reconcileEffect (runId effectId : String) (resolution : Resolution)
    (command : CommandContext) : Runtime Unit := do
  let claims ← commandClaims "run.reconcile_effect" runId command
  Prog.throwIf ("effect:reconcile" ∉ claims.decisionRoles)
    (kafReason .KAF_AUTHORIZATION_BINDING_MISMATCH "effect_reconcile_role_required")
  Prog.throwIf (¬ K.effectServices) (kafError .KAF_RUNTIME_CAPABILITY_MISSING)
  let record ← suspendedEffect effectId
  let workOrder ← loadWorkOrder
  let (registration, strategy) ← reconciliationRegistration workOrder record
  let recovered ← recoverResult K workOrder record registration strategy resolution
  commandTransaction command
    (resolveEffect K workOrder effectId record.effectDigest resolution command.commandId
      recovered)

/-! ### Cancelling and resuming -/

/-- `cancel`. -/
def cancel (runId reasonCode : String) (command : CommandContext) : Runtime Unit := do
  let claims ← commandClaims "run.cancel" runId command
  commandTransaction command do
    let projection ← Prog.read fun s => s.truth.projection
    if projection.status.terminal then return .skip
    else do
      let workOrder ← loadWorkOrder
      appendCommand K workOrder projection
        (.RunCancelled projection.currentStepId reasonCode claims.actorId) .skip

/-- `resume`, up to the loop of the `execute` it ends with. -/
def resume (runId : String) (command : CommandContext) : Runtime Started := do
  let _ ← commandClaims "run.resume" runId command
  commandTransaction command (.pure .skip)
  let projection ← Prog.read fun s => s.truth.projection
  if projection.status.terminal then
    return .ended (.done projection.status.toExecutionStatus)
  else if projection.status = .waiting_for_input ∨ projection.status = .waiting_for_approval ∨
      K.backgroundWakeup then
    return .ended (.done .parked)
  else execute K runId

end Pactmark
