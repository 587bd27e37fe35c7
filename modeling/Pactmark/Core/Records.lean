import Pactmark.Core.Run

/-!
# Core — the records the kernel keeps

Work orders, registrations, effect records, decisions, input submissions, context checkpoints
and reservations: `core/src/work-order.ts`, `registrations.ts`, `effects.ts`, `decision.ts`,
`context.ts`, `admission.ts` and `model.ts`, with the fields the modelled functions read.

What the source digests with `digestCanonicalJson` or `digestBytes` is a `DigestMaterial`: one
constructor for each object literal that is digested.  `Encoding` is the hash and the size of
the canonical encoding; nothing is assumed of either.
-/

namespace Pactmark

/-! ### Work orders and registrations -/

/-- `monetaryCeiling`, in minor units. -/
structure MonetaryCeiling where
  amountMinor : Nat
  currency : String
  deriving DecidableEq, Repr

/-- `WorkBudgetSchema`. -/
structure WorkBudget where
  maxTurns : Nat
  maxModelCalls : Nat
  maxToolCalls : Nat
  maxActiveExecutionMs : Nat
  maxModelInputBytesPerCall : Option Nat := none
  maxModelInputTokensPerCall : Option Nat := none
  maxModelOutputTokensPerCall : Option Nat := none
  maxStreamedOutputBytesPerCall : Option Nat := none
  maxToolResultContextBytesPerCall : Option Nat := none
  maxContextSnapshotBytes : Option Nat := none
  monetaryCeiling : Option MonetaryCeiling := none
  deriving DecidableEq, Repr

/-- `decisionOwner` of an accepted work order. -/
inductive DecisionOwner where
  | principal (id : String)
  | registered_role (role : String)
  deriving DecidableEq, Repr

/-- `AcceptedWorkOrder`; `retentionExpiresAt` is `retention.expiresAt` in the mode `until`, and
`originalRunId` and `originalEffectDigest` are those of a compensation work order. -/
structure WorkOrder where
  id : String
  tenantId : String
  workOrderBindingDigest : Digest
  executionDefinition : ExecutionDefinition
  executionDefinitionDigest : Digest
  goal : String
  input : JsonValue
  purposeCode : String
  purposeRegistryVersion : String
  dataClass : DataClass
  decisionOwner : DecisionOwner
  requestedCapabilities : List String
  budget : WorkBudget
  deadline : Option Instant := none
  retentionExpiresAt : Option Instant := none
  originalRunId : String := ""
  originalEffectDigest : Digest := ""
  correlationId : Option String := none

/-- `workOrder.kind === "compensation"`. -/
def WorkOrder.isCompensation (workOrder : WorkOrder) : Bool :=
  workOrder.executionDefinition.isCompensation

/-- `AgentDefinition`. -/
structure AgentDefinition where
  agentDefinitionDigest : Digest
  toolRegistrationDigests : List Digest
  policyRegistrationDigest : Digest
  modelAdapterRegistrationDigest : Digest
  modelSecurityProfileDigest : Digest
  modelResourceProfileDigest : Digest
  deriving DecidableEq, Repr

/-- `CompensationRunDefinition`. -/
structure CompensationRunDefinition where
  compensationRunDefinitionDigest : Digest
  originalAgentDefinitionDigest : Digest
  compensationStrategyRegistrationDigest : Digest
  compensationToolRegistrationDigest : Digest
  compensationToolId : String
  compensationToolVersion : String
  policyRegistrationDigest : Digest
  deriving DecidableEq, Repr

/-- `riskClass`. -/
inductive RiskClass where
  | R0 | R1 | R2 | R3 | R4 | R5
  deriving DecidableEq, Repr

/-- `ToolRegistrationContract`; `effectStrategyKind` is `none` here for the kind `"read"`. -/
structure ToolRegistration where
  id : String
  implementationVersion : String
  toolRegistrationDigest : Digest
  effectStrategyKind : Option EffectStrategyKind
  effectStrategyRegistrationDigest : Digest
  previewStrategyRegistrationDigest : Option Digest
  outputSchemaDigest : Digest
  riskClass : RiskClass
  requiredScopes : List String
  maxCallsPerRun : Nat
  deriving DecidableEq, Repr

/-- The kinds of a `RuntimeExecutableEffectStrategy`. -/
inductive ExecutableStrategyKind where
  | native
  | reconcilable
  | none
  deriving DecidableEq, Repr

/-- The kind, as registrations and records name it. -/
def ExecutableStrategyKind.toStrategyKind : ExecutableStrategyKind → EffectStrategyKind
  | .native => .native
  | .reconcilable => .reconcilable
  | .none => .none

/-- What the registry knows of an executable strategy: `kind`, `registrationDigest` and
`previewRegistrationDigest`. -/
structure EffectStrategy where
  kind : ExecutableStrategyKind
  registrationDigest : Digest
  previewRegistrationDigest : Digest
  deriving DecidableEq, Repr

/-- `RuntimeModelEmission`. -/
inductive ModelEmission where
  | tool_call (toolRegistrationDigest : Digest) (input : JsonValue)
  | final (value : JsonValue)
  | input_request (inputSchemaDigest : Digest) (safePrompt : String)

/-- `emission.type`. -/
def ModelEmission.type : ModelEmission → String
  | .tool_call .. => "tool_call"
  | .final .. => "final"
  | .input_request .. => "input_request"

/-! ### Effects -/

/-- The states of an effect record, with the fields each adds. -/
inductive EffectState where
  | prepared
  | dispatched (dispatchedAt : Instant)
  | unknown (dispatchedAt : Instant) (uncertaintyCode : String)
  | needs_reconciliation (uncertaintyCode : String)
  | acknowledged (resultDigest : Digest) (acknowledgement : EffectAcknowledgement)
  | abandoned (reason : String) (evidenceRefs : List String)
  | compensated (resultDigest : Digest) (acknowledgement : EffectAcknowledgement)
      (compensationRunId : String) (compensationEffectDigest : Digest)
  deriving DecidableEq, Repr

/-- `EffectState` without its data. -/
inductive EffectStateName where
  | prepared
  | dispatched
  | unknown
  | needs_reconciliation
  | acknowledged
  | abandoned
  | compensated
  deriving DecidableEq, Repr

/-- `record.state`. -/
def EffectState.name : EffectState → EffectStateName
  | .prepared => .prepared
  | .dispatched .. => .dispatched
  | .unknown .. => .unknown
  | .needs_reconciliation .. => .needs_reconciliation
  | .acknowledged .. => .acknowledged
  | .abandoned .. => .abandoned
  | .compensated .. => .compensated

/-- `EFFECT_TRANSITIONS`. -/
def EFFECT_TRANSITIONS : EffectStateName → List EffectStateName
  | .prepared => [.dispatched]
  | .dispatched => [.acknowledged, .unknown]
  | .unknown => [.needs_reconciliation]
  | .needs_reconciliation => [.acknowledged, .abandoned]
  | .acknowledged => [.compensated]
  | .abandoned => []
  | .compensated => []

/-- `isEffectTransitionAllowed`. -/
def isEffectTransitionAllowed (from_ to_ : EffectStateName) (strategy : EffectStrategyKind) :
    Bool :=
  if strategy = .transactional then to_ = .acknowledged ∧ from_ = .prepared
  else to_ ∈ EFFECT_TRANSITIONS from_

/-- What `createEffectKey` digests. -/
structure EffectKeyMaterial where
  workOrderBindingDigest : Digest
  executionDefinitionDigest : Digest
  runId : String
  stepId : String
  toolCallId : String
  toolRegistrationDigest : Digest
  argumentsDigest : Digest
  normalizedTargetDigest : Digest
  deriving DecidableEq, Repr

/-- The fields of an effect record that never change. -/
structure EffectIdentity where
  effectId : String
  tenantId : String
  runId : String
  stepId : String
  toolCallId : String
  effectKey : String
  operationKey : Option String
  executionDefinition : ExecutionDefinition
  executionDefinitionDigest : Digest
  workOrderBindingDigest : Digest
  toolId : String
  toolVersion : String
  toolRegistrationDigest : Digest
  strategy : EffectStrategyKind
  strategyRegistrationDigest : Digest
  authorizationReservationId : String
  argumentsDigest : Digest
  normalizedTargetDigest : Digest
  createdAt : Instant
  deriving DecidableEq, Repr

/-- `EffectRecord`. -/
structure EffectRecord extends EffectIdentity where
  effectDigest : Digest
  updatedAt : Instant
  state : EffectState
  deriving DecidableEq, Repr

/-- `{ ...effectRecordBase(record, updatedAt), ...state }`. -/
def EffectRecord.advance (record : EffectRecord) (updatedAt : Instant) (state : EffectState) :
    EffectRecord :=
  { record with updatedAt, state }

/-- `EffectExecutionResultSchema`. -/
structure EffectExecution where
  result : JsonValue
  acknowledgement : EffectAcknowledgement

/-- `RuntimeEffectLookupResult`. -/
inductive EffectLookupResult where
  | applied (execution : EffectExecution)
  | not_applied
  | unknown

/-- `EffectPreviewSchema`, as far as the kernel reads it; `materialDigest` is
`digestCanonicalJson(material(preview))` and `canonical` its canonical JSON. -/
structure EffectPreview where
  normalizedTargetDigest : Digest
  contentDigest : Digest
  previewDigest : Digest
  materialDigest : Digest
  canonical : String
  deriving DecidableEq, Repr

/-- The state of an authorization reservation. -/
inductive AuthorizationState where
  | reserved
  | consumed
  | expired
  | revoked
  deriving DecidableEq, Repr

/-- What an authorization reservation and an effect record must agree on. -/
structure AuthorizationBinding where
  tenantId : String
  runId : String
  stepId : String
  toolCallId : String
  effectKey : String
  executionDefinition : ExecutionDefinition
  executionDefinitionDigest : Digest
  workOrderBindingDigest : Digest
  toolId : String
  toolVersion : String
  toolRegistrationDigest : Digest
  argumentsDigest : Digest
  normalizedTargetDigest : Digest
  deriving DecidableEq, Repr

/-- `AuthorizationReservation`. -/
structure AuthorizationReservation where
  authorizationReservationId : String
  authorizationKey : String
  binding : AuthorizationBinding
  policyRegistrationDigest : Digest
  purposeCode : String
  purposeRegistryVersion : String
  grantId : String
  approvalId : Option String
  secretRefIds : List String
  state : AuthorizationState
  createdAt : Instant
  expiresAt : Instant
  consumedAt : Option Instant
  deriving DecidableEq, Repr

/-- The binding of an effect record, as `assertEffectAuthorizationBinding` builds it. -/
def EffectIdentity.authorizationBinding (r : EffectIdentity) : AuthorizationBinding where
  tenantId := r.tenantId
  runId := r.runId
  stepId := r.stepId
  toolCallId := r.toolCallId
  effectKey := r.effectKey
  executionDefinition := r.executionDefinition
  executionDefinitionDigest := r.executionDefinitionDigest
  workOrderBindingDigest := r.workOrderBindingDigest
  toolId := r.toolId
  toolVersion := r.toolVersion
  toolRegistrationDigest := r.toolRegistrationDigest
  argumentsDigest := r.argumentsDigest
  normalizedTargetDigest := r.normalizedTargetDigest

/-- `CapabilityGrant`, as far as `reserveUse` reads it. -/
structure CapabilityGrant where
  expiresAt : Instant
  revokedAt : Option Instant
  maximumUses : Nat
  deriving DecidableEq, Repr

/-- What a protected effect result and the acknowledged record must agree on. -/
structure EffectResultBinding where
  tenantId : String
  runId : String
  effectId : String
  effectDigest : Digest
  resultDigest : Digest
  workOrderBindingDigest : Digest
  executionDefinition : ExecutionDefinition
  executionDefinitionDigest : Digest
  toolId : String
  toolVersion : String
  toolRegistrationDigest : Digest
  strategy : EffectStrategyKind
  strategyRegistrationDigest : Digest
  resultSchemaDigest : Digest
  createdAt : Instant
  deriving DecidableEq, Repr

/-- `ProtectedEffectResultRecordSchema`; `result` is what the protected value opens to. -/
structure ProtectedEffectResult where
  binding : EffectResultBinding
  byteSize : Nat
  workOrderId : String
  purposeCode : String
  purposeRegistryVersion : String
  dataClass : DataClass
  result : JsonValue

/-! ### Decisions and submitted input -/

/-- `AuthenticationStrength`. -/
inductive AuthenticationStrength where
  | single_factor
  | multi_factor
  | phishing_resistant
  | user_presence
  deriving DecidableEq, Repr

/-- The ranks of `#assertAuthenticationStrength`. -/
def AuthenticationStrength.rank : AuthenticationStrength → Nat
  | .single_factor => 0
  | .multi_factor => 1
  | .phishing_resistant => 2
  | .user_presence => 3

/-- `ProposedEffectBindingSchema`. -/
structure DecisionBinding where
  tenantId : String
  principalId : String
  runId : String
  stepId : String
  decisionId : String
  workOrderBindingDigest : Digest
  executionDefinition : ExecutionDefinition
  executionDefinitionDigest : Digest
  toolId : String
  toolVersion : String
  toolRegistrationDigest : Digest
  argumentsDigest : Digest
  targetDigest : Digest
  contentDigest : Option Digest
  previewDigest : Digest
  purposeCode : String
  purposeRegistryVersion : String
  policyRegistrationDigest : Digest
  deriving DecidableEq, Repr

/-- `DecisionGateSchema`. -/
structure DecisionGate where
  decisionId : String
  tenantId : String
  runId : String
  requestingEventId : String
  binding : DecisionBinding
  decisionGateDigest : Digest
  requiredAuthenticationStrength : AuthenticationStrength
  createdAt : Instant
  deriving DecidableEq, Repr

/-- `DecisionSubmissionChallengeSchema`. -/
structure DecisionChallenge where
  id : String
  proofDigest : Digest
  binding : DecisionBinding
  requiredAuthenticationStrength : AuthenticationStrength
  issuedAt : Instant
  expiresAt : Instant
  consumingCommandId : Option String
  deriving DecidableEq, Repr

/-- `ApprovalSchema`. -/
structure Approval where
  id : String
  challengeId : String
  challengeProofDigest : Digest
  binding : DecisionBinding
  approvedBy : String
  authenticationStrength : AuthenticationStrength
  createdAt : Instant
  expiresAt : Instant
  deriving DecidableEq, Repr

/-- `ApprovalUseClaimSchema`. -/
structure ApprovalUseClaim where
  approvalId : String
  authorizationKey : String
  claimedAt : Instant
  deriving DecidableEq, Repr

/-- `InputSubmissionRecordSchema`; `value` is what the protected value opens to, and `expiresAt`
that of a retention `until`. -/
structure InputSubmissionRecord where
  inputSubmissionRecordId : String
  tenantId : String
  runId : String
  requestId : String
  requestingStepId : String
  requestingEventId : String
  executionDefinition : ExecutionDefinition
  executionDefinitionDigest : Digest
  workOrderBindingDigest : Digest
  inputSchemaDigest : Digest
  valueDigest : Digest
  value : JsonValue
  aadDigest : Digest
  submittingPrincipalId : String
  consumingCommandId : String
  expiresAt : Option Instant

/-! ### Checkpoints, artifacts and verifications -/

/-- `ArtifactSchema`, as far as the kernel reads it. -/
structure Artifact where
  artifactId : String
  artifactDigest : Digest
  contentDigest : Digest
  deriving DecidableEq, Repr

/-- `VerificationResultSchema`; `materialDigest` is the digest of the result without its own
`verificationDigest`. -/
structure VerificationResult where
  verificationId : String
  verifierId : String
  verifierRegistrationDigest : Digest
  artifactDigest : Digest
  status : VerificationStatus
  verificationDigest : Digest
  materialDigest : Digest
  deriving DecidableEq, Repr

/-- `phase` of a context checkpoint. -/
inductive CheckpointPhase where
  | turn
  | model
  | model_inflight
  | emission
  | tool_request
  | tool
  | final
  | verification
  | input
  | scheduled_backoff
  deriving DecidableEq, Repr

/-- `RuntimeContextCheckpointSchema`. -/
structure Checkpoint where
  phase : CheckpointPhase
  stepId : Option String := none
  modelInput : Option JsonValue := none
  attempt : Option Nat := none
  emission : Option ModelEmission := none
  toolCallId : Option String := none
  requestId : Option String := none
  inputSchemaDigest : Option Digest := none
  retryBoundary : Option RetryBoundary := none
  retryClassification : Option BoundaryErrorClassification := none
  nextAttempt : Option Nat := none
  notBefore : Option Instant := none
  delayMs : Option Nat := none
  resumePhase : Option RetryBoundary := none
  artifact : Option Artifact := none
  verificationStarted : Bool := false
  verifications : List VerificationResult := []

/-- `ContextSnapshotSchema`; `checkpoint` is what the protected value opens to. -/
structure ContextSnapshot where
  snapshotId : String
  tenantId : String
  runId : String
  sequence : Nat
  stepId : String
  executionDefinition : ExecutionDefinition
  executionDefinitionDigest : Digest
  workOrderBindingDigest : Digest
  contextDigest : Digest
  byteSize : Nat
  expiresAt : Option Instant
  aadDigest : Digest
  checkpoint : Checkpoint

/-! ### Reservations -/

/-- `boundary` of an active-execution reservation. -/
inductive ActiveBoundary where
  | model
  | tool
  | verifier
  | scheduled_backoff
  | runtime_internal
  deriving DecidableEq, Repr

/-- `state` of an active-execution reservation, with the settlement of the later two. -/
inductive ActiveExecutionState where
  | reserved
  | settled (settledChargeMs refundedMs : Nat) (settledAtServerTime : Instant)
  | closed_uncertain (settledChargeMs refundedMs : Nat) (settledAtServerTime : Instant)
  deriving DecidableEq, Repr

/-- Where an active-execution reservation is kept. -/
structure ActiveExecutionKey where
  stepId : String
  boundary : ActiveBoundary
  boundaryKey : String
  deriving DecidableEq, Repr

/-- `ActiveExecutionReservationSchema`. -/
structure ActiveExecutionReservation where
  id : String
  tenantId : String
  runId : String
  key : ActiveExecutionKey
  leaseId : String
  fencingToken : Nat
  startedAtServerTime : Instant
  maxChargeMs : Nat
  state : ActiveExecutionState
  expiresAt : Instant
  deriving DecidableEq, Repr

/-- `status` of a model-call reservation, with the settlement of a settled one. -/
inductive ModelCallStatus where
  | accepted
  | dispatched
  | settled (chargedTokens chargedIoBytes : Nat) (settledAt : Instant)
  | uncertain
  | expired
  deriving DecidableEq, Repr

/-- `ModelCallReservationSchema` without `status` and `settlement`: its identity. -/
structure ModelCallIdentity where
  reservationId : String
  tenantId : String
  runId : String
  stepId : String
  attempt : Nat
  workOrderBindingDigest : Digest
  agentDefinitionDigest : Digest
  modelSecurityProfileDigest : Digest
  modelResourceProfileDigest : Digest
  modelAdapterRegistrationDigest : Digest
  inputBytes : Nat
  inputTokenUpperBound : Nat
  outputTokenMaximum : Nat
  outputBytesMaximum : Nat
  maximumCallCostMinor : Option Nat
  currency : Option String
  createdAt : Instant
  expiresAt : Instant
  deriving DecidableEq, Repr

/-- `ModelCallReservationSchema`. -/
structure ModelCallReservation extends ModelCallIdentity where
  status : ModelCallStatus
  deriving DecidableEq, Repr

/-- `RunLease`, as far as the kernel reads it. -/
structure RunLease where
  leaseId : String
  fencingToken : Nat
  deriving DecidableEq, Repr

/-! ### Digests -/

/-- What the kernel digests. -/
inductive DigestMaterial where
  | json (v : JsonValue)
  | event (tenantId runId : String) (sequence : Nat) (eventType : RunEventType)
  | effectKey (material : EffectKeyMaterial)
  | effectIdentity (identity : EffectIdentity)
  | effectProof (acknowledgement : EffectAcknowledgement)
  | effectResultAad (binding : EffectResultBinding) (byteSize : Nat)
      (workOrderId purposeCode purposeRegistryVersion : String) (dataClass : DataClass)
  | decisionBinding (binding : DecisionBinding)
  | decisionGate (decisionId requestingEventId : String) (binding : DecisionBinding)
      (requiredAuthenticationStrength : AuthenticationStrength)
  | checkpoint (checkpoint : Checkpoint)
  | contextBinding (snapshotId tenantId runId stepId : String) (sequence : Nat)
      (executionDefinitionDigest workOrderBindingDigest contextDigest : Digest)
  | inputBinding (tenantId runId requestId recordId : String)
      (workOrderBindingDigest inputSchemaDigest valueDigest : Digest) (commandId : String)
  | readAuthorization (workOrderBindingDigest : Digest) (runId stepId toolCallId : String)
      (argumentsDigest normalizedTargetDigest : Digest)
  | activeExecution (tenantId runId : String) (key : ActiveExecutionKey)
  | modelCallReservation (tenantId runId stepId : String) (attempt : Nat)
      (workOrderBindingDigest agentDefinitionDigest modelSecurityProfileDigest : Digest)
      (modelResourceProfileDigest modelAdapterRegistrationDigest : Digest)
  | providerRequest (definition : AgentDefinition) (input : JsonValue)
      (outputTokenMaximum : Nat)
  | artifactIdentity (runId stepId : String) (contentDigest : Digest)
  | artifact (artifactId : String) (contentDigest : Digest) (createdAt : Instant)

/-- `digestCanonicalJson`, and the byte length of `canonicalJsonStringify`. -/
structure Encoding where
  digest : DigestMaterial → Digest
  byteSize : DigestMaterial → Nat

/-- `createEffectKey`. -/
def createEffectKey (E : Encoding) (material : EffectKeyMaterial) : String :=
  "pactmark-effect:" ++ E.digest (.effectKey material)

end Pactmark
