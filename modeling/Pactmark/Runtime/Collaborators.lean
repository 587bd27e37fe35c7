import Pactmark.Runtime.Store

/-!
# Runtime — the collaborators of the kernel

`RuntimeKernelConfig`: what an `AgentRuntime` is configured with, and the questions it puts to
it.  A collaborator is host code behind an interface, so its answers are not computed here: a
`Query` is a call the kernel makes and `Answer` the type of what may come back.  A call that can
throw answers an `Except`; a value the kernel parses with a schema answers `none` when the
schema refuses it.

A protector that opens a protected value gives back what was protected or throws, so the
answer to `unprotect` carries no plaintext: the store keeps it beside the record.

The renewals of `#withLeaseHeartbeat` run beside a boundary call; `heartbeat` is the first
failure among them.  `admitCommand` stands for the checks of a command's own operation, digest,
resource scope and window, which read nothing but the command and the clock.
-/

namespace Pactmark

open Durable

/-- The verified claims of an authority. -/
structure Claims where
  tenantId : String
  actorId : String
  systemWorker : Bool
  runScope : Option (String × String)
  decisionRoles : List String
  authenticationStrength : AuthenticationStrength
  authenticatedAt : Instant
  deriving DecidableEq, Repr

/-- `PolicyDecisionSchema`. -/
inductive PolicyDecision where
  | deny
  | allow_with_grant (normalizedTargetDigest : Digest)
  | require_approval (normalizedTargetDigest : Digest)
  deriving DecidableEq, Repr

/-- `DecisionPreviewReferenceSchema`. -/
structure DecisionPreview where
  contentDigest : Option Digest
  previewDigest : Digest
  deriving DecidableEq, Repr

/-- `RuntimeEffectDispatchContext`, without its signal. -/
structure EffectDispatchContext where
  tenantId : String
  runId : String
  stepId : String
  toolCallId : String
  effectId : String
  effectKey : String
  normalizedTargetDigest : Digest
  purposeCode : String
  dataClass : DataClass
  deriving DecidableEq, Repr

/-- `RuntimeEffectAuthorizationRequest`. -/
structure EffectAuthorizationRequest where
  stepId : String
  toolCallId : String
  effectId : String
  effectKey : String
  argumentsDigest : Digest
  normalizedTargetDigest : Digest
  authorizationKey : String
  policyRegistrationDigest : Digest
  approvalId : Option String
  deriving DecidableEq, Repr

/-- What a model stream yields first: nothing, something the emission schema refuses, or an
emission. -/
inductive ModelAnswer where
  | empty
  | invalid
  | emission (next : ModelEmission)

/-- `ModelResourceProfile`, as far as the kernel reads it. -/
structure ModelResourceProfile where
  modelResourceProfileDigest : Digest
  maxInputBytesPerCall : Nat
  maxInputTokensPerCall : Nat
  maxOutputTokensPerCall : Nat
  maxStreamedOutputBytesPerCall : Nat
  priceCurrency : Option String
  priceTableExpiresAt : Option Instant
  deriving DecidableEq, Repr

/-- `ModelSecurityProfile`, as far as the kernel reads it. -/
structure ModelSecurityProfile where
  modelSecurityProfileDigest : Digest
  credentialSlot : String
  endpointOrigin : String
  allowedTenants : List String
  allowedPurposes : List String
  allowedDataClasses : List DataClass
  deriving DecidableEq, Repr

/-- The `registration` of a sealed model adapter. -/
structure ModelAdapterRegistration where
  modelAdapterRegistrationDigest : Digest
  modelSecurityProfileDigest : Digest
  modelResourceProfileDigest : Digest
  credentialSlot : String
  endpointOrigin : String
  deriving DecidableEq, Repr

/-- What a sealed adapter's stream yields, and how often it resolved its credential. -/
structure AdapterAnswer where
  answer : ModelAnswer
  credentialResolutionCount : Nat

/-- The charge `settle` computes from the usage of a call. -/
structure ModelSettlement where
  chargedTokens : Nat
  chargedIoBytes : Nat
  settledAt : Instant
  deriving DecidableEq, Repr

/-- An evidence record, as far as the kernel reads it; `bound` is the conjunction of the binding
checks of `#validateEvidenceRecord`. -/
structure EvidenceRecord where
  evidenceRecordId : String
  bound : Bool
  deriving DecidableEq, Repr

/-- A call to a collaborator. -/
inductive Query where
  -- the host
  | now
  | monotonicMilliseconds
  | generateId (kind : String)
  | aborted
  | sleep (milliseconds : Nat)
  | verifyAuthority
  | isKilled (kind key : String)
  -- the stores' own clocks, and what this process remembers of a local model call
  | activeExecutionStoreNow
  | contextStoreNow
  | inputStoreNow
  | uncertainLocalModelCall (stepId : String)
  -- leases
  | acquireLease
  | renewLease (lease : RunLease)
  | heartbeat (lease : RunLease)
  | releaseLease (lease : RunLease)
  -- registries
  | resolveAgent (executionDefinition : ExecutionDefinition)
  | resolveCompensation (executionDefinition : ExecutionDefinition)
  | resolveTool (toolRegistrationDigest : Digest)
  | resolveStrategy (toolRegistrationDigest : Digest)
  -- tool calls
  | resolveToolCall (registration : ToolRegistration) (proposedInput : JsonValue)
  | evaluatePolicy (registration : ToolRegistration) (argumentsDigest : Digest)
      (callsAlreadyUsed : Nat)
  | previewDecision (stepId decisionId : String) (registration : ToolRegistration)
      (argumentsDigest targetDigest : Digest) (value : JsonValue)
  | executeTool (registration : ToolRegistration) (input : JsonValue)
  | classifyToolError (error : Thrown) (registration : ToolRegistration)
  -- effect strategies
  | previewEffect (value : JsonValue) (context : EffectDispatchContext)
  | operationKey (value : JsonValue) (effectKey : String)
      (normalizedTargetDigest toolRegistrationDigest : Digest)
  | authorize (request : EffectAuthorizationRequest)
  | lookup (operationKey : String) (context : EffectDispatchContext)
  | dispatch (value : JsonValue) (operationKey : Option String)
      (context : EffectDispatchContext)
  | validateOutput (toolRegistrationDigest : Digest) (result : JsonValue)
  -- protection
  | protect (aad : DigestMaterial)
  | unprotect (aad : DigestMaterial)
  -- models
  | invokeModel (run : RunProjection) (input : JsonValue)
  | classifyModelError (error : Thrown)
  | resolveSecurity (modelSecurityProfileDigest : Digest)
  | resolveResource (modelResourceProfileDigest : Digest)
  | resolveAdapter (modelAdapterRegistrationDigest : Digest)
  | estimateInputTokens (request : DigestMaterial) (inputBytes : Nat)
  | issueCredential (reservation : ModelCallReservation)
  | validateModelCallContext (reservation : ModelCallReservation) (now : Instant)
  | invokeAdapter (reservation : ModelCallReservation) (request : DigestMaterial)
  | classifyAdapterError (error : Thrown)
  | modelSettlement (reservation : ModelCallReservation) (outputBytes : Nat)
  -- artifacts, verifiers and evidence
  | putArtifact (artifact : Artifact)
  | hasVerifier (verifierId : String)
  | verify (verifierId : String) (artifact : Artifact)
  | buildEvidence (run : RunProjection) (events : List RunEvent) (artifact : Artifact)
      (verifications : List VerificationResult)
  -- retries
  | maximumAttempts (boundary : RetryBoundary)
  | retryJitter
  | backoffMilliseconds (boundary : RetryBoundary) (attempt : Nat)
      (classification : BoundaryErrorClassification)
  | maximumChargeMilliseconds (boundary : ActiveBoundary)
  -- commands, input and decisions
  | admitCommand (operation commandId : String)
  | validateInput (inputSchemaDigest : Digest) (value : JsonValue)
  | issueChallenge (binding : DecisionBinding)
      (requiredAuthenticationStrength : AuthenticationStrength) (expiresAt : Instant)
  | verifyChallenge (proofDigest : Digest) (binding : DecisionBinding)
  | createApproval (challenge : DecisionChallenge)

/-- What a call answers. -/
@[reducible] def Answer : Query → Type
  | .now | .activeExecutionStoreNow | .contextStoreNow | .inputStoreNow => Instant
  | .monotonicMilliseconds => Nat
  | .generateId _ => String
  | .aborted | .isKilled .. | .hasVerifier _ | .uncertainLocalModelCall _ => Bool
  | .verifyAuthority => Except String Claims
  | .sleep _ | .renewLease _ | .releaseLease _ => Except Thrown Unit
  | .unprotect _ | .putArtifact _ | .validateModelCallContext .. => Except Thrown Unit
  | .admitCommand .. => Except Thrown Unit
  | .acquireLease => Except Thrown (Option RunLease)
  | .heartbeat _ => Option Thrown
  | .resolveAgent _ => Except Thrown (Option AgentDefinition)
  | .resolveCompensation _ => Except Thrown (Option CompensationRunDefinition)
  | .resolveTool _ => Option ToolRegistration
  | .resolveStrategy _ => Option EffectStrategy
  | .resolveToolCall .. | .executeTool .. | .validateOutput .. => Except Thrown JsonValue
  | .evaluatePolicy .. => Except Thrown (Option PolicyDecision)
  | .previewDecision .. => Except Thrown DecisionPreview
  | .classifyToolError .. | .classifyModelError _ | .classifyAdapterError _ =>
      Option BoundaryErrorClassification
  | .previewEffect .. => Except Thrown EffectPreview
  | .operationKey .. => Except Thrown String
  | .authorize _ => Except Thrown AuthorizationReservation
  | .lookup .. => Except Thrown (Option EffectLookupResult)
  | .dispatch .. => Except Thrown EffectExecution
  | .protect _ => Except Thrown Digest
  | .invokeModel .. => Except Thrown ModelAnswer
  | .resolveSecurity _ => Option ModelSecurityProfile
  | .resolveResource _ => Option ModelResourceProfile
  | .resolveAdapter _ => Option ModelAdapterRegistration
  | .estimateInputTokens .. => Except Thrown (Option Nat)
  | .issueCredential _ => Except Thrown Bool
  | .invokeAdapter .. => Except Thrown AdapterAnswer
  | .modelSettlement .. => ModelSettlement
  | .verify .. => Except Thrown (Option VerificationResult)
  | .buildEvidence .. => Except Thrown (Option EvidenceRecord)
  | .maximumAttempts _ | .backoffMilliseconds .. | .maximumChargeMilliseconds _ => Option Nat
  | .retryJitter => Bool
  | .validateInput .. => Except Thrown (Digest × JsonValue)
  | .issueChallenge .. => Except Thrown (DecisionChallenge × Digest)
  | .verifyChallenge .. => Except Thrown DecisionChallenge
  | .createApproval _ => Except Thrown Approval

/-- `RuntimeKernelConfig`: which services are configured, and the options. -/
structure Config where
  encoding : Encoding
  effectServices : Bool
  effectResultProtector : Bool
  /-- `#contextCheckpointEnabled()` -/
  contextCheckpointEnabled : Bool
  /-- `activeExecutionServices !== undefined` -/
  activeExecutionServices : Bool
  /-- their transaction domain is the unit of work's -/
  activeExecutionDomainMatches : Bool
  productionModelServices : Bool
  /-- `#productionModelBoundaryReady()` -/
  productionModelBoundaryReady : Bool
  /-- `#requiresProductionModelBoundary()` -/
  requiresProductionModelBoundary : Bool
  /-- configured, and in the unit of work's transaction domain -/
  compensationServices : Bool
  decisionStore : Bool
  decisionPreviewer : Bool
  decisionChallengeIssuer : Bool
  /-- `inputSubmissionStore`, `inputProtector` and `typedInputRegistry` are configured -/
  typedInput : Bool
  retryPolicy : Bool
  backgroundWakeup : Bool
  credentialRefTtlMs : Nat := 300000
  approvalTtlMs : Nat := 300000
  decisionChallengeTtlMs : Nat := 300000
  freshAuthenticationMaximumAgeMs : Nat := 300000

/-- A program of the kernel. -/
abbrev Runtime := Prog Store Thrown Query Answer

/-- The world of a run: its store, and the calls its threads have made. -/
abbrev RunWorld := World Store Query Answer

end Pactmark
