import Pactmark.Core.CommandWindow
import Pactmark.Core.Decisions
import Pactmark.Durable.OrderedMap
import Pactmark.Runtime.Commands

/-!
# Runtime — the calls of commands

The commands of `runtime/src/runtime.ts` up to their `transactCommand`, that of
`MemoryRunCommandUnitOfWork`, and the challenge issuer of `createLocalRuntime` in
`agent/src/runtime.ts`, as functions from what a process holds to what a call answers and leaves.

What the stores and registries hold is one parameter, and how it is read is the configuration of
the runtime.  The callbacks of the transactions are arbitrary, except that of
`issueDecisionChallenge`, whose value is looked at afterwards.  A call reads the clock once.
-/

namespace Pactmark

open Durable

namespace CommandReplay

/-! ### Calls -/

/-- `VerifiedAuthority`, as far as the commands read it. -/
structure VerifiedAuthority where
  issuerId : String
  tenantId : String
  actor : Principal
  runScope : Option (String × String)
  decisionRoles : List String
  deriving DecidableEq, Repr

/-- `CommandContextSchema`. -/
structure CommandInput where
  commandId : String
  operation : String
  normalizedResourceScope : List ResourceScope
  requestDigest : Digest
  deriving DecidableEq, Repr

/-- What `start` reads of the definition and of the request before its transaction; `document` is
the request. -/
structure StartRequest where
  agentId : String
  agentVersion : String
  definitionId : String
  definitionVersion : String
  purposeCode : String
  document : JsonValue

/-- A command with its arguments. -/
inductive Request where
  | start (request : StartRequest)
  | submitInput (runId requestId : String) (value : JsonValue)
  | issueDecisionChallenge (runId decisionId : String)
  | approve (runId decisionId challengeProof : String)
  | reject (runId decisionId challengeProof reasonCode : String)
  | reconcileEffect (runId effectId : String) (resolution : Resolution)
  | requestCompensation (runId effectId : String) (request : JsonValue)
  | cancel (runId : String) (reasonCode : Option String)

/-- The run an operation requires an authority for; `start` and `requestCompensation` make one. -/
def Request.runId : Request → Option String
  | .start _ | .requestCompensation .. => none
  | .submitInput runId .. | .issueDecisionChallenge runId _ | .approve runId .. | .reject runId ..
  | .reconcileEffect runId .. | .cancel runId _ => some runId

/-- A call of the runtime. -/
structure Call (A : Type) where
  authority : A
  request : Request
  command : CommandInput

/-! ### What is stored -/

/-- What the callback of a command returns. -/
inductive CommandValue where
  | value (v : JsonValue)
  | challenge (challengeProofDigest : Digest) (expiresAt : IsoInstant)

/-- What a command answers. -/
inductive Response where
  | value (v : CommandValue)
  | challenge (challengeProof : String) (expiresAt : IsoInstant)

/-- `StoredCommand`; the record of the command is nothing these commands read. -/
structure StoredCommand where
  requestDigest : Digest
  value : CommandValue

/-- What the issuer of challenges is asked for. -/
structure ChallengeRequest where
  binding : ProposedEffectBinding
  requiredAuthenticationStrength : AuthenticationStrength
  expiresAt : IsoInstant
  deriving DecidableEq, Repr

/-- An entry of `issuedByCommand`. -/
structure Issued where
  requestDigest : Digest
  challengeProof : String
  challenge : Decision.SubmissionChallenge
  deriving DecidableEq, Repr

/-- The key of `issuedByCommand`: tenant, principal and identity. -/
abbrev IssuerKey := String × PrincipalType × String × String

/-- The process: the clock, everything in the stores and registries, `#commands` and
`issuedByCommand`. -/
structure Process (S : Type) where
  now : Int
  stores : S
  commands : OrderedMap String StoredCommand
  issuedByCommand : OrderedMap IssuerKey Issued

/-! ### The runtime -/

/-- A tool, as far as `requestCompensation` reads it. -/
structure CompensableTool where
  id : String
  implementationVersion : String
  toolRegistrationDigest : Digest
  compensatable : Bool
  compensationStrategyRegistrationDigest : Option Digest
  read : Bool
  deriving DecidableEq, Repr

/-- `CompensationRunDefinitionSchema`, as far as `requestCompensation` reads it. -/
structure CompensationDefinition where
  id : String
  version : String
  compensationRunDefinitionDigest : Digest
  originalAgentDefinitionDigest : Digest
  originalToolRegistrationDigest : Digest
  compensationStrategyRegistrationDigest : Digest
  compensationToolId : String
  compensationToolVersion : String
  compensationToolRegistrationDigest : Digest
  purposeCode : String
  deriving DecidableEq, Repr

/-- What `compensation.resolve` answers; `input` is `validateInput` after `deriveInput`. -/
structure CompensationBinding where
  definition : CompensationDefinition
  input : JsonValue → EffectAcknowledgement → Except Thrown JsonValue

/-- What `reconcileEffect` takes into its transaction. -/
structure Reconciliation where
  workOrder : WorkOrder
  effectDigest : Digest
  recovered : Option (EffectExecution × JsonValue)

/-- What `requestCompensation` takes into its transaction. -/
structure Compensation where
  workOrder : WorkOrder
  effect : EffectRecord
  definition : CompensationDefinition
  input : JsonValue

/-- The configuration of the runtime: how an authority is verified, its options, what it reads of
the stores and registries, what it digests, and the callbacks of its transactions. -/
structure AgentRuntime (A S : Type) where
  verify : A → Int → Except String VerifiedAuthority
  window : CommandWindow
  decisionChallengeTtlMs : Int
  typedInput : Bool
  humanDecisions : Bool
  effectServices : Bool
  compensationServices : Bool
  compensationDomain : Bool
  knownPurpose : String → Bool
  projection : S → String → String → Option RunProjection
  workOrder : S → String → String → Option WorkOrder
  gate : S → DecisionKey → Option Decision.Gate
  effect : S → String → String → String → Option EffectRecord
  acknowledgedResult : S → EffectRecord → Option JsonValue
  resolveAgent : S → ExecutionDefinition → Bool
  resolveTool : S → Digest → Option ToolRegistration
  resolveStrategy : S → Digest → Option EffectStrategy
  lookup : S → String → EffectDispatchContext → EffectLookupResult
  validateExecution : S → EffectRecord → EffectExecution → Except Thrown EffectExecution
  protectResult : S → WorkOrder → EffectRecord → EffectExecution → Except Thrown JsonValue
  compensableTool : S → Digest → Option CompensableTool
  compensation : S → Digest → Option CompensationBinding
  registeredCompensation : S → CompensationDefinition → Option CompensationDefinition
  killed : S → String → Digest → Bool
  commandKey : VerifiedAuthority → CommandInput → String
  payloadDigest : Request → Digest
  jsonDigest : JsonValue → Digest
  gateDigest : Decision.Gate → Digest
  challengeRequestDigest : ChallengeRequest → Digest
  proofDigest : String → Digest
  isoText : Int → String
  challengeProof : S → String
  challengeId : S → String
  putDecisionChallenge : S → Decision.SubmissionChallenge → Except Thrown S
  recordCommand : S → VerifiedAuthority → CommandInput → Except Thrown S
  claimed : Request → VerifiedAuthority → CommandInput → Process S →
    Except Thrown (CommandValue × S)
  reconcile : Request → Reconciliation → VerifiedAuthority → CommandInput → Process S →
    Except Thrown (CommandValue × S)
  compensate : Request → Compensation → VerifiedAuthority → CommandInput → Process S →
    Except Thrown (CommandValue × S)

namespace AgentRuntime

variable {A S : Type} (K : AgentRuntime A S)

/-- `KAF_AUTHORIZATION_BINDING_MISMATCH` with its reason. -/
def mismatch (reason : String) : Thrown :=
  kafReason .KAF_AUTHORIZATION_BINDING_MISMATCH reason

/-- The same, with the operation that was required. -/
def mismatchAt (reason operation : String) : Thrown :=
  .kaf
    { code := .KAF_AUTHORIZATION_BINDING_MISMATCH
      details := { reason := some reason, others := [("operation", operation)] } }

/-- `KAF_RUNTIME_CAPABILITY_MISSING` with the capability. -/
def capabilityMissing (requiredCapability : String) : Thrown :=
  .kaf
    { code := .KAF_RUNTIME_CAPABILITY_MISSING
      details := { others := [("requiredCapability", requiredCapability)] } }

/-- `if (condition) throw error`. -/
def throwIf (condition : Prop) [Decidable condition] (error : Thrown) : Except Thrown Unit :=
  if condition then .error error else .ok ()

/-- `DELEGATED_WORKER_RUN_OPERATIONS`. -/
def DELEGATED_WORKER_RUN_OPERATIONS : List String :=
  ["run.execute", "run.get", "run.events"]

/-- `#verifyAuthority`; `runId` is `none` for `unscoped_only`. -/
def verifyAuthority (w : Process S) (authority : A) (operation : String) (runId : Option String) :
    Except Thrown VerifiedAuthority :=
  match K.verify authority w.now with
  | .error reason => .error (mismatch reason)
  | .ok claims =>
      match claims.runScope, runId with
      | none, _ => .ok claims
      | some _, none => .error (mismatchAt "run_scope_cannot_create_run" operation)
      | some scope, some runId =>
          if scope.1 ≠ runId then .error (mismatchAt "run_scope_mismatch" operation)
          else if claims.actor.type = .system_worker ∧
              operation ∉ DELEGATED_WORKER_RUN_OPERATIONS then
            .error (mismatchAt "run_scope_operation_denied" operation)
          else .ok claims

/-- `#assertAuthorityWorkOrderScope`. -/
def assertAuthorityWorkOrderScope (claims : VerifiedAuthority) (runId workOrderId : String) :
    Except Thrown Unit :=
  throwIf (claims.runScope.any (· ≠ (runId, workOrderId)))
    (mismatchAt "run_scope_mismatch" "run.load")

/-- `#assertAuthorityStoredRunScope`. -/
def assertAuthorityStoredRunScope (w : Process S) (claims : VerifiedAuthority) (runId : String) :
    Except Thrown Unit :=
  match claims.runScope with
  | none => .ok ()
  | some _ =>
      match K.projection w.stores claims.tenantId runId with
      | none => .error (kafError .KAF_STORAGE_NOT_FOUND)
      | some projection => assertAuthorityWorkOrderScope claims runId projection.workOrderId

/-- `getRun`. -/
def getRun (w : Process S) (authority : A) (runId : String) : Except Thrown RunProjection := do
  let claims ← K.verifyAuthority w authority "run.get" (some runId)
  match K.projection w.stores claims.tenantId runId with
  | none => .error (kafError .KAF_STORAGE_NOT_FOUND)
  | some projection => do
      assertAuthorityWorkOrderScope claims runId projection.workOrderId
      return projection

/-- `#loadWorkOrder`. -/
def loadWorkOrder (w : Process S) (tenantId workOrderId : String) : Except Thrown WorkOrder :=
  match (K.workOrder w.stores tenantId workOrderId).filter (¬ ·.isCompensation) with
  | none => .error (kafError .KAF_STORAGE_NOT_FOUND)
  | some workOrder => .ok workOrder

/-- `#assertCommand`. -/
def assertCommand (command : CommandInput) (operation : String) (request : Request) :
    Except Thrown Unit :=
  throwIf (command.operation ≠ operation ∨ command.requestDigest ≠ K.payloadDigest request)
    (kafError .KAF_HTTP_IDEMPOTENCY_CONFLICT)

/-- `#assertCommandResourceScope`. -/
def assertCommandResourceScope (command : CommandInput) (expectedValues : List String) :
    Except Thrown Unit :=
  throwIf (command.normalizedResourceScope.map (·.value) ≠ expectedValues)
    (mismatch "command_resource_scope_mismatch")

/-! ### The transaction of a command -/

/-- `transactCommand`; a callback that throws leaves the stores as they were. -/
def transactCommand (w : Process S) (claims : VerifiedAuthority) (command : CommandInput)
    (callback : Process S → Except Thrown (CommandValue × S)) :
    Except Thrown CommandValue × Process S :=
  match w.commands.get (K.commandKey claims command) with
  | some existing =>
      if existing.requestDigest ≠ command.requestDigest then
        (.error (kafError .KAF_HTTP_IDEMPOTENCY_CONFLICT), w)
      else (.ok existing.value, w)
  | none =>
      match callback w with
      | .error e => (.error e, w)
      | .ok (value, stores) =>
          (.ok value, { w with
            stores
            commands :=
              w.commands.set (K.commandKey claims command) ⟨command.requestDigest, value⟩ })

/-- A command that prepares something, runs its transaction and answers with its value. -/
def prepared {P : Type} (prepare : Except Thrown (VerifiedAuthority × P)) (command : CommandInput)
    (callback : P → VerifiedAuthority → CommandInput → Process S → Except Thrown (CommandValue × S))
    (w : Process S) : Except Thrown Response × Process S :=
  match prepare with
  | .error e => (.error e, w)
  | .ok (claims, p) =>
      match K.transactCommand w claims command (callback p claims command) with
      | (.error e, w') => (.error e, w')
      | (.ok value, w') => (.ok (.value value), w')

/-! ### Commands that check the authority, the arguments and the window -/

/-- `#assertAuthorityStoredRunScope` of the run of a call, if it has one. -/
def assertRequestRunScope (w : Process S) (c : Call A) (claims : VerifiedAuthority) :
    Except Thrown Unit :=
  match c.request.runId with
  | none => .ok ()
  | some runId => K.assertAuthorityStoredRunScope w claims runId

/-- The checks of a command whose transaction comes next: `before` and `after` are what it asks of
its arguments and of the configuration. -/
def commandClaims (w : Process S) (c : Call A) (operation : String)
    (before after : Except Thrown Unit) : Except Thrown VerifiedAuthority := do
  let claims ← K.verifyAuthority w c.authority operation c.request.runId
  K.assertRequestRunScope w c claims
  before
  assertCommandWindow K.window w.now c.command.commandId
  after
  return claims

/-- `start` up to its transaction. -/
def startClaims (w : Process S) (c : Call A) (request : StartRequest) :
    Except Thrown VerifiedAuthority :=
  K.commandClaims w c "run.start" (K.assertCommand c.command "run.start" c.request) do
    throwIf (request.agentId ≠ request.definitionId ∨
        request.agentVersion ≠ request.definitionVersion)
      (kafError .KAF_RUNTIME_AGENT_DEFINITION_MISMATCH)
    throwIf (¬ K.knownPurpose request.purposeCode) (mismatch "unknown_purpose")

/-- `submitInput` up to its transaction. -/
def submitClaims (w : Process S) (c : Call A) (runId requestId : String) :
    Except Thrown VerifiedAuthority :=
  K.commandClaims w c "run.submit_input"
    (do
      K.assertCommand c.command "run.submit_input" c.request
      assertCommandResourceScope c.command [runId, requestId])
    (throwIf (¬ K.typedInput) (capabilityMissing "typedInput"))

/-- `#decideApprove` and `#decideReject` up to their transactions. -/
def decideClaims (w : Process S) (c : Call A) (operation runId decisionId : String) :
    Except Thrown VerifiedAuthority :=
  K.commandClaims w c operation
    (do
      K.assertCommand c.command operation c.request
      assertCommandResourceScope c.command [runId, decisionId])
    (.ok ())

/-- `/^[a-z0-9][a-z0-9_:-]{0,127}$/` -/
def reasonCodeFormat (reasonCode : String) : Bool :=
  let lower (c : Char) : Bool := (97 ≤ c.toNat ∧ c.toNat ≤ 122) ∨ c.isDigit
  match reasonCode.toList with
  | [] => false
  | c :: cs => lower c ∧ cs.length ≤ 127 ∧ cs.all fun c => lower c ∨ c = '_' ∨ c = ':' ∨ c = '-'

/-- `cancel` up to its transaction. -/
def cancelClaims (w : Process S) (c : Call A) (reasonCode : Option String) :
    Except Thrown VerifiedAuthority :=
  K.commandClaims w c "run.cancel"
    (do
      throwIf (¬ reasonCodeFormat (reasonCode.getD "authenticated_cancellation"))
        (.kaf
          { code := .KAF_SCHEMA_INVALID
            details := { others := [("path", "reasonCode"), ("issue", "invalid_format")] } })
      K.assertCommand c.command "run.cancel" c.request)
    (.ok ())

/-! ### `issueDecisionChallenge` -/

/-- `#assertDecisionGateAuthority`. -/
def assertDecisionGateAuthority (gate : Decision.Gate) (claims : VerifiedAuthority)
    (projection : RunProjection) : Except Thrown Unit :=
  throwIf (gate.tenantId ≠ claims.tenantId ∨ gate.runId ≠ projection.runId ∨
      gate.binding.tenantId ≠ claims.tenantId ∨ gate.binding.principal ≠ claims.actor ∨
      gate.binding.workOrderBindingDigest ≠ projection.workOrderBindingDigest ∨
      gate.binding.executionDefinitionDigest ≠ projection.executionDefinitionDigest ∨
      gate.decisionGateDigest ≠ K.gateDigest gate)
    (mismatch "decision_gate_binding_mismatch")

/-- The gate of the decision the run is waiting for. -/
def waitingGate (w : Process S) (authority : A) (claims : VerifiedAuthority)
    (runId decisionId : String) : Except Thrown Decision.Gate := do
  let projection ← K.getRun w authority runId
  throwIf (projection.status ≠ .waiting_for_approval ∨
      projection.waitingDecisionId ≠ some decisionId)
    (kafReason .KAF_RUNTIME_INVALID_TRANSITION "run_not_waiting_for_exact_decision")
  match K.gate w.stores (claims.tenantId, runId, decisionId) with
  | none => .error (kafError .KAF_STORAGE_NOT_FOUND)
  | some gate => do
      K.assertDecisionGateAuthority gate claims projection
      return gate

/-- What `issueDecisionChallenge` asks its issuer for. -/
def challengeRequest (w : Process S) (c : Call A) (runId decisionId : String) :
    Except Thrown (VerifiedAuthority × ChallengeRequest) := do
  let claims ← K.verifyAuthority w c.authority "run.issue_decision_challenge" (some runId)
  K.assertCommand c.command "run.issue_decision_challenge" c.request
  assertCommandResourceScope c.command [runId, decisionId]
  assertCommandWindow K.window w.now c.command.commandId
  throwIf (¬ K.humanDecisions) (capabilityMissing "humanDecisions")
  let expiresAt := w.now + K.decisionChallengeTtlMs
  let gate ← K.waitingGate w c.authority claims runId decisionId
  return (claims,
    { binding := gate.binding
      requiredAuthenticationStrength := gate.requiredAuthenticationStrength
      expiresAt := ⟨K.isoText expiresAt, expiresAt⟩ })

/-- The key of a command in `issuedByCommand`. -/
def issuerKey (claims : VerifiedAuthority) (command : CommandInput) : IssuerKey :=
  (claims.tenantId, claims.actor.type, claims.actor.id, command.commandId)

/-- What the issuer has not issued yet. -/
def newChallenge (w : Process S) (request : ChallengeRequest) : Issued :=
  let challengeProof := K.challengeProof w.stores
  { requestDigest := K.challengeRequestDigest request
    challengeProof
    challenge :=
      { id := K.challengeId w.stores
        issuerId := "pactmark.local-decision@1"
        proofDigest := K.proofDigest challengeProof
        binding := request.binding
        requiredAuthenticationStrength := request.requiredAuthenticationStrength
        issuedAt := ⟨K.isoText w.now, w.now⟩
        expiresAt := request.expiresAt
        consumingCommandId := none
        consumedAt := none } }

/-- `issue` of the local issuer. -/
def issue (w : Process S) (c : Call A) (request : ChallengeRequest) :
    Except Thrown Issued × Process S :=
  match K.verify c.authority w.now with
  | .error reason =>
      (.error (kafReason
        (if reason = "expired" then .KAF_AUTHORIZATION_EXPIRED
          else .KAF_AUTHORIZATION_BINDING_MISMATCH) reason), w)
  | .ok claims =>
      if claims.tenantId ≠ request.binding.tenantId ∨ claims.actor ≠ request.binding.principal then
        (.error (mismatch "local_decision_principal_binding_changed"), w)
      else
        match w.issuedByCommand.get (issuerKey claims c.command) with
        | some prior =>
            if prior.requestDigest ≠ K.challengeRequestDigest request then
              (.error (kafError .KAF_HTTP_IDEMPOTENCY_CONFLICT), w)
            else (.ok prior, w)
        | none =>
            (.ok (K.newChallenge w request), { w with
              issuedByCommand := w.issuedByCommand.set (issuerKey claims c.command)
                (K.newChallenge w request) })

/-- The issued challenge is what was asked for. -/
def Issued.answers (issued : Issued) (request : ChallengeRequest) : Prop :=
  issued.challenge.binding = request.binding ∧
    issued.challenge.requiredAuthenticationStrength = request.requiredAuthenticationStrength ∧
    issued.challenge.expiresAt = request.expiresAt ∧
    issued.challenge.consumingCommandId = none ∧
    issued.challenge.proofDigest = K.proofDigest issued.challengeProof

instance (issued : Issued) (request : ChallengeRequest) :
    Decidable (Issued.answers K issued request) :=
  inferInstanceAs (Decidable (_ ∧ _ ∧ _ ∧ _ ∧ _))

/-- The callback of `issueDecisionChallenge`. -/
def challengeCallback (c : Call A) (runId decisionId : String) (claims : VerifiedAuthority)
    (request : ChallengeRequest) (issued : Issued) (w : Process S) :
    Except Thrown (CommandValue × S) := do
  let gate ← K.waitingGate w c.authority claims runId decisionId
  throwIf (gate.binding ≠ issued.challenge.binding) (mismatch "issued_challenge_gate_changed")
  let stores ← K.putDecisionChallenge w.stores issued.challenge
  let stores ← K.recordCommand stores claims c.command
  return (.challenge (K.proofDigest issued.challengeProof) request.expiresAt, stores)

/-- What `issueDecisionChallenge` answers. -/
def challengeResponse (issued : Issued) (value : CommandValue) : Except Thrown Response :=
  match value with
  | .challenge challengeProofDigest expiresAt =>
      if challengeProofDigest ≠ K.proofDigest issued.challengeProof then
        .error (conflict "decision_challenge_proof_replay_changed")
      else .ok (.challenge issued.challengeProof expiresAt)
  | .value _ => .error (conflict "decision_challenge_proof_replay_changed")

/-- `issueDecisionChallenge`. -/
def issueDecisionChallenge (c : Call A) (runId decisionId : String) (w : Process S) :
    Except Thrown Response × Process S :=
  match K.challengeRequest w c runId decisionId with
  | .error e => (.error e, w)
  | .ok (claims, request) =>
      match K.issue w c request with
      | (.error e, w') => (.error e, w')
      | (.ok issued, w') =>
          if ¬ Issued.answers K issued request then
            (.error (mismatch "issued_challenge_binding_mismatch"), w')
          else
            match K.transactCommand w' claims c.command
                (K.challengeCallback c runId decisionId claims request issued) with
            | (.error e, w'') => (.error e, w'')
            | (.ok value, w'') => (K.challengeResponse issued value, w'')

/-! ### `reconcileEffect` -/

/-- The lookup of a recovered acknowledgement, its result protected. -/
def recoverResult (w : Process S) (workOrder : WorkOrder) (record : EffectRecord)
    (strategy : EffectStrategy) : Resolution → Except Thrown (Option (EffectExecution × JsonValue))
  | .abandon_uncertain .. => .ok none
  | .recovered_acknowledgement =>
      match strategy.kind, record.operationKey with
      | .reconcilable, some operationKey =>
          match K.lookup w.stores operationKey (reconciliationContext workOrder record) with
          | .applied execution => do
              let recovered ← K.validateExecution w.stores record execution
              throwIf (recovered.acknowledgement.proofKind ≠ .lookup_recovery)
                (mismatch "reconciliation_lookup_proof_required")
              let protectedResult ← K.protectResult w.stores workOrder record recovered
              return some (recovered, protectedResult)
          | other =>
              .error (kafReason .KAF_RUNTIME_INVALID_TRANSITION
                ("reconciliation_lookup_" ++ other.status))
      | _, _ =>
          .error (kafReason .KAF_RUNTIME_CAPABILITY_MISSING "effect_has_no_registered_lookup")

/-- `reconcileEffect` up to its transaction. -/
def prepareReconciliation (w : Process S) (c : Call A) (runId effectId : String)
    (resolution : Resolution) : Except Thrown (VerifiedAuthority × Reconciliation) := do
  let claims ← K.verifyAuthority w c.authority "run.reconcile_effect" (some runId)
  throwIf ("effect:reconcile" ∉ claims.decisionRoles) (mismatch "effect_reconcile_role_required")
  throwIf (¬ K.effectServices) (capabilityMissing "effectReconciliation")
  K.assertCommand c.command "run.reconcile_effect" c.request
  assertCommandResourceScope c.command [runId, effectId]
  assertCommandWindow K.window w.now c.command.commandId
  let projection ← K.getRun w c.authority runId
  throwIf (projection.status ≠ .suspended ∨ projection.activeEffectId ≠ some effectId)
    (kafReason .KAF_RUNTIME_INVALID_TRANSITION "run_not_suspended_at_exact_effect")
  match (K.effect w.stores claims.tenantId runId effectId).filter
      (·.state.name = .needs_reconciliation) with
  | none =>
      .error (kafReason .KAF_RUNTIME_INVALID_TRANSITION "effect_not_waiting_for_reconciliation")
  | some record => do
      let workOrder ← K.loadWorkOrder w claims.tenantId projection.workOrderId
      throwIf (¬ K.resolveAgent w.stores workOrder.executionDefinition)
        (kafError .KAF_RUNTIME_AGENT_DEFINITION_MISMATCH)
      match K.resolveTool w.stores record.toolRegistrationDigest,
          (K.resolveStrategy w.stores record.toolRegistrationDigest).filter
            (·.registrationDigest = record.strategyRegistrationDigest) with
      | some _, some strategy => do
          let recovered ← K.recoverResult w workOrder record strategy resolution
          return (claims, ⟨workOrder, record.effectDigest, recovered⟩)
      | _, _ =>
          .error (kafReason .KAF_RUNTIME_CAPABILITY_MISSING
            "reconciliation_registration_unavailable")

/-! ### `requestCompensation` -/

/-- The effect to compensate, and its result. -/
def compensableEffect (w : Process S) (tenantId runId effectId : String) :
    Except Thrown (EffectRecord × EffectAcknowledgement × JsonValue) :=
  match K.effect w.stores tenantId runId effectId with
  | none =>
      .error (kafReason .KAF_RUNTIME_INVALID_TRANSITION "compensation_requires_acknowledged_effect")
  | some effect =>
      match effect.state with
      | .acknowledged resultDigest acknowledgement =>
          match (K.acknowledgedResult w.stores effect).filter
              fun result => K.jsonDigest result = resultDigest with
          | none =>
              .error (kafReason .KAF_RUNTIME_CAPABILITY_MISSING
                "compensation_original_result_unavailable")
          | some result => .ok (effect, acknowledgement, result)
      | _ =>
          .error (kafReason .KAF_RUNTIME_INVALID_TRANSITION
            "compensation_requires_acknowledged_effect")

/-- The tool of the effect, with the strategy that compensates it. -/
def compensableRegistration (w : Process S) (effect : EffectRecord) :
    Except Thrown (CompensableTool × Digest) :=
  match K.compensableTool w.stores effect.toolRegistrationDigest with
  | none =>
      .error (kafReason .KAF_RUNTIME_CAPABILITY_MISSING
        "compensation_strategy_registration_unavailable")
  | some tool =>
      match tool.compensatable, tool.compensationStrategyRegistrationDigest with
      | true, some strategyDigest => .ok (tool, strategyDigest)
      | _, _ =>
          .error (kafReason .KAF_RUNTIME_CAPABILITY_MISSING
            "compensation_strategy_registration_unavailable")

/-- `executionDefinition.agentDefinitionDigest` of an agent. -/
def agentDefinitionDigest : ExecutionDefinition → Option Digest
  | .agent _ _ agentDefinitionDigest => some agentDefinitionDigest
  | .compensation .. => none

/-- The definition is that of the agent, the tool and the strategy, and its own tool is
another. -/
def assertCompensationDefinition (w : Process S) (workOrder : WorkOrder) (tool : CompensableTool)
    (strategyDigest : Digest) (definition : CompensationDefinition) : Except Thrown Unit := do
  throwIf (K.killed w.stores "compensation_definition" definition.compensationRunDefinitionDigest ∨
      K.killed w.stores "compensation_strategy" definition.compensationStrategyRegistrationDigest)
    (kafReason .KAF_RUNTIME_NOT_READY "compensation_registration_killed")
  throwIf (K.registeredCompensation w.stores definition ≠ some definition ∨
      agentDefinitionDigest workOrder.executionDefinition ≠
        some definition.originalAgentDefinitionDigest ∨
      definition.originalToolRegistrationDigest ≠ tool.toolRegistrationDigest ∨
      definition.compensationStrategyRegistrationDigest ≠ strategyDigest)
    (mismatch "compensation_definition_binding_mismatch")
  let compensationTool := (K.compensableTool w.stores
      definition.compensationToolRegistrationDigest).filter fun compensationTool =>
    compensationTool.id = definition.compensationToolId ∧
      compensationTool.implementationVersion = definition.compensationToolVersion ∧
      compensationTool.toolRegistrationDigest = definition.compensationToolRegistrationDigest ∧
      ¬ compensationTool.read ∧ compensationTool.id ≠ tool.id
  throwIf compensationTool.isNone (mismatch "compensation_tool_binding_mismatch")
  throwIf (¬ K.knownPurpose definition.purposeCode)
    (mismatch "compensation_purpose_unregistered")

/-- `requestCompensation` up to its transaction. -/
def prepareCompensation (w : Process S) (c : Call A) (runId effectId : String) :
    Except Thrown (VerifiedAuthority × Compensation) := do
  let claims ← K.verifyAuthority w c.authority "run.request_compensation" none
  throwIf ("effect:compensate" ∉ claims.decisionRoles) (mismatch "effect_compensate_role_required")
  throwIf (¬ K.effectServices ∨ ¬ K.compensationServices) (capabilityMissing "compensation")
  throwIf (¬ K.compensationDomain)
    (kafReason .KAF_RUNTIME_NOT_READY "compensation_transaction_domain_mismatch")
  K.assertCommand c.command "run.request_compensation" c.request
  assertCommandResourceScope c.command [runId, effectId]
  assertCommandWindow K.window w.now c.command.commandId
  let projection ← K.getRun w c.authority runId
  let workOrder ← K.loadWorkOrder w claims.tenantId projection.workOrderId
  let (effect, acknowledgement, result) ← K.compensableEffect w claims.tenantId runId effectId
  let (tool, strategyDigest) ← K.compensableRegistration w effect
  match K.compensation w.stores tool.toolRegistrationDigest with
  | none =>
      .error (kafReason .KAF_RUNTIME_CAPABILITY_MISSING
        "compensation_run_definition_unavailable")
  | some binding => do
      K.assertCompensationDefinition w workOrder tool strategyDigest binding.definition
      let input ← binding.input result acknowledgement
      return (claims, ⟨workOrder, effect, binding.definition, input⟩)

/-! ### The runtime -/

/-- A call of the runtime. -/
def run (c : Call A) (w : Process S) : Except Thrown Response × Process S :=
  let claimed (claims : Except Thrown VerifiedAuthority) :=
    K.prepared (claims.map fun claims => (claims, ())) c.command
      (fun _ => K.claimed c.request) w
  match c.request with
  | .start request => claimed (K.startClaims w c request)
  | .submitInput runId requestId _ => claimed (K.submitClaims w c runId requestId)
  | .issueDecisionChallenge runId decisionId => K.issueDecisionChallenge c runId decisionId w
  | .approve runId decisionId _ => claimed (K.decideClaims w c "run.approve" runId decisionId)
  | .reject runId decisionId _ _ => claimed (K.decideClaims w c "run.reject" runId decisionId)
  | .reconcileEffect runId effectId resolution =>
      K.prepared (K.prepareReconciliation w c runId effectId resolution) c.command
        (K.reconcile c.request) w
  | .requestCompensation runId effectId _ =>
      K.prepared (K.prepareCompensation w c runId effectId) c.command (K.compensate c.request) w
  | .cancel _ reasonCode => claimed (K.cancelClaims w c reasonCode)

end AgentRuntime

end CommandReplay

end Pactmark
