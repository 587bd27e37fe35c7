import Mathlib.Algebra.Order.Ring.Rat
import Mathlib.Order.WithBot
import Pactmark.Core.Decisions
import Pactmark.Policy.Scopes
import Pactmark.Stores.Grants

/-!
# Policy — the evaluation

`evaluatePolicyPreflight`, `evaluatePolicy` and `createPolicyPreflightEngine` of
`policy/src/policy.ts`.  The lists of the inputs are parsed here, with their bounds; the other
fields are what the schemas have parsed them to.  The preflight looks at the registrations and the
work order, the evaluation also at the grant and the approval.

* `preflight_pass_iff`: what a passing preflight has checked (`Cleared`).
* `evaluatePolicy_allow_iff`: what an allowing evaluation has checked besides (`Granted`).
-/

namespace Pactmark.Policy

/-! ### Numbers -/

/-- A JavaScript number; none is `NaN`. -/
abbrev JsNumber := Option (WithBot (WithTop ℚ))

/-- The number of a rational. -/
def JsNumber.ofRat (q : ℚ) : JsNumber :=
  some ((q : WithTop ℚ) : WithBot (WithTop ℚ))

/-- `a >= b`. -/
def JsNumber.atLeast (a b : JsNumber) : Bool :=
  match a, b with
  | some a, some b => decide (b ≤ a)
  | _, _ => false

/-- `a > b`. -/
def JsNumber.exceeds (a b : JsNumber) : Bool :=
  match a, b with
  | some a, some b => decide (b < a)
  | _, _ => false

/-! ### What is evaluated -/

/-- `PolicyReasonCode`. -/
inductive PolicyReasonCode where
  | KAF_POLICY_ALLOWED
  | KAF_POLICY_DEFAULT_DENY
  | KAF_POLICY_INVALID_INPUT
  | KAF_POLICY_UNKNOWN_PURPOSE
  | KAF_POLICY_DATA_CLASS_DENIED
  | KAF_POLICY_CAPABILITY_DENIED
  | KAF_POLICY_SCOPE_DENIED
  | KAF_POLICY_GRANT_REQUIRED
  | KAF_POLICY_GRANT_BINDING_MISMATCH
  | KAF_POLICY_SCHEMA_REQUIRED
  | KAF_POLICY_PREVIEW_REQUIRED
  | KAF_POLICY_COMPENSATION_REQUIRED
  | KAF_POLICY_EFFECT_STRATEGY_REQUIRED
  | KAF_POLICY_APPROVAL_REQUIRED
  | KAF_POLICY_APPROVAL_INVALID
  | KAF_POLICY_R5_DISABLED
  | KAF_POLICY_NETWORK_ENFORCEMENT_REQUIRED
  | KAF_POLICY_BUDGET_EXCEEDED
  | KAF_POLICY_REGISTRATION_KILLED
  deriving DecidableEq, Repr

/-- `PolicyDecision`. -/
inductive PolicyDecision where
  | deny (reasonCode : PolicyReasonCode)
  | allow_with_grant
  | require_approval
  deriving DecidableEq, Repr

/-- `RiskClassSchema`, of a work context. -/
inductive WorkRiskClass where
  | low
  | medium
  | high
  | critical
  deriving DecidableEq, Repr

/-- `DeterministicPolicyConfig`. -/
structure DeterministicPolicyConfig where
  allowedPurposes : List Purpose
  allowedToolRisksByWorkRisk : WorkRiskClass → List RiskClass
  enabledDataClasses : List DataClass
  enableR5 : Bool
  r5ApprovalMaxAgeMs : Nat

/-- `DeterministicPolicyConfigSchema`. -/
def DeterministicPolicyConfig.parses (config : DeterministicPolicyConfig) : Bool :=
  (config.allowedPurposes.all fun p => decide (p.code ≠ "" ∧ p.registryVersion ≠ "")) &&
    [WorkRiskClass.low, .medium, .high, .critical].all (fun risk =>
      !(config.allowedToolRisksByWorkRisk risk).isEmpty) &&
    decide (0 < config.r5ApprovalMaxAgeMs)

/-- `kind` of an `AcceptedWorkOrder` and the registrations it names; those of the execution
definition come first. -/
inductive WorkOrderKind where
  | agent (id version : String) (agentDefinitionDigest : Digest)
      (modelSecurityProfileDigest modelResourceProfileDigest : Digest)
      (modelAdapterRegistrationDigest : Digest)
  | compensation (id version : String) (compensationRunDefinitionDigest : Digest)
      (originalAgentDefinitionDigest originalEffectDigest : Digest)
      (definitionStrategyRegistrationDigest compensationToolRegistrationDigest : Digest)
      (compensationStrategyRegistrationDigest : Digest)
  deriving DecidableEq, Repr

/-- `executionDefinition`. -/
def WorkOrderKind.executionDefinition : WorkOrderKind → ExecutionDefinition
  | .agent id version definition _ _ _ => .agent id version definition
  | .compensation id version run originalAgent originalEffect strategy tool _ =>
      .compensation id version run originalAgent originalEffect strategy tool

/-- `AcceptedWorkOrder`. -/
structure AcceptedWorkOrder where
  id : String
  tenantId : String
  principal : Principal
  kind : WorkOrderKind
  executionDefinitionDigest : Digest
  workOrderBindingDigest : Digest
  purpose : Purpose
  dataClass : DataClass
  riskClass : WorkRiskClass
  requestedCapabilities : List String
  resourceScopeCeiling : List ResourceScope
  deriving DecidableEq, Repr

/-- `AcceptedWorkOrderSchema`. -/
def AcceptedWorkOrder.parse (workOrder : AcceptedWorkOrder) : Option AcceptedWorkOrder :=
  match parseList (boundedText 256) workOrder.requestedCapabilities,
    parseList parseScope workOrder.resourceScopeCeiling with
  | some requestedCapabilities, some resourceScopeCeiling =>
      some { workOrder with requestedCapabilities, resourceScopeCeiling }
  | _, _ => none

/-- `reversibility` of a `ToolSecurity`. -/
inductive Reversibility where
  | not_applicable
  | compensatable
  | irreversible
  deriving DecidableEq, Repr

/-- `networkEnforcement` of a `ToolSecurity`. -/
inductive NetworkEnforcement where
  | required
  | declared_ok
  deriving DecidableEq, Repr

/-- `effectStrategyKind` of a `ToolRegistrationContract`. -/
inductive ToolEffectStrategyKind where
  | read
  | native
  | transactional
  | reconcilable
  | none
  deriving DecidableEq, Repr

/-- `ToolSecurity`. -/
structure ToolSecurity where
  riskClass : RiskClass
  dataClasses : List DataClass
  reversibility : Reversibility
  requiredScopes : List String
  networkEnforcement : NetworkEnforcement
  maxCallsPerRun : Nat
  costCeiling : Option ℚ
  deriving DecidableEq

/-- `ToolRegistrationContract`. -/
structure ToolRegistrationContract where
  id : String
  security : ToolSecurity
  previewStrategyRegistrationDigest : Option Digest
  effectStrategyKind : ToolEffectStrategyKind
  compensationStrategyRegistrationDigest : Option Digest
  toolRegistrationDigest : Digest
  deriving DecidableEq

/-- `ToolRegistrationContractSchema`. -/
def ToolRegistrationContract.parses (tool : ToolRegistrationContract) : Bool :=
  !tool.security.dataClasses.isEmpty &&
    (tool.security.requiredScopes.all fun scope => decide (scope ≠ "")) &&
    decide (0 < tool.security.maxCallsPerRun) &&
    tool.security.costCeiling.all fun ceiling => decide (0 ≤ ceiling)

/-- `KillSwitchTargetKind`. -/
inductive KillSwitchTargetKind where
  | tool_registration
  | mcp_server
  | model_adapter
  | model_profile
  | policy_registration
  | compensation_definition
  | compensation_strategy
  deriving DecidableEq, Repr

/-- The targets of the active kill switches. -/
abbrev KillSwitches := List (KillSwitchTargetKind × Digest)

instance instLawfulBEqTarget : LawfulBEq (KillSwitchTargetKind × Digest) :=
  inferInstance

/-- `networkPolicy`. -/
inductive NetworkPolicy where
  | none
  | declared
  | enforced
  deriving DecidableEq, Repr

/-- `PolicyPreflightInput`. -/
structure PolicyPreflightInput where
  workOrder : AcceptedWorkOrder
  tool : ToolRegistrationContract
  policyRegistrationDigest : Digest
  argumentsDigest : Digest
  resources : List ResourceScope
  schemaValidated : Bool
  networkPolicy : NetworkPolicy
  callsAlreadyUsed : JsNumber
  requestedCost : Option JsNumber

/-- What a `PolicyEvaluationInput` has besides. -/
structure PolicyEvaluationInput extends PolicyPreflightInput where
  targetDigest : Digest
  grantResolution : Option CapabilityGrantResolution
  approval : Option Decision.Approval
  runId : String
  stepId : String
  decisionId : String
  previewDigest : Option Digest
  evaluatedAt : InstantText

/-- `PolicyPreflightResult`. -/
inductive PolicyPreflightResult where
  | deny (reasonCode : PolicyReasonCode)
  | pass (normalizedResources : List ResourceScope) (normalizedTargetDigest : Digest)
      (approvalRequired : Bool)
  deriving DecidableEq, Repr

/-! ### The preflight -/

/-- The registrations of a work order that a kill switch may name. -/
def WorkOrderKind.targets : WorkOrderKind → KillSwitches
  | .agent _ _ _ securityProfile resourceProfile adapter =>
      [(.model_adapter, adapter), (.model_profile, securityProfile),
        (.model_profile, resourceProfile)]
  | .compensation _ _ run _ _ definitionStrategy _ strategy =>
      [(.compensation_definition, run), (.compensation_strategy, strategy),
        (.compensation_strategy, definitionStrategy)]

/-- The first check of `evaluatePolicyPreflight`. -/
def registrationKilled (killSwitches : KillSwitches) (input : PolicyPreflightInput)
    (workOrder : AcceptedWorkOrder) : Bool :=
  ((.tool_registration, input.tool.toolRegistrationDigest) ::
    (.policy_registration, input.policyRegistrationDigest) :: workOrder.kind.targets).any
      fun target => decide (target ∈ killSwitches)

/-- `purposeAllowed`. -/
def purposeAllowed (config : DeterministicPolicyConfig) (workOrder : AcceptedWorkOrder) : Bool :=
  config.allowedPurposes.any fun purpose =>
    purpose.code = workOrder.purpose.code ∧
      purpose.registryVersion = workOrder.purpose.registryVersion

/-- The check of `requestedCost`. -/
def costExceeded (requestedCost : Option JsNumber) (costCeiling : Option ℚ) : Bool :=
  match requestedCost, costCeiling with
  | none, _ => false
  | some _, none => true
  | some cost, some ceiling => cost.exceeds (.ofRat ceiling)

/-- `riskClass === "R4" || riskClass === "R5"`. -/
def approvalRequired (tool : ToolRegistrationContract) : Bool :=
  tool.security.riskClass = .R4 ∨ tool.security.riskClass = .R5

variable (N : Normalization)

/-- `evaluatePolicyPreflight`. -/
def evaluatePolicyPreflight (config : DeterministicPolicyConfig) (input : PolicyPreflightInput)
    (killSwitches : KillSwitches) : PolicyPreflightResult :=
  match config.parses, input.workOrder.parse, input.tool.parses with
  | true, some workOrder, true =>
    if registrationKilled killSwitches input workOrder then .deny .KAF_POLICY_REGISTRATION_KILLED
    else if !purposeAllowed config workOrder then .deny .KAF_POLICY_UNKNOWN_PURPOSE
    else if workOrder.dataClass ∉ config.enabledDataClasses ∨
        workOrder.dataClass ∉ input.tool.security.dataClasses then
      .deny .KAF_POLICY_DATA_CLASS_DENIED
    else if input.tool.security.riskClass ∉
        config.allowedToolRisksByWorkRisk workOrder.riskClass then
      .deny .KAF_POLICY_DEFAULT_DENY
    else if !input.schemaValidated then .deny .KAF_POLICY_SCHEMA_REQUIRED
    else if input.tool.security.requiredScopes = [] ∨
        ¬ input.tool.security.requiredScopes ⊆ workOrder.requestedCapabilities then
      .deny .KAF_POLICY_CAPABILITY_DENIED
    else
      match input.resources.mapM (canonicalizeResourceScope N) with
      | none => .deny .KAF_POLICY_SCOPE_DENIED
      | some normalizedResources =>
        if normalizedResources = [] ∨
            !scopesAllowed N normalizedResources workOrder.resourceScopeCeiling then
          .deny .KAF_POLICY_SCOPE_DENIED
        else if input.callsAlreadyUsed.atLeast (.ofRat input.tool.security.maxCallsPerRun) then
          .deny .KAF_POLICY_BUDGET_EXCEEDED
        else if costExceeded input.requestedCost input.tool.security.costCeiling then
          .deny .KAF_POLICY_BUDGET_EXCEEDED
        else if input.tool.security.networkEnforcement = .required ∧
            input.networkPolicy ≠ .enforced then
          .deny .KAF_POLICY_NETWORK_ENFORCEMENT_REQUIRED
        else
          .pass normalizedResources (N.digest normalizedResources) (approvalRequired input.tool)
  | _, _, _ => .deny .KAF_POLICY_INVALID_INPUT

/-- `evaluate` of `createPolicyPreflightEngine`: the decision of the preflight. -/
def preflightDecision : PolicyPreflightResult → PolicyDecision
  | .deny reasonCode => .deny reasonCode
  | .pass _ _ true => .require_approval
  | .pass _ _ false => .allow_with_grant

/-! ### The evaluation -/

/-- `CapabilityGrantSchema`. -/
def parseGrant (grant : IssuedGrant) : Option IssuedGrant :=
  match boundedText 256 grant.capability, boundedText 256 grant.toolId,
    parseList parseScope grant.normalizedResources with
  | some capability, some toolId, some normalizedResources =>
      if normalizedResources = [] then none
      else some { grant with capability, toolId, normalizedResources }
  | _, _, _ => none

/-- `action` of a grant for a tool. -/
def grantAction (tool : ToolRegistrationContract) : String :=
  if tool.effectStrategyKind = .read then "read" else "write"

/-- `grantMatches`. -/
def grantMatches (grant : IssuedGrant) (input : PolicyEvaluationInput)
    (workOrder : AcceptedWorkOrder) (resources : List ResourceScope) : Bool :=
  grant.tenantId = workOrder.tenantId ∧ grant.principal = workOrder.principal ∧
    grant.workOrderId = workOrder.id ∧
    grant.workOrderBindingDigest = workOrder.workOrderBindingDigest ∧
    grant.executionDefinitionDigest = workOrder.executionDefinitionDigest ∧
    grant.toolId = input.tool.id ∧
    grant.toolRegistrationDigest = input.tool.toolRegistrationDigest ∧
    grant.policyRegistrationDigest = input.policyRegistrationDigest ∧
    grant.action = grantAction input.tool ∧ grant.purpose = workOrder.purpose ∧
    grant.capability ∈ input.tool.security.requiredScopes ∧
    scopesAllowed N resources grant.normalizedResources

/-- `Date.parse(evaluatedAt) < Date.parse(expiresAt)`. -/
def unexpired (evaluatedAt : InstantText) (expiresAt : IsoInstant) : Bool :=
  evaluatedAt.milliseconds.any fun milliseconds => decide (milliseconds < expiresAt.milliseconds)

/-- `ApprovalSchema`. -/
def parseApproval (approval : Decision.Approval) : Option Decision.Approval :=
  match boundedText 256 approval.binding.runId, boundedText 256 approval.binding.stepId,
    boundedText 256 approval.binding.decisionId, boundedText 256 approval.binding.toolId with
  | some runId, some stepId, some decisionId, some toolId =>
      some { approval with
        binding := { approval.binding with runId, stepId, decisionId, toolId } }
  | _, _, _, _ => none

/-- The comparisons of `approvalMatches` with the binding. -/
def bindingMatches (binding : ProposedEffectBinding) (input : PolicyEvaluationInput)
    (workOrder : AcceptedWorkOrder) : Bool :=
  binding.tenantId = workOrder.tenantId ∧ binding.principal = workOrder.principal ∧
    binding.runId = input.runId ∧ binding.stepId = input.stepId ∧
    binding.decisionId = input.decisionId ∧
    binding.workOrderBindingDigest = workOrder.workOrderBindingDigest ∧
    binding.executionDefinitionDigest = workOrder.executionDefinitionDigest ∧
    binding.toolId = input.tool.id ∧
    binding.toolRegistrationDigest = input.tool.toolRegistrationDigest ∧
    binding.argumentsDigest = input.argumentsDigest ∧
    binding.targetDigest = input.targetDigest ∧
    some binding.previewDigest = input.previewDigest ∧
    binding.policyRegistrationDigest = input.policyRegistrationDigest ∧
    binding.purpose = workOrder.purpose

/-- `approvalMatches`. -/
def approvalMatches (approvalInput : Decision.Approval) (input : PolicyEvaluationInput)
    (workOrder : AcceptedWorkOrder) : Bool :=
  match parseApproval approvalInput with
  | none => false
  | some approval =>
      unexpired input.evaluatedAt approval.expiresAt &&
        decide (approval.approvedBy.type ≠ .system_worker) &&
        bindingMatches approval.binding input workOrder

/-- `Date.parse(evaluatedAt) - Date.parse(createdAt) > r5ApprovalMaxAgeMs`. -/
def tooOld (config : DeterministicPolicyConfig) (evaluatedAt : InstantText)
    (createdAt : IsoInstant) : Bool :=
  evaluatedAt.milliseconds.any fun milliseconds =>
    decide ((config.r5ApprovalMaxAgeMs : Int) < milliseconds - createdAt.milliseconds)

/-- `evaluatePolicy` after the grant. -/
def evaluateRisk (config : DeterministicPolicyConfig) (input : PolicyEvaluationInput)
    (workOrder : AcceptedWorkOrder) : PolicyDecision :=
  let risk := input.tool.security.riskClass
  if risk = .R0 ∨ risk = .R1 ∨ risk = .R2 then .allow_with_grant
  -- the preflight looks at nothing of what follows
  else if input.previewDigest = none ∨ input.tool.previewStrategyRegistrationDigest = none then
    .deny .KAF_POLICY_PREVIEW_REQUIRED
  else if input.tool.effectStrategyKind = .read then .deny .KAF_POLICY_EFFECT_STRATEGY_REQUIRED
  else if risk = .R3 ∧ (input.tool.security.reversibility ≠ .compensatable ∨
      input.tool.compensationStrategyRegistrationDigest = none) then
    .deny .KAF_POLICY_COMPENSATION_REQUIRED
  else if risk = .R3 then .allow_with_grant
  else if risk = .R5 ∧ config.enableR5 = false then .deny .KAF_POLICY_R5_DISABLED
  else
    match input.approval with
    | none => .require_approval
    | some approval =>
        if !approvalMatches approval input workOrder then .deny .KAF_POLICY_APPROVAL_INVALID
        else if risk = .R4 ∧ approval.authenticationStrength.rank < 2 then
          .deny .KAF_POLICY_APPROVAL_INVALID
        else if risk = .R5 ∧ (approval.authenticationStrength ≠ .user_presence ∨
            tooOld config input.evaluatedAt approval.createdAt) then
          .deny .KAF_POLICY_APPROVAL_INVALID
        else .allow_with_grant

/-- `evaluatePolicy`; it throws when the schema refuses the grant. -/
def evaluatePolicy (config : DeterministicPolicyConfig) (input : PolicyEvaluationInput)
    (killSwitches : KillSwitches) : Except Thrown PolicyDecision :=
  match config.parses, input.workOrder.parse, input.tool.parses with
  | true, some workOrder, true =>
    match evaluatePolicyPreflight N config { input.toPolicyPreflightInput with workOrder }
        killSwitches with
    | .deny reasonCode => .ok (.deny reasonCode)
    | .pass resources _ _ =>
      -- the grant is parsed outside of any `try`
      match input.grantResolution with
      | none => .ok (.deny .KAF_POLICY_GRANT_REQUIRED)
      | some (.active grant _) =>
        match parseGrant grant with
        | none => .error (.host "ZodError" true)
        | some grant =>
          if grantMatches N grant input workOrder resources then
            .ok (evaluateRisk config input workOrder)
          else .ok (.deny .KAF_POLICY_GRANT_BINDING_MISMATCH)
      | some .binding_mismatch => .ok (.deny .KAF_POLICY_GRANT_BINDING_MISMATCH)
      | some _ => .ok (.deny .KAF_POLICY_GRANT_REQUIRED)
  | _, _, _ => .ok (.deny .KAF_POLICY_INVALID_INPUT)

/-! ### What is parsed -/

/-- What a work order is parsed to. -/
theorem parse_eq_some {raw workOrder : AcceptedWorkOrder} :
    raw.parse = some workOrder ↔
      parseList (boundedText 256) raw.requestedCapabilities =
          some workOrder.requestedCapabilities ∧
        parseList parseScope raw.resourceScopeCeiling = some workOrder.resourceScopeCeiling ∧
        workOrder = { raw with
          requestedCapabilities := workOrder.requestedCapabilities
          resourceScopeCeiling := workOrder.resourceScopeCeiling } := by
  unfold AcceptedWorkOrder.parse
  constructor
  · intro h
    split at h
    · rename_i capabilities ceiling hcapabilities hceiling
      obtain rfl := Option.some.inj h
      exact ⟨hcapabilities, hceiling, rfl⟩
    · cases h
  · rintro ⟨hcapabilities, hceiling, heq⟩
    rw [hcapabilities, hceiling]
    exact congrArg some heq.symm

/-- What a grant is parsed to. -/
theorem parseGrant_eq_some {raw grant : IssuedGrant} :
    parseGrant raw = some grant ↔
      boundedText 256 raw.capability = some grant.capability ∧
        boundedText 256 raw.toolId = some grant.toolId ∧
        parseList parseScope raw.normalizedResources = some grant.normalizedResources ∧
        grant.normalizedResources ≠ [] ∧
        grant = { raw with
          capability := grant.capability
          toolId := grant.toolId
          normalizedResources := grant.normalizedResources } := by
  unfold parseGrant
  constructor
  · intro h
    split at h
    · rename_i capability toolId resources hcapability htool hresources
      split at h
      · cases h
      · rename_i hne
        obtain rfl := Option.some.inj h
        exact ⟨hcapability, htool, hresources, hne, rfl⟩
    · cases h
  · rintro ⟨hcapability, htool, hresources, hne, heq⟩
    rw [hcapability, htool, hresources]
    simp only [if_neg hne]
    exact congrArg some heq.symm

/-- What an approval is parsed to. -/
theorem parseApproval_eq_some {raw approval : Decision.Approval} :
    parseApproval raw = some approval ↔
      boundedText 256 raw.binding.runId = some approval.binding.runId ∧
        boundedText 256 raw.binding.stepId = some approval.binding.stepId ∧
        boundedText 256 raw.binding.decisionId = some approval.binding.decisionId ∧
        boundedText 256 raw.binding.toolId = some approval.binding.toolId ∧
        approval = { raw with
          binding := { raw.binding with
            runId := approval.binding.runId
            stepId := approval.binding.stepId
            decisionId := approval.binding.decisionId
            toolId := approval.binding.toolId } } := by
  unfold parseApproval
  constructor
  · intro h
    split at h
    · rename_i runId stepId decisionId toolId hrun hstep hdecision htool
      obtain rfl := Option.some.inj h
      exact ⟨hrun, hstep, hdecision, htool, rfl⟩
    · cases h
  · rintro ⟨hrun, hstep, hdecision, htool, heq⟩
    rw [hrun, hstep, hdecision, htool]
    exact congrArg some heq.symm

/-! ### What passes -/

variable {config : DeterministicPolicyConfig} {killSwitches : KillSwitches}

/-- What the preflight of an input has checked: the parsed work order and the canonical
resources. -/
structure Cleared (config : DeterministicPolicyConfig) (input : PolicyPreflightInput)
    (killSwitches : KillSwitches) (workOrder : AcceptedWorkOrder) (resources : List ResourceScope) :
    Prop where
  configParses : config.parses = true
  parsed : input.workOrder.parse = some workOrder
  toolParses : input.tool.parses = true
  alive : registrationKilled killSwitches input workOrder = false
  purpose : purposeAllowed config workOrder = true
  enabled : workOrder.dataClass ∈ config.enabledDataClasses
  dataClass : workOrder.dataClass ∈ input.tool.security.dataClasses
  risk : input.tool.security.riskClass ∈ config.allowedToolRisksByWorkRisk workOrder.riskClass
  validated : input.schemaValidated = true
  requires : input.tool.security.requiredScopes ≠ []
  scopes : input.tool.security.requiredScopes ⊆ workOrder.requestedCapabilities
  canonical : input.resources.mapM (canonicalizeResourceScope N) = some resources
  nonempty : resources ≠ []
  within : scopesAllowed N resources workOrder.resourceScopeCeiling = true
  calls : input.callsAlreadyUsed.atLeast (.ofRat input.tool.security.maxCallsPerRun) = false
  cost : costExceeded input.requestedCost input.tool.security.costCeiling = false
  network : input.tool.security.networkEnforcement = .required → input.networkPolicy = .enforced

theorem ite_deny_eq_pass {c : Prop} [Decidable c] {reasonCode : PolicyReasonCode}
    {rest : PolicyPreflightResult} {resources : List ResourceScope} {digest : Digest}
    {required : Bool} :
    (if c then .deny reasonCode else rest) = PolicyPreflightResult.pass resources digest required ↔
      ¬ c ∧ rest = .pass resources digest required := by
  split <;> simp [*]

/-- **The preflight passes** exactly when every check does. -/
theorem preflight_pass_iff {input : PolicyPreflightInput} {resources : List ResourceScope}
    {digest : Digest} {required : Bool} :
    evaluatePolicyPreflight N config input killSwitches = .pass resources digest required ↔
      (∃ workOrder, Cleared N config input killSwitches workOrder resources) ∧
        digest = N.digest resources ∧ required = approvalRequired input.tool := by
  unfold evaluatePolicyPreflight
  -- the chain of checks is the conjunction of what they let through
  split
  · rename_i workOrder hconfig hworkOrder htool
    simp only [ite_deny_eq_pass, Bool.not_eq_true, Bool.not_eq_true', Bool.not_eq_false, not_or,
      not_not]
    constructor
    · rintro ⟨halive, hpurpose, ⟨henabled, hdata⟩, hrisk, hvalidated, ⟨hrequires, hscopes⟩, h⟩
      split at h
      · cases h
      · rename_i canonical hcanonical
        simp only [ite_deny_eq_pass, Bool.not_eq_true, Bool.not_eq_false, not_or, not_not,
          not_and, PolicyPreflightResult.pass.injEq] at h
        obtain ⟨⟨hne, hwithin⟩, hcalls, hcost, hnetwork, rfl, rfl, rfl⟩ := h
        exact ⟨⟨workOrder, hconfig, hworkOrder, htool, halive, hpurpose, henabled, hdata, hrisk,
          hvalidated, hrequires, hscopes, hcanonical, hne, hwithin, hcalls, hcost, hnetwork⟩,
          rfl, rfl⟩
    · rintro ⟨⟨workOrder', h⟩, rfl, rfl⟩
      obtain rfl := Option.some.inj (hworkOrder.symm.trans h.parsed)
      refine ⟨h.alive, h.purpose, ⟨h.enabled, h.dataClass⟩, h.risk, h.validated,
        ⟨h.requires, h.scopes⟩, ?_⟩
      rw [h.canonical]
      simp only [ite_deny_eq_pass, Bool.not_eq_true, Bool.not_eq_false, not_or, not_not, not_and]
      exact ⟨⟨h.nonempty, h.within⟩, h.calls, h.cost, h.network, trivial⟩
  · rename_i hinvalid
    simp only [reduceCtorEq, false_iff, not_and]
    rintro ⟨workOrder, h⟩
    exact (hinvalid workOrder h.configParses h.parsed h.toolParses).elim

theorem AcceptedWorkOrder.parse_idem {raw workOrder : AcceptedWorkOrder}
    (h : raw.parse = some workOrder) : workOrder.parse = some workOrder := by
  unfold AcceptedWorkOrder.parse at h
  split at h
  · rename_i capabilities ceiling hcapabilities hceiling
    obtain rfl := Option.some.inj h
    simp only [AcceptedWorkOrder.parse, parseList_idem parseScope_idem hceiling,
      parseList_idem (fun _ _ => boundedText_idem) hcapabilities]
  · cases h

/-- The preflight of an evaluation parses a work order that has been parsed. -/
theorem cleared_parsed {input : PolicyPreflightInput} {workOrder : AcceptedWorkOrder}
    {resources : List ResourceScope} (h : input.workOrder.parse = some workOrder) :
    (∃ w, Cleared N config { input with workOrder } killSwitches w resources) ↔
      Cleared N config input killSwitches workOrder resources := by
  constructor
  · rintro ⟨w, hw⟩
    obtain rfl : workOrder = w :=
      Option.some.inj ((AcceptedWorkOrder.parse_idem h).symm.trans hw.parsed)
    exact { hw with parsed := h }
  · intro hw
    exact ⟨workOrder, { hw with parsed := AcceptedWorkOrder.parse_idem h }⟩

/-- `risk === "R0" || risk === "R1" || risk === "R2"`. -/
def LowRisk (risk : RiskClass) : Prop :=
  risk = .R0 ∨ risk = .R1 ∨ risk = .R2

/-- What the registration of a tool of a higher risk class, and the policy, must have. -/
structure Dispatchable (config : DeterministicPolicyConfig) (tool : ToolRegistrationContract) :
    Prop where
  preview : tool.previewStrategyRegistrationDigest ≠ none
  writes : tool.effectStrategyKind ≠ .read
  compensates : tool.security.riskClass = .R3 → tool.security.reversibility = .compensatable ∧
    tool.compensationStrategyRegistrationDigest ≠ none
  enabled : tool.security.riskClass = .R5 → config.enableR5 = true

/-- What the approval of an effect must be. -/
def Consented (config : DeterministicPolicyConfig) (input : PolicyEvaluationInput)
    (workOrder : AcceptedWorkOrder) : Prop :=
  ∃ approval, input.approval = some approval ∧
    approvalMatches approval input workOrder = true ∧
    (input.tool.security.riskClass = .R4 → 2 ≤ approval.authenticationStrength.rank) ∧
    (input.tool.security.riskClass = .R5 → approval.authenticationStrength = .user_presence ∧
      tooOld config input.evaluatedAt approval.createdAt = false)

theorem approvalMatches_iff {raw : Decision.Approval} {input : PolicyEvaluationInput}
    {workOrder : AcceptedWorkOrder} :
    approvalMatches raw input workOrder = true ↔
      ∃ approval, parseApproval raw = some approval ∧
        unexpired input.evaluatedAt approval.expiresAt = true ∧
        approval.approvedBy.type ≠ .system_worker ∧
        bindingMatches approval.binding input workOrder = true := by
  unfold approvalMatches
  split
  · rename_i hrefused
    simp [hrefused]
  · rename_i approval hparsed
    simp [hparsed, and_assoc]

theorem ite_deny_eq_allow {c : Prop} [Decidable c] {reasonCode : PolicyReasonCode}
    {rest : PolicyDecision} :
    (if c then .deny reasonCode else rest) = PolicyDecision.allow_with_grant ↔
      ¬ c ∧ rest = .allow_with_grant := by
  split <;> simp [*]

theorem ite_allow_eq_allow {c : Prop} [Decidable c] {rest : PolicyDecision} :
    (if c then .allow_with_grant else rest) = PolicyDecision.allow_with_grant ↔
      c ∨ rest = .allow_with_grant := by
  split <;> simp [*]

/-- After the grant, a tool of a low risk class is allowed, and one of a higher class when it is
dispatchable, previewed and, but for R3, approved. -/
theorem evaluateRisk_allow_iff {input : PolicyEvaluationInput} {workOrder : AcceptedWorkOrder} :
    evaluateRisk config input workOrder = .allow_with_grant ↔
      LowRisk input.tool.security.riskClass ∨
        input.previewDigest ≠ none ∧ Dispatchable config input.tool ∧
          (input.tool.security.riskClass ≠ .R3 → Consented config input workOrder) := by
  unfold evaluateRisk
  simp only [ite_allow_eq_allow, ite_deny_eq_allow]
  refine or_congr Iff.rfl ?_
  have happroval : (match input.approval with
      | none => PolicyDecision.require_approval
      | some approval =>
          if !approvalMatches approval input workOrder then .deny .KAF_POLICY_APPROVAL_INVALID
          else if input.tool.security.riskClass = .R4 ∧
              approval.authenticationStrength.rank < 2 then .deny .KAF_POLICY_APPROVAL_INVALID
          else if input.tool.security.riskClass = .R5 ∧
              (approval.authenticationStrength ≠ .user_presence ∨
                tooOld config input.evaluatedAt approval.createdAt) then
            .deny .KAF_POLICY_APPROVAL_INVALID
          else .allow_with_grant) = PolicyDecision.allow_with_grant ↔
      Consented config input workOrder := by
    unfold Consented
    split
    · rename_i h
      simp [h]
    · rename_i approval h
      simp only [ite_deny_eq_allow, h, Option.some.injEq, exists_eq_left', Bool.not_eq_true',
        Bool.not_eq_false, not_and, not_lt, not_or, not_not, Bool.not_eq_true, and_true]
  constructor
  · rintro ⟨hpreview, hwrites, hcompensates, h⟩
    simp only [not_or, not_and, not_not] at hpreview hcompensates
    refine ⟨hpreview.1, ⟨hpreview.2, hwrites, hcompensates, fun hrisk => ?_⟩, fun hrisk => ?_⟩
    · rcases h with h | ⟨h, -⟩
      · rw [hrisk] at h
        cases h
      · simpa using fun hdisabled => h ⟨hrisk, hdisabled⟩
    · rcases h with h | ⟨-, h⟩
      · exact absurd h hrisk
      · exact happroval.mp h
  · rintro ⟨hpreview, h, hconsented⟩
    refine ⟨by simp [hpreview, h.preview], h.writes, ?_, ?_⟩
    · rintro ⟨hrisk, hreversible | hstrategy⟩
      · exact hreversible (h.compensates hrisk).1
      · exact (h.compensates hrisk).2 hstrategy
    · by_cases hrisk : input.tool.security.riskClass = .R3
      · exact .inl hrisk
      · refine .inr ⟨?_, happroval.mpr (hconsented hrisk)⟩
        rintro ⟨h5, hdisabled⟩
        rw [h.enabled h5] at hdisabled
        cases hdisabled

/-- **The evaluation allows** exactly when the preflight passes, the grant matches and the risk
is dealt with. -/
theorem evaluatePolicy_allow_iff {input : PolicyEvaluationInput} :
    evaluatePolicy N config input killSwitches = .ok .allow_with_grant ↔
      ∃ workOrder resources raw uses grant,
        Cleared N config input.toPolicyPreflightInput killSwitches workOrder resources ∧
        input.grantResolution = some (.active raw uses) ∧ parseGrant raw = some grant ∧
        grantMatches N grant input workOrder resources = true ∧
        evaluateRisk config input workOrder = .allow_with_grant := by
  unfold evaluatePolicy
  split
  · rename_i workOrder hconfig hworkOrder htool
    constructor
    · intro h
      split at h
      · cases h
      rename_i resources digest required hpass
      obtain ⟨hcleared, -⟩ := (preflight_pass_iff N).mp hpass
      rw [cleared_parsed N hworkOrder] at hcleared
      split at h
      · cases h
      · rename_i raw uses hresolution
        split at h
        · cases h
        rename_i grant hgrant
        split at h
        · rename_i hmatches
          exact ⟨workOrder, resources, raw, uses, grant, hcleared, hresolution, hgrant, hmatches,
            Except.ok.inj h⟩
        · cases h
      · cases h
      · cases h
    · rintro ⟨w, resources, raw, uses, grant, hcleared, hresolution, hgrant, hmatches, hrisk⟩
      obtain rfl := Option.some.inj (hworkOrder.symm.trans hcleared.parsed)
      rw [(preflight_pass_iff N).mpr ⟨(cleared_parsed N hworkOrder).mpr hcleared, rfl, rfl⟩]
      simp only [hresolution, hgrant, hmatches, if_true, hrisk]
  · rename_i hinvalid
    simp only [Except.ok.injEq, reduceCtorEq, false_iff]
    rintro ⟨workOrder, _, _, _, _, h, -⟩
    exact hinvalid workOrder h.configParses h.parsed h.toolParses

end Pactmark.Policy
