import Pactmark.Policy.Monotone

/-!
# Policy — the preflight and the evaluation

The preflight is preliminary: it does not look at what a tool of a higher risk class must have.
An evaluation of the same input can be made to allow, by a grant, an approval, a preview and an
instant, exactly when the preflight passes and the tool has it.

* `allowable_grant`, `allowable_consent`: the grant and the approval that make it allow.
* `completable_iff`: when there are such.
-/

namespace Pactmark.Policy

/-- The effect an evaluation is about, besides the input of the preflight. -/
structure EvaluatedEffect where
  targetDigest : Digest
  runId : String
  stepId : String
  decisionId : String

/-- What an evaluation is given besides. -/
structure Completion where
  grantResolution : Option CapabilityGrantResolution
  approval : Option Decision.Approval
  previewDigest : Option Digest
  evaluatedAt : InstantText

/-- The input of the evaluation. -/
def PolicyPreflightInput.complete (input : PolicyPreflightInput) (e : EvaluatedEffect)
    (c : Completion) : PolicyEvaluationInput where
  toPolicyPreflightInput := input
  targetDigest := e.targetDigest
  grantResolution := c.grantResolution
  approval := c.approval
  runId := e.runId
  stepId := e.stepId
  decisionId := e.decisionId
  previewDigest := c.previewDigest
  evaluatedAt := c.evaluatedAt

/-- The identifiers are ones that the schema of an approval leaves as they are. -/
structure EvaluatedEffect.Named (e : EvaluatedEffect) : Prop where
  runId : boundedText 256 e.runId = some e.runId
  stepId : boundedText 256 e.stepId = some e.stepId
  decisionId : boundedText 256 e.decisionId = some e.decisionId

/-- What the preflight does not look at: the identity of the tool is one of a grant, and a tool of
a higher risk class is dispatchable and, but for R3, its effect can be approved. -/
def Allowable (config : DeterministicPolicyConfig) (tool : ToolRegistrationContract)
    (e : EvaluatedEffect) : Prop :=
  boundedText 256 tool.id = some tool.id ∧
    (LowRisk tool.security.riskClass ∨
      Dispatchable config tool ∧ (tool.security.riskClass ≠ .R3 → e.Named))

/-- The engine denies what the preflight denies. -/
theorem preflightDecision_denies_iff {result : PolicyPreflightResult} :
    (∃ reasonCode, preflightDecision result = .deny reasonCode) ↔
      ∃ reasonCode, result = .deny reasonCode := by
  rcases result with reasonCode | ⟨resources, digest, - | -⟩ <;> simp [preflightDecision]

variable (N : Normalization) {config : DeterministicPolicyConfig} {input : PolicyPreflightInput}
  {killSwitches : KillSwitches} {workOrder : AcceptedWorkOrder} {resources : List ResourceScope}
  {e : EvaluatedEffect}

/-! ### What makes an evaluation allow -/

/-- A grant of the ceiling of the work order. -/
def grantOf (input : PolicyPreflightInput) (workOrder : AcceptedWorkOrder) (capability : String) :
    IssuedGrant where
  issuerId := "issuer"
  principal := workOrder.principal
  tenantId := workOrder.tenantId
  workOrderId := workOrder.id
  workOrderBindingDigest := workOrder.workOrderBindingDigest
  executionDefinition := workOrder.kind.executionDefinition
  executionDefinitionDigest := workOrder.executionDefinitionDigest
  capability := capability
  action := grantAction input.tool
  toolId := input.tool.id
  toolVersion := "1"
  toolRegistrationDigest := input.tool.toolRegistrationDigest
  normalizedResources := workOrder.resourceScopeCeiling
  purpose := workOrder.purpose
  policyRegistrationDigest := input.policyRegistrationDigest
  id := "grant"
  maximumUses := 1
  maximumUses_pos := Nat.one_pos
  issuedAt := ⟨"1970-01-01T00:00:00.000Z", 0⟩
  expiresAt := ⟨"1970-01-01T00:01:00.000Z", 60000⟩
  revokedAt := none

/-- An approval by a user who is present, of one minute. -/
def approvalOf (input : PolicyPreflightInput) (workOrder : AcceptedWorkOrder)
    (e : EvaluatedEffect) (previewDigest : Digest) : Decision.Approval where
  id := "approval"
  id_parsed := rfl
  issuerId := "issuer"
  challengeId := "challenge"
  challengeProofDigest := previewDigest
  binding :=
    { tenantId := workOrder.tenantId
      principal := workOrder.principal
      runId := e.runId
      stepId := e.stepId
      decisionId := e.decisionId
      workOrderBindingDigest := workOrder.workOrderBindingDigest
      executionDefinition := workOrder.kind.executionDefinition
      executionDefinitionDigest := workOrder.executionDefinitionDigest
      toolId := input.tool.id
      toolVersion := "1"
      toolRegistrationDigest := input.tool.toolRegistrationDigest
      argumentsDigest := input.argumentsDigest
      targetDigest := e.targetDigest
      contentDigest := none
      previewDigest := previewDigest
      purpose := workOrder.purpose
      policyRegistrationDigest := input.policyRegistrationDigest }
  approvedBy := ⟨.user, "approver"⟩
  authenticationStrength := .user_presence
  createdAt := ⟨"1970-01-01T00:00:00.000Z", 0⟩
  expiresAt := ⟨"1970-01-01T00:01:00.000Z", 60000⟩

/-- The grant, the approval and the preview, at the instant the approval was made. -/
def completion (input : PolicyPreflightInput) (workOrder : AcceptedWorkOrder)
    (e : EvaluatedEffect) (capability : String) : Completion where
  grantResolution := some (.active (grantOf input workOrder capability) 1)
  approval := input.tool.previewStrategyRegistrationDigest.map (approvalOf input workOrder e)
  previewDigest := input.tool.previewStrategyRegistrationDigest
  evaluatedAt := ⟨"1970-01-01T00:00:00.000Z", some 0⟩

/-- The schema accepts the grant, and it matches. -/
theorem allowable_grant (hc : Cleared N config input killSwitches workOrder resources)
    (htool : boundedText 256 input.tool.id = some input.tool.id) {capability : String}
    (hcapability : capability ∈ input.tool.security.requiredScopes) :
    parseGrant (grantOf input workOrder capability) = some (grantOf input workOrder capability) ∧
      grantMatches N (grantOf input workOrder capability)
        (input.complete e (completion input workOrder e capability)) workOrder resources =
          true := by
  obtain ⟨hcapabilities, hceiling, -⟩ := parse_eq_some.mp hc.parsed
  constructor
  · refine parseGrant_eq_some.mpr ⟨?_, htool, parseList_idem parseScope_idem hceiling, ?_, rfl⟩
    · -- a required scope is a requested capability, so that it has been parsed
      obtain ⟨raw, -, hraw⟩ := (mem_of_parseList hcapabilities).mp (hc.scopes hcapability)
      exact boundedText_idem hraw
    · -- a resource is within a scope of the ceiling
      intro hnone
      obtain ⟨resource, hresource⟩ := List.exists_mem_of_ne_nil _ hc.nonempty
      have hwithin := hc.within
      rw [show workOrder.resourceScopeCeiling = [] from hnone] at hwithin
      simp only [scopesAllowed, List.any_nil, List.all_eq_true, Bool.false_eq_true] at hwithin
      exact hwithin resource hresource
  · simp only [grantMatches, decide_eq_true_eq]
    exact ⟨rfl, rfl, rfl, rfl, rfl, rfl, rfl, rfl, rfl, rfl, hcapability, hc.within⟩

/-- The approval consents, also to an effect of the highest risk class. -/
theorem allowable_consent (htool : boundedText 256 input.tool.id = some input.tool.id)
    (hnamed : e.Named) (hpreview : input.tool.previewStrategyRegistrationDigest ≠ none)
    (capability : String) :
    Consented config (input.complete e (completion input workOrder e capability)) workOrder := by
  obtain ⟨previewDigest, hdigest⟩ := Option.ne_none_iff_exists'.mp hpreview
  refine ⟨approvalOf input workOrder e previewDigest, ?_, ?_, fun _ => ?_, fun _ => ⟨rfl, ?_⟩⟩
  · simp [PolicyPreflightInput.complete, completion, hdigest]
  · refine approvalMatches_iff.mpr ⟨approvalOf input workOrder e previewDigest,
      parseApproval_eq_some.mpr ⟨hnamed.runId, hnamed.stepId, hnamed.decisionId, htool, rfl⟩,
      rfl, nofun, ?_⟩
    simp only [bindingMatches, decide_eq_true_eq]
    exact ⟨rfl, rfl, rfl, rfl, rfl, rfl, rfl, rfl, rfl, rfl, rfl, hdigest.symm, rfl, rfl⟩
  · exact show 2 ≤ 3 by decide
  · simp [tooOld, PolicyPreflightInput.complete, completion, approvalOf]

/-- An approval that consents to the effect names it. -/
theorem named_of_consented {c : Completion}
    (h : Consented config (input.complete e c) workOrder) : e.Named := by
  obtain ⟨raw, -, hmatches, -⟩ := h
  obtain ⟨approval, hparsed, -, -, hbinding⟩ := approvalMatches_iff.mp hmatches
  obtain ⟨hrun, hstep, hdecision, -⟩ := parseApproval_eq_some.mp hparsed
  simp only [bindingMatches, decide_eq_true_eq] at hbinding
  obtain ⟨-, -, hrunId, hstepId, hdecisionId, -⟩ := hbinding
  simp only [PolicyPreflightInput.complete] at hrunId hstepId hdecisionId
  refine ⟨?_, ?_, ?_⟩
  · exact hrunId ▸ boundedText_idem hrun
  · exact hstepId ▸ boundedText_idem hstep
  · exact hdecisionId ▸ boundedText_idem hdecision

/-- **The preflight and the evaluation**: some grant, approval and preview at some instant make
the evaluation allow exactly when the preflight passes and the tool is allowable. -/
theorem completable_iff (config : DeterministicPolicyConfig) (input : PolicyPreflightInput)
    (killSwitches : KillSwitches) (e : EvaluatedEffect) :
    (∃ c : Completion,
        evaluatePolicy N config (input.complete e c) killSwitches = .ok .allow_with_grant) ↔
      (∃ resources digest required,
        evaluatePolicyPreflight N config input killSwitches = .pass resources digest required) ∧
        Allowable config input.tool e := by
  constructor
  · rintro ⟨c, hallowed⟩
    obtain ⟨workOrder, resources, raw, uses, grant, hcleared, -, hgrant, hmatches, hrisk⟩ :=
      (evaluatePolicy_allow_iff N).mp hallowed
    refine ⟨⟨resources, _, _, (preflight_pass_iff N).mpr ⟨⟨workOrder, hcleared⟩, rfl, rfl⟩⟩, ?_, ?_⟩
    · obtain ⟨-, htool, -⟩ := parseGrant_eq_some.mp hgrant
      simp only [grantMatches, decide_eq_true_eq] at hmatches
      have hid : grant.toolId = input.tool.id := hmatches.2.2.2.2.2.1
      exact hid ▸ boundedText_idem htool
    · rcases evaluateRisk_allow_iff.mp hrisk with hlow | ⟨-, hdispatchable, hconsented⟩
      · exact .inl hlow
      · exact .inr ⟨hdispatchable, fun hne => named_of_consented (hconsented hne)⟩
  · rintro ⟨⟨resources, digest, required, hpass⟩, htool, hrisk⟩
    obtain ⟨⟨workOrder, hcleared⟩, -⟩ := (preflight_pass_iff N).mp hpass
    -- any required scope will do as the capability of the grant
    obtain ⟨capability, hcapability⟩ := List.exists_mem_of_ne_nil _ hcleared.requires
    obtain ⟨hgrant, hmatches⟩ := allowable_grant N hcleared htool hcapability
    refine ⟨completion input workOrder e capability, (evaluatePolicy_allow_iff N).mpr
      ⟨workOrder, resources, _, 1, _, hcleared, rfl, hgrant, hmatches, ?_⟩⟩
    refine evaluateRisk_allow_iff.mpr ?_
    rcases hrisk with hlow | ⟨hdispatchable, hnamed⟩
    · exact .inl hlow
    · exact .inr ⟨hdispatchable.preview, hdispatchable, fun hne =>
        allowable_consent htool (hnamed hne) hdispatchable.preview capability⟩

section Witness

/-- A tool of the highest risk class that sends mail. -/
def sendTool : ToolRegistrationContract where
  id := "mail.send@1"
  security := ⟨.R5, [.internal], .irreversible, ["mail"], .declared_ok, 3, none⟩
  previewStrategyRegistrationDigest := some zeros
  effectStrategyKind := .native
  compensationStrategyRegistrationDigest := none
  toolRegistrationDigest := zeros

/-- The preflight passes a tool of a class that the policy does not enable. -/
theorem preflight_passes_disabled :
    ¬ ∀ (N : Normalization) (config : DeterministicPolicyConfig) (input : PolicyPreflightInput)
      (killSwitches : KillSwitches) (e : EvaluatedEffect),
      (∃ resources digest required,
        evaluatePolicyPreflight N config input killSwitches = .pass resources digest required) →
      ∃ c : Completion,
        evaluatePolicy N config (input.complete e c) killSwitches = .ok .allow_with_grant := by
  intro h
  obtain ⟨c, hallowed⟩ := h tenantNormalization allRisks
    { readMail.toPolicyPreflightInput with tool := sendTool } [] ⟨zeros, "run", "step", "decision"⟩
    ⟨_, _, _, rfl⟩
  obtain ⟨_, _, _, _, _, -, -, -, -, hrisk⟩ := (evaluatePolicy_allow_iff _).mp hallowed
  rcases evaluateRisk_allow_iff.mp hrisk with (h | h | h) | ⟨-, hdispatchable, -⟩
  · cases h
  · cases h
  · cases h
  · exact absurd (hdispatchable.enabled rfl) (by decide)

end Witness

end Pactmark.Policy
