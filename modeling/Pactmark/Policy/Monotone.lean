import Pactmark.Policy.Evaluate

/-!
# Policy — restricting never grants

What `evaluatePolicy` allows stays allowed when its arguments are loosened: fewer kill switches,
more that is permitted, less that is used, a later expiry.  A list that is too long for its schema
is not accepted at all, so the loosened arguments are those the schemas accept.

* `Loosens.cleared`: the checks of the preflight are monotone, one by one.
* `evaluatePolicy_mono`: and so is the evaluation.
-/

namespace Pactmark.Policy

/-- The arguments of an evaluation that may be loosened. -/
structure Latitude where
  config : DeterministicPolicyConfig
  killSwitches : KillSwitches
  workOrder : AcceptedWorkOrder
  networkPolicy : NetworkPolicy
  callsAlreadyUsed : JsNumber
  requestedCost : Option JsNumber
  grantResolution : Option CapabilityGrantResolution
  approval : Option Decision.Approval

/-- An input with other values of the arguments that may be loosened. -/
def Latitude.apply (l : Latitude) (input : PolicyEvaluationInput) : PolicyEvaluationInput :=
  { input with
    workOrder := l.workOrder
    networkPolicy := l.networkPolicy
    callsAlreadyUsed := l.callsAlreadyUsed
    requestedCost := l.requestedCost
    grantResolution := l.grantResolution
    approval := l.approval }

/-- `evaluatePolicy` of an input with these arguments. -/
def Latitude.evaluate (N : Normalization) (l : Latitude) (input : PolicyEvaluationInput) :
    Except Thrown PolicyDecision :=
  evaluatePolicy N l.config (l.apply input) l.killSwitches

/-- The number stays or decreases. -/
def JsNumber.Decreases (a a' : JsNumber) : Prop :=
  a' = a ∨ a.atLeast a' = true

/-- The cost stays or decreases. -/
inductive CostDecreases : Option JsNumber → Option JsNumber → Prop where
  | same (cost : Option JsNumber) : CostDecreases cost cost
  | less {a a' : JsNumber} (h : a.Decreases a') : CostDecreases (some a) (some a')

/-- The resources of the grant stay or are more. -/
inductive ResolutionWidens :
    Option CapabilityGrantResolution → Option CapabilityGrantResolution → Prop where
  | same (resolution : Option CapabilityGrantResolution) : ResolutionWidens resolution resolution
  | wider {grant : IssuedGrant} {uses : Nat} {normalizedResources : List ResourceScope}
      (h : grant.normalizedResources ⊆ normalizedResources) :
      ResolutionWidens (some (.active grant uses))
        (some (.active { grant with normalizedResources } uses))

/-- The expiry of the approval stays or is later. -/
inductive ApprovalExtends : Option Decision.Approval → Option Decision.Approval → Prop where
  | same (approval : Option Decision.Approval) : ApprovalExtends approval approval
  | later {approval : Decision.Approval} {expiresAt : IsoInstant}
      (h : approval.expiresAt.milliseconds ≤ expiresAt.milliseconds) :
      ApprovalExtends (some approval) (some { approval with expiresAt })

/-- The arguments `l'` are looser than `l`. -/
structure Loosens (l l' : Latitude) : Prop where
  killSwitches : l'.killSwitches ⊆ l.killSwitches
  allowedPurposes : l.config.allowedPurposes ⊆ l'.config.allowedPurposes
  enabledDataClasses : l.config.enabledDataClasses ⊆ l'.config.enabledDataClasses
  allowedToolRisks : ∀ risk,
    l.config.allowedToolRisksByWorkRisk risk ⊆ l'.config.allowedToolRisksByWorkRisk risk
  enableR5 : l'.config.enableR5 = l.config.enableR5
  r5ApprovalMaxAgeMs : l'.config.r5ApprovalMaxAgeMs = l.config.r5ApprovalMaxAgeMs
  requestedCapabilities : l.workOrder.requestedCapabilities ⊆ l'.workOrder.requestedCapabilities
  resourceScopeCeiling : l.workOrder.resourceScopeCeiling ⊆ l'.workOrder.resourceScopeCeiling
  workOrder : { l'.workOrder with
    requestedCapabilities := l.workOrder.requestedCapabilities
    resourceScopeCeiling := l.workOrder.resourceScopeCeiling } = l.workOrder
  networkPolicy : l'.networkPolicy = l.networkPolicy ∨ l'.networkPolicy = .enforced
  callsAlreadyUsed : l.callsAlreadyUsed.Decreases l'.callsAlreadyUsed
  requestedCost : CostDecreases l.requestedCost l'.requestedCost
  grantResolution : ResolutionWidens l.grantResolution l'.grantResolution
  approval : ApprovalExtends l.approval l'.approval

/-- The schemas accept the policy, the work order and the grant. -/
structure Latitude.Accepted (l : Latitude) : Prop where
  config : l.config.parses = true
  workOrder : l.workOrder.parse ≠ none
  grant : ∀ grant uses, l.grantResolution = some (.active grant uses) → parseGrant grant ≠ none

/-! ### The checks -/

theorem atLeast_decreases {a a' b : JsNumber} (h : a.Decreases a') (hb : a.atLeast b = false) :
    a'.atLeast b = false := by
  rcases h with rfl | h
  · exact hb
  -- a comparison with `NaN` is false, so that all three are numbers
  rcases a with - | a <;> rcases a' with - | a' <;> rcases b with - | b <;>
    simp_all [JsNumber.atLeast]
  exact h.trans_lt hb

theorem exceeds_decreases {a a' b : JsNumber} (h : a.Decreases a') (hb : a.exceeds b = false) :
    a'.exceeds b = false := by
  rcases h with rfl | h
  · exact hb
  rcases a with - | a <;> rcases a' with - | a' <;> rcases b with - | b <;>
    simp_all [JsNumber.exceeds, JsNumber.atLeast]
  exact h.trans hb

theorem costExceeded_decreases {cost cost' : Option JsNumber} {ceiling : Option ℚ}
    (h : CostDecreases cost cost') (hc : costExceeded cost ceiling = false) :
    costExceeded cost' ceiling = false := by
  cases h with
  | same => exact hc
  | less h =>
    cases ceiling with
    | none => cases hc
    | some ceiling => exact exceeds_decreases h hc

theorem registrationKilled_mono {killSwitches killSwitches' : KillSwitches}
    {input : PolicyPreflightInput} {workOrder : AcceptedWorkOrder}
    (hsub : killSwitches' ⊆ killSwitches)
    (h : registrationKilled killSwitches input workOrder = false) :
    registrationKilled killSwitches' input workOrder = false := by
  simp only [registrationKilled, List.any_eq_false, decide_eq_true_eq] at h ⊢
  exact fun target htarget hkilled => h target htarget (hsub hkilled)

theorem purposeAllowed_mono {config config' : DeterministicPolicyConfig}
    {workOrder : AcceptedWorkOrder} (hsub : config.allowedPurposes ⊆ config'.allowedPurposes)
    (h : purposeAllowed config workOrder = true) : purposeAllowed config' workOrder = true := by
  simp only [purposeAllowed, List.any_eq_true] at h ⊢
  obtain ⟨purpose, hpurpose, heq⟩ := h
  exact ⟨purpose, hsub hpurpose, heq⟩

/-- The parsed work order of the looser arguments has the longer lists. -/
theorem Loosens.parsed {l l' : Latitude} (h : Loosens l l')
    {workOrder workOrder' : AcceptedWorkOrder} (hw : l.workOrder.parse = some workOrder) (hw' : l'.workOrder.parse = some workOrder') :
    workOrder.requestedCapabilities ⊆ workOrder'.requestedCapabilities ∧
      workOrder.resourceScopeCeiling ⊆ workOrder'.resourceScopeCeiling ∧
      workOrder' = { workOrder with
        requestedCapabilities := workOrder'.requestedCapabilities
        resourceScopeCeiling := workOrder'.resourceScopeCeiling } := by
  obtain ⟨hcapabilities, hceiling, heq⟩ := parse_eq_some.mp hw
  obtain ⟨hcapabilities', hceiling', heq'⟩ := parse_eq_some.mp hw'
  refine ⟨parseList_mono hcapabilities hcapabilities' h.requestedCapabilities,
    parseList_mono hceiling hceiling' h.resourceScopeCeiling, ?_⟩
  -- the two raw work orders differ in their lists only
  rw [heq, heq', ← h.workOrder]

variable (N : Normalization)

/-- **The preflight** of the looser arguments clears what that of the others clears. -/
theorem Loosens.cleared {l l' : Latitude} {input : PolicyEvaluationInput} (h : Loosens l l')
    (haccepted : l'.Accepted) {workOrder workOrder' : AcceptedWorkOrder}
    {resources : List ResourceScope}
    (hc : Cleared N l.config (l.apply input).toPolicyPreflightInput l.killSwitches workOrder
      resources)
    (hw' : l'.workOrder.parse = some workOrder') :
    Cleared N l'.config (l'.apply input).toPolicyPreflightInput l'.killSwitches workOrder'
      resources := by
  obtain ⟨hcapabilities, hceiling, heq⟩ := h.parsed hc.parsed hw'
  have hdata : workOrder'.dataClass = workOrder.dataClass := by rw [heq]
  have hrisk : workOrder'.riskClass = workOrder.riskClass := by rw [heq]
  exact {
    configParses := haccepted.config
    parsed := hw'
    toolParses := hc.toolParses
    alive := by
      rw [heq]
      exact registrationKilled_mono h.killSwitches hc.alive
    purpose := by
      rw [heq]
      exact purposeAllowed_mono h.allowedPurposes hc.purpose
    enabled := hdata ▸ h.enabledDataClasses hc.enabled
    dataClass := hdata ▸ hc.dataClass
    risk := hrisk ▸ h.allowedToolRisks _ hc.risk
    validated := hc.validated
    requires := hc.requires
    scopes := List.Subset.trans hc.scopes hcapabilities
    canonical := hc.canonical
    nonempty := hc.nonempty
    within := scopesAllowed_mono N hceiling hc.within
    calls := atLeast_decreases h.callsAlreadyUsed hc.calls
    cost := costExceeded_decreases h.requestedCost hc.cost
    network := fun hrequired => by
      rcases h.networkPolicy with hsame | henforced
      · exact hsame.trans (hc.network hrequired)
      · exact henforced }

/-- **The grant** of the looser arguments matches when that of the others does. -/
theorem Loosens.grant {l l' : Latitude} {input : PolicyEvaluationInput} (h : Loosens l l')
    (haccepted : l'.Accepted) {workOrder workOrder' : AcceptedWorkOrder}
    {resources : List ResourceScope} {raw grant : IssuedGrant} {uses : Nat}
    (hw : l.workOrder.parse = some workOrder) (hw' : l'.workOrder.parse = some workOrder')
    (hresolution : l.grantResolution = some (.active raw uses))
    (hgrant : parseGrant raw = some grant)
    (hmatches : grantMatches N grant (l.apply input) workOrder resources = true) :
    ∃ raw' grant', l'.grantResolution = some (.active raw' uses) ∧
      parseGrant raw' = some grant' ∧
      grantMatches N grant' (l'.apply input) workOrder' resources = true := by
  obtain ⟨-, -, heq⟩ := h.parsed hw hw'
  have hwider := h.grantResolution
  rw [hresolution] at hwider
  generalize hresolution' : l'.grantResolution = resolution' at hwider
  -- a grant with more resources is parsed anew, so that its schema must accept it
  cases hwider with
  | same =>
    refine ⟨raw, grant, rfl, hgrant, ?_⟩
    rw [heq]
    exact hmatches
  | @wider _ _ normalizedResources hsub =>
    obtain ⟨grant', hgrant'⟩ := Option.ne_none_iff_exists'.mp
      (haccepted.grant _ _ hresolution')
    refine ⟨_, grant', rfl, hgrant', ?_⟩
    obtain ⟨hcapability, htool, hresources, -, hgrant⟩ := parseGrant_eq_some.mp hgrant
    obtain ⟨hcapability', htool', hresources', -, hgrant'⟩ := parseGrant_eq_some.mp hgrant'
    obtain hc := Option.some.inj (hcapability.symm.trans hcapability')
    obtain ht := Option.some.inj (htool.symm.trans htool')
    -- the looser grant is the other one with more resources
    have hmore : grant' = { grant with normalizedResources := grant'.normalizedResources } := by
      rw [hgrant, hgrant', hc, ht]
    rw [hmore, heq]
    simp only [grantMatches, decide_eq_true_eq] at hmatches ⊢
    obtain ⟨h1, h2, h3, h4, h5, h6, h7, h8, h9, h10, h11, hwithin⟩ := hmatches
    exact ⟨h1, h2, h3, h4, h5, h6, h7, h8, h9, h10, h11,
      scopesAllowed_mono N (parseList_mono hresources hresources' hsub) hwithin⟩

/-- **The approval** of the looser arguments consents when that of the others does. -/
theorem Loosens.consented {l l' : Latitude} {input : PolicyEvaluationInput} (h : Loosens l l')
    {workOrder workOrder' : AcceptedWorkOrder} (hw : l.workOrder.parse = some workOrder)
    (hw' : l'.workOrder.parse = some workOrder')
    (hc : Consented l.config (l.apply input) workOrder) :
    Consented l'.config (l'.apply input) workOrder' := by
  obtain ⟨-, -, heq⟩ := h.parsed hw hw'
  obtain ⟨approval, happroval, hmatches, hr4, hr5⟩ := hc
  obtain ⟨parsed, hparsed, hunexpired, hperson, hbinding⟩ := approvalMatches_iff.mp hmatches
  have hbinding' : bindingMatches parsed.binding (l'.apply input) workOrder' = true := by
    rw [heq]
    exact hbinding
  have hold : ∀ createdAt, tooOld l'.config (l'.apply input).evaluatedAt createdAt =
      tooOld l.config (l.apply input).evaluatedAt createdAt := fun createdAt => by
    simp only [tooOld, h.r5ApprovalMaxAgeMs]
    rfl
  have hextends : ApprovalExtends (some approval) l'.approval :=
    happroval ▸ h.approval
  generalize happroval' : l'.approval = approval' at hextends
  cases hextends with
  | same =>
    exact ⟨approval, happroval',
      approvalMatches_iff.mpr ⟨parsed, hparsed, hunexpired, hperson, hbinding'⟩, hr4,
      fun h5 => (hold _).symm ▸ hr5 h5⟩
  | @later _ expiresAt hlater =>
    refine ⟨_, happroval', ?_, hr4, fun h5 => (hold _).symm ▸ hr5 h5⟩
    obtain ⟨hrun, hstep, hdecision, htool, hsame⟩ := parseApproval_eq_some.mp hparsed
    refine approvalMatches_iff.mpr ⟨{ parsed with expiresAt }, parseApproval_eq_some.mpr
      ⟨hrun, hstep, hdecision, htool, by rw [hsame]⟩, ?_, hperson, hbinding'⟩
    rw [hsame] at hunexpired
    simp only [unexpired, Option.any_eq_true, decide_eq_true_eq] at hunexpired ⊢
    obtain ⟨milliseconds, hinstant, hlt⟩ := hunexpired
    exact ⟨milliseconds, hinstant, hlt.trans_le hlater⟩

/-- **Restricting never grants**: what is allowed stays allowed when the arguments are loosened,
if the schemas accept them. -/
theorem evaluatePolicy_mono {l l' : Latitude} {input : PolicyEvaluationInput}
    (hallowed : l.evaluate N input = .ok .allow_with_grant) (h : Loosens l l')
    (haccepted : l'.Accepted) : l'.evaluate N input = .ok .allow_with_grant := by
  obtain ⟨workOrder, resources, raw, uses, grant, hcleared, hresolution, hgrant, hmatches, hrisk⟩ :=
    (evaluatePolicy_allow_iff N).mp hallowed
  obtain ⟨workOrder', hw'⟩ := Option.ne_none_iff_exists'.mp haccepted.workOrder
  obtain ⟨raw', grant', hresolution', hgrant', hmatches'⟩ :=
    h.grant N haccepted hcleared.parsed hw' hresolution hgrant hmatches
  refine (evaluatePolicy_allow_iff N).mpr ⟨workOrder', resources, raw', uses, grant',
    h.cleared N haccepted hcleared hw', hresolution', hgrant', hmatches', ?_⟩
  rw [evaluateRisk_allow_iff] at hrisk ⊢
  -- the tool, the preview and the ids are the same on both sides
  rcases hrisk with hlow | ⟨hpreview, hdispatchable, hconsented⟩
  · exact .inl hlow
  · refine .inr ⟨hpreview, ⟨hdispatchable.preview, hdispatchable.writes,
      hdispatchable.compensates, fun h5 => h.enableR5.trans (hdispatchable.enabled h5)⟩, ?_⟩
    exact fun hne => h.consented hcleared.parsed hw' (hconsented hne)

section Witness

/-- A digest. -/
def zeros : Digest :=
  "sha256:0000000000000000000000000000000000000000000000000000000000000000"

/-- The tenant `tenant` is canonical. -/
def tenantNormalization : Normalization where
  canonical _ value := if value = "tenant" then some value else none
  url _ := ⟨"", "", ""⟩
  digest _ := "sha256:6d2c1e76371fce45fd8bf354bc10a712af227267afbccd11870283ba15b70162"

/-- A policy that allows tools of all risk classes. -/
def allRisks : DeterministicPolicyConfig where
  allowedPurposes := [⟨"support", "1"⟩]
  allowedToolRisksByWorkRisk _ := [.R0, .R1, .R2, .R3, .R4, .R5]
  enabledDataClasses := [.internal]
  enableR5 := false
  r5ApprovalMaxAgeMs := 300000

/-- An order to read or send mail. -/
def mailOrder (requestedCapabilities : List String) : AcceptedWorkOrder where
  id := "order"
  tenantId := "tenant"
  principal := ⟨.user, "principal"⟩
  kind := .agent "agent" "1.0.0" zeros zeros zeros zeros
  executionDefinitionDigest := zeros
  workOrderBindingDigest := zeros
  purpose := ⟨"support", "1"⟩
  dataClass := .internal
  riskClass := .critical
  requestedCapabilities := requestedCapabilities
  resourceScopeCeiling := [⟨.tenant, "tenant", "1"⟩]

/-- A tool that reads mail. -/
def readTool : ToolRegistrationContract where
  id := "mail.read@1"
  security := ⟨.R0, [.internal], .not_applicable, ["mail"], .declared_ok, 3, none⟩
  previewStrategyRegistrationDigest := none
  effectStrategyKind := .read
  compensationStrategyRegistrationDigest := none
  toolRegistrationDigest := zeros

/-- A grant to read mail. -/
def readGrant : IssuedGrant where
  issuerId := "issuer"
  principal := ⟨.user, "principal"⟩
  tenantId := "tenant"
  workOrderId := "order"
  workOrderBindingDigest := zeros
  executionDefinition := .agent "agent" "1.0.0" zeros
  executionDefinitionDigest := zeros
  capability := "mail"
  action := "read"
  toolId := "mail.read@1"
  toolVersion := "1"
  toolRegistrationDigest := zeros
  normalizedResources := [⟨.tenant, "tenant", "1"⟩]
  purpose := ⟨"support", "1"⟩
  policyRegistrationDigest := zeros
  id := "grant"
  maximumUses := 1
  maximumUses_pos := by decide
  issuedAt := ⟨"1970-01-01T00:00:00.000Z", 0⟩
  expiresAt := ⟨"1970-01-01T00:01:00.000Z", 60000⟩
  revokedAt := none

/-- An evaluation of the tool. -/
def readMail : PolicyEvaluationInput where
  workOrder := mailOrder ["mail"]
  tool := readTool
  policyRegistrationDigest := zeros
  argumentsDigest := zeros
  resources := [⟨.tenant, "tenant", "1"⟩]
  schemaValidated := true
  networkPolicy := .none
  callsAlreadyUsed := .ofRat 0
  requestedCost := none
  targetDigest := zeros
  grantResolution := some (.active readGrant 1)
  approval := none
  runId := "run"
  stepId := "step"
  decisionId := "decision"
  previewDigest := none
  evaluatedAt := ⟨"1970-01-01T00:00:01.000Z", some 1000⟩

/-- The arguments of the evaluation, with these capabilities. -/
def mailLatitude (requestedCapabilities : List String) : Latitude where
  config := allRisks
  killSwitches := []
  workOrder := mailOrder requestedCapabilities
  networkPolicy := .none
  callsAlreadyUsed := .ofRat 0
  requestedCost := none
  grantResolution := some (.active readGrant 1)
  approval := none

theorem mailLatitude_allowed :
    (mailLatitude ["mail"]).evaluate tenantNormalization readMail = .ok .allow_with_grant := by
  decide

theorem mailLatitude_loosens {more : List String} (h : ["mail"] ⊆ more) :
    Loosens (mailLatitude ["mail"]) (mailLatitude more) where
  killSwitches := List.Subset.refl _
  allowedPurposes := List.Subset.refl _
  enabledDataClasses := List.Subset.refl _
  allowedToolRisks _ := List.Subset.refl _
  enableR5 := rfl
  r5ApprovalMaxAgeMs := rfl
  requestedCapabilities := h
  resourceScopeCeiling := List.Subset.refl _
  workOrder := rfl
  networkPolicy := .inl rfl
  callsAlreadyUsed := .inl rfl
  requestedCost := .same _
  grantResolution := .same _
  approval := .same _

theorem evaluatePolicy_mono_mail :
    (mailLatitude ["mail", "calendar"]).evaluate tenantNormalization readMail =
      .ok .allow_with_grant :=
  evaluatePolicy_mono tenantNormalization mailLatitude_allowed
    (mailLatitude_loosens (by simp))
    { config := by decide
      workOrder := by decide
      grant := fun grant uses h => by
        cases h
        decide }

theorem mailOrder_refused {requestedCapabilities : List String}
    (h : 256 < requestedCapabilities.length) : (mailOrder requestedCapabilities).parse = none := by
  have hlist : parseList (boundedText 256) requestedCapabilities = none :=
    if_neg (Nat.not_le.mpr h)
  simp only [AcceptedWorkOrder.parse, mailOrder, hlist]

/-- With more capabilities than the schema accepts, nothing is allowed. -/
theorem longer_list_denied :
    ¬ ∀ (N : Normalization) (l l' : Latitude) (input : PolicyEvaluationInput),
      l.evaluate N input = .ok .allow_with_grant → Loosens l l' →
        l'.evaluate N input = .ok .allow_with_grant := by
  intro h
  have hsub : ["mail"] ⊆ List.replicate 257 "mail" :=
    List.cons_subset.mpr ⟨List.mem_replicate.mpr ⟨by decide, rfl⟩, List.nil_subset _⟩
  have hdenied : (mailOrder (List.replicate 257 "mail")).parse = none :=
    mailOrder_refused (by rw [List.length_replicate]; decide)
  obtain ⟨w, _, _, _, _, hcleared, -⟩ := (evaluatePolicy_allow_iff _).mp
    (h tenantNormalization _ _ readMail mailLatitude_allowed (mailLatitude_loosens hsub))
  exact absurd (hdenied.symm.trans hcleared.parsed) (by simp)

end Witness

end Pactmark.Policy
