import Pactmark.Runtime.Kernel

/-!
# Runtime — model calls

`#invokeModelCall`: the local path through the model driver, and `#invokeProductionModelCall`
through a sealed adapter with a reservation that is accepted, dispatched and settled.
-/

namespace Pactmark

open Durable

variable (K : Config)

/-- `input` of `#invokeModelCall`. -/
structure ModelCallInput where
  workOrder : WorkOrder
  definition : AgentDefinition
  projection : RunProjection
  lease : RunLease
  stepId : String
  attempt : Nat
  modelInput : JsonValue
  started : Bool

/-- What `#invokeModelCall` returns. -/
structure ModelCallOutcome where
  projection : RunProjection
  reservationId : String
  next : Option ModelEmission
  completedEventCommitted : Bool

/-- The checkpoint of a model call that has started. -/
def ModelCallInput.inflight (i : ModelCallInput) : Checkpoint :=
  { phase := .model_inflight
    stepId := some i.stepId
    attempt := some i.attempt
    modelInput := some i.modelInput }

/-- `#parseModelEmission` of the first thing a stream yields. -/
def parseModelEmission : ModelAnswer → Except Thrown (Option ModelEmission)
  | .empty => .ok none
  | .emission next => .ok (some next)
  | .invalid =>
      .error (kafReason .KAF_MODEL_ADAPTER_MISMATCH "model_emission_schema_invalid")

/-- `for await (const rawEmission of modelDriver.invoke(..)) return parse(rawEmission)`. -/
def driveModel (run : RunProjection) (input : JsonValue) : Runtime (Option ModelEmission) := do
  let answer : ModelAnswer ← invoke (.invokeModel run input)
  Prog.ofExcept (parseModelEmission answer)

/-- `ModelCallStarted` of a local call, unless an earlier invocation has committed it. -/
def startLocalModelCall (i : ModelCallInput) (reservationId : String) : Runtime RunProjection :=
  if i.started then .pure i.projection
  else
    append K i.workOrder i.projection i.lease
      (.ModelCallStarted i.stepId reservationId (K.encoding.digest (.json i.modelInput))) none
      .skip (some i.inflight)

/-- The local path of `#invokeModelCall`.  What the `catch` block adds to
`#uncertainLocalModelCalls` is what `uncertainLocalModelCall` later asks for. -/
def invokeLocalModelCall (i : ModelCallInput) : Runtime ModelCallOutcome := do
  Prog.throwIf K.requiresProductionModelBoundary
    (kafReason .KAF_MODEL_CREDENTIAL_REQUIRED "production_model_boundary_unavailable")
  let reservationId := "model-call-" ++ i.stepId ++ "-" ++ toString i.attempt
  let projection ← startLocalModelCall K i reservationId
  let next ← withLeaseHeartbeat i.lease
    (captureBoundaryInvocation (driveModel projection i.modelInput))
  return { projection, reservationId, next, completedEventCommitted := false }

/-! ### The production path -/

/-- `#assertProductionModelBinding`. -/
def assertProductionModelBinding (i : ModelCallInput) (registration : ModelAdapterRegistration)
    (security : ModelSecurityProfile) (resource : ModelResourceProfile) : Except Thrown Unit :=
  if registration.modelAdapterRegistrationDigest ≠ i.definition.modelAdapterRegistrationDigest ∨
      registration.modelSecurityProfileDigest ≠ i.definition.modelSecurityProfileDigest ∨
      registration.modelResourceProfileDigest ≠ i.definition.modelResourceProfileDigest ∨
      registration.modelSecurityProfileDigest ≠ security.modelSecurityProfileDigest ∨
      registration.modelResourceProfileDigest ≠ resource.modelResourceProfileDigest ∨
      registration.credentialSlot ≠ security.credentialSlot ∨
      registration.endpointOrigin ≠ security.endpointOrigin ∨
      i.workOrder.tenantId ∉ security.allowedTenants ∨
      i.workOrder.purposeCode ∉ security.allowedPurposes ∨
      i.workOrder.dataClass = .highly_restricted ∨
      i.workOrder.dataClass ∉ security.allowedDataClasses then
    .error (kafReason .KAF_MODEL_ADAPTER_MISMATCH
      "model_registration_or_profile_binding_mismatch")
  else .ok ()

/-- `KAF_MODEL_RESOURCE_LIMIT_EXCEEDED` at a limit. -/
def modelResourceLimitExceeded (limit : String) : Thrown :=
  .kaf { code := .KAF_MODEL_RESOURCE_LIMIT_EXCEEDED, details := { others := [("limit", limit)] } }

/-- `inputTokenUpperBound` of a production call. -/
def inputTokenUpperBound (i : ModelCallInput) (resource : ModelResourceProfile)
    (request : DigestMaterial) (inputBytes : Nat) : Runtime Nat := do
  let estimate : Except Thrown (Option Nat) ← consult (.estimateInputTokens request inputBytes)
  match estimate with
  | .error _ => .throw (modelResourceLimitExceeded "model_input_estimation")
  | .ok none => .throw (modelResourceLimitExceeded "model_input_tokens_per_call")
  | .ok (some bound) => do
      Prog.throwIf (bound = 0 ∨ bound > resource.maxInputTokensPerCall ∨
          bound > i.workOrder.budget.maxModelInputTokensPerCall.getD
            resource.maxInputTokensPerCall)
        (modelResourceLimitExceeded "model_input_tokens_per_call")
      return bound

/-- The price check of a production call. -/
def modelPriceUnbound (budget : WorkBudget) (resource : ModelResourceProfile) (now : Instant) :
    Bool :=
  budget.monetaryCeiling.any fun ceiling =>
    resource.priceCurrency ≠ some ceiling.currency ∨
      !resource.priceTableExpiresAt.any (now < ·)

/-- The reservation a production call computes. -/
def productionReservation (i : ModelCallInput) (registration : ModelAdapterRegistration)
    (security : ModelSecurityProfile) (resource : ModelResourceProfile)
    (outputTokenMaximum inputBytes inputTokenUpperBound : Nat) : ModelCallIdentity where
  reservationId := "model-call-reservation:" ++ K.encoding.digest
    (.modelCallReservation i.workOrder.tenantId i.projection.runId i.stepId i.attempt
      i.workOrder.workOrderBindingDigest i.definition.agentDefinitionDigest
      security.modelSecurityProfileDigest resource.modelResourceProfileDigest
      registration.modelAdapterRegistrationDigest)
  tenantId := i.workOrder.tenantId
  runId := i.projection.runId
  stepId := i.stepId
  attempt := i.attempt
  workOrderBindingDigest := i.workOrder.workOrderBindingDigest
  agentDefinitionDigest := i.definition.agentDefinitionDigest
  modelSecurityProfileDigest := security.modelSecurityProfileDigest
  modelResourceProfileDigest := resource.modelResourceProfileDigest
  modelAdapterRegistrationDigest := registration.modelAdapterRegistrationDigest
  inputBytes
  inputTokenUpperBound
  outputTokenMaximum
  outputBytesMaximum := min resource.maxStreamedOutputBytesPerCall
    (i.workOrder.budget.maxStreamedOutputBytesPerCall.getD resource.maxStreamedOutputBytesPerCall)
  maximumCallCostMinor := i.workOrder.budget.monetaryCeiling.map (·.amountMinor)
  currency := i.workOrder.budget.monetaryCeiling.map (·.currency)
  createdAt := i.projection.updatedAt
  expiresAt := i.projection.updatedAt + K.credentialRefTtlMs

/-- A reservation in a status. -/
def ModelCallIdentity.withStatus (identity : ModelCallIdentity) (status : ModelCallStatus) :
    ModelCallReservation :=
  { identity with status }

/-- `#transitionModelReservation` of one `putModelCallReservation`. -/
def transitionModelReservation (lease : RunLease) (reservation : ModelCallReservation) :
    Runtime Unit := do
  renew lease
  Prog.commit (putModelCallReservation reservation)

/-- What a production call has settled before it commits `ModelCallStarted`. -/
structure ProductionCall where
  resource : ModelResourceProfile
  identity : ModelCallIdentity
  request : DigestMaterial
  now : Instant

/-- `#invokeProductionModelCall`, up to its reservation. -/
def prepareProductionCall (i : ModelCallInput) : Runtime ProductionCall := do
  let security : Option ModelSecurityProfile ←
    consult (.resolveSecurity i.definition.modelSecurityProfileDigest)
  let resource : Option ModelResourceProfile ←
    consult (.resolveResource i.definition.modelResourceProfileDigest)
  let registration : Option ModelAdapterRegistration ←
    consult (.resolveAdapter i.definition.modelAdapterRegistrationDigest)
  match security, resource, registration with
  | some security, some resource, some registration => do
      Prog.ofExcept (assertProductionModelBinding i registration security resource)
      let outputTokenMaximum := min resource.maxOutputTokensPerCall
        (i.workOrder.budget.maxModelOutputTokensPerCall.getD resource.maxOutputTokensPerCall)
      let request : DigestMaterial :=
        .providerRequest i.definition i.modelInput outputTokenMaximum
      let inputBytes := K.encoding.byteSize request
      Prog.throwIf (inputBytes > min resource.maxInputBytesPerCall
          (i.workOrder.budget.maxModelInputBytesPerCall.getD resource.maxInputBytesPerCall))
        (.kaf { code := .KAF_RUNTIME_CAPABILITY_MISSING
                details := { reason := some "byte_limit_exceeded"
                             others := [("category", "model_input_per_call")] } })
      let bound ← inputTokenUpperBound i resource request inputBytes
      let now : Instant ← consult .now
      Prog.throwIf (modelPriceUnbound i.workOrder.budget resource now)
        (modelResourceLimitExceeded "model_price_bound")
      return {
        resource
        identity := productionReservation K i registration security resource outputTokenMaximum
          inputBytes bound
        request
        now }
  | _, _, _ =>
      .throw (kafReason .KAF_MODEL_ADAPTER_MISMATCH "registered_model_material_unavailable")

/-- The credential and the context of a production call, once it has started. -/
def authorizeProductionCall (c : ProductionCall) : Runtime Unit := do
  let accepted := c.identity.withStatus .accepted
  let issued : Except Thrown Bool ← consult (.issueCredential accepted)
  match issued with
  | .error _ =>
      .throw (kafReason .KAF_MODEL_CREDENTIAL_REQUIRED "model_credential_issuance_failed")
  | .ok issuerMatches => do
      Prog.throwIf (¬ issuerMatches)
        (kafReason .KAF_MODEL_ADAPTER_MISMATCH "model_credential_issuer_mismatch")
      invoke (.validateModelCallContext accepted c.now)

/-- The `try` block around the adapter. -/
def driveAdapter (lease : RunLease) (c : ProductionCall) : Runtime (Option ModelEmission) := do
  let answer : AdapterAnswer ← withLeaseHeartbeat lease do
    let answer : AdapterAnswer ←
      invoke (.invokeAdapter (c.identity.withStatus .accepted) c.request)
    let _ ← Prog.ofExcept (parseModelEmission answer.answer)
    return answer
  Prog.throwIf (answer.credentialResolutionCount ≠ 1)
    (kafReason .KAF_MODEL_ADAPTER_MISMATCH "sealed_adapter_did_not_resolve_credential")
  Prog.ofExcept (parseModelEmission answer.answer)

/-- `invalidEmission` of the `catch` block. -/
def invalidEmission : Thrown → Bool
  | .kaf e =>
      e.code = .KAF_MODEL_ADAPTER_MISMATCH ∧
        e.details.reason = some "model_emission_schema_invalid"
  | _ => false

/-- `retryClassification` of the `catch` block. -/
def adapterRetryClassification (error : Thrown) : Runtime BoundaryErrorClassification :=
  if invalidEmission error then .pure .non_retryable
  else do
    let classified : Option BoundaryErrorClassification ←
      consult (.classifyAdapterError error)
    return classified.getD .uncertain

/-- The `catch` block around the adapter. -/
def adapterFailed {α : Type} (lease : RunLease) (c : ProductionCall) (error : Thrown) :
    Runtime α := do
  let classification ← adapterRetryClassification error
  transitionModelReservation lease (c.identity.withStatus .uncertain)
  if invalidEmission error then
    .throw (.kaf { code := .KAF_MODEL_ADAPTER_MISMATCH
                   details := { reason := some "model_emission_schema_invalid"
                                retryClassification := some classification } })
  else
    .throw (.kaf { code := .KAF_RUNTIME_CAPABILITY_MISSING
                   details := { reason := some "model_call_failed_after_dispatch"
                                retryClassification := some classification } })

/-- The checkpoint of a completed production call. -/
def ModelCallInput.completed (i : ModelCallInput) (next : Option ModelEmission) : Checkpoint :=
  match next with
  | none =>
      { phase := .model, stepId := some i.stepId, attempt := some i.attempt
        modelInput := some i.modelInput }
  | some next =>
      { phase := .emission, stepId := some i.stepId, attempt := some i.attempt
        modelInput := some i.modelInput, emission := some next }

/-- `#invokeProductionModelCall`, from the answer of the adapter on. -/
def completeProductionCall (i : ModelCallInput) (c : ProductionCall) (projection : RunProjection)
    (next : Option ModelEmission) : Runtime ModelCallOutcome := do
  let outputBytes := next.elim 0 fun n => K.encoding.byteSize (.json n.toJson)
  next.elim (.pure ()) fun n =>
    assertJsonByteLimit n.toJson (some c.identity.outputBytesMaximum) "model_output_per_call"
  let settlement : ModelSettlement ←
    consult (.modelSettlement (c.identity.withStatus .accepted) outputBytes)
  let projection ← append K i.workOrder projection i.lease
    (.ModelCallCompleted i.stepId c.identity.reservationId
      (K.encoding.digest (.json (next.elim .null (·.toJson)))) (next.elim "empty" (·.type)))
    none
    (putModelCallReservation (c.identity.withStatus
      (.settled settlement.chargedTokens settlement.chargedIoBytes settlement.settledAt)))
    (some (i.completed next))
  return {
    projection
    reservationId := c.identity.reservationId
    next
    completedEventCommitted := true }

/-- `#invokeProductionModelCall`. -/
def invokeProductionModelCall (i : ModelCallInput) : Runtime ModelCallOutcome := do
  let c ← prepareProductionCall K i
  let projection ← append K i.workOrder i.projection i.lease
    (.ModelCallStarted i.stepId c.identity.reservationId (K.encoding.digest c.request)) none
    (putModelCallReservation (c.identity.withStatus .accepted)) (some i.inflight)
  authorizeProductionCall c
  transitionModelReservation i.lease (c.identity.withStatus .dispatched)
  let next ← (driveAdapter i.lease c).tryCatch (adapterFailed i.lease c)
  completeProductionCall K i c projection next

/-- `#invokeModelCall`. -/
def invokeModelCall (i : ModelCallInput) : Runtime ModelCallOutcome := do
  let killedAdapter : Bool ←
    consult (.isKilled "model_adapter" i.definition.modelAdapterRegistrationDigest)
  let killedSecurity : Bool ←
    consult (.isKilled "model_profile" i.definition.modelSecurityProfileDigest)
  let killedResource : Bool ←
    consult (.isKilled "model_profile" i.definition.modelResourceProfileDigest)
  Prog.throwIf (killedAdapter ∨ killedSecurity ∨ killedResource)
    (kafReason .KAF_RUNTIME_NOT_READY "model_registration_killed")
  assertJsonByteLimit i.modelInput i.workOrder.budget.maxModelInputBytesPerCall
    "model_input_per_call"
  if K.productionModelServices then do
    Prog.throwIf (¬ K.productionModelBoundaryReady)
      (kafReason .KAF_RUNTIME_NOT_READY "durable_model_reservation_domain_unavailable")
    invokeProductionModelCall K i
  else invokeLocalModelCall K i

end Pactmark
