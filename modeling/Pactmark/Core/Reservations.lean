import Mathlib.Data.Rat.Defs
import Pactmark.Core.Capability

/-!
# Core — quotas, reservations and circuit breakers

The schemas of `core/src/admission.ts`, and those of a model call in `core/src/model.ts`.  The
refinement of a schema is a field of its record, so that a record the schema refuses cannot be
built; `parse` is the schema on the fields alone, whose texts are those it has trimmed.  Amounts,
tokens, bytes and milliseconds are integers.
-/

namespace Pactmark

/-- What a schema that refuses its input throws. -/
def schemaRefused : Thrown :=
  .host "ZodError" true

namespace Reservation

/-! ### Quotas and admission -/

/-- `AdmissionCategorySchema`. -/
inductive AdmissionCategory where
  | request_start
  | queued_run
  | active_run
  | model_call
  | tool_call
  | active_execution
  | cost_window
  | sse_connection
  deriving DecidableEq, Repr

/-- `QuotaMetricSchema`. -/
inductive QuotaMetric where
  | category (category : AdmissionCategory)
  | model_tokens
  | model_io_bytes
  | model_cost_minor
  deriving DecidableEq, Repr

/-- `scope` of a quota limit. -/
inductive QuotaScope where
  | tenant
  | principal
  deriving DecidableEq, Repr

/-- `QuotaLimitSchema`. -/
structure QuotaLimit where
  scope : QuotaScope
  metric : QuotaMetric
  resourceKey : String
  maximum : ℚ
  maximum_pos : 0 < maximum
  retryAfterSeconds : Nat

/-- `AdmissionRequestSchema`. -/
structure AdmissionRequest where
  tenantId : String
  principal : Principal
  commandId : Option String
  category : AdmissionCategory
  resourceKey : String
  amount : Nat
  amount_pos : 0 < amount
  leaseDurationMs : Nat
  leaseDuration_pos : 0 < leaseDurationMs
  deriving Repr

instance : DecidableEq AdmissionRequest := fun a b =>
  decidable_of_iff
    (a.tenantId = b.tenantId ∧ a.principal = b.principal ∧ a.commandId = b.commandId ∧
      a.category = b.category ∧ a.resourceKey = b.resourceKey ∧ a.amount = b.amount ∧
      a.leaseDurationMs = b.leaseDurationMs)
    (by cases a; cases b; simp)

/-- `state` of an admission reservation. -/
inductive AdmissionState where
  | reserved
  | released
  | expired
  deriving DecidableEq, Repr

/-- `AdmissionReservationSchema`. -/
structure Admission where
  id : String
  tenantId : String
  principal : Principal
  commandId : Option String
  category : AdmissionCategory
  resourceKey : String
  amount : Nat
  amount_pos : 0 < amount
  state : AdmissionState
  fencingToken : Nat
  reservedAtServerTime : Int
  leaseExpiresAt : Int
  releasedAt : Option IsoInstant
  deriving Repr

instance : DecidableEq Admission := fun a b =>
  decidable_of_iff
    (a.id = b.id ∧ a.tenantId = b.tenantId ∧ a.principal = b.principal ∧
      a.commandId = b.commandId ∧ a.category = b.category ∧ a.resourceKey = b.resourceKey ∧
      a.amount = b.amount ∧ a.state = b.state ∧ a.fencingToken = b.fencingToken ∧
      a.reservedAtServerTime = b.reservedAtServerTime ∧ a.leaseExpiresAt = b.leaseExpiresAt ∧
      a.releasedAt = b.releasedAt)
    (by cases a; cases b; simp)

/-! ### Active execution -/

/-- `boundary` of an active-execution reservation. -/
inductive ExecutionBoundary where
  | model
  | tool
  | verifier
  | scheduled_backoff
  | runtime_internal
  deriving DecidableEq, Repr

/-- `state` of an active-execution reservation. -/
inductive ExecutionState where
  | reserved
  | settled
  | closed_uncertain
  deriving DecidableEq, Repr

/-- The fields of `ActiveExecutionReservationSchema`. -/
structure ActiveExecutionFields where
  id : String
  tenantId : String
  runId : String
  stepId : String
  boundary : ExecutionBoundary
  boundaryKey : String
  leaseId : String
  fencingToken : Nat
  startedAtServerTime : Int
  maxChargeMs : Nat
  state : ExecutionState
  settledChargeMs : Option Nat
  refundedMs : Option Nat
  settledAtServerTime : Option Int
  expiresAt : Int
  deriving DecidableEq, Repr

/-- The refinement of `ActiveExecutionReservationSchema`. -/
def ActiveExecutionFields.consistent (value : ActiveExecutionFields) : Bool :=
  match value.state, value.settledChargeMs, value.refundedMs, value.settledAtServerTime with
  | .reserved, none, none, none => true
  | .settled, some settledChargeMs, some refundedMs, some _ =>
      settledChargeMs + refundedMs = value.maxChargeMs
  | .closed_uncertain, some settledChargeMs, some refundedMs, some _ =>
      settledChargeMs + refundedMs = value.maxChargeMs ∧ settledChargeMs = value.maxChargeMs ∧
        refundedMs = 0
  | _, _, _, _ => false

/-- `ActiveExecutionReservationSchema`. -/
structure ActiveExecution extends ActiveExecutionFields where
  maxCharge_pos : 0 < maxChargeMs
  consistent : toActiveExecutionFields.consistent = true
  deriving DecidableEq, Repr

/-- `ActiveExecutionReservationSchema.parse`. -/
def ActiveExecution.parse (value : ActiveExecutionFields) : Except Thrown ActiveExecution :=
  if h : 0 < value.maxChargeMs ∧ value.consistent = true then
    .ok { value with maxCharge_pos := h.1, consistent := h.2 }
  else .error schemaRefused

theorem ActiveExecution.parse_ok {value : ActiveExecutionFields} {parsed : ActiveExecution}
    (h : ActiveExecution.parse value = .ok parsed) : parsed.toActiveExecutionFields = value := by
  unfold parse at h
  split at h
  · obtain rfl := Except.ok.inj h
    rfl
  · cases h

/-- **A reservation that is not reserved** has its settlement, which shares the maximum out. -/
theorem ActiveExecution.settlement (r : ActiveExecution) (h : r.state ≠ .reserved) :
    ∃ settled refunded, r.settledChargeMs = some settled ∧ r.refundedMs = some refunded ∧
      settled + refunded = r.maxChargeMs ∧ (r.state = .closed_uncertain → refunded = 0) := by
  have hconsistent := r.consistent
  unfold ActiveExecutionFields.consistent at hconsistent
  split at hconsistent
  · exact absurd ‹_› h
  · rename_i hs hc hr ha
    exact ⟨_, _, hc, hr, of_decide_eq_true hconsistent, fun hu => by rw [hs] at hu; cases hu⟩
  · rename_i hs hc hr ha
    obtain ⟨hsum, -, hzero⟩ := of_decide_eq_true hconsistent
    exact ⟨_, _, hc, hr, hsum, fun _ => hzero⟩
  · cases hconsistent

/-! ### Model calls -/

/-- `ModelCallSettlementSchema`. -/
structure ModelCallSettlement where
  inputBytes : Nat
  inputTokenLowerBound : Nat
  outputBytes : Nat
  outputTokenLowerBound : Nat
  chargedTokens : Nat
  chargedIoBytes : Nat
  chargedCostMinor : Option Nat
  currency : Option String
  settledAt : IsoInstant
  cost_currency : chargedCostMinor.isNone = currency.isNone
  deriving DecidableEq, Repr

/-- `status` of a model-call reservation. -/
inductive CallStatus where
  | accepted
  | dispatched
  | settled
  | uncertain
  | expired
  deriving DecidableEq, Repr

/-- `ModelCallReservationSchema` without its status and its settlement: what
`identityWithoutState` keeps. -/
structure CallIdentity where
  reservationId : String
  tenantId : String
  runId : String
  stepId : String
  attempt : Nat
  workOrderBindingDigest : Digest
  agentDefinitionDigest : Digest
  modelSecurityProfileDigest : Digest
  modelResourceProfileDigest : Digest
  modelAdapterRegistrationDigest : Digest
  inputBytes : Nat
  inputTokenUpperBound : Nat
  outputTokenMaximum : Nat
  outputBytesMaximum : Option Nat
  maximumCallCostMinor : Option Nat
  currency : Option String
  expiresAt : IsoInstant
  createdAt : IsoInstant
  deriving DecidableEq, Repr

/-- `ModelCallReservationSchema`. -/
structure ModelCall extends CallIdentity where
  status : CallStatus
  settlement : Option ModelCallSettlement
  cost_currency : maximumCallCostMinor.isNone = currency.isNone
  settled_iff : status = .settled ↔ settlement.isSome
  deriving DecidableEq, Repr

/-! ### Circuit breakers -/

/-- `state` of a circuit breaker. -/
inductive CircuitState where
  | closed
  | «open»
  | half_open
  deriving DecidableEq, Repr

/-- `CircuitBreakerStateSchema`: the lease and the fence of a probe are there together, and exactly
while the breaker is half open. -/
structure CircuitBreaker where
  tenantId : String
  providerKey : String
  state : CircuitState
  failureCount : Nat
  openedAt : Option IsoInstant
  probeLeaseId : Option String
  probeFencingToken : Option Nat
  updatedAt : IsoInstant
  lease_fence : probeLeaseId.isSome = probeFencingToken.isSome
  half_open_iff : state = .half_open ↔ probeLeaseId.isSome
  deriving DecidableEq, Repr

/-- The fence of a breaker is there exactly while it is half open. -/
theorem CircuitBreaker.fence_iff (breaker : CircuitBreaker) :
    breaker.state = .half_open ↔ breaker.probeFencingToken.isSome := by
  rw [breaker.half_open_iff, breaker.lease_fence]

end Reservation

end Pactmark
