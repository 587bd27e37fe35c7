import Pactmark.Core.Capability
import Pactmark.Stores.Leases

/-!
# Core — wakeups and delegated runs

`DurableWakeupRequestSchema` of `core/src/transactions.ts`, `RunDelegationDescriptorSchema` of
`core/src/delegation.ts` and `WorkerWakeupClaimSchema` of `driver-postgres-worker`: records as
their schemas have parsed them.
-/

namespace Pactmark

/-- `reason` of a wakeup. -/
inductive WakeupReason where
  | run_accepted
  | resume
  | input_submitted
  | decision_recorded
  | transition
  deriving DecidableEq, Repr

/-- `DurableWakeupRequestSchema`; `payload` is its canonical JSON. -/
structure DurableWakeupRequest where
  tenantId : String
  runId : String
  reason : WakeupReason
  notBefore : IsoInstant
  deduplicationKey : String
  payload : String
  deriving DecidableEq, Repr

/-- `WorkerWakeupClaimSchema`. -/
structure WorkerWakeupClaim where
  receiptId : String
  requestDigest : Digest
  request : DurableWakeupRequest
  initiatingPrincipal : Principal
  workOrderId : String
  workOrderBindingDigest : Digest
  executionDefinition : ExecutionDefinition
  executionDefinitionDigest : Digest
  purpose : Purpose
  maximumScopes : List ResourceScope
  lease : FencedLease
  claimedAt : Int
  deriving DecidableEq, Repr

/-- `RunDelegationDescriptorSchema`; `actorId` is the id of the system worker. -/
structure RunDelegationDescriptor where
  actorId : String
  initiatingPrincipal : Principal
  tenantId : String
  runId : String
  workOrderId : String
  workOrderBindingDigest : Digest
  executionDefinition : ExecutionDefinition
  executionDefinitionDigest : Digest
  purpose : Purpose
  maximumScopes : List ResourceScope
  schedulerReceiptId : String
  schedulerReceiptDigest : Digest
  leaseId : String
  fencingToken : Nat
  issuedAt : Int
  expiresAt : Int
  deriving DecidableEq, Repr

end Pactmark
