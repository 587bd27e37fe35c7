import Pactmark.Core.Delegation
import Pactmark.Core.Reservations

/-!
# Worker — delegated authority

`createWorkerDelegatingAuthorityIssuer` of `driver-postgres-worker/src/index.ts`, over
`createAuthorityIssuer` of `core/src/authority.ts`.  An authority is an object that nothing but its
issuer can build; it is the place of what was issued for it.  Instants are milliseconds, and a clock
that cannot be read answers none.
-/

namespace Pactmark

open Durable

namespace Worker

/-- `AuthorityClaimsSchema`, of what the worker issues. -/
structure AuthorityClaims where
  issuerId : String
  actor : Principal
  subject : Principal
  tenantId : String
  authenticatedAt : Int
  authenticationStrength : AuthenticationStrength
  decisionRoles : List String
  requestCorrelationId : String
  issuedAt : Int
  expiresAt : Int
  runScope : String × String
  deriving DecidableEq, Repr

/-- `reason` of an authority that `verify` refuses. -/
inductive AuthorityRefusal where
  | not_issued
  | other_issuer
  | expired
  | not_yet_valid
  deriving DecidableEq, Repr

/-- `reason` of an authority that `verifyDelegated` refuses. -/
inductive DelegatedRefusal where
  | not_issued
  | other_issuer
  | expired
  | lease_mismatch
  | fencing_mismatch
  | scheduler_receipt_mismatch
  deriving DecidableEq, Repr

/-- The lease that was observed last for a run. -/
structure ObservedLease where
  leaseId : String
  fencingToken : Nat
  deriving DecidableEq, Repr

/-- `WorkerDelegatingAuthorityIssuer`. -/
structure WorkerDelegatingAuthorityIssuer where
  issuerId : String
  issued : List (AuthorityClaims × RunDelegationDescriptor)
  leases : OrderedMap StreamKey ObservedLease
  invalidReceipts : List String

namespace WorkerDelegatingAuthorityIssuer

/-- `createWorkerDelegatingAuthorityIssuer(issuerId)`. -/
def create (issuerId : String) : WorkerDelegatingAuthorityIssuer :=
  ⟨issuerId, [], .empty, []⟩

/-- `observeLease`. -/
def observeLease (s : WorkerDelegatingAuthorityIssuer) (lease : FencedLease) :
    Except Thrown WorkerDelegatingAuthorityIssuer :=
  if ¬ lease.parses then .error schemaRefused
  else if (s.leases.get lease.key).any fun current =>
      decide (lease.fencingToken < current.fencingToken) then
    .error (kafError .KAF_STORAGE_CONCURRENCY_CONFLICT)
  else .ok { s with leases := s.leases.set lease.key ⟨lease.leaseId, lease.fencingToken⟩ }

/-- `invalidateSchedulerReceipt`. -/
def invalidateSchedulerReceipt (s : WorkerDelegatingAuthorityIssuer) (receiptId : String) :
    Except Thrown WorkerDelegatingAuthorityIssuer :=
  match boundedText 256 receiptId with
  | none => .error schemaRefused
  | some receiptId => .ok { s with invalidReceipts := receiptId :: s.invalidReceipts }

/-- What `base.issue` keeps for a descriptor. -/
def claims (s : WorkerDelegatingAuthorityIssuer) (descriptor : RunDelegationDescriptor) :
    AuthorityClaims where
  issuerId := s.issuerId
  actor := ⟨.system_worker, descriptor.actorId⟩
  subject := descriptor.initiatingPrincipal
  tenantId := descriptor.tenantId
  authenticatedAt := descriptor.issuedAt
  authenticationStrength := .single_factor
  decisionRoles := []
  requestCorrelationId := descriptor.schedulerReceiptId
  issuedAt := descriptor.issuedAt
  expiresAt := descriptor.expiresAt
  runScope := (descriptor.runId, descriptor.workOrderId)

/-- `issueDelegated`: the authority, and the issuer that knows it. -/
def issueDelegated (s : WorkerDelegatingAuthorityIssuer) (descriptor : RunDelegationDescriptor) :
    Except Thrown (Nat × WorkerDelegatingAuthorityIssuer) :=
  if s.leases.get (descriptor.tenantId, descriptor.runId) ≠
      some ⟨descriptor.leaseId, descriptor.fencingToken⟩ then
    .error (kafError .KAF_STORAGE_CONCURRENCY_CONFLICT)
  else if descriptor.schedulerReceiptId ∈ s.invalidReceipts then
    .error (kafError .KAF_AUTHORIZATION_BINDING_MISMATCH)
  else
    .ok (s.issued.length, { s with issued := s.issued ++ [(s.claims descriptor, descriptor)] })

/-- `base.verify`, of what an authority was issued for; an instant that is no number is neither
before nor after another. -/
def baseVerify (claims : AuthorityClaims) (at_ : Option Int) : Except AuthorityRefusal Unit :=
  match at_ with
  | none => .ok ()
  | some instant =>
      if instant < claims.issuedAt then .error .not_yet_valid
      else if claims.expiresAt ≤ instant then .error .expired
      else .ok ()

/-- `verifyDelegated`. -/
def verifyDelegated (s : WorkerDelegatingAuthorityIssuer) (authority : Nat) (at_ : Option Int) :
    Except DelegatedRefusal RunDelegationDescriptor :=
  match s.issued[authority]? with
  | none => .error .not_issued
  | some (claims, descriptor) =>
      match baseVerify claims at_ with
      | .error .expired => .error .expired
      | .error _ => .error .other_issuer
      | .ok () =>
          if descriptor.schedulerReceiptId ∈ s.invalidReceipts then
            .error .scheduler_receipt_mismatch
          else
            match s.leases.get (descriptor.tenantId, descriptor.runId) with
            | none => .error .lease_mismatch
            | some active =>
                if active.leaseId ≠ descriptor.leaseId then .error .lease_mismatch
                else if active.fencingToken ≠ descriptor.fencingToken then .error .fencing_mismatch
                else .ok descriptor

/-! ### What the methods do -/

variable {s s' : WorkerDelegatingAuthorityIssuer}

theorem observeLease_ok {lease : FencedLease} (h : s.observeLease lease = .ok s') :
    s' = { s with leases := s.leases.set lease.key ⟨lease.leaseId, lease.fencingToken⟩ } := by
  unfold observeLease at h
  split at h
  · cases h
  split at h
  · cases h
  · exact (Except.ok.inj h).symm

/-- A lease that parses is observed, unless one with a greater token was. -/
theorem observeLease_eq_ok {lease : FencedLease} (hparses : lease.parses = true)
    (htoken : ∀ current, s.leases.get lease.key = some current →
      current.fencingToken ≤ lease.fencingToken) :
    s.observeLease lease =
      .ok { s with leases := s.leases.set lease.key ⟨lease.leaseId, lease.fencingToken⟩ } := by
  have hnone : ((s.leases.get lease.key).any fun current =>
      decide (lease.fencingToken < current.fencingToken)) = false := by
    cases hget : s.leases.get lease.key with
    | none => rfl
    | some current =>
      rw [Option.any_some, decide_eq_false_iff_not, not_lt]
      exact htoken current hget
  simp [observeLease, hparses, hnone]

theorem invalidateSchedulerReceipt_ok {receiptId : String}
    (h : s.invalidateSchedulerReceipt receiptId = .ok s') :
    ∃ parsed, boundedText 256 receiptId = some parsed ∧
      s' = { s with invalidReceipts := parsed :: s.invalidReceipts } := by
  unfold invalidateSchedulerReceipt at h
  split at h
  · cases h
  · rename_i parsed hparsed
    exact ⟨parsed, hparsed, (Except.ok.inj h).symm⟩

theorem issueDelegated_ok {descriptor : RunDelegationDescriptor} {authority : Nat}
    (h : s.issueDelegated descriptor = .ok (authority, s')) :
    s.leases.get (descriptor.tenantId, descriptor.runId) =
        some ⟨descriptor.leaseId, descriptor.fencingToken⟩ ∧
      descriptor.schedulerReceiptId ∉ s.invalidReceipts ∧ authority = s.issued.length ∧
      s' = { s with issued := s.issued ++ [(s.claims descriptor, descriptor)] } := by
  unfold issueDelegated at h
  split at h
  · cases h
  rename_i hlease
  split at h
  · cases h
  rename_i hreceipt
  obtain ⟨rfl, rfl⟩ := Prod.mk.inj (Except.ok.inj h)
  exact ⟨not_not.mp hlease, hreceipt, rfl, rfl⟩

theorem baseVerify_eq_ok (claims : AuthorityClaims) (at_ : Option Int) :
    baseVerify claims at_ = .ok () ↔
      ∀ instant ∈ at_, claims.issuedAt ≤ instant ∧ instant < claims.expiresAt := by
  cases at_ with
  | none => simp [baseVerify]
  | some instant =>
    simp only [baseVerify, Option.mem_some_iff, forall_eq']
    split
    · simp only [reduceCtorEq, false_iff, not_and]
      omega
    split
    · simp only [reduceCtorEq, false_iff, not_and]
      omega
    · simp only [true_iff]
      omega

/-- **What was just issued verifies** from the start of its descriptor to its end. -/
theorem verifyDelegated_issued {descriptor : RunDelegationDescriptor} {authority : Nat}
    (h : s.issueDelegated descriptor = .ok (authority, s')) (at_ : Option Int) :
    (s'.verifyDelegated authority at_).isOk = true ↔
      ∀ instant ∈ at_, descriptor.issuedAt ≤ instant ∧ instant < descriptor.expiresAt := by
  obtain ⟨hlease, hreceipt, rfl, rfl⟩ := issueDelegated_ok h
  have hissued : (s.issued ++ [(s.claims descriptor, descriptor)])[s.issued.length]? =
      some (s.claims descriptor, descriptor) := by simp
  simp only [verifyDelegated, hissued, hreceipt, hlease, ne_eq, not_true_eq_false, ↓reduceIte]
  refine Iff.trans ?_ (baseVerify_eq_ok (s.claims descriptor) at_)
  split
  · rename_i hexpired
    simp [hexpired, Except.isOk, Except.toBool]
  · rename_i e _ herror
    simp [herror, Except.isOk, Except.toBool]
  · rename_i hok
    simp [hok, Except.isOk, Except.toBool]

end WorkerDelegatingAuthorityIssuer

end Worker

end Pactmark
