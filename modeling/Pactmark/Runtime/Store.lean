import Pactmark.Core.Records
import Pactmark.Durable.Program

/-!
# Runtime — the store of one run

What the memory stores of `store-memory` keep for one run, and the operations of a
`RunCommandTransaction` on it.  Every operation is a `Transaction`: it either replaces the
store or throws, and it never takes events away.

`RunTruth` is the part of the store that changes only together with the event stream: the
events and their projection, the effect ledger with its authorizations and results, the
context snapshots, the submitted input, the decision gates and the approvals.  The rest (the
claims on grants and approvals, the challenges, the reservations, the commands) also changes
in transactions of its own.

What a store shares with other runs of the tenant (identifiers, operation keys, quotas) can
only make an operation fail here.  Such a failure is a fault of the storage, as a lost
connection is.
-/

namespace Pactmark

open Durable

/-- A map keyed by strings. -/
abbrev Table (V : Type) := String → Option V

/-- `map.set(key, value)`. -/
def Table.set {V : Type} (m : Table V) (key : String) (value : V) : Table V :=
  fun k => if k = key then some value else m k

@[simp] theorem Table.set_self {V : Type} (m : Table V) (key : String) (value : V) :
    m.set key value key = some value := by
  simp [Table.set]

theorem Table.set_of_ne {V : Type} (m : Table V) {key k : String} (value : V) (h : k ≠ key) :
    m.set key value k = m k := by
  simp [Table.set, h]

theorem Table.set_eq_self {V : Type} {m : Table V} {key : String} {value : V}
    (h : m key = some value) : m.set key value = m := by
  funext k
  by_cases hk : k = key
  · simp [hk, h]
  · simp [Table.set, hk]

/-- The event stream and everything that changes only with it. -/
structure RunTruth where
  events : List RunEvent
  projection : RunProjection
  effects : Table EffectRecord
  effectKeys : Table String
  operationKeys : Table String
  authorizations : Table AuthorizationReservation
  authorizationKeys : Table String
  results : Table ProtectedEffectResult
  resultDigests : Table String
  snapshots : List ContextSnapshot
  submissions : Table InputSubmissionRecord
  gates : Table DecisionGate
  approvals : Table Approval

/-- The store of one run. -/
structure Store where
  workOrder : WorkOrder
  truth : RunTruth
  grants : Table CapabilityGrant
  grantClaims : List (String × String)
  approvalClaims : Table ApprovalUseClaim
  approvalAuthorizationKeys : Table String
  challenges : Table DecisionChallenge
  activeChallenges : Table String
  rejections : Table String
  activeExecutions : List ActiveExecutionReservation
  modelCalls : List ModelCallReservation
  commands : Table Digest

/-- One store is behind another of the same work order when its stream is a prefix of the
other's. -/
instance : Preorder Store where
  le s s' := s'.workOrder = s.workOrder ∧ s.truth.events <+: s'.truth.events
  le_refl s := ⟨rfl, List.prefix_refl s.truth.events⟩
  le_trans _ _ _ h h' := ⟨h'.1.trans h.1, List.IsPrefix.trans h.2 h'.2⟩

theorem Store.le_def {s s' : Store} :
    s ≤ s' ↔ s'.workOrder = s.workOrder ∧ s.truth.events <+: s'.truth.events := Iff.rfl

/-- A transaction on the store of a run. -/
abbrev Tx := Transaction Store Thrown

namespace Tx

/-- A change that leaves the stream alone. -/
def write (f : Store → Store)
    (h : ∀ s, (f s).workOrder = s.workOrder ∧ (f s).truth.events = s.truth.events := by
      intro s; exact ⟨rfl, rfl⟩) : Tx where
  run s := .ok (f s)
  grows {s s'} hs := by
    cases hs
    exact Store.le_def.mpr ⟨(h s).1, (h s).2.symm ▸ List.prefix_refl _⟩

/-- The run truth, with `f` applied to it. -/
def writeTruth (f : RunTruth → RunTruth) (h : ∀ c, (f c).events = c.events := by intro c; rfl) :
    Tx :=
  write (fun s => { s with truth := f s.truth }) fun s => ⟨rfl, h s.truth⟩

@[simp] theorem write_run (f : Store → Store) (h) (s : Store) : (write f h).run s = .ok (f s) :=
  rfl
@[simp] theorem writeTruth_run (f : RunTruth → RunTruth) (h) (s : Store) :
    (writeTruth f h).run s = .ok { s with truth := f s.truth } := rfl

end Tx

/-! ### Events -/

/-- `#streams.push(event)` and `#projections.set(next)`. -/
def RunTruth.push (c : RunTruth) (event : RunEvent) (next : RunProjection) : RunTruth :=
  { c with events := c.events ++ [event], projection := next }

/-- The write at the end of `appendSynchronous`. -/
def pushEvent (event : RunEvent) (next : RunProjection) : Tx where
  run s := .ok { s with truth := s.truth.push event next }
  grows {s s'} h := by
    cases h
    exact Store.le_def.mpr ⟨rfl, List.prefix_append _ _⟩

/-- `MemoryEventStore.append(event, event.sequence - 1)`. -/
def appendRunEvent (event : RunEvent) : Tx :=
  .choose fun s =>
    match s.truth.events.find? (·.eventId = event.eventId) with
    | some duplicate =>
        if duplicate = event then .skip else .fail (conflict "event_id_reused")
    | none =>
        if s.truth.events.length + 1 ≠ event.sequence then .fail (conflict "event_sequence")
        else
          match reduceRunEvent s.truth.projection event with
          | .error e => .fail e
          | .ok next => pushEvent event next

/-- `putRunProjection`. -/
def putRunProjection (projection : RunProjection) : Tx :=
  .choose fun s => .throwIf (s.truth.projection ≠ projection) (conflict "projection_drift")

/-! ### The effect ledger -/

/-- `MemoryEffectLedger.putAuthorizationReservation`. -/
def putAuthorizationReservation (reservation : AuthorizationReservation) : Tx :=
  .choose fun s =>
    let idKey := reservation.authorizationReservationId
    match s.truth.authorizations idKey with
    | some existing =>
        if existing = reservation then .skip
        else .fail (conflict "authorization_reservation_changed")
    | none =>
        if (s.truth.authorizationKeys reservation.authorizationKey).any (· ≠ idKey) then
          .fail (conflict "authorization_key_reused")
        else
          Tx.writeTruth fun c =>
            { c with
              authorizations := c.authorizations.set idKey reservation
              authorizationKeys := c.authorizationKeys.set reservation.authorizationKey idKey }

/-- `hasValidLifecycleState` of `assertEffectAuthorizationBinding`. -/
def AuthorizationReservation.hasValidLifecycleState (r : AuthorizationReservation) : Bool :=
  (r.state = .reserved ∧ r.consumedAt = none) ∨ (r.state = .consumed ∧ r.consumedAt ≠ none)

/-- The write at the end of `putEffectRecord`. -/
def RunTruth.putEffect (c : RunTruth) (record : EffectRecord) : RunTruth :=
  { c with
    effects := c.effects.set record.effectId record
    effectKeys := c.effectKeys.set record.effectKey record.effectId
    operationKeys := match record.operationKey with
      | some operationKey => c.operationKeys.set operationKey record.effectId
      | none => c.operationKeys }

/-- `MemoryEffectLedger.putEffectRecord`. -/
def putEffectRecord (E : Encoding) (record : EffectRecord) : Tx :=
  .choose fun s =>
    if record.effectDigest ≠ E.digest (.effectIdentity record.toEffectIdentity) then
      .fail (kafReason .KAF_AUTHORIZATION_BINDING_MISMATCH "effect_digest_mismatch")
    else
      match s.truth.authorizations record.authorizationReservationId with
      | none => .fail (conflict "effect_authorization_reservation_missing")
      | some reservation =>
          if reservation.authorizationReservationId ≠ record.authorizationReservationId ∨
              ¬ reservation.hasValidLifecycleState ∨
              record.authorizationBinding ≠ reservation.binding then
            .fail (kafReason .KAF_AUTHORIZATION_BINDING_MISMATCH
              "effect_authorization_binding_mismatch")
          else if (s.truth.effectKeys record.effectKey).any (· ≠ record.effectId) then
            .fail (conflict "effect_key_reused")
          else if (record.operationKey.bind s.truth.operationKeys).any (· ≠ record.effectId) then
            .fail (conflict "effect_operation_key_reused")
          else
            match s.truth.effects record.effectId with
            | some existing =>
                if existing = record then .skip
                else if existing.effectDigest ≠ record.effectDigest ∨
                    ¬ isEffectTransitionAllowed existing.state.name record.state.name
                      record.strategy ∨
                    record.updatedAt < existing.updatedAt then
                  .fail (conflict "effect_record_changed")
                else Tx.writeTruth (·.putEffect record)
            | none => Tx.writeTruth (·.putEffect record)

/-- The binding `assertEffectResultRecordBinding` expects of an acknowledged record. -/
def EffectRecord.resultBinding (effect : EffectRecord) (resultDigest : Digest)
    (acknowledgement : EffectAcknowledgement) : EffectResultBinding where
  tenantId := effect.tenantId
  runId := effect.runId
  effectId := effect.effectId
  effectDigest := effect.effectDigest
  resultDigest
  workOrderBindingDigest := effect.workOrderBindingDigest
  executionDefinition := effect.executionDefinition
  executionDefinitionDigest := effect.executionDefinitionDigest
  toolId := effect.toolId
  toolVersion := effect.toolVersion
  toolRegistrationDigest := effect.toolRegistrationDigest
  strategy := effect.strategy
  strategyRegistrationDigest := effect.strategyRegistrationDigest
  resultSchemaDigest := acknowledgement.resultSchemaDigest
  createdAt := effect.updatedAt

/-- `assertEffectResultRecordBinding`. -/
def assertEffectResultRecordBinding (record : ProtectedEffectResult) (effect : EffectRecord) :
    Except Thrown Unit :=
  match effect.state with
  | .acknowledged resultDigest acknowledgement =>
      if record.binding = effect.resultBinding resultDigest acknowledgement then .ok ()
      else .error (conflict "acknowledged_effect_result_binding_changed")
  | _ => .error (conflict "effect_result_requires_acknowledged_effect")

/-- `putProtectedEffectResult`. -/
def putProtectedEffectResult (record : ProtectedEffectResult) : Tx :=
  .choose fun s =>
    match s.truth.effects record.binding.effectId with
    | none => .fail (conflict "acknowledged_effect_missing")
    | some effect =>
        match assertEffectResultRecordBinding record effect with
        | .error e => .fail e
        | .ok () =>
            if s.truth.projection.workOrderId ≠ record.workOrderId ∨
                s.truth.projection.workOrderBindingDigest ≠
                  record.binding.workOrderBindingDigest ∨
                s.truth.projection.executionDefinitionDigest ≠
                  record.binding.executionDefinitionDigest ∨
                s.workOrder.workOrderBindingDigest ≠ record.binding.workOrderBindingDigest ∨
                s.workOrder.executionDefinitionDigest ≠
                  record.binding.executionDefinitionDigest ∨
                s.workOrder.purposeCode ≠ record.purposeCode ∨
                s.workOrder.purposeRegistryVersion ≠ record.purposeRegistryVersion ∨
                s.workOrder.dataClass ≠ record.dataClass then
              .fail (conflict "acknowledged_effect_result_work_order_binding_changed")
            else
              match s.truth.results record.binding.effectId with
              | some existing =>
                  if existing.binding = record.binding then .skip
                  else .fail (conflict "acknowledged_effect_result_changed")
              | none =>
                  if (s.truth.resultDigests record.binding.effectDigest).any
                      (· ≠ record.binding.effectId) then
                    .fail (conflict "acknowledged_effect_result_digest_reused")
                  else
                    Tx.writeTruth fun c =>
                      { c with
                        results := c.results.set record.binding.effectId record
                        resultDigests :=
                          c.resultDigests.set record.binding.effectDigest
                            record.binding.effectId }

/-! ### Context snapshots and submitted input -/

/-- `sameJson` of two snapshots: of everything but the plaintext, which is not stored. -/
def ContextSnapshot.sameJson (a b : ContextSnapshot) : Bool :=
  a.tenantId = b.tenantId ∧ a.runId = b.runId ∧ a.sequence = b.sequence ∧ a.stepId = b.stepId ∧
    a.executionDefinition = b.executionDefinition ∧
    a.executionDefinitionDigest = b.executionDefinitionDigest ∧
    a.workOrderBindingDigest = b.workOrderBindingDigest ∧ a.contextDigest = b.contextDigest ∧
    a.byteSize = b.byteSize ∧ a.expiresAt = b.expiresAt ∧ a.aadDigest = b.aadDigest

/-- `MemoryContextStore.put`. -/
def putContextSnapshot (snapshot : ContextSnapshot) : Tx :=
  .choose fun s =>
    match s.truth.snapshots.find? (·.snapshotId = snapshot.snapshotId) with
    | some existing =>
        if existing.sameJson snapshot then .skip else .fail (conflict "context_snapshot_changed")
    | none => Tx.writeTruth fun c => { c with snapshots := c.snapshots ++ [snapshot] }

/-- `hasExpired(expiresAt, now)`. -/
def hasExpired (expiresAt : Option Instant) (now : Instant) : Bool :=
  expiresAt.any (· ≤ now)

/-- The comparison in the loop of `getLatest`. -/
def ContextSnapshot.later (latest : Option ContextSnapshot) (snapshot : ContextSnapshot) :
    Option ContextSnapshot :=
  match latest with
  | none => some snapshot
  | some l =>
      if snapshot.sequence > l.sequence ∨
          (snapshot.sequence = l.sequence ∧ snapshot.snapshotId > l.snapshotId) then some snapshot
      else some l

/-- `MemoryContextStore.getLatest`. -/
def RunTruth.getLatestSnapshot (c : RunTruth) (now : Instant) : Option ContextSnapshot :=
  (c.snapshots.filter (!hasExpired ·.expiresAt now)).foldl ContextSnapshot.later none

/-- `MemoryInputSubmissionStore.get`. -/
def RunTruth.getSubmission (c : RunTruth) (requestId : String) (now : Instant) :
    Option InputSubmissionRecord :=
  (c.submissions requestId).filter (!hasExpired ·.expiresAt now)

/-- `MemoryInputSubmissionStore.putOnce`, of a request `get` has found nothing for: a record
past its retention is gone by then. -/
def putInputSubmission (record : InputSubmissionRecord) (now : Instant) : Tx :=
  .choose fun s =>
    match s.truth.getSubmission record.requestId now with
    | some _ => .fail (conflict "input_submission_changed")
    | none =>
        Tx.writeTruth fun c =>
          { c with submissions := c.submissions.set record.requestId record }

/-! ### Grants and approvals -/

/-- `MemoryCapabilityGrantStore.reserveUse`. -/
def reserveCapabilityGrantUse (grantId authorizationKey : String) (now : Instant) : Tx :=
  .choose fun s =>
    if (grantId, authorizationKey) ∈ s.grantClaims then .skip
    else
      match s.grants grantId with
      | none =>
          .fail (kafReason .KAF_AUTHORIZATION_BINDING_MISMATCH "capability_grant_unavailable")
      | some grant =>
          if grant.revokedAt ≠ none ∨ grant.expiresAt ≤ now then
            .fail (kafReason .KAF_AUTHORIZATION_BINDING_MISMATCH "capability_grant_unavailable")
          else if (s.grantClaims.filter (·.1 = grantId)).length + 1 > grant.maximumUses then
            .fail (kafReason .KAF_AUTHORIZATION_BINDING_MISMATCH "capability_grant_exhausted")
          else
            Tx.write fun s => { s with grantClaims := s.grantClaims ++ [(grantId, authorizationKey)] }

/-- `MemoryDecisionStore.putGateOnce`. -/
def putDecisionGate (gate : DecisionGate) : Tx :=
  .choose fun s =>
    if gate.tenantId ≠ gate.binding.tenantId ∨ gate.runId ≠ gate.binding.runId ∨
        gate.decisionId ≠ gate.binding.decisionId then
      .fail (conflict "decision_gate_binding_changed")
    else
      match s.truth.gates gate.decisionId with
      | some existing =>
          if existing = gate then .skip else .fail (conflict "decision_gate_changed")
      | none => Tx.writeTruth fun c => { c with gates := c.gates.set gate.decisionId gate }

/-- `MemoryDecisionStore.putChallenge`. -/
def putDecisionChallenge (challenge : DecisionChallenge) : Tx :=
  .choose fun s =>
    if (s.challenges challenge.id).any (· ≠ challenge) then
      .fail (conflict "decision_challenge_changed")
    else
      Tx.write fun s =>
        { s with
          challenges := s.challenges.set challenge.id challenge
          activeChallenges := s.activeChallenges.set challenge.binding.decisionId challenge.id }

/-- `MemoryDecisionStore.getActiveChallenge`. -/
def Store.getActiveChallenge (s : Store) (decisionId : String) : Option DecisionChallenge :=
  (s.activeChallenges decisionId).bind s.challenges

/-- `MemoryDecisionStore.consumeChallenge`. -/
def consumeDecisionChallenge (challengeId commandId : String) (consumedAt : Instant) : Tx :=
  .choose fun s =>
    match s.challenges challengeId with
    | none => .fail (kafError .KAF_STORAGE_NOT_FOUND)
    | some challenge =>
        if s.activeChallenges challenge.binding.decisionId ≠ some challengeId then
          .fail (kafReason .KAF_AUTHORIZATION_BINDING_MISMATCH "decision_challenge_replaced")
        else if challenge.consumingCommandId = some commandId then .skip
        else if challenge.consumingCommandId ≠ none then
          .fail (kafReason .KAF_AUTHORIZATION_BINDING_MISMATCH "decision_challenge_used")
        else if challenge.expiresAt ≤ consumedAt then
          .fail (kafReason .KAF_AUTHORIZATION_BINDING_MISMATCH "decision_challenge_expired")
        else
          Tx.write fun s =>
            { s with
              challenges :=
                s.challenges.set challengeId
                  { challenge with consumingCommandId := some commandId } }

/-- `MemoryDecisionStore.putApproval`. -/
def putApproval (approval : Approval) : Tx :=
  .choose fun s =>
    match s.challenges approval.challengeId with
    | none =>
        .fail (kafReason .KAF_AUTHORIZATION_BINDING_MISMATCH
          "approval_challenge_binding_mismatch")
    | some challenge =>
        if challenge.consumingCommandId = none ∨
            approval.challengeProofDigest ≠ challenge.proofDigest ∨
            approval.binding ≠ challenge.binding then
          .fail (kafReason .KAF_AUTHORIZATION_BINDING_MISMATCH
            "approval_challenge_binding_mismatch")
        else if (s.truth.approvals approval.id).any (· ≠ approval) then
          .fail (kafError .KAF_STORAGE_CONCURRENCY_CONFLICT)
        else
          Tx.writeTruth fun c => { c with approvals := c.approvals.set approval.id approval }

/-- `MemoryDecisionStore.claimApproval`. -/
def claimApproval (approvalId authorizationKey : String) (now : Instant) : Tx :=
  .choose fun s =>
    match s.approvalClaims approvalId with
    | some prior =>
        .throwIf (prior.authorizationKey ≠ authorizationKey)
          (kafReason .KAF_AUTHORIZATION_BINDING_MISMATCH "approval_already_used")
    | none =>
        match s.truth.approvals approvalId with
        | none => .fail (kafReason .KAF_AUTHORIZATION_BINDING_MISMATCH "approval_missing")
        | some approval =>
            if approval.expiresAt ≤ now then
              .fail (kafReason .KAF_AUTHORIZATION_BINDING_MISMATCH "approval_expired")
            else if (s.approvalAuthorizationKeys authorizationKey).any (· ≠ approvalId) then
              .fail (kafReason .KAF_AUTHORIZATION_BINDING_MISMATCH
                "approval_authorization_key_reused")
            else
              Tx.write fun s =>
                { s with
                  approvalClaims :=
                    s.approvalClaims.set approvalId
                      { approvalId, authorizationKey, claimedAt := now }
                  approvalAuthorizationKeys :=
                    s.approvalAuthorizationKeys.set authorizationKey approvalId }

/-- `MemoryDecisionStore.putRejection`, of which the reason is kept. -/
def putDecisionRejection (decisionId reasonCode : String) : Tx :=
  .choose fun s =>
    if (s.rejections decisionId).any (· ≠ reasonCode) then
      .fail (kafError .KAF_STORAGE_CONCURRENCY_CONFLICT)
    else Tx.write fun s => { s with rejections := s.rejections.set decisionId reasonCode }

/-! ### Reservations -/

/-- What a reservation counts against `maxActiveExecutionMs`. -/
def ActiveExecutionReservation.consumed (r : ActiveExecutionReservation) : Nat :=
  match r.state with
  | .settled settledChargeMs _ _ => settledChargeMs
  | _ => r.maxChargeMs

/-- `consumedMilliseconds`. -/
def Store.consumedMilliseconds (s : Store) : Nat :=
  (s.activeExecutions.map (·.consumed)).sum

/-- The state of an active-execution reservation, without its data. -/
inductive ActiveExecutionStateName where
  | reserved
  | settled
  | closed_uncertain
  deriving DecidableEq, Repr

/-- `reservation.state`. -/
def ActiveExecutionState.name : ActiveExecutionState → ActiveExecutionStateName
  | .reserved => .reserved
  | .settled .. => .settled
  | .closed_uncertain .. => .closed_uncertain

/-- `reader.get` of the active-execution services. -/
def Store.activeExecution (s : Store) (key : ActiveExecutionKey) :
    Option ActiveExecutionReservation :=
  s.activeExecutions.find? (·.key = key)

/-- `MemoryActiveExecutionReservationStore.putInTransaction`; `now` is the store's own clock. -/
def putActiveExecutionReservation (requested : ActiveExecutionReservation)
    (runMaximumActiveExecutionMs : Nat) (now : Instant) : Tx :=
  .choose fun s =>
    if s.truth.projection.workOrderBindingDigest ≠ s.workOrder.workOrderBindingDigest ∨
        s.workOrder.budget.maxActiveExecutionMs ≠ runMaximumActiveExecutionMs then
      .fail (conflict "active_execution_work_order_budget_binding_changed")
    else
      match s.activeExecution requested.key with
      | none =>
          if requested.state.name ≠ .reserved then
            .fail (conflict "active_execution_must_start_reserved")
          else if s.consumedMilliseconds + requested.maxChargeMs > runMaximumActiveExecutionMs then
            .fail (kafReason .KAF_RUNTIME_CAPABILITY_MISSING "active_execution_budget_exhausted")
          else
            Tx.write fun s =>
              { s with
                activeExecutions := s.activeExecutions ++
                  [{ requested with
                      startedAtServerTime := now
                      expiresAt := now + requested.maxChargeMs }] }
      | some prior =>
          if prior = requested then .skip
          else if prior.id ≠ requested.id ∨ prior.leaseId ≠ requested.leaseId ∨
              prior.fencingToken ≠ requested.fencingToken ∨
              prior.tenantId ≠ requested.tenantId ∨ prior.runId ≠ requested.runId ∨
              prior.maxChargeMs ≠ requested.maxChargeMs then
            .fail (conflict "active_execution_binding_changed")
          else if prior.state.name ≠ .reserved then
            .throwIf (requested.state.name ≠ prior.state.name)
              (conflict "active_execution_transition_changed")
          else
            match requested.state.name with
            | .reserved => .skip
            | .closed_uncertain =>
                Tx.write fun s =>
                  { s with
                    activeExecutions := s.activeExecutions.map fun r =>
                      if r.key = requested.key then
                        { r with state := .closed_uncertain prior.maxChargeMs 0 now } else r }
            | .settled =>
                let settledChargeMs := min prior.maxChargeMs (now - prior.startedAtServerTime)
                Tx.write fun s =>
                  { s with
                    activeExecutions := s.activeExecutions.map fun r =>
                      if r.key = requested.key then
                        { r with
                          state :=
                            .settled settledChargeMs (prior.maxChargeMs - settledChargeMs) now }
                      else r }

/-- `reservationReader.get`. -/
def Store.modelCall (s : Store) (stepId : String) (attempt : Nat) : Option ModelCallReservation :=
  s.modelCalls.find? fun r => r.stepId = stepId ∧ r.attempt = attempt

/-- `allowed` of `MemoryModelCallReservationStore.putInTransaction`. -/
def ModelCallStatus.allowed : ModelCallStatus → ModelCallStatus → Bool
  | .accepted, .dispatched | .accepted, .settled .. | .accepted, .expired => true
  | .dispatched, .settled .. | .dispatched, .uncertain => true
  | _, _ => false

/-- The settlement check of `MemoryModelCallReservationStore.putInTransaction`; the charged
cost is not modelled. -/
def ModelCallReservation.settlementExceeds (next : ModelCallReservation) : Bool :=
  match next.status with
  | .settled chargedTokens chargedIoBytes _ =>
      chargedTokens > next.inputTokenUpperBound + next.outputTokenMaximum ∨
        chargedIoBytes > next.inputBytes + next.outputBytesMaximum
  | _ => false

/-- `MemoryModelCallReservationStore.putInTransaction`, without the tenant's quotas. -/
def putModelCallReservation (next : ModelCallReservation) : Tx :=
  .choose fun s =>
    match s.modelCall next.stepId next.attempt with
    | none =>
        if next.status ≠ .accepted then .fail (conflict "model_reservation_must_start_accepted")
        else Tx.write fun s => { s with modelCalls := s.modelCalls ++ [next] }
    | some prior =>
        if prior = next then .skip
        else if prior.toModelCallIdentity ≠ next.toModelCallIdentity then
          .fail (conflict "model_reservation_binding_changed")
        else if ¬ prior.status.allowed next.status then
          .fail (conflict "model_reservation_transition_changed")
        else if next.settlementExceeds then
          .fail (conflict "model_reservation_settlement_exceeds_maximum")
        else
          Tx.write fun s =>
            { s with
              modelCalls := s.modelCalls.map fun r =>
                if r.stepId = next.stepId ∧ r.attempt = next.attempt then next else r }

/-! ### Commands -/

/-- `transactCommand`: a command the store has seen is not run again. -/
def transactCommand (scope : String) (requestDigest : Digest) (callback : Tx) : Tx :=
  .choose fun s =>
    match s.commands scope with
    | some digest => .throwIf (digest ≠ requestDigest) (kafError .KAF_HTTP_IDEMPOTENCY_CONFLICT)
    | none =>
        callback.andThen
          (Tx.write fun s => { s with commands := s.commands.set scope requestDigest })

end Pactmark
