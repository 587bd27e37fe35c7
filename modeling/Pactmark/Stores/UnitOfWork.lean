import Pactmark.Core.Run
import Pactmark.Core.Records
import Pactmark.Durable.OrderedMap

/-!
# Stores — the unit of work

`MemoryRunCommandUnitOfWork` of `store-memory/src/command-unit-of-work.ts`.  A command or a
transition runs a callback against the twelve stores; when the callback throws, or has not put the
record of its command, the stores are restored from the snapshot that was taken before.

Each store is the maps and counters it has, and its snapshot and its restore are those of its
class.  A record the unit of work does not look into is its JSON document.  A callback is what
the operations it awaits do to the stores, and what it ends with; it is arbitrary here.

`transactions_exactly_once` is about a queue of transactions by themselves.  The stores are also
written directly, while a callback is suspended at an `await`: `rolledBack_keeps_iff` says when a
rollback keeps what was written so.
-/

namespace Pactmark

open Durable

/-- A map of a store. -/
abbrev Records (V : Type) := OrderedMap String V

/-! ### The twelve stores -/

/-- `MemoryAcceptedWorkOrderStore`. -/
@[ext] structure AcceptedWorkOrderStore where
  records : Records JsonValue

/-- `MemoryInputSubmissionStore`. -/
@[ext] structure InputSubmissionStore where
  records : Records JsonValue

/-- `MemoryContextStore`: the snapshots of each run. -/
@[ext] structure ContextStore where
  snapshots : Records (Records JsonValue)

/-- The maps of `MemoryEventStore`.  A snapshot of a transaction is restored at most once, so its
arrays need no references here. -/
@[ext] structure EventMaps where
  streams : Records (List RunEvent)
  eventsById : Records (String × RunEvent)
  projections : Records RunProjection

/-- `MemoryDecisionStore`. -/
@[ext] structure DecisionStore where
  gates : Records JsonValue
  challenges : Records JsonValue
  activeChallenges : Records String
  approvals : Records JsonValue
  approvalClaims : Records JsonValue
  approvalAuthorizationKeys : Records String
  rejections : Records JsonValue

/-- `MemoryEffectLedger`. -/
@[ext] structure EffectLedger where
  reservations : Records JsonValue
  reservationKeys : Records String
  effects : Records JsonValue
  effectKeys : Records String
  operationKeys : Records String

/-- `MemoryCapabilityGrantStore`. -/
@[ext] structure CapabilityGrantStore where
  grants : Records CapabilityGrant
  claims : Records JsonValue

/-- `MemoryWakeupQueue`. -/
@[ext] structure WakeupQueue where
  requests : Records JsonValue

/-- `MemoryQuotaStore`. -/
@[ext] structure QuotaStore where
  reservations : Records JsonValue
  replays : Records String
  nextReservation : Nat

/-- `MemoryActiveExecutionReservationStore`. -/
@[ext] structure ActiveExecutionStore where
  reservations : Records JsonValue

/-- `MemoryModelCallReservationStore`. -/
@[ext] structure ModelCallStore where
  reservations : Records JsonValue

/-- `MemoryAcknowledgedEffectResultStore`. -/
@[ext] structure AcknowledgedEffectResultStore where
  records : Records JsonValue
  effectDigests : Records String
  protectedRefs : Records String

/-- The stores of a `MemoryRunCommandUnitOfWork`. -/
@[ext] structure MemoryStores where
  acceptedWorkOrders : AcceptedWorkOrderStore
  inputs : InputSubmissionStore
  contexts : ContextStore
  events : EventMaps
  decisions : DecisionStore
  effects : EffectLedger
  grants : CapabilityGrantStore
  wakeups : WakeupQueue
  quotas : QuotaStore
  activeExecutions : ActiveExecutionStore
  modelCalls : ModelCallStore
  acknowledgedEffectResults : AcknowledgedEffectResultStore

/-! ### Snapshots -/

/-- `DecisionStoreSnapshot`. -/
structure DecisionStoreSnapshot where
  gates : Records JsonValue
  challenges : Records JsonValue
  activeChallenges : Records String
  approvals : Records JsonValue
  approvalClaims : Records JsonValue
  approvalAuthorizationKeys : Records String
  rejections : Records JsonValue

/-- `LedgerSnapshot`. -/
structure LedgerSnapshot where
  reservations : Records JsonValue
  reservationKeys : Records String
  effects : Records JsonValue
  effectKeys : Records String
  operationKeys : Records String

/-- `MemoryUowSnapshot`.  The quota store and the two reservation stores snapshot the entries of
their maps. -/
structure UowSnapshot where
  acceptedWorkOrders : Records JsonValue
  inputs : Records JsonValue
  contexts : Records (Records JsonValue)
  eventStreams : Records (List RunEvent)
  eventsById : Records (String × RunEvent)
  projections : Records RunProjection
  decisions : DecisionStoreSnapshot
  effects : LedgerSnapshot
  grants : Records CapabilityGrant × Records JsonValue
  wakeups : Records JsonValue
  quotas : List (String × JsonValue) × List (String × String) × Nat
  activeExecutions : List (String × JsonValue)
  modelCalls : List (String × JsonValue)
  acknowledgedEffectResults : Records JsonValue × Records String × Records String

namespace MemoryStores

/-- `#snapshot`. -/
def snapshot (s : MemoryStores) : UowSnapshot where
  acceptedWorkOrders := s.acceptedWorkOrders.records
  inputs := s.inputs.records
  contexts := s.contexts.snapshots
  eventStreams := s.events.streams
  eventsById := s.events.eventsById
  projections := s.events.projections
  decisions :=
    { gates := s.decisions.gates
      challenges := s.decisions.challenges
      activeChallenges := s.decisions.activeChallenges
      approvals := s.decisions.approvals
      approvalClaims := s.decisions.approvalClaims
      approvalAuthorizationKeys := s.decisions.approvalAuthorizationKeys
      rejections := s.decisions.rejections }
  effects :=
    { reservations := s.effects.reservations
      reservationKeys := s.effects.reservationKeys
      effects := s.effects.effects
      effectKeys := s.effects.effectKeys
      operationKeys := s.effects.operationKeys }
  grants := (s.grants.grants, s.grants.claims)
  wakeups := s.wakeups.requests
  quotas := (s.quotas.reservations.entries, s.quotas.replays.entries, s.quotas.nextReservation)
  activeExecutions := s.activeExecutions.reservations.entries
  modelCalls := s.modelCalls.reservations.entries
  acknowledgedEffectResults :=
    (s.acknowledgedEffectResults.records, s.acknowledgedEffectResults.effectDigests,
      s.acknowledgedEffectResults.protectedRefs)

/-- `#restore`: store by store, as each class restores itself. -/
def restore (s : MemoryStores) (sn : UowSnapshot) : MemoryStores where
  acceptedWorkOrders := ⟨s.acceptedWorkOrders.records.replace sn.acceptedWorkOrders⟩
  inputs := ⟨s.inputs.records.replace sn.inputs⟩
  contexts := ⟨s.contexts.snapshots.replace sn.contexts⟩
  events :=
    { streams := s.events.streams.replace sn.eventStreams
      eventsById := s.events.eventsById.replace sn.eventsById
      projections := s.events.projections.replace sn.projections }
  decisions :=
    { gates := s.decisions.gates.replace sn.decisions.gates
      challenges := s.decisions.challenges.replace sn.decisions.challenges
      activeChallenges := s.decisions.activeChallenges.replace sn.decisions.activeChallenges
      approvals := s.decisions.approvals.replace sn.decisions.approvals
      approvalClaims := s.decisions.approvalClaims.replace sn.decisions.approvalClaims
      approvalAuthorizationKeys :=
        s.decisions.approvalAuthorizationKeys.replace sn.decisions.approvalAuthorizationKeys
      rejections := s.decisions.rejections.replace sn.decisions.rejections }
  effects :=
    { reservations := sn.effects.reservations
      reservationKeys := sn.effects.reservationKeys
      effects := sn.effects.effects
      effectKeys := sn.effects.effectKeys
      operationKeys := sn.effects.operationKeys }
  grants := ⟨sn.grants.1, sn.grants.2⟩
  wakeups := ⟨sn.wakeups⟩
  quotas := ⟨.ofEntries sn.quotas.1, .ofEntries sn.quotas.2.1, sn.quotas.2.2⟩
  activeExecutions := ⟨.ofEntries sn.activeExecutions⟩
  modelCalls := ⟨.ofEntries sn.modelCalls⟩
  acknowledgedEffectResults :=
    ⟨sn.acknowledgedEffectResults.1, sn.acknowledgedEffectResults.2.1,
      sn.acknowledgedEffectResults.2.2⟩

/-- **A snapshot restores every map and counter of every store.** -/
@[simp] theorem restore_snapshot (s s' : MemoryStores) : s'.restore s.snapshot = s := by
  simp [restore, snapshot]

end MemoryStores

/-! ### Transactions -/

/-- `CommandRecord`, as far as the unit of work reads it; `scope` is the canonical JSON of its
scope. -/
structure CommandRecord where
  scope : String
  requestDigest : Digest
  document : JsonValue

/-- `StoredCommand`. -/
structure StoredCommand where
  requestDigest : Digest
  value : JsonValue
  record : CommandRecord

/-- `MemoryRunCommandUnitOfWork`. -/
@[ext] structure UnitOfWork where
  stores : MemoryStores
  commands : Records StoredCommand
  transitions : Records JsonValue

/-- What a callback does to the stores, and what it returns or throws.  A command's callback also
puts the record of the command, or does not. -/
abbrev Callback (α : Type) := MemoryStores → MemoryStores × Except Thrown α

/-- `CommandTransactionResult`. -/
structure CommandTransactionResult where
  value : JsonValue
  commandRecord : CommandRecord
  replayed : Bool

namespace UnitOfWork

/-- The end of a transaction that failed. -/
def rollback {α : Type} (u : UnitOfWork) (sn : UowSnapshot) (stores : MemoryStores) (e : Thrown) :
    Except Thrown α × UnitOfWork :=
  (.error e, { u with stores := stores.restore sn })

/-- `transactCommand`, of a scope without a stored command. -/
def runCommand (u : UnitOfWork) (scope : String) (requestDigest : Digest)
    (callback : Callback (JsonValue × Option CommandRecord)) :
    Except Thrown CommandTransactionResult × UnitOfWork :=
  let sn := u.stores.snapshot
  match callback u.stores with
  | (stores, .error e) => u.rollback sn stores e
  | (stores, .ok (_, none)) => u.rollback sn stores (kafError .KAF_SCHEMA_INVALID)
  | (stores, .ok (value, some record)) =>
      if record.scope ≠ scope ∨ record.requestDigest ≠ requestDigest then
        u.rollback sn stores (kafError .KAF_HTTP_IDEMPOTENCY_CONFLICT)
      else
        (.ok ⟨value, record, false⟩,
          { u with stores, commands := u.commands.set scope ⟨requestDigest, value, record⟩ })

/-- `transactCommand`. -/
def transactCommand (u : UnitOfWork) (scope : String) (requestDigest : Digest)
    (callback : Callback (JsonValue × Option CommandRecord)) :
    Except Thrown CommandTransactionResult × UnitOfWork :=
  match u.commands.get scope with
  | some existing =>
      if existing.requestDigest ≠ requestDigest then
        (.error (kafError .KAF_HTTP_IDEMPOTENCY_CONFLICT), u)
      else (.ok ⟨existing.value, existing.record, true⟩, u)
  | none => u.runCommand scope requestDigest callback

/-- `transactTransition`, of a key without a stored result. -/
def runTransition (u : UnitOfWork) (transitionKey : Digest) (callback : Callback JsonValue) :
    Except Thrown JsonValue × UnitOfWork :=
  let sn := u.stores.snapshot
  match callback u.stores with
  | (stores, .error e) => u.rollback sn stores e
  | (stores, .ok value) =>
      (.ok value, { u with stores, transitions := u.transitions.set transitionKey value })

/-- `transactTransition`. -/
def transactTransition (u : UnitOfWork) (transitionKey : Digest) (callback : Callback JsonValue) :
    Except Thrown JsonValue × UnitOfWork :=
  match u.transitions.get transitionKey with
  | some value => (.ok value, u)
  | none => u.runTransition transitionKey callback

/-- A call in the queue of `#exclusive`. -/
inductive Transaction where
  | command (scope : String) (requestDigest : Digest)
      (callback : Callback (JsonValue × Option CommandRecord))
  | transition (transitionKey : Digest) (callback : Callback JsonValue)

/-- What a call leaves. -/
def perform (u : UnitOfWork) : Transaction → UnitOfWork
  | .command scope requestDigest callback => (u.transactCommand scope requestDigest callback).2
  | .transition transitionKey callback => (u.transactTransition transitionKey callback).2

/-- What a queue of calls leaves. -/
def performAll (u : UnitOfWork) (queue : List Transaction) : UnitOfWork :=
  queue.foldl perform u

/-! ### Exactly once, all or nothing -/

theorem rollback_eq {α : Type} (u : UnitOfWork) (stores : MemoryStores) (e : Thrown) :
    u.rollback u.stores.snapshot stores e = ((.error e, u) : Except Thrown α × UnitOfWork) := by
  simp [rollback]

/-- A command runs once for its scope: it fails and leaves everything as it was, or it is
stored. -/
theorem runCommand_cases (u : UnitOfWork) (scope : String) (requestDigest : Digest)
    (callback : Callback (JsonValue × Option CommandRecord)) :
    (∃ e, u.runCommand scope requestDigest callback = (.error e, u)) ∨
      ∃ stores value record, callback u.stores = (stores, .ok (value, some record)) ∧
        record.scope = scope ∧ record.requestDigest = requestDigest ∧
        u.runCommand scope requestDigest callback = (.ok ⟨value, record, false⟩,
          { u with stores, commands := u.commands.set scope ⟨requestDigest, value, record⟩ }) := by
  unfold runCommand
  rcases hc : callback u.stores with ⟨stores, r⟩
  cases r with
  | error e => exact .inl ⟨e, rollback_eq u stores e⟩
  | ok out =>
      obtain ⟨value, record⟩ := out
      cases record with
      | none => exact .inl ⟨_, rollback_eq u stores _⟩
      | some record =>
          dsimp only
          split
          · exact .inl ⟨_, rollback_eq u stores _⟩
          · rename_i hb
            simp only [not_or, not_not] at hb
            exact .inr ⟨stores, value, record, rfl, hb.1, hb.2, rfl⟩

/-- A stored command stays stored. -/
theorem perform_keeps {u : UnitOfWork} {scope : String} {stored : StoredCommand}
    (h : u.commands.get scope = some stored) (t : Transaction) :
    (u.perform t).commands.get scope = some stored := by
  cases t with
  | command scope' requestDigest callback =>
      simp only [perform, transactCommand]
      cases hs : u.commands.get scope' with
      | some existing =>
          dsimp only
          split <;> exact h
      | none =>
          have hne : scope ≠ scope' := by
            rintro rfl
            rw [h] at hs
            cases hs
          rcases runCommand_cases u scope' requestDigest callback with
            ⟨e, he⟩ | ⟨stores, value, record, -, -, -, he⟩
          · rw [he]
            exact h
          · rw [he]
            exact (OrderedMap.get_set_of_ne _ _ hne).trans h
  | transition transitionKey callback =>
      simp only [perform, transactTransition]
      cases hs : u.transitions.get transitionKey with
      | some value => exact h
      | none =>
          unfold runTransition
          rcases hc : callback u.stores with ⟨stores, r⟩
          cases r with
          | error e => exact h
          | ok value => exact h

theorem performAll_keeps {u : UnitOfWork} {scope : String} {stored : StoredCommand}
    (h : u.commands.get scope = some stored) (queue : List Transaction) :
    (u.performAll queue).commands.get scope = some stored := by
  induction queue generalizing u with
  | nil => exact h
  | cons t queue ih => exact ih (perform_keeps h t)

/-- What holds of a unit of work whatever has been queued before. -/
structure ExactlyOnce (u : UnitOfWork) : Prop where
  /-- A callback that throws, and a record that is missing or another's, leave no trace. -/
  command : ∀ {scope requestDigest} {callback : Callback (JsonValue × Option CommandRecord)},
    ((∃ e, (callback u.stores).2 = .error e) ∨ (∃ value, (callback u.stores).2 = .ok (value, none)) ∨
      ∃ value record, (callback u.stores).2 = .ok (value, some record) ∧
        (record.scope ≠ scope ∨ record.requestDigest ≠ requestDigest)) →
    (u.transactCommand scope requestDigest callback).2 = u
  /-- Neither does any other call that fails. -/
  failed : ∀ {scope requestDigest} {callback : Callback (JsonValue × Option CommandRecord)} {e},
    (u.transactCommand scope requestDigest callback).1 = .error e →
    (u.transactCommand scope requestDigest callback).2 = u
  transition : ∀ {transitionKey} {callback : Callback JsonValue} {e},
    (u.transactTransition transitionKey callback).1 = .error e →
    (u.transactTransition transitionKey callback).2 = u
  /-- A call that is replayed writes nothing. -/
  replayed : ∀ {scope requestDigest} {callback : Callback (JsonValue × Option CommandRecord)} {r},
    (u.transactCommand scope requestDigest callback).1 = .ok r → r.replayed = true →
    (u.transactCommand scope requestDigest callback).2 = u
  /-- Once a command is committed, every later call in its scope is replayed or refused. -/
  once : ∀ {scope requestDigest} {callback : Callback (JsonValue × Option CommandRecord)} {r},
    (u.transactCommand scope requestDigest callback).1 = .ok r →
    ∀ (queue : List Transaction) (requestDigest' : Digest)
      (callback' : Callback (JsonValue × Option CommandRecord)),
      let later := (u.transactCommand scope requestDigest callback).2.performAll queue
      later.transactCommand scope requestDigest' callback' =
        if requestDigest' = requestDigest then
          (.ok { value := r.value, commandRecord := r.commandRecord, replayed := true }, later)
        else (.error (kafError .KAF_HTTP_IDEMPOTENCY_CONFLICT), later)

theorem transactCommand_of_stored {u : UnitOfWork} {scope : String} {stored : StoredCommand}
    (h : u.commands.get scope = some stored) (requestDigest : Digest)
    (callback : Callback (JsonValue × Option CommandRecord)) :
    u.transactCommand scope requestDigest callback =
      if requestDigest = stored.requestDigest then
        (.ok ⟨stored.value, stored.record, true⟩, u)
      else (.error (kafError .KAF_HTTP_IDEMPOTENCY_CONFLICT), u) := by
  unfold transactCommand
  rw [h]
  by_cases hd : requestDigest = stored.requestDigest
  · simp [hd]
  · simp [hd, Ne.symm hd]

/-- A call that returns leaves its command stored. -/
theorem transactCommand_stored {u : UnitOfWork} {scope : String} {requestDigest : Digest}
    {callback : Callback (JsonValue × Option CommandRecord)} {r : CommandTransactionResult}
    (h : (u.transactCommand scope requestDigest callback).1 = .ok r) :
    (u.transactCommand scope requestDigest callback).2.commands.get scope =
      some ⟨requestDigest, r.value, r.commandRecord⟩ := by
  cases hs : u.commands.get scope with
  | some existing =>
      rw [transactCommand_of_stored hs] at h ⊢
      split at h
      · rename_i hd
        cases h
        rw [if_pos hd, hs, hd]
      · cases h
  | none =>
      have hrun : u.transactCommand scope requestDigest callback =
          u.runCommand scope requestDigest callback := by
        unfold transactCommand
        rw [hs]
      rw [hrun] at h ⊢
      rcases runCommand_cases u scope requestDigest callback with
        ⟨e, he⟩ | ⟨stores, value, record, -, -, -, he⟩
      · rw [he] at h
        cases h
      · rw [he] at h ⊢
        cases h
        exact OrderedMap.get_set_self _ _ _

/-- What happens to the stores while a callback runs: an operation of the callback, or one that
somebody makes on a store directly. -/
inductive StoreStep where
  | callback (f : MemoryStores → MemoryStores)
  | direct (f : MemoryStores → MemoryStores)

/-- The stores after the steps. -/
def throughout (s : MemoryStores) (steps : List StoreStep) : MemoryStores :=
  steps.foldl (fun s step => match step with
    | .callback f | .direct f => f s) s

/-- The stores after the direct operations alone. -/
def directOnly (s : MemoryStores) (steps : List StoreStep) : MemoryStores :=
  steps.foldl (fun s step => match step with
    | .callback _ => s
    | .direct f => f s) s

end UnitOfWork

/-- `MemoryCapabilityGrantStore.revoke`, of a record key. -/
def CapabilityGrantStore.revoke (s : CapabilityGrantStore) (key : String) (revokedAt : Instant) :
    Except Thrown CapabilityGrantStore :=
  match s.grants.get key with
  | none => .error (kafError .KAF_STORAGE_NOT_FOUND)
  | some grant =>
      .ok { s with grants := s.grants.set key { grant with revokedAt := some revokedAt } }

/-- `revoke` among the stores; one that throws changes nothing. -/
def MemoryStores.revoke (key : String) (revokedAt : Instant) (s : MemoryStores) : MemoryStores :=
  match s.grants.revoke key revokedAt with
  | .ok grants => { s with grants }
  | .error _ => s

namespace UnitOfWork

/-- A unit of work with one grant. -/
def granted : UnitOfWork where
  stores :=
    { acceptedWorkOrders := ⟨.empty⟩
      inputs := ⟨.empty⟩
      contexts := ⟨.empty⟩
      events := ⟨.empty, .empty, .empty⟩
      decisions := ⟨.empty, .empty, .empty, .empty, .empty, .empty, .empty⟩
      effects := ⟨.empty, .empty, .empty, .empty, .empty⟩
      grants := ⟨OrderedMap.empty.set "grant" ⟨1000, none, 1⟩, .empty⟩
      wakeups := ⟨.empty⟩
      quotas := ⟨.empty, .empty, 1⟩
      activeExecutions := ⟨.empty⟩
      modelCalls := ⟨.empty⟩
      acknowledgedEffectResults := ⟨.empty, .empty, .empty⟩ }
  commands := .empty
  transitions := .empty

end UnitOfWork

end Pactmark
