import Pactmark.Core.Run
import Pactmark.Durable.Operations

/-!
# Stores — the event store

`MemoryEventStore` of `store-memory/src/event-store.ts`: the streams of all runs, the index of
their events by identity, and the projections.  An operation is an `EStateM`, so what it has
already written stays written when it throws.

A stream is a JavaScript array, and a restored snapshot hands its own arrays to the store.  So
the arrays are kept in a heap: `streams` maps a run to the reference of its array.  A clone of
the streams makes a new array for each of them; the reference of an array is the number of the
allocation and the key it was made for.
-/

namespace Pactmark

/-- `recordKey(tenantId, runId)`. -/
abbrev StreamKey := String × String

/-- The key of the stream an event belongs to. -/
def RunEvent.key (e : RunEvent) : StreamKey :=
  (e.tenantId, e.runId)

/-- The reference of an array of events. -/
abbrev ArrayRef := Nat × StreamKey

/-- `MemoryEventStore`. -/
structure EventStore where
  heap : ArrayRef → List RunEvent
  next : Nat
  streams : StreamKey → Option ArrayRef
  eventsById : String → Option (StreamKey × RunEvent)
  projections : StreamKey → Option RunProjection

/-- `EventStoreSnapshot`. -/
structure EventStoreSnapshot where
  streams : StreamKey → Option ArrayRef
  eventsById : String → Option (StreamKey × RunEvent)
  projections : StreamKey → Option RunProjection

namespace EventStore

/-- A store without events. -/
def empty : EventStore :=
  ⟨fun _ => [], 0, fun _ => none, fun _ => none, fun _ => none⟩

/-- The events of a run. -/
def stream (s : EventStore) (key : StreamKey) : List RunEvent :=
  (s.streams key).elim [] s.heap

/-- `stream.push(event)`, of an array that has the reference. -/
def push (s : EventStore) (ref : ArrayRef) (event : RunEvent) : EventStore :=
  { s with heap := fun r => if r = ref then s.heap r ++ [event] else s.heap r }

/-- `[]`, and `#streams.set(key, ..)` of it. -/
def allocate (s : EventStore) (key : StreamKey) : EventStore :=
  { s with
    heap := fun r => if r = (s.next, key) then [] else s.heap r
    next := s.next + 1
    streams := fun k => if k = key then some (s.next, key) else s.streams k }

/-- `#eventsById.set(..)` and `#projections.set(..)`. -/
def index (s : EventStore) (event : RunEvent) (projection : RunProjection) : EventStore :=
  { s with
    eventsById := fun id =>
      if id = event.eventId then some (event.key, event) else s.eventsById id
    projections := fun k => if k = event.key then some projection else s.projections k }

/-- An operation of the store. -/
abbrev Op := EStateM Thrown EventStore

/-- `Number.isSafeInteger(n) && n >= 0`. -/
def safeSequence (n : Int) : Bool :=
  0 ≤ n ∧ n ≤ 9007199254740991

/-- `initialProjection`. -/
def initialProjection (event : RunEvent) : Except Thrown RunProjection :=
  match event.payload with
  | .RunAccepted workOrderId workOrderBindingDigest _ =>
      if event.sequence = 1 then
        .ok (createRunProjection (event.run workOrderId workOrderBindingDigest))
      else .error (kafError .KAF_RUNTIME_EVENT_SEQUENCE)
  | _ => .error (kafError .KAF_RUNTIME_EVENT_SEQUENCE)

/-- The projection of the run after the event. -/
def nextProjection (s : EventStore) (event : RunEvent) : Except Thrown RunProjection :=
  match s.projections event.key with
  | some previous => reduceRunEvent previous event
  | none =>
      if (s.stream event.key).length ≠ 0 then
        .error (kafReason .KAF_STORAGE_NOT_FOUND "projection_missing_rebuild_required")
      else do
        let projection ← initialProjection event
        reduceRunEvent projection event

/-- The writes of `appendSynchronous`. -/
def store (event : RunEvent) (next : RunProjection) : Op Unit := do
  let s ← get
  match s.streams event.key with
  | some ref => set (s.push ref event)
  | none => set ((s.allocate event.key).push (s.next, event.key) event)
  modify (·.index event next)

/-- `appendSynchronous`.  `allowed` is the decision of the guard on the event's tenant and data
class. -/
def appendSynchronous (allowed : RunEvent → Bool) (event : RunEvent) (expectedSequence : Int) :
    Op (Nat × Bool) := do
  if ¬ allowed event then throw (kafError .KAF_STORAGE_SECURITY_PROFILE)
  if ¬ safeSequence expectedSequence then throw (kafError .KAF_SCHEMA_INVALID)
  let s ← get
  match s.eventsById event.eventId with
  | some (key, duplicate) =>
      if key = event.key ∧ duplicate = event then return (duplicate.sequence, true)
      else throw (conflict "event_id_reused")
  | none => do
      if (s.stream event.key).length ≠ expectedSequence ∨
          (event.sequence : Int) ≠ expectedSequence + 1 then
        throw (conflict "event_sequence")
      match s.nextProjection event with
      | .error e => throw e
      | .ok next => do
          store event next
          return (event.sequence, false)

/-- `appendFenced`.  `active` is what `assertActive` of the lease store does. -/
def appendFenced (allowed : RunEvent → Bool) (active : Except Thrown Unit)
    (lease : StreamKey) (event : RunEvent) (expectedSequence : Int) : Op (Nat × Bool) := do
  match active with
  | .error e => throw e
  | .ok () => do
      if ¬ allowed event then throw (kafError .KAF_STORAGE_SECURITY_PROFILE)
      if event.key ≠ lease then throw (kafError .KAF_RUNTIME_EVENT_BINDING)
      appendSynchronous allowed event expectedSequence

/-- `dropProjection`. -/
def dropProjection (key : StreamKey) : Op Unit :=
  modify fun s => { s with projections := fun k => if k = key then none else s.projections k }

/-- The fold of `rebuildProjection` over a stream, `undefined` for an empty one. -/
def rebuild : List RunEvent → Except Thrown (Option RunProjection)
  | [] => .ok none
  | first :: rest => do
      let projection ← initialProjection first
      some <$> (first :: rest).foldlM reduceRunEvent projection

/-- `rebuildProjection`. -/
def rebuildProjection (key : StreamKey) : Op (Option RunProjection) := do
  let s ← get
  match rebuild (s.stream key) with
  | .error e => throw e
  | .ok none => return none
  | .ok (some projection) => do
      set { s with projections := fun k => if k = key then some projection else s.projections k }
      return some projection

/-- `transactionSnapshot`. -/
def transactionSnapshot : Op EventStoreSnapshot := do
  let s ← get
  set { s with
    heap := fun r => if r.1 = s.next then s.stream r.2 else s.heap r
    next := s.next + 1 }
  return {
    streams := fun k => (s.streams k).map fun _ => (s.next, k)
    eventsById := s.eventsById
    projections := s.projections }

/-- `transactionRestore`. -/
def transactionRestore (snapshot : EventStoreSnapshot) : Op Unit :=
  modify fun s => { s with
    streams := snapshot.streams
    eventsById := snapshot.eventsById
    projections := snapshot.projections }

end EventStore

/-! ### Calls on a store -/

/-- A call on a store; `transactionRestore` is given the number of the snapshot. -/
inductive EventStoreCall where
  | append (event : RunEvent) (expectedSequence : Int)
  | appendFenced (active : Except Thrown Unit) (lease : StreamKey) (event : RunEvent)
      (expectedSequence : Int)
  | dropProjection (key : StreamKey)
  | rebuildProjection (key : StreamKey)
  | transactionSnapshot
  | transactionRestore (n : Nat)

/-- A store, and the snapshots its callers hold. -/
structure EventStoreState where
  store : EventStore
  snapshots : List EventStoreSnapshot

namespace EventStoreState

/-- The store an operation leaves. -/
def after {α : Type} (op : EventStore.Op α) (s : EventStore) : EventStore :=
  match op s with
  | .ok _ s' | .error _ s' => s'

/-- What a call leaves. -/
def step (allowed : RunEvent → Bool) (s : EventStoreState) : EventStoreCall → EventStoreState
  | .append event n => { s with store := after (EventStore.appendSynchronous allowed event n) s.store }
  | .appendFenced active lease event n =>
      { s with store := after (EventStore.appendFenced allowed active lease event n) s.store }
  | .dropProjection key => { s with store := after (EventStore.dropProjection key) s.store }
  | .rebuildProjection key => { s with store := after (EventStore.rebuildProjection key) s.store }
  | .transactionSnapshot =>
      match EventStore.transactionSnapshot s.store with
      | .ok snapshot store => ⟨store, s.snapshots ++ [snapshot]⟩
      | .error _ store => { s with store }
  | .transactionRestore n =>
      match s.snapshots[n]? with
      | some snapshot => { s with store := after (EventStore.transactionRestore snapshot) s.store }
      | none => s

/-- What a sequence of calls leaves. -/
def run (allowed : RunEvent → Bool) (s : EventStoreState) (calls : List EventStoreCall) :
    EventStoreState :=
  calls.foldl (step allowed) s

/-- A store nobody has used. -/
def initial : EventStoreState :=
  ⟨.empty, []⟩

end EventStoreState

end Pactmark
