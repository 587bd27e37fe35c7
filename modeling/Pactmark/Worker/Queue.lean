import Mathlib.Data.List.Sort
import Pactmark.Core.Delegation
import Pactmark.Core.Reservations
import Pactmark.Durable.Totals

/-!
# Worker — the durable queue

`DurablePostgresWorkerQueue` of `driver-postgres-worker/src/postgres-queue.ts`.  The tables
`pactmark_wakeups` and `pactmark_run_leases` are maps from their primary keys, each method is one
transaction at one instant of the database, and a transaction that throws leaves the tables as they
were.  The database counts microseconds; a claim carries milliseconds.  What the joined tables say
of a wakeup, the order of texts and the digests are parameters.

A run of the queue is a list of transactions, each some time after the one before it.  Workers
renew, complete and release any claim that was ever handed out.
-/

namespace Pactmark

open Durable Reservation

namespace Worker

/-! ### The tables -/

/-- `state` of a row of `pactmark_wakeups`. -/
inductive WakeupState where
  | pending
  | claimed
  | completed
  | cancelled
  deriving DecidableEq, Repr

/-- `claim_result_status`. -/
inductive ClaimResultStatus where
  | completed
  | parked
  | failed
  deriving DecidableEq, Repr

/-- What the schema parses `delegation_json` to, if it accepts it. -/
abbrev DelegationJson := Option DurableWakeupRequest

/-- A row of `pactmark_wakeups`. -/
structure WakeupRow where
  tenantId : String
  runId : String
  wakeupId : String
  delegation : DelegationJson
  requestDigest : Digest
  workOrderId : String
  availableAt : Int
  state : WakeupState := .pending
  claimedBy : Option String := none
  claimedUntil : Option Int := none
  claimLeaseId : Option String := none
  claimFencingToken : Nat := 0
  claimAttempts : Nat := 0
  claimResultStatus : Option ClaimResultStatus := none
  completedAt : Option Int := none
  releaseReasonCode : Option String := none
  deriving DecidableEq, Repr

/-- The primary key of `pactmark_wakeups`. -/
abbrev WakeupKey := String × String

def WakeupRow.key (row : WakeupRow) : WakeupKey :=
  (row.tenantId, row.wakeupId)

def WakeupRow.runKey (row : WakeupRow) : StreamKey :=
  (row.tenantId, row.runId)

/-- A row of `pactmark_run_leases`, under its tenant and run. -/
structure LeaseRow where
  leaseId : String
  holderId : String
  fencingToken : Nat
  acquiredAt : Int
  expiresAt : Int
  state : LeaseState
  deriving DecidableEq, Repr

/-- The tables of the queue. -/
structure Tables where
  wakeups : OrderedMap WakeupKey WakeupRow
  leases : OrderedMap StreamKey LeaseRow

/-- What the joined rows of `pactmark_run_work_orders` and `pactmark_work_orders` hold, as the
schemas parse it. -/
structure WorkOrderRow where
  principal : Option Principal
  workOrderBindingDigest : Digest
  executionDefinition : Option ExecutionDefinition
  executionDefinitionDigest : Digest
  purpose : Option Purpose
  resourceScopeCeiling : Option (List ResourceScope)

/-- The order of texts in the database, and `digestCanonicalJson` of what the queue digests. -/
structure QueueContext where
  collation : String → String → Bool
  requestDigest : DurableWakeupRequest → Digest
  executionDefinitionDigest : ExecutionDefinition → Digest
  claimDigest : String → Nat → Digest

/-! ### Statements -/

/-- `UPDATE pactmark_wakeups SET .. WHERE ..`, with the keys among its conditions; `none` if it
finds no row. -/
def Tables.updateWakeup (t : Tables) (key : WakeupKey) (finds : WakeupRow → Bool)
    (sets : WakeupRow → WakeupRow) : Option Tables :=
  match t.wakeups.get key with
  | some row => if finds row then some { t with wakeups := t.wakeups.set key (sets row) } else none
  | none => none

/-- `UPDATE pactmark_run_leases SET .. WHERE .. RETURNING ..`, with the keys among its
conditions. -/
def Tables.updateLease (t : Tables) (key : StreamKey) (finds : LeaseRow → Bool)
    (sets : LeaseRow → LeaseRow) : Option (LeaseRow × Tables) :=
  match t.leases.get key with
  | some row =>
      if finds row then some (sets row, { t with leases := t.leases.set key (sets row) }) else none
  | none => none

/-- `if (result.rowCount !== 1) conflict(reason)`. -/
def orConflict {α : Type} (result : Option α) (reason : String) : Except Thrown α :=
  match result with
  | some value => .ok value
  | none => .error (conflict reason)

/-- `instant`: the milliseconds of a timestamp. -/
def instant (timestamp : Int) : Int :=
  timestamp / 1000

/-- `::timestamptz` of an instant. -/
def timestamptz (milliseconds : Int) : Int :=
  milliseconds * 1000

/-- `parseLease`. -/
def parseLease (key : StreamKey) (row : LeaseRow) : Except Thrown FencedLease :=
  let lease : FencedLease :=
    { leaseId := row.leaseId
      tenantId := key.1
      runId := key.2
      holderId := row.holderId
      fencingToken := row.fencingToken
      acquiredAt := instant row.acquiredAt
      expiresAt := instant row.expiresAt
      state := row.state }
  if lease.parses then .ok lease else .error schemaRefused

/-- `z.number().int().min(1_000).max(3_600_000)`. -/
def ttlAccepted (leaseTtlMs : Int) : Bool :=
  1000 ≤ leaseTtlMs ∧ leaseTtlMs ≤ 3600000

/-- `#assertTenantAllowed`. -/
def assertTenantAllowed (allowedTenants : List String) (tenantId : String) : Except Thrown Unit :=
  if tenantId ∈ allowedTenants then .ok ()
  else .error (kafReason .KAF_STORAGE_SECURITY_PROFILE "worker_tenant_denied")

/-- The conditions on a claim that `complete`, `release` and `renew` share. -/
def bindsWakeup (claim : WorkerWakeupClaim) (row : WakeupRow) : Bool :=
  row.runId = claim.request.runId ∧ row.requestDigest = claim.requestDigest ∧
    row.workOrderId = claim.workOrderId ∧ row.state = .claimed ∧
    row.claimedBy = some claim.lease.holderId ∧ row.claimLeaseId = some claim.lease.leaseId ∧
    row.claimFencingToken = claim.lease.fencingToken

/-- The conditions of a claim on the lease of its run. -/
def bindsLease (claim : WorkerWakeupClaim) (row : LeaseRow) : Bool :=
  row.leaseId = claim.lease.leaseId ∧ row.holderId = claim.lease.holderId ∧
    row.fencingToken = claim.lease.fencingToken ∧ row.state = .active

/-- The key of the wakeup a claim is about. -/
def wakeupKey (claim : WorkerWakeupClaim) : WakeupKey :=
  (claim.request.tenantId, claim.receiptId)

/-- The run a claim is about. -/
def runKey (claim : WorkerWakeupClaim) : StreamKey :=
  (claim.request.tenantId, claim.request.runId)

/-- `releaseExactLease(client, claim, "released")`. -/
def releaseExactLease (t : Tables) (claim : WorkerWakeupClaim) (now : Int) :
    Except Thrown Tables :=
  orConflict
    ((t.updateLease claim.lease.key (bindsLease claim) fun row =>
      { row with state := .released, expiresAt := min row.expiresAt now }).map Prod.snd)
    "wakeup_lease_completion_stale"

/-! ### The transactions -/

variable (C : QueueContext)

/-- `ORDER BY` of an instant, the tenant and the wakeup. -/
def orderBy (timestamp : WakeupRow → Int) (a b : WakeupRow) : Bool :=
  timestamp a < timestamp b ∨
    (timestamp a = timestamp b ∧ (C.collation a.tenantId b.tenantId = true ∧
      (a.tenantId = b.tenantId → C.collation a.wakeupId b.wakeupId = true)))

/-- The rows `recoverStale` selects. -/
def stale (allowedTenants : List String) (now : Int) (row : WakeupRow) : Bool :=
  row.state = .claimed ∧ row.claimedUntil.any (fun until_ => decide (until_ ≤ now)) ∧
    row.tenantId ∈ allowedTenants

/-- What `recoverStale` does with a row. -/
def recoverRow (now : Int) (t : Tables) (row : WakeupRow) : Except Thrown Tables := do
  let (_, t) ← orConflict
    (t.updateLease row.runKey
      (fun lease => some lease.leaseId = row.claimLeaseId ∧
        lease.fencingToken = row.claimFencingToken ∧ some lease.holderId = row.claimedBy ∧
        (lease.state = .active ∨ lease.state = .expired))
      fun lease => { lease with state := .expired, expiresAt := min lease.expiresAt now })
    "stale_wakeup_lease_binding_changed"
  orConflict
    (t.updateWakeup row.key
      (fun stored => stored.runId = row.runId ∧ stored.state = .claimed ∧
        stored.claimLeaseId = row.claimLeaseId ∧
        stored.claimFencingToken = row.claimFencingToken ∧ stored.claimedBy = row.claimedBy)
      fun stored =>
        { stored with
          state := .pending
          availableAt := now
          claimedBy := none
          claimedUntil := none
          claimLeaseId := none
          releaseReasonCode := some "KAF_STORAGE_LEASE_EXPIRED" })
    "stale_wakeup_binding_changed"

/-- The loop of `recoverStale`. -/
def recoverRows (now : Int) : List WakeupRow → Tables → Except Thrown Tables
  | [], t => .ok t
  | row :: rest, t => do
      let t ← recoverRow now t row
      recoverRows now rest t

/-- The rows `recoverStale` works on, in their order. -/
def staleRows (allowedTenants : List String) (now : Int) (t : Tables) : List WakeupRow :=
  (t.wakeups.values.filter (stale allowedTenants now)).insertionSort
    fun a b => orderBy C (fun row => row.claimedUntil.getD 0) a b = true

/-- `recoverStale`. -/
def recoverStale (allowedTenants : List String) (now : Int) (t : Tables) :
    Except Thrown (Nat × Tables) := do
  let rows := staleRows C allowedTenants now t
  let t ← recoverRows now rows t
  return (rows.length, t)

/-- The rows `claim` selects; `joined` is what the other tables hold for a row. -/
def claimable (allowedTenants : List String) (joined : WakeupRow → Option WorkOrderRow) (now : Int)
    (t : Tables) (row : WakeupRow) : Bool :=
  row.state = .pending ∧ row.availableAt ≤ now ∧ row.tenantId ∈ allowedTenants ∧
    (joined row).isSome ∧
    ¬ (t.leases.get row.runKey).any fun lease => decide (lease.state = .active ∧ now < lease.expiresAt)

/-- The candidates of `claim`, in their order. -/
def candidates (allowedTenants : List String) (limit : Nat)
    (joined : WakeupRow → Option WorkOrderRow) (now : Int) (t : Tables) : List WakeupRow :=
  ((t.wakeups.values.filter (claimable allowedTenants joined now t)).insertionSort
    fun a b => orderBy C (·.availableAt) a b = true).take limit

/-- `worker-lease:${digestCanonicalJson({ receiptId, nextAttempt })}`. -/
def leaseId (row : WakeupRow) : String :=
  "worker-lease:" ++ C.claimDigest row.wakeupId (row.claimFencingToken + 1)

/-- The lease of the run is acquired: it is inserted, or renewed with the next token if it is not
active any more. -/
def acquireLease (holderId : String) (leaseTtlMs now : Int) (t : Tables) (row : WakeupRow) :
    Option (LeaseRow × Tables) :=
  let acquired (fencingToken : Nat) : LeaseRow :=
    { leaseId := leaseId C row
      holderId
      fencingToken
      acquiredAt := now
      expiresAt := now + leaseTtlMs * 1000
      state := .active }
  match t.leases.get row.runKey with
  | none => some (acquired 1, { t with leases := t.leases.set row.runKey (acquired 1) })
  | some lease =>
      if lease.state ≠ .active ∨ lease.expiresAt ≤ now then
        some (acquired (lease.fencingToken + 1),
          { t with leases := t.leases.set row.runKey (acquired (lease.fencingToken + 1)) })
      else none

/-- `parseClaim`. -/
def parseClaim (row : WakeupRow) (workOrder : WorkOrderRow) (lease : FencedLease) :
    Except Thrown WorkerWakeupClaim :=
  match row.delegation with
  | none => .error schemaRefused
  | some request =>
      if request.tenantId ≠ row.tenantId ∨ request.runId ≠ row.runId ∨
          C.requestDigest request ≠ row.requestDigest then
        .error (conflict "wakeup_request_binding_changed")
      else
        match workOrder.executionDefinition with
        | none => .error schemaRefused
        | some executionDefinition =>
            if C.executionDefinitionDigest executionDefinition ≠
                workOrder.executionDefinitionDigest then
              .error (conflict "worker_execution_definition_digest_changed")
            else
              match workOrder.principal, workOrder.purpose, workOrder.resourceScopeCeiling with
              | some initiatingPrincipal, some purpose, some maximumScopes =>
                  .ok
                    { receiptId := row.wakeupId
                      requestDigest := row.requestDigest
                      request
                      initiatingPrincipal
                      workOrderId := row.workOrderId
                      workOrderBindingDigest := workOrder.workOrderBindingDigest
                      executionDefinition
                      executionDefinitionDigest := workOrder.executionDefinitionDigest
                      purpose
                      maximumScopes
                      lease
                      claimedAt := lease.acquiredAt }
              | _, _, _ => .error schemaRefused

/-- The wakeup of a candidate is marked as claimed. -/
def markClaimed (row : WakeupRow) (holderId : String) (lease : FencedLease) (t : Tables) :
    Except Thrown Tables :=
  orConflict
    (t.updateWakeup row.key
      (fun stored => stored.runId = row.runId ∧ stored.state = .pending ∧
        stored.requestDigest = row.requestDigest ∧ stored.workOrderId = row.workOrderId)
      fun stored =>
        { stored with
          state := .claimed
          claimedBy := some holderId
          claimedUntil := some (timestamptz lease.expiresAt)
          claimLeaseId := some lease.leaseId
          claimFencingToken := lease.fencingToken
          claimAttempts := stored.claimAttempts + 1
          releaseReasonCode := none })
    "wakeup_claim_changed"

/-- A candidate is claimed, unless the lease of its run is still active. -/
def claimRow (holderId : String) (leaseTtlMs now : Int) (t : Tables) (row : WakeupRow)
    (workOrder : WorkOrderRow) : Except Thrown (Option (WorkerWakeupClaim × Tables)) :=
  match acquireLease C holderId leaseTtlMs now t row with
  | none => .ok none
  | some (leaseRow, t) => do
      let lease ← parseLease row.runKey leaseRow
      let t ← markClaimed row holderId lease t
      let claim ← parseClaim C row workOrder lease
      return some (claim, t)

/-- The loop of `claim`. -/
def claimRows (holderId : String) (leaseTtlMs now : Int) (joined : WakeupRow → Option WorkOrderRow) :
    List WakeupRow → List StreamKey → Tables → Except Thrown (List WorkerWakeupClaim × Tables)
  | [], _, t => .ok ([], t)
  | row :: rest, claimedRuns, t =>
      match joined row with
      | none => claimRows holderId leaseTtlMs now joined rest claimedRuns t
      | some workOrder =>
          if row.runKey ∈ claimedRuns then
            claimRows holderId leaseTtlMs now joined rest claimedRuns t
          else
            match claimRow C holderId leaseTtlMs now t row workOrder with
            | .error e => .error e
            | .ok none => claimRows holderId leaseTtlMs now joined rest claimedRuns t
            | .ok (some (claim, t)) => do
                let (claims, t) ←
                  claimRows holderId leaseTtlMs now joined rest (row.runKey :: claimedRuns) t
                return (claim :: claims, t)

/-- `claim`. -/
def claim (allowedTenants : List String) (holderId : String) (limit : Nat) (leaseTtlMs : Int)
    (joined : WakeupRow → Option WorkOrderRow) (now : Int) (t : Tables) :
    Except Thrown (List WorkerWakeupClaim × Tables) :=
  match boundedText 256 holderId with
  | none => .error schemaRefused
  | some holderId =>
      if ¬ (1 ≤ limit ∧ limit ≤ 256 ∧ ttlAccepted leaseTtlMs = true) then .error schemaRefused
      else
        claimRows C holderId leaseTtlMs now joined (candidates C allowedTenants limit joined now t) []
          t

/-- `renew`. -/
def renew (allowedTenants : List String) (claim : WorkerWakeupClaim) (leaseTtlMs now : Int)
    (t : Tables) : Except Thrown (WorkerWakeupClaim × Tables) := do
  assertTenantAllowed allowedTenants claim.request.tenantId
  if ¬ ttlAccepted leaseTtlMs then throw schemaRefused
  let (row, t) ← orConflict
    (t.updateLease claim.lease.key (fun row => bindsLease claim row ∧ now < row.expiresAt)
      fun row => { row with expiresAt := now + leaseTtlMs * 1000 })
    "wakeup_renew_stale_lease"
  let lease ← parseLease claim.lease.key row
  let t ← orConflict
    (t.updateWakeup (wakeupKey claim)
      (fun stored => bindsWakeup claim stored ∧ 0 < stored.claimAttempts ∧
        stored.claimedUntil = some (timestamptz claim.lease.expiresAt))
      fun stored => { stored with claimedUntil := some (timestamptz lease.expiresAt) })
    "wakeup_renew_binding_changed"
  return ({ claim with lease }, t)

/-- `complete`. -/
def complete (allowedTenants : List String) (claim : WorkerWakeupClaim)
    (status : ClaimResultStatus) (completedAt : Int) (now : Int) (t : Tables) :
    Except Thrown Tables := do
  assertTenantAllowed allowedTenants claim.request.tenantId
  let t ← orConflict
    (t.updateWakeup (wakeupKey claim) (bindsWakeup claim) fun stored =>
      { stored with
        state := .completed
        claimResultStatus := some status
        completedAt := some (timestamptz completedAt) })
    "wakeup_complete_binding_changed"
  releaseExactLease t claim now

/-- `/^KAF_[A-Z0-9_]+$/u`. -/
def isReasonCode (reasonCode : String) : Bool :=
  match reasonCode.toList with
  | 'K' :: 'A' :: 'F' :: '_' :: c :: rest =>
      (c :: rest).all fun c => c.isUpper || c.isDigit || c == '_'
  | _ => false

/-- `release`. -/
def release (allowedTenants : List String) (claim : WorkerWakeupClaim) (retryAt : Int)
    (reasonCode : String) (now : Int) (t : Tables) : Except Thrown Tables := do
  assertTenantAllowed allowedTenants claim.request.tenantId
  if ¬ isReasonCode reasonCode then throw schemaRefused
  let t ← orConflict
    (t.updateWakeup (wakeupKey claim) (bindsWakeup claim) fun stored =>
      { stored with
        state := .pending
        availableAt := timestamptz retryAt
        claimedBy := none
        claimedUntil := none
        claimLeaseId := none
        releaseReasonCode := some reasonCode })
    "wakeup_release_binding_changed"
  releaseExactLease t claim now

/-! ### Runs of the queue -/

/-- A wakeup that is enqueued. -/
structure NewWakeup where
  tenantId : String
  runId : String
  wakeupId : String
  delegation : DelegationJson
  requestDigest : Digest
  workOrderId : String
  availableAt : Int

/-- The row of a new wakeup. -/
def NewWakeup.row (wakeup : NewWakeup) : WakeupRow :=
  { wakeup with }

/-- A transaction of the queue; a worker names a claim by its place among those ever handed
out. -/
inductive QueueCall where
  | enqueue (wakeup : NewWakeup)
  | recoverStale (allowedTenants : List String)
  | claim (allowedTenants : List String) (holderId : String) (limit : Nat) (leaseTtlMs : Int)
      (joined : WakeupRow → Option WorkOrderRow)
  | renew (allowedTenants : List String) (held : Nat) (leaseTtlMs : Int)
  | complete (allowedTenants : List String) (held : Nat) (status : ClaimResultStatus)
      (completedAt : Int)
  | release (allowedTenants : List String) (held : Nat) (retryAt : Int) (reasonCode : String)

/-- The tables and the clock of the database, the claims that `claim` has handed out in order, and
all that workers hold: these and the renewed ones. -/
structure Queue where
  now : Int
  tables : Tables
  handed : List WorkerWakeupClaim
  held : List WorkerWakeupClaim

namespace Queue

/-- Empty tables. -/
def start : Queue :=
  ⟨0, ⟨.empty, .empty⟩, [], []⟩

/-- What a transaction leaves, or what it throws. -/
def transaction (q : Queue) : QueueCall → Except Thrown Queue
  | .enqueue wakeup =>
      match q.tables.wakeups.get wakeup.row.key with
      | some _ => .error (conflict "duplicate key value")
      | none =>
          .ok { q with
            tables := { q.tables with
              wakeups := q.tables.wakeups.set wakeup.row.key wakeup.row } }
  | .recoverStale allowedTenants => do
      let (_, tables) ← recoverStale C allowedTenants q.now q.tables
      return { q with tables }
  | .claim allowedTenants holderId limit leaseTtlMs joined => do
      let (claims, tables) ←
        claim C allowedTenants holderId limit leaseTtlMs joined q.now q.tables
      return { q with tables, handed := q.handed ++ claims, held := q.held ++ claims }
  | .renew allowedTenants held leaseTtlMs =>
      match q.held[held]? with
      | none => .ok q
      | some claim => do
          let (renewed, tables) ← renew allowedTenants claim leaseTtlMs q.now q.tables
          return { q with tables, held := q.held ++ [renewed] }
  | .complete allowedTenants held status completedAt =>
      match q.held[held]? with
      | none => .ok q
      | some claim => do
          let tables ← complete allowedTenants claim status completedAt q.now q.tables
          return { q with tables }
  | .release allowedTenants held retryAt reasonCode =>
      match q.held[held]? with
      | none => .ok q
      | some claim => do
          let tables ← release allowedTenants claim retryAt reasonCode q.now q.tables
          return { q with tables }

/-- Some time passes. -/
def elapse (q : Queue) (elapsed : Nat) : Queue :=
  { q with now := q.now + elapsed }

/-- A transaction, some time after the one before it; what throws is rolled back. -/
def step (q : Queue) (call : Nat × QueueCall) : Queue :=
  match (q.elapse call.1).transaction C call.2 with
  | .ok q' => q'
  | .error _ => q.elapse call.1

/-- What a sequence of transactions leaves. -/
def after (calls : List (Nat × QueueCall)) : Queue :=
  calls.foldl (step C) start

end Queue

end Worker

end Pactmark
