import Pactmark.Core.CommandWindow
import Pactmark.Worker.Queue

/-!
# Worker — the wakeup of a command

`PostgresRunCommandUnitOfWork.transactCommand` and `#enqueueWakeup` of
`store-postgres/src/command-unit-of-work.ts`, and `#enqueueCommandWakeup` and `#commandScope` of
`runtime/src/runtime.ts`.  Of the tables, `pactmark_commands` and `pactmark_wakeups` have their
rows here, and all the others are one parameter.  A callback is what it does to those others and
what it hands to the transaction; it is arbitrary here, so the commands may be any.

A command is stored under its tenant, the digest of its scope and its identity.  Its wakeup is
deduplicated under the tenant and the identity alone.

* `enqueues_cases`, `enqueues_of`: what a command needs of the tables to commit with a wakeup of
  its own, and what it leaves.
* `sameCommandId_conflict`: a command of another scope with the same identity is rolled back.
* `both_enqueue_iff`: two commands that would each commit alone do so one after the other, each
  with a wakeup of its own, exactly when their identities differ and nothing else they share is in
  the way.
-/

namespace Pactmark

open Durable

/-- `id` of a tenant or a principal. -/
def JsonValue.id : JsonValue → String
  | .object members =>
      match members.lookup "id" with
      | some (.string id) => id
      | _ => ""
  | _ => ""

/-- `scope.tenant.id`. -/
def CommandScope.tenantId (scope : CommandScope) : String :=
  scope.tenant.id

namespace Worker

/-! ### The tables -/

/-- A row of `pactmark_commands`. -/
structure CommandRow where
  scope : CommandScope
  requestDigest : Digest
  commandRecord : CommittedCommandRecord
  value : JsonValue

/-- The primary key of `pactmark_commands`: the tenant, the digest of the scope and the identity. -/
abbrev CommandKey := String × Digest × String

/-- A row of `pactmark_wakeups` with its `deduplication_key`. -/
structure EnqueuedRow extends WakeupRow where
  deduplicationKey : String
  deriving DecidableEq, Repr

/-- The tables of the unit of work; `rest` is every table but these two. -/
structure CommandTables (R : Type) where
  commands : OrderedMap CommandKey CommandRow
  wakeups : OrderedMap WakeupKey EnqueuedRow
  rest : R

/-- `SELECT .. FROM pactmark_wakeups WHERE tenant_id=$1 AND deduplication_key=$2`. -/
def CommandTables.deduplicated {R : Type} (s : CommandTables R)
    (tenantId deduplicationKey : String) : Option EnqueuedRow :=
  (s.wakeups.entries.find? fun x =>
    x.2.tenantId = tenantId ∧ x.2.deduplicationKey = deduplicationKey).map Prod.snd

/-! ### Commands -/

/-- What `#commandScope` reads of the verified authority. -/
structure CommandClaims where
  issuerId : String
  tenant : JsonValue
  actor : JsonValue

/-- `CommandContextSchema`. -/
structure BoundContext where
  commandId : String
  operation : String
  normalizedResourceScope : List JsonValue
  requestDigest : Digest

/-- `#commandScope`. -/
def commandScope (claims : CommandClaims) (command : BoundContext) : CommandScope where
  issuerId := claims.issuerId
  tenant := claims.tenant
  principal := claims.actor
  operation := command.operation
  normalizedResourceScope := command.normalizedResourceScope
  commandId := command.commandId

/-- What a command says of its wakeup. -/
structure CommandWakeup where
  runId : String
  reason : WakeupReason
  notBefore : IsoInstant
  deriving DecidableEq, Repr

/-- The request `#enqueueCommandWakeup` makes. -/
def commandWakeup (scope : CommandScope) (wakeup : CommandWakeup) : DurableWakeupRequest where
  tenantId := scope.tenantId
  runId := wakeup.runId
  reason := wakeup.reason
  notBefore := wakeup.notBefore
  deduplicationKey := scope.commandId
  payload := "\x7b\x7d"

/-- What a callback ends with: the other tables as the operations it has awaited left them, what
it gave `putCommandRecord` and `enqueueWakeup`, its value, and what `#flushRunState` does with the
events and projections it staged. -/
structure Called (R : Type) where
  rest : R
  commandRecord : Option CommittedCommandRecord
  wakeup : Option CommandWakeup
  value : JsonValue
  flush : R → Except Thrown R

/-- A call of `transactCommand` by the runtime. -/
structure RunCommand (R : Type) where
  claims : CommandClaims
  context : BoundContext
  callback : R → Except Thrown (Called R)

/-- The scope of a command. -/
def RunCommand.scope {R : Type} (c : RunCommand R) : CommandScope :=
  commandScope c.claims c.context

/-- `CommandTransactionResult`. -/
structure CommandTransactionResult where
  value : JsonValue
  commandRecord : CommittedCommandRecord
  replayed : Bool

/-! ### The unit of work -/

/-- The options of the unit of work, `digestCanonicalJson` and `canonicalJsonStringify` of what it
digests and compares, and the work order `pactmark_run_work_orders` binds a run to. -/
structure PostgresRunCommandUnitOfWork (R : Type) where
  assertTenantAllowed : String → Except Thrown Unit
  generateWakeupId : Digest → String
  scopeDigest : CommandScope → Digest
  requestDigest : DurableWakeupRequest → Digest
  canonicalScope : CommandScope → String
  canonicalResourceScope : List JsonValue → String
  workOrderOf : R → StreamKey → Option String

namespace PostgresRunCommandUnitOfWork

variable {R : Type} (U : PostgresRunCommandUnitOfWork R)

/-- The error of `KAF_HTTP_IDEMPOTENCY_CONFLICT`. -/
def idempotencyConflict : Thrown :=
  kafError .KAF_HTTP_IDEMPOTENCY_CONFLICT

/-- `#assertCommandBinding`. -/
def assertCommandBinding (scope : CommandScope) (context : BoundContext) : Except Thrown Unit :=
  if scope.commandId ≠ context.commandId ∨ scope.operation ≠ context.operation ∨
      U.canonicalResourceScope scope.normalizedResourceScope ≠
        U.canonicalResourceScope context.normalizedResourceScope then
    .error idempotencyConflict
  else .ok ()

/-- `#assertRecordBinding`. -/
def assertRecordBinding (record : CommittedCommandRecord) (scope : CommandScope)
    (context : BoundContext) : Except Thrown Unit :=
  if U.canonicalScope record.scope ≠ U.canonicalScope scope ∨
      record.requestDigest ≠ context.requestDigest ∨ record.status ≠ .committed then
    .error idempotencyConflict
  else .ok ()

/-- The primary key a request would have in `pactmark_wakeups`. -/
def wakeupKey (request : DurableWakeupRequest) : WakeupKey :=
  (request.tenantId, U.generateWakeupId (U.requestDigest request))

/-- The row `#enqueueWakeup` inserts. -/
def pendingRow (request : DurableWakeupRequest) (workOrderId : String) : EnqueuedRow where
  tenantId := request.tenantId
  runId := request.runId
  wakeupId := U.generateWakeupId (U.requestDigest request)
  delegation := some request
  requestDigest := U.requestDigest request
  workOrderId
  availableAt := timestamptz request.notBefore.milliseconds
  deduplicationKey := request.deduplicationKey

/-- `#enqueueWakeup`; a staged work order has been bound to its run in the other tables. -/
def enqueueWakeup (s : CommandTables R) (tenantId : String) (request : DurableWakeupRequest) :
    Except Thrown (CommandTables R) :=
  if request.tenantId ≠ tenantId then .error (conflict "cross_tenant_wakeup")
  else
    match U.workOrderOf s.rest (tenantId, request.runId) with
    | none => .error (conflict "run_work_order_binding_missing")
    | some workOrderId =>
        -- `ON CONFLICT (tenant_id,deduplication_key) DO NOTHING`
        match s.deduplicated request.tenantId request.deduplicationKey with
        | some prior =>
            if prior.requestDigest ≠ U.requestDigest request then
              .error (conflict "wakeup_deduplication_changed")
            else .ok s
        | none =>
            -- the primary key is no arbiter of the statement
            match s.wakeups.get (U.wakeupKey request) with
            | some _ => .error (.host "DatabaseError" true)
            | none => .ok { s with
                wakeups := s.wakeups.set (U.wakeupKey request) (U.pendingRow request workOrderId) }

/-- The key of a command in `pactmark_commands`. -/
def commandKey (scope : CommandScope) : CommandKey :=
  (scope.tenantId, U.scopeDigest scope, scope.commandId)

/-- The callback of a command with the operations that touch `pactmark_wakeups`. -/
def runCallback (s : CommandTables R) (scope : CommandScope)
    (callback : R → Except Thrown (Called R)) : Except Thrown (Called R × CommandTables R) :=
  match callback s.rest with
  | .error e => .error e
  | .ok called =>
      match called.wakeup with
      | none => .ok (called, { s with rest := called.rest })
      | some wakeup =>
          match U.enqueueWakeup { s with rest := called.rest } scope.tenantId
              (commandWakeup scope wakeup) with
          | .error e => .error e
          | .ok s' => .ok (called, s')

/-- The end of `transactCommand`: the record, the staged operations, the row of the command. -/
def commitCommand (s : CommandTables R) (scope : CommandScope) (context : BoundContext)
    (called : Called R) : Except Thrown (CommandTransactionResult × CommandTables R) :=
  match called.commandRecord with
  | none => .error (.host "ZodError" true)
  | some record =>
      match U.assertRecordBinding record scope context with
      | .error e => .error e
      | .ok () =>
          match called.flush s.rest with
          | .error e => .error e
          | .ok rest =>
              .ok (⟨called.value, record, false⟩, { s with
                commands := s.commands.set (U.commandKey scope)
                  ⟨scope, context.requestDigest, record, called.value⟩
                rest })

/-- `transactCommand`. -/
def transactCommand (s : CommandTables R) (scope : CommandScope) (context : BoundContext)
    (callback : R → Except Thrown (Called R)) :
    Except Thrown (CommandTransactionResult × CommandTables R) :=
  match U.assertTenantAllowed scope.tenantId with
  | .error e => .error e
  | .ok () =>
      match U.assertCommandBinding scope context with
      | .error e => .error e
      | .ok () =>
          match s.commands.get (U.commandKey scope) with
          | some existing =>
              if U.canonicalScope existing.scope ≠ U.canonicalScope scope ∨
                  existing.requestDigest ≠ context.requestDigest then
                .error idempotencyConflict
              else .ok (⟨existing.value, existing.commandRecord, true⟩, s)
          | none =>
              match U.runCallback s scope callback with
              | .error e => .error e
              | .ok (called, s') => U.commitCommand s' scope context called

/-- `c` runs and commits from `s`, and leaves `s'`. -/
def Commits (s : CommandTables R) (c : RunCommand R) (s' : CommandTables R) : Prop :=
  ∃ result, U.transactCommand s c.scope c.context c.callback = .ok (result, s') ∧
    result.replayed = false

/-- `c` asks for a wakeup, which is a row of `s'` and of its run, and was none of `s`. -/
def Enqueues (s : CommandTables R) (c : RunCommand R) (s' : CommandTables R) : Prop :=
  ∃ called wakeup workOrderId, c.callback s.rest = .ok called ∧ called.wakeup = some wakeup ∧
    s.wakeups.get (U.wakeupKey (commandWakeup c.scope wakeup)) = none ∧
    s'.wakeups.get (U.wakeupKey (commandWakeup c.scope wakeup)) =
      some (U.pendingRow (commandWakeup c.scope wakeup) workOrderId)

/-- What a command does apart from the two tables: from `rest` its callback asks for `wakeup` of a
run that is bound to a work order, puts a record of its own command, and leaves `rest'`. -/
def Works (c : RunCommand R) (rest : R) (wakeup : CommandWakeup) (rest' : R) : Prop :=
  ∃ called record workOrderId, c.callback rest = .ok called ∧ called.wakeup = some wakeup ∧
    U.workOrderOf called.rest (c.scope.tenantId, wakeup.runId) = some workOrderId ∧
    called.commandRecord = some record ∧
    U.assertRecordBinding record c.scope c.context = .ok () ∧ called.flush called.rest = .ok rest'

/-- What stands between two commands that would each commit alone: their identities, the wakeups
there are under these, the generated identities of their wakeups, and what they do to the other
tables. -/
def Apart (s : CommandTables R) (c₁ c₂ : RunCommand R) : Prop :=
  c₁.context.commandId ≠ c₂.context.commandId ∧
  s.deduplicated c₁.scope.tenantId c₁.context.commandId = none ∧
  s.deduplicated c₂.scope.tenantId c₂.context.commandId = none ∧
  ∃ wakeup₁ rest₁ wakeup₂ rest₂,
    U.Works c₁ s.rest wakeup₁ rest₁ ∧ U.Works c₂ rest₁ wakeup₂ rest₂ ∧
    s.wakeups.get (U.wakeupKey (commandWakeup c₁.scope wakeup₁)) = none ∧
    s.wakeups.get (U.wakeupKey (commandWakeup c₂.scope wakeup₂)) = none ∧
    U.wakeupKey (commandWakeup c₁.scope wakeup₁) ≠ U.wakeupKey (commandWakeup c₂.scope wakeup₂)

/-! ### One command -/

variable {U} {s s' : CommandTables R} {c : RunCommand R}

theorem assertCommandBinding_own (U : PostgresRunCommandUnitOfWork R) (c : RunCommand R) :
    U.assertCommandBinding c.scope c.context = .ok () := by
  simp [assertCommandBinding, RunCommand.scope, commandScope]

/-- A wakeup is the row there was under its identity, or a row of its own. -/
theorem enqueueWakeup_ok {request : DurableWakeupRequest}
    (h : U.enqueueWakeup s request.tenantId request = .ok s') :
    ∃ workOrderId, U.workOrderOf s.rest (request.tenantId, request.runId) = some workOrderId ∧
      ((∃ prior, s.deduplicated request.tenantId request.deduplicationKey = some prior ∧
          prior.requestDigest = U.requestDigest request ∧ s' = s) ∨
        (s.deduplicated request.tenantId request.deduplicationKey = none ∧
          s.wakeups.get (U.wakeupKey request) = none ∧
          s' = { s with
            wakeups :=
              s.wakeups.set (U.wakeupKey request) (U.pendingRow request workOrderId) })) := by
  simp only [enqueueWakeup, ne_eq, not_true_eq_false, if_false] at h
  cases hw : U.workOrderOf s.rest (request.tenantId, request.runId) with
  | none => simp [hw] at h
  | some workOrderId =>
    refine ⟨workOrderId, rfl, ?_⟩
    simp only [hw] at h
    cases hd : s.deduplicated request.tenantId request.deduplicationKey with
    | some prior =>
      simp only [hd] at h
      by_cases hdigest : prior.requestDigest = U.requestDigest request
      · rw [if_neg (not_not.mpr hdigest)] at h
        exact .inl ⟨prior, rfl, hdigest, (Except.ok.inj h).symm⟩
      · rw [if_pos hdigest] at h
        cases h
    | none =>
      simp only [hd] at h
      cases hg : s.wakeups.get (U.wakeupKey request) with
      | some row => simp [hg] at h
      | none =>
        simp only [hg] at h
        exact .inr ⟨rfl, rfl, (Except.ok.inj h).symm⟩

/-- A wakeup under an identity and a key that are free is inserted. -/
theorem enqueueWakeup_free {request : DurableWakeupRequest} {workOrderId : String}
    (hw : U.workOrderOf s.rest (request.tenantId, request.runId) = some workOrderId)
    (hd : s.deduplicated request.tenantId request.deduplicationKey = none)
    (hg : s.wakeups.get (U.wakeupKey request) = none) :
    U.enqueueWakeup s request.tenantId request = .ok { s with
      wakeups := s.wakeups.set (U.wakeupKey request) (U.pendingRow request workOrderId) } := by
  simp [enqueueWakeup, hw, hd, hg]

/-- A wakeup is refused if the one under its identity has another digest. -/
theorem enqueueWakeup_changed {request : DurableWakeupRequest} {workOrderId : String}
    {prior : EnqueuedRow}
    (hw : U.workOrderOf s.rest (request.tenantId, request.runId) = some workOrderId)
    (hd : s.deduplicated request.tenantId request.deduplicationKey = some prior)
    (hdigest : prior.requestDigest ≠ U.requestDigest request) :
    U.enqueueWakeup s request.tenantId request =
      .error (conflict "wakeup_deduplication_changed") := by
  simp [enqueueWakeup, hw, hd, hdigest]

/-- A command that commits has been let in, is not stored, and has run its callback. -/
theorem Commits.cases (h : U.Commits s c s') :
    U.assertTenantAllowed c.scope.tenantId = .ok () ∧
    s.commands.get (U.commandKey c.scope) = none ∧
    ∃ called s₁ result, U.runCallback s c.scope c.callback = .ok (called, s₁) ∧
      U.commitCommand s₁ c.scope c.context called = .ok (result, s') := by
  obtain ⟨result, h, hreplayed⟩ := h
  simp only [transactCommand, assertCommandBinding_own] at h
  cases ht : U.assertTenantAllowed c.scope.tenantId with
  | error e => simp [ht] at h
  | ok u =>
    simp only [ht] at h
    cases hc : s.commands.get (U.commandKey c.scope) with
    | some existing =>
      -- a stored command is replayed or refused
      simp only [hc] at h
      split at h
      · cases h
      · cases h
        cases hreplayed
    | none =>
      simp only [hc] at h
      cases hr : U.runCallback s c.scope c.callback with
      | error e => simp [hr] at h
      | ok x =>
        obtain ⟨called, s₁⟩ := x
        simp only [hr] at h
        exact ⟨rfl, rfl, called, s₁, result, rfl, h⟩

/-- The end of a command that commits. -/
theorem commitCommand_ok {called : Called R} {result : CommandTransactionResult}
    (h : U.commitCommand s c.scope c.context called = .ok (result, s')) :
    ∃ record rest, called.commandRecord = some record ∧
      U.assertRecordBinding record c.scope c.context = .ok () ∧ called.flush s.rest = .ok rest ∧
      result = ⟨called.value, record, false⟩ ∧
      s' = { s with
        commands := s.commands.set (U.commandKey c.scope)
          ⟨c.scope, c.context.requestDigest, record, called.value⟩
        rest } := by
  simp only [commitCommand] at h
  cases hrecord : called.commandRecord with
  | none => simp [hrecord] at h
  | some record =>
    simp only [hrecord] at h
    cases hbound : U.assertRecordBinding record c.scope c.context with
    | error e => simp [hbound] at h
    | ok u =>
      simp only [hbound] at h
      cases hflush : called.flush s.rest with
      | error e => simp [hflush] at h
      | ok rest =>
        simp only [hflush] at h
        cases h
        exact ⟨record, rest, rfl, hbound, rfl, rfl, rfl⟩

/-- What a command that commits with a wakeup of its own leaves. -/
structure Leaves (U : PostgresRunCommandUnitOfWork R) (s : CommandTables R) (c : RunCommand R)
    (wakeup : CommandWakeup) (s' : CommandTables R) : Prop where
  works : U.Works c s.rest wakeup s'.rest
  fresh : s.wakeups.get (U.wakeupKey (commandWakeup c.scope wakeup)) = none
  wakeups : ∃ workOrderId, s'.wakeups =
    s.wakeups.set (U.wakeupKey (commandWakeup c.scope wakeup))
      (U.pendingRow (commandWakeup c.scope wakeup) workOrderId)
  commands : ∃ row, s'.commands = s.commands.set (U.commandKey c.scope) row

/-- A command that commits with a wakeup of its own found its identity free among the wakeups, and
has inserted one. -/
theorem enqueues_cases (h : U.Commits s c s') (hw : U.Enqueues s c s') :
    s.deduplicated c.scope.tenantId c.context.commandId = none ∧
      ∃ wakeup, U.Leaves s c wakeup s' := by
  obtain ⟨-, -, called, s₁, result, hr, hend⟩ := h.cases
  obtain ⟨record, rest, hrecord, hbound, hflush, -, rfl⟩ := commitCommand_ok hend
  obtain ⟨called', wakeup, asked, hcalled, hwakeup, hnone, hsome⟩ := hw
  simp only [runCallback, hcalled, hwakeup] at hr
  cases he : U.enqueueWakeup { s with rest := called'.rest } c.scope.tenantId
      (commandWakeup c.scope wakeup) with
  | error e => simp [he] at hr
  | ok s₂ =>
    simp only [he] at hr
    cases hr
    obtain ⟨workOrderId, hwork, hcases⟩ := enqueueWakeup_ok he
    rcases hcases with ⟨prior, -, -, rfl⟩ | ⟨hd, hg, rfl⟩
    · -- the wakeup of its identity was there, so none was inserted
      exact absurd (hnone.symm.trans hsome) (by simp)
    · exact ⟨hd, wakeup,
        ⟨called, record, workOrderId, hcalled, hwakeup, hwork, hrecord, hbound, hflush⟩,
        hg, ⟨workOrderId, rfl⟩, ⟨_, rfl⟩⟩

/-- A command that is let in, is not stored, finds its identity and that of its wakeup free and
does its work on the other tables commits with a wakeup of its own. -/
theorem enqueues_of {wakeup : CommandWakeup} {rest : R}
    (ht : U.assertTenantAllowed c.scope.tenantId = .ok ())
    (hc : s.commands.get (U.commandKey c.scope) = none)
    (hd : s.deduplicated c.scope.tenantId c.context.commandId = none)
    (hworks : U.Works c s.rest wakeup rest)
    (hg : s.wakeups.get (U.wakeupKey (commandWakeup c.scope wakeup)) = none) :
    ∃ s', U.Commits s c s' ∧ U.Enqueues s c s' ∧ U.Leaves s c wakeup s' ∧ s'.rest = rest := by
  have hworks' := hworks
  obtain ⟨called, record, workOrderId, hcalled, hwakeup, hwork, hrecord, hbound, hflush⟩ := hworks
  let s₁ : CommandTables R := { s with
    wakeups := s.wakeups.set (U.wakeupKey (commandWakeup c.scope wakeup))
      (U.pendingRow (commandWakeup c.scope wakeup) workOrderId)
    rest := called.rest }
  have he : U.enqueueWakeup { s with rest := called.rest } (commandWakeup c.scope wakeup).tenantId
      (commandWakeup c.scope wakeup) = .ok s₁ := enqueueWakeup_free hwork hd hg
  have hr : U.runCallback s c.scope c.callback = .ok (called, s₁) := by
    simp only [runCallback, hcalled, hwakeup]
    rw [show c.scope.tenantId = (commandWakeup c.scope wakeup).tenantId from rfl, he]
  refine ⟨{ s₁ with
      commands := s.commands.set (U.commandKey c.scope)
        ⟨c.scope, c.context.requestDigest, record, called.value⟩
      rest },
    ⟨⟨called.value, record, false⟩, ?_, rfl⟩,
    ⟨called, wakeup, workOrderId, hcalled, hwakeup, hg, OrderedMap.get_set_self _ _ _⟩,
    ⟨hworks', hg, ⟨workOrderId, rfl⟩, ⟨_, rfl⟩⟩, rfl⟩
  simp only [transactCommand, ht, assertCommandBinding_own, hc, hr, commitCommand, hrecord,
    hbound, hflush, s₁]

/-! ### Two commands -/

/-- The wakeup under an identity after a row of another key was inserted. -/
theorem deduplicated_set {key : WakeupKey} {row : EnqueuedRow} (hg : s.wakeups.get key = none)
    (hs : s'.wakeups = s.wakeups.set key row) (tenantId deduplicationKey : String) :
    s'.deduplicated tenantId deduplicationKey = none ↔
      s.deduplicated tenantId deduplicationKey = none ∧
        ¬ (row.tenantId = tenantId ∧ row.deduplicationKey = deduplicationKey) := by
  have hfresh := OrderedMap.get_eq_none_iff.mp hg
  simp only [CommandTables.deduplicated, hs, OrderedMap.set_entries_of_fresh _ hfresh,
    Option.map_eq_none_iff, List.find?_eq_none, List.mem_append, List.mem_singleton]
  constructor
  · intro h
    exact ⟨fun x hx => h x (.inl hx), by simpa using h (key, row) (.inr rfl)⟩
  · rintro ⟨h, hrow⟩ x (hx | rfl)
    · exact h x hx
    · simpa using hrow

/-- The wakeup under the identity of a row that was just inserted. -/
theorem deduplicated_inserted {key : WakeupKey} {row : EnqueuedRow}
    (hg : s.wakeups.get key = none) (hs : s'.wakeups = s.wakeups.set key row)
    (hd : s.deduplicated row.tenantId row.deduplicationKey = none) :
    s'.deduplicated row.tenantId row.deduplicationKey = some row := by
  have hfresh := OrderedMap.get_eq_none_iff.mp hg
  simp only [CommandTables.deduplicated, Option.map_eq_none_iff] at hd
  simp only [CommandTables.deduplicated, hs, OrderedMap.set_entries_of_fresh _ hfresh,
    List.find?_append, hd, Option.none_or]
  simp

variable {c₁ c₂ : RunCommand R} {s₁ s₂ : CommandTables R}

/-- After a command has enqueued its wakeup, a command of another scope with the same identity,
which would wake another run, is rolled back. -/
theorem sameCommandId_conflict {wakeup₁ wakeup₂ : CommandWakeup} {called : Called R}
    {workOrderId : String} (ht : c₁.scope.tenantId = c₂.scope.tenantId)
    (hids : c₁.context.commandId = c₂.context.commandId)
    (hd : s.deduplicated c₁.scope.tenantId c₁.context.commandId = none)
    (h₁ : U.Leaves s c₁ wakeup₁ s₁) (hallowed : U.assertTenantAllowed c₂.scope.tenantId = .ok ())
    (hscope : U.scopeDigest c₁.scope ≠ U.scopeDigest c₂.scope)
    (hnew : s.commands.get (U.commandKey c₂.scope) = none)
    (hcalled : c₂.callback s₁.rest = .ok called) (hwakeup : called.wakeup = some wakeup₂)
    (hwork : U.workOrderOf called.rest (c₂.scope.tenantId, wakeup₂.runId) = some workOrderId)
    (hrequest : U.requestDigest (commandWakeup c₁.scope wakeup₁) ≠
      U.requestDigest (commandWakeup c₂.scope wakeup₂)) :
    U.transactCommand s₁ c₂.scope c₂.context c₂.callback =
      .error (conflict "wakeup_deduplication_changed") := by
  obtain ⟨workOrder₁, hw₁⟩ := h₁.wakeups
  obtain ⟨row₁, hcommands₁⟩ := h₁.commands
  have hnew₁ : s₁.commands.get (U.commandKey c₂.scope) = none := by
    rw [hcommands₁, OrderedMap.get_set_of_ne _ _ fun h => hscope (congrArg (·.2.1) h).symm]
    exact hnew
  have hprior : s₁.deduplicated c₂.scope.tenantId c₂.scope.commandId =
      some (U.pendingRow (commandWakeup c₁.scope wakeup₁) workOrder₁) := by
    rw [← ht, show c₂.scope.commandId = c₁.context.commandId from hids.symm]
    exact deduplicated_inserted h₁.fresh hw₁ hd
  have he : U.enqueueWakeup { s₁ with rest := called.rest } c₂.scope.tenantId
      (commandWakeup c₂.scope wakeup₂) = .error (conflict "wakeup_deduplication_changed") :=
    enqueueWakeup_changed hwork hprior hrequest
  simp only [transactCommand, hallowed, assertCommandBinding_own, hnew₁, runCallback, hcalled,
    hwakeup, he]

/-- **Two commands**: where each commits alone, the second commits after the first and both have
wakeups of their own exactly when the two are apart. -/
theorem both_enqueue_iff (ht : c₁.scope.tenantId = c₂.scope.tenantId)
    (h₁ : ∃ s', U.Commits s c₁ s') (h₂ : ∃ s', U.Commits s c₂ s') :
    (∃ s₁ s₂, U.Commits s c₁ s₁ ∧ U.Enqueues s c₁ s₁ ∧ U.Commits s₁ c₂ s₂ ∧
      U.Enqueues s₁ c₂ s₂) ↔ U.Apart s c₁ c₂ := by
  obtain ⟨_, h₁⟩ := h₁
  obtain ⟨_, h₂⟩ := h₂
  obtain ⟨hallowed₁, hnew₁, -⟩ := h₁.cases
  obtain ⟨hallowed₂, hnew₂, -⟩ := h₂.cases
  constructor
  · rintro ⟨s₁, s₂, hc₁, he₁, hc₂, he₂⟩
    obtain ⟨hd₁, wakeup₁, hl₁⟩ := enqueues_cases hc₁ he₁
    obtain ⟨hd₂, wakeup₂, hl₂⟩ := enqueues_cases hc₂ he₂
    obtain ⟨workOrder₁, hw₁⟩ := hl₁.wakeups
    obtain ⟨hd₂, hids⟩ := (deduplicated_set hl₁.fresh hw₁ _ _).mp hd₂
    have hfresh₂ := hl₂.fresh
    rw [hw₁, OrderedMap.get_set] at hfresh₂
    split at hfresh₂
    · cases hfresh₂
    · rename_i hkey
      exact ⟨fun h => hids ⟨ht, h⟩, hd₁, hd₂, wakeup₁, s₁.rest, wakeup₂, s₂.rest, hl₁.works,
        hl₂.works, hl₁.fresh, hfresh₂, Ne.symm hkey⟩
  · rintro ⟨hids, hd₁, hd₂, wakeup₁, rest₁, wakeup₂, rest₂, hworks₁, hworks₂, hg₁, hg₂, hkey⟩
    obtain ⟨s₁, hc₁, he₁, hl₁, rfl⟩ := enqueues_of hallowed₁ hnew₁ hd₁ hworks₁ hg₁
    obtain ⟨workOrder₁, hw₁⟩ := hl₁.wakeups
    obtain ⟨row₁, hcommands₁⟩ := hl₁.commands
    -- the command of the first is stored under another identity
    have hnew₂' : s₁.commands.get (U.commandKey c₂.scope) = none := by
      rw [hcommands₁, OrderedMap.get_set_of_ne _ _ fun h => hids (congrArg (·.2.2) h).symm]
      exact hnew₂
    have hd₂' : s₁.deduplicated c₂.scope.tenantId c₂.context.commandId = none :=
      (deduplicated_set hg₁ hw₁ _ _).mpr ⟨hd₂, fun h => hids h.2⟩
    have hg₂' : s₁.wakeups.get (U.wakeupKey (commandWakeup c₂.scope wakeup₂)) = none := by
      rw [hw₁, OrderedMap.get_set_of_ne _ _ (Ne.symm hkey)]
      exact hg₂
    obtain ⟨s₂, hc₂, he₂, -⟩ := enqueues_of hallowed₂ hnew₂' hd₂' hworks₂ hg₂'
    exact ⟨s₁, s₂, hc₁, he₁, hc₂, he₂⟩

section Witness

/-- A unit of work over runs that are all bound to one work order, and nothing else. -/
def boundRuns : PostgresRunCommandUnitOfWork Unit where
  assertTenantAllowed _ := .ok ()
  generateWakeupId digest := digest
  scopeDigest scope := scope.principal.id
  requestDigest request := request.runId
  canonicalScope scope := scope.principal.id
  canonicalResourceScope _ := "[]"
  workOrderOf _ _ := some "work-order"

/-- No command has run. -/
def noCommands : CommandTables Unit :=
  ⟨.empty, .empty, ()⟩

/-- A principal resumes a run. -/
def resumes (principal commandId runId : String) : RunCommand Unit :=
  let claims : CommandClaims :=
    ⟨"issuer", .object [("id", .string "tenant")], .object [("id", .string principal)]⟩
  let context : BoundContext := ⟨commandId, "run.resume", [], "request"⟩
  { claims
    context
    callback := fun _ => .ok
      { rest := ()
        commandRecord := some
          { scope := commandScope claims context
            requestDigest := "request"
            status := .committed
            responseReference := some "response"
            safeResponseDigest := some "response"
            firstSeenAt := 0
            committedAt := some 0
            detailRetentionExpiresAt := 86400000
            idempotencyExpiresAt := 86400000 }
        wakeup := some ⟨runId, .resume, ⟨"1970-01-01T00:00:00.000Z", 0⟩⟩
        value := .null
        flush := .ok } }

theorem resumes_works (principal commandId runId : String) :
    boundRuns.Works (resumes principal commandId runId) ()
      ⟨runId, .resume, ⟨"1970-01-01T00:00:00.000Z", 0⟩⟩ () :=
  ⟨_, _, _, rfl, rfl, rfl, rfl, if_neg (by simp [resumes, RunCommand.scope]), rfl⟩

/-- A principal who is alone resumes a run. -/
theorem resumes_alone (principal commandId runId : String) :
    ∃ s', boundRuns.Commits noCommands (resumes principal commandId runId) s' ∧
      boundRuns.Enqueues noCommands (resumes principal commandId runId) s' :=
  (enqueues_of rfl rfl rfl (resumes_works principal commandId runId) rfl).imp
    fun _ h => ⟨h.1, h.2.1⟩

/-- Two principals of a tenant resume a run each, under two identities. -/
theorem both_enqueue_two_runs :
    ∃ s₁ s₂, boundRuns.Commits noCommands (resumes "alice" "one" "run-1") s₁ ∧
      boundRuns.Enqueues noCommands (resumes "alice" "one" "run-1") s₁ ∧
      boundRuns.Commits s₁ (resumes "bob" "two" "run-2") s₂ ∧
      boundRuns.Enqueues s₁ (resumes "bob" "two" "run-2") s₂ := by
  have ht : (resumes "alice" "one" "run-1").scope.tenantId =
      (resumes "bob" "two" "run-2").scope.tenantId := rfl
  refine (both_enqueue_iff ht ((resumes_alone _ _ _).imp fun _ h => h.1)
    ((resumes_alone _ _ _).imp fun _ h => h.1)).mpr
    ⟨?_, rfl, rfl, _, _, _, _, resumes_works _ _ _, resumes_works _ _ _, rfl, rfl, ?_⟩
  · decide
  · decide

/-- Under one identity, the second of them is rolled back. -/
theorem sameCommandId_interferes :
    ¬ ∀ c₁ c₂ : RunCommand Unit, c₁.scope.tenantId = c₂.scope.tenantId → c₁.scope ≠ c₂.scope →
      (∃ s', boundRuns.Commits noCommands c₁ s' ∧ boundRuns.Enqueues noCommands c₁ s') →
      (∃ s', boundRuns.Commits noCommands c₂ s' ∧ boundRuns.Enqueues noCommands c₂ s') →
      ∃ s₁ s₂, boundRuns.Commits noCommands c₁ s₁ ∧ boundRuns.Enqueues noCommands c₁ s₁ ∧
        boundRuns.Commits s₁ c₂ s₂ ∧ boundRuns.Enqueues s₁ c₂ s₂ := by
  intro h
  have hscope : (resumes "alice" "same" "run-1").scope ≠ (resumes "bob" "same" "run-2").scope :=
    fun h => absurd (congrArg (·.principal.id) h) (by decide)
  obtain ⟨s₁, s₂, hc₁, he₁, hc₂, he₂⟩ := h (resumes "alice" "same" "run-1")
    (resumes "bob" "same" "run-2") rfl hscope (resumes_alone _ _ _) (resumes_alone _ _ _)
  obtain ⟨hd₁, wakeup₁, hl₁⟩ := enqueues_cases hc₁ he₁
  obtain ⟨workOrder₁, hw₁⟩ := hl₁.wakeups
  obtain ⟨hd₂, -⟩ := enqueues_cases hc₂ he₂
  exact ((deduplicated_set hl₁.fresh hw₁ _ _).mp hd₂).2 ⟨rfl, rfl⟩

end Witness

end PostgresRunCommandUnitOfWork

end Worker

end Pactmark
