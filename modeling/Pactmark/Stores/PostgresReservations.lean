import Pactmark.Durable.Locking
import Pactmark.Durable.Overlay
import Pactmark.Stores.ActiveExecution
import Pactmark.Stores.ModelCalls
import Pactmark.Stores.PostgresAdmission

/-!
# Stores — the counters of Postgres reservations

The transactions of `store-postgres/src/resource-reservations.ts` that reserve: `reserveAdmission`,
`putActiveExecutionReservation` and `putModelCallReservation`, one or several of them in one
transaction.  Every statement is one step at READ COMMITTED: it sees what is committed and what its
own transaction has written, and waits while another transaction holds a lock it needs.  Advisory
locks are numbers that any function makes of their keys, so that two keys may have one lock.

A counter is what a limit or a budget bounds: the sum of what the rows of its table are charged
for it.

* `Knows`: what is known of a transaction and one counter.
* `Sound.step`: what every step keeps.
* `reservations_never_overdraw`: what holds of every interleaving.
-/

namespace Pactmark

open Durable Reservation Policy

/-! ### Tables and counters -/

/-- The primary key of a row of `pactmark_admission_reservations`,
`pactmark_active_execution_reservations` or `pactmark_model_call_reservations`. -/
inductive ReservationKey where
  | admission (tenantId reservationId : String)
  | activeExecution (key : ActiveExecutionRecordKey)
  | modelCall (key : ModelCallRecordKey)
  deriving DecidableEq

/-- A row of one of the three tables. -/
inductive ReservationRow where
  | admission (row : AdmissionRow)
  | activeExecution (reservation : ActiveExecution)
  | modelCall (reservation : ModelCall)

/-- The three tables. -/
abbrev ReservationRows := OrderedMap ReservationKey ReservationRow

/-- What an advisory lock is taken for. -/
inductive AdvisoryKey where
  | admission (tenantId : String) (scope : QuotaScope) (principal : Option Principal)
      (category : AdmissionCategory) (resourceKey : String)
  | activeExecution (tenantId runId : String)
  | modelCall (tenantId : String) (profile : Digest)

/-- An advisory lock, or that of a row. -/
inductive ReservationLock where
  | advisory (number : Int)
  | row (key : ReservationKey)
  deriving DecidableEq

/-- A counter: admissions of a tenant or of one principal, the execution of a run, or a metric of
the model calls of a tenant and a profile. -/
inductive ReservationCounter where
  | admission (tenantId : String) (principal : Option Principal) (category : AdmissionCategory)
      (resourceKey : String)
  | activeExecution (tenantId runId : String)
  | modelCall (metric : ModelMetric) (tenantId : String) (profile : Digest)

namespace ReservationCounter

/-- The rows whose charges the counter sums up. -/
def counts : ReservationCounter → ReservationRow → Bool
  | .admission tenantId principal category resourceKey, .admission row =>
      row.reservation.state = .reserved ∧ row.reservation.tenantId = tenantId ∧
        (principal = none ∨ principal = some row.reservation.principal) ∧
        row.reservation.category = category ∧ row.reservation.resourceKey = resourceKey
  | .activeExecution tenantId runId, .activeExecution r =>
      MemoryActiveExecutionReservationStore.ofRun tenantId runId r
  | .modelCall _ tenantId profile, .modelCall r =>
      MemoryModelCallReservationStore.ofProfile tenantId profile r
  | _, _ => false

/-- What such a row is charged. -/
def weight : ReservationCounter → ReservationRow → Nat
  | _, .admission row => row.reservation.amount
  | _, .activeExecution r => r.charge
  | .modelCall metric _ _, .modelCall r => MemoryModelCallReservationStore.charge metric r
  | _, .modelCall _ => 0

/-- `SELECT COALESCE(SUM(..),0) AS used`. -/
def used (counter : ReservationCounter) (rows : ReservationRows) : Nat :=
  rows.total counter.counts counter.weight

/-- What a row adds to the sum. -/
def charge (counter : ReservationCounter) (row : ReservationRow) : Nat :=
  OrderedMap.share counter.counts counter.weight row

/-- The lock that a reservation for the counter takes. -/
def lock : ReservationCounter → AdvisoryKey
  | .admission tenantId principal category resourceKey =>
      .admission tenantId (if principal.isNone then .tenant else .principal) principal category
        resourceKey
  | .activeExecution tenantId runId => .activeExecution tenantId runId
  | .modelCall _ tenantId profile => .modelCall tenantId profile

/-- What the charges of the counter may sum up to: the maximum of the limit of its scope, or the
budget of the run. -/
def maximum (limits : List QuotaLimit) (budget : String → String → JsNumber) :
    ReservationCounter → Option ℚ
  | .admission _ principal category resourceKey =>
      ((PostgresQuotaStore.selectLimit limits category resourceKey).filter fun limit =>
        decide (limit.scope = .tenant) = principal.isNone).map (·.maximum)
  | .activeExecution tenantId runId => (budget tenantId runId).positiveSafeInteger.map (Nat.cast ·)
  | .modelCall metric _ profile =>
      ((MemoryModelCallReservationStore.create limits).limit metric profile).map (·.maximum)

/-- A counter of the costs of model calls. -/
def IsCost : ReservationCounter → Prop
  | .modelCall .model_cost_minor _ _ => True
  | _ => False

end ReservationCounter

/-! ### Transactions -/

/-- An operation of a transaction. -/
inductive ReservationWork where
  | reserveAdmission (request : AdmissionRequest)
  | putActiveExecutionReservation (requested : ActiveExecution)
  | putModelCallReservation (next : ModelCall)

/-- The statement that a transaction makes next, with what it has read. -/
inductive ReservationStage where
  /-- `reserveAdmission`. -/
  | admissionLock (request : AdmissionRequest)
  | admissionPrior (request : AdmissionRequest)
  | admissionNow (request : AdmissionRequest)
  | admissionExpire (request : AdmissionRequest) (now : Int)
  | admissionUsed (request : AdmissionRequest) (now : Int)
  | admissionId (request : AdmissionRequest) (now : Int)
  /-- `putActiveExecutionReservation`. -/
  | activeExecutionLock (requested : ActiveExecution)
  | activeExecutionPrior (requested : ActiveExecution)
  | activeExecutionNow (requested : ActiveExecution) (prior : Option ActiveExecution)
  | activeExecutionUsed (requested : ActiveExecution) (now : Int)
  /-- `putModelCallReservation`. -/
  | modelCallPrior (next : ModelCall)
  | modelCallLock (next : ModelCall)
  | modelCallUsed (next : ModelCall) (entry : (ModelMetric × Nat) × QuotaLimit)
      (rest : List ((ModelMetric × Nat) × QuotaLimit))
  | insert (key : ReservationKey) (row : ReservationRow)
  | update (key : ReservationKey) (row : ReservationRow)
  /-- Nothing but `COMMIT`. -/
  | finished

/-- An open transaction: its next statement, the operations that follow, and the rows that it has
written. -/
structure ReservationTransaction where
  stage : ReservationStage
  rest : List ReservationWork
  written : ReservationRows
  locks : List ReservationLock

namespace ReservationWork

/-- The first statement of an operation. -/
def stage : ReservationWork → ReservationStage
  | .reserveAdmission request => .admissionLock request
  | .putActiveExecutionReservation requested => .activeExecutionLock requested
  | .putModelCallReservation next => .modelCallPrior next

/-- A model call that is settled with costs declares a maximum of them. -/
def CostDeclared : ReservationWork → Prop
  | .putModelCallReservation next => MemoryModelCallReservationStore.CostDeclared next
  | _ => True

instance : DecidablePred CostDeclared
  | .putModelCallReservation next =>
      inferInstanceAs (Decidable (∀ settlement ∈ next.settlement,
        settlement.chargedCostMinor.isSome → next.maximumCallCostMinor.isSome))
  | .reserveAdmission _ | .putActiveExecutionReservation _ => .isTrue trivial

end ReservationWork

namespace ReservationTransaction

variable (limits : List QuotaLimit) (budget : String → String → JsNumber)
  (digestCanonicalJson : AdmissionRequest → Digest) (hashtext : AdvisoryKey → Int)

/-- The rows that a statement sees. -/
def seen (t : ReservationTransaction) (rows : ReservationRows) : ReservationRows :=
  rows.overlay t.written

/-- The transaction with a row written. -/
def write (t : ReservationTransaction) (key : ReservationKey) (row : ReservationRow) :
    ReservationTransaction :=
  { t with written := t.written.set key row }

/-- The operation has returned. -/
def proceed (t : ReservationTransaction) : ReservationTransaction :=
  match t.rest with
  | [] => { t with stage := .finished }
  | work :: rest => { t with stage := work.stage, rest }

/-- The counter of a request. -/
def counter (request : AdmissionRequest) : ReservationCounter :=
  .admission request.tenantId
    (if (PostgresQuotaStore.selectLimit limits request.category request.resourceKey).map
        (·.scope) = some .tenant then none
      else some request.principal)
    request.category request.resourceKey

/-- The limit that the amounts exceed. -/
def exceededLimit (request : AdmissionRequest) (amounts : Nat) : Option QuotaLimit :=
  (PostgresQuotaStore.selectLimit limits request.category request.resourceKey).filter fun limit =>
    decide (limit.maximum < amounts)

/-- The row of an earlier request of the same command. -/
def priorAdmission (rows : ReservationRows) (request : AdmissionRequest) :
    Option (ReservationKey × AdmissionRow) :=
  if request.commandId = none then none
  else rows.entries.findSome? fun
    | (key, .admission row) =>
        if row.reservation.admissionReplayKey = request.admissionReplayKey then some (key, row)
        else none
    | _ => none

/-- The reservation of the same boundary. -/
def priorActiveExecution (rows : ReservationRows) (requested : ActiveExecution) :
    Option ActiveExecution :=
  match rows.get (.activeExecution requested.recordKey) with
  | some (.activeExecution prior) => some prior
  | _ => none

/-- The reservation of the same attempt. -/
def priorModelCall (rows : ReservationRows) (next : ModelCall) : Option ModelCall :=
  match rows.get (.modelCall next.recordKey) with
  | some (.modelCall prior) => some prior
  | _ => none

/-- `SET state='expired'`, where the statement finds the row. -/
def expired (request : AdmissionRequest) (clock : Int) : ReservationRow → Option ReservationRow
  | .admission row =>
      if PostgresQuotaStore.ofHolder request row.reservation = true ∧
          row.reservation.state = .reserved ∧ row.reservation.leaseExpiresAt ≤ clock then
        some (.admission { row with reservation := { row.reservation with state := .expired } })
      else none
  | _ => none

/-- The rows that are expired, as they are written. -/
def expire (request : AdmissionRequest) (clock : Int) (rows : ReservationRows) :
    List (ReservationKey × ReservationRow) :=
  rows.entries.filterMap fun x => (expired request clock x.2).map (x.1, ·)

/-- The maximums of a model call that have a limit. -/
def quotas (next : ModelCall) : List ((ModelMetric × Nat) × QuotaLimit) :=
  (MemoryModelCallReservationStore.maximums next).filterMap fun entry =>
    ((MemoryModelCallReservationStore.create limits).limit entry.1
      next.modelSecurityProfileDigest).map (entry, ·)

/-- The loop over the maximums, and the insertion after it. -/
def modelCallStage (next : ModelCall) : List ((ModelMetric × Nat) × QuotaLimit) → ReservationStage
  | [] => .insert (.modelCall next.recordKey) (.modelCall next)
  | entry :: rest => .modelCallUsed next entry rest

/-- What an active-execution reservation that is stored becomes: `none` where the stored one is
returned. -/
def settlement (prior requested : ActiveExecution) (now : Int) :
    Except Thrown (Option ActiveExecution) :=
  if prior = requested then .ok none
  else if prior.executionIdentity ≠ requested.executionIdentity then
    .error (conflict "active_execution_binding_changed")
  else if prior.state ≠ .reserved then
    if requested.state = prior.state then .ok none
    else .error (conflict "active_execution_transition_changed")
  else if requested.state = .reserved then .ok none
  else some <$> MemoryActiveExecutionReservationStore.settle prior requested.state (reading now)

/-- **A statement**: the locks it needs and what it leaves, or `none` if the transaction throws.
`answer` is what `clock_timestamp()` or the sequence answers it.  `PostgresQuotaStore.reserve`
catches the refusal of an admission and commits. -/
def statement (t : ReservationTransaction) (rows : ReservationRows) (answer : Int) :
    Option (List ReservationLock × ReservationTransaction) :=
  match t.stage with
  | .admissionLock request =>
      some ([.advisory (hashtext (counter limits request).lock)],
        { t with stage := .admissionPrior request })
  | .admissionPrior request =>
      match priorAdmission (t.seen rows) request with
      | some (key, row) =>
          if row.requestDigest ≠ digestCanonicalJson request then none
          else some ([.row key], t.proceed)
      | none => some ([], { t with stage := .admissionNow request })
  | .admissionNow request =>
      match toISOString (some answer) with
      | .error _ => none
      | .ok now => some ([], { t with stage := .admissionExpire request now })
  | .admissionExpire request now =>
      let expired := expire request answer (t.seen rows)
      some (expired.map fun x => .row x.1,
        { expired.foldl (fun t x => t.write x.1 x.2) t with
          stage := .admissionUsed request now })
  | .admissionUsed request now =>
      match exceededLimit limits request
          ((counter limits request).used (t.seen rows) + request.amount) with
      | some _ => some ([], { t with stage := .finished, rest := [] })
      | none => some ([], { t with stage := .admissionId request now })
  | .admissionId request now =>
      match PostgresQuotaStore.create ⟨.empty, answer.toNat⟩ request now with
      | .error _ => none
      | .ok reservation =>
          some ([],
            { t with
              stage :=
                .insert (.admission reservation.tenantId reservation.id)
                  (.admission ⟨reservation, digestCanonicalJson request⟩) })
  | .activeExecutionLock requested =>
      match (budget requested.tenantId requested.runId).positiveSafeInteger with
      | none => none
      | some _ =>
          some ([.advisory (hashtext (.activeExecution requested.tenantId requested.runId))],
            { t with stage := .activeExecutionPrior requested })
  | .activeExecutionPrior requested =>
      match priorActiveExecution (t.seen rows) requested with
      | none => some ([], { t with stage := .activeExecutionNow requested none })
      | some prior =>
          some ([.row (.activeExecution requested.recordKey)],
            { t with stage := .activeExecutionNow requested (some prior) })
  | .activeExecutionNow requested none =>
      if requested.state ≠ .reserved then none
      else some ([], { t with stage := .activeExecutionUsed requested answer })
  | .activeExecutionNow requested (some prior) =>
      match settlement prior requested answer with
      | .error _ => none
      | .ok none => some ([], t.proceed)
      | .ok (some next) =>
          some ([],
            { t with
              stage := .update (.activeExecution requested.recordKey) (.activeExecution next) })
  | .activeExecutionUsed requested now =>
      match (budget requested.tenantId requested.runId).positiveSafeInteger with
      | none => none
      | some maximum =>
          let counter := ReservationCounter.activeExecution requested.tenantId requested.runId
          if counter.used (t.seen rows) + requested.maxChargeMs > maximum then none
          else
            match MemoryActiveExecutionReservationStore.start requested (reading now) with
            | .error _ => none
            | .ok next =>
                some ([],
                  { t with
                    stage :=
                      .insert (.activeExecution requested.recordKey) (.activeExecution next) })
  | .modelCallPrior next =>
      match priorModelCall (t.seen rows) next with
      | none =>
          if next.status ≠ .accepted ∨ next.outputBytesMaximum = none then none
          else some ([], { t with stage := .modelCallLock next })
      | some prior =>
          let locks := [.row (.modelCall next.recordKey)]
          if prior = next then some (locks, t.proceed)
          else if prior.toCallIdentity ≠ next.toCallIdentity then none
          else if ¬ MemoryModelCallReservationStore.allowed prior.status next.status then none
          else if MemoryModelCallReservationStore.settlementExceeds next then none
          else
            some (locks, { t with stage := .update (.modelCall next.recordKey) (.modelCall next) })
  | .modelCallLock next =>
      some ([.advisory (hashtext (.modelCall next.tenantId next.modelSecurityProfileDigest))],
        { t with stage := modelCallStage next (quotas limits next) })
  | .modelCallUsed next entry rest =>
      let counter := ReservationCounter.modelCall entry.1.1 next.tenantId
        next.modelSecurityProfileDigest
      let used : Nat := counter.used (t.seen rows) + entry.1.2
      if entry.2.maximum < used then none
      else some ([], { t with stage := modelCallStage next rest })
  | .insert key row =>
      if ((t.seen rows).get key).isSome then none
      else some ([.row key], (t.write key row).proceed)
  | .update key row => some ([.row key], (t.write key row).proceed)
  | .finished => some ([], t)

end ReservationTransaction

/-! ### Interleavings -/

/-- A step of a transaction. -/
inductive ReservationStep where
  | begin (id : Nat) (work : List ReservationWork)
  | statement (id : Nat) (answer : Int)
  | commit (id : Nat)
  | rollback (id : Nat)

/-- The committed rows and the open transactions. -/
structure ReservationDatabase where
  rows : ReservationRows
  transactions : OrderedMap Nat ReservationTransaction

namespace ReservationDatabase

variable (limits : List QuotaLimit) (budget : String → String → JsNumber)
  (digestCanonicalJson : AdmissionRequest → Digest) (hashtext : AdvisoryKey → Int)

/-- Empty tables. -/
def start : ReservationDatabase :=
  ⟨.empty, .empty⟩

/-- Another open transaction holds one of the locks. -/
def waits (s : ReservationDatabase) (id : Nat) (locks : List ReservationLock) : Bool :=
  s.transactions.waits (·.locks) id locks

/-- What a step leaves.  One that has to wait, or is not one of an open transaction, leaves the
database as it is. -/
def step (s : ReservationDatabase) : ReservationStep → ReservationDatabase
  | .begin id work =>
      if s.transactions.has id then s
      else
        { s with
          transactions :=
            s.transactions.set id
              (ReservationTransaction.proceed ⟨.finished, work, .empty, []⟩) }
  | .statement id answer =>
      match s.transactions.get id with
      | none => s
      | some t =>
          match t.statement limits budget digestCanonicalJson hashtext s.rows answer with
          | none => { s with transactions := s.transactions.delete id }
          | some (locks, next) =>
              if s.waits id locks then s
              else
                { s with
                  transactions := s.transactions.set id { next with locks := t.locks ++ locks } }
  | .commit id =>
      match s.transactions.get id with
      | none => s
      | some t =>
          match t.stage with
          | .finished => ⟨t.seen s.rows, s.transactions.delete id⟩
          | _ => s
  | .rollback id => { s with transactions := s.transactions.delete id }

/-- What a sequence of steps leaves. -/
def after (steps : List ReservationStep) : ReservationDatabase :=
  steps.foldl (step limits budget digestCanonicalJson hashtext) start

/-- **The condition** on a step: a settlement that charges costs is put for a reservation that
declares a maximum of them. -/
def Meets : ReservationStep → Prop
  | .begin _ work => ∀ x ∈ work, x.CostDeclared
  | _ => True

instance : DecidablePred Meets
  | .begin _ work => inferInstanceAs (Decidable (∀ x ∈ work, x.CostDeclared))
  | .statement _ _ | .commit _ | .rollback _ => .isTrue trivial

end ReservationDatabase

/-! ### What a counter sums up -/

namespace ReservationCounter

variable {limits : List QuotaLimit} {budget : String → String → JsNumber}
  {counter : ReservationCounter} {rows rows' : ReservationRows}

/-- What a row adds to the sum, or nothing where there is none. -/
def charged (counter : ReservationCounter) (row : Option ReservationRow) : Nat :=
  OrderedMap.shareOf counter.counts counter.weight row

theorem used_le_of_get
    (h : ∀ key, counter.charged (rows'.get key) ≤ counter.charged (rows.get key)) :
    counter.used rows' ≤ counter.used rows :=
  OrderedMap.total_le_of_get _ _ h

theorem used_set (key : ReservationKey) (row : ReservationRow) :
    counter.used (rows.set key row) + counter.charged (rows.get key) =
      counter.used rows + counter.charge row :=
  OrderedMap.total_set _ _ rows key row

/-- A new reservation of admission is charged its amount, for the counter of its request. -/
theorem charge_admission {request : AdmissionRequest} {now : Int} {id : String} {digest : Digest}
    {M : ℚ} (hM : counter.maximum limits budget = some M) :
    counter = ReservationTransaction.counter limits request ∧
        counter.charge (.admission ⟨reservationOf request now id, digest⟩) = request.amount ∨
      counter.charge (.admission ⟨reservationOf request now id, digest⟩) = 0 := by
  unfold charge OrderedMap.share
  split
  swap
  · exact .inr rfl
  rename_i hcounts
  refine .inl ⟨?_, rfl⟩
  cases counter with
  | activeExecution | modelCall => cases hcounts
  | admission tenantId principal category resourceKey =>
    obtain ⟨-, htenant, hprincipal, hcategory, hresource⟩ := of_decide_eq_true hcounts
    obtain rfl : request.tenantId = tenantId := htenant
    obtain rfl : request.category = category := hcategory
    obtain rfl : request.resourceKey = resourceKey := hresource
    -- the limit is of the scope of the counter
    obtain ⟨limit, hlimit, -⟩ := Option.map_eq_some_iff.mp hM
    obtain ⟨hselect, hscope⟩ := Option.filter_eq_some_iff.mp hlimit
    unfold ReservationTransaction.counter
    rw [hselect, Option.map_some]
    rcases hprincipal with rfl | rfl
    · have : limit.scope = .tenant := by simpa using hscope
      rw [this, if_pos rfl]
    · have : limit.scope ≠ .tenant := by simpa using hscope
      rw [if_neg fun h => this (Option.some.inj h)]
      rfl

/-- A reservation of a run is charged its maximum at most, for the counter of the run. -/
theorem charge_activeExecution (r : ActiveExecution) :
    counter = .activeExecution r.tenantId r.runId ∧
        counter.charge (.activeExecution r) = r.charge ∨
      counter.charge (.activeExecution r) = 0 := by
  unfold charge OrderedMap.share
  split
  swap
  · exact .inr rfl
  rename_i hcounts
  refine .inl ⟨?_, rfl⟩
  cases counter with
  | admission | modelCall => cases hcounts
  | activeExecution tenantId runId =>
    obtain ⟨rfl, rfl⟩ := of_decide_eq_true hcounts
    rfl

/-- A model call is charged for the counters of its tenant and its profile. -/
theorem charge_modelCall (r : ModelCall) :
    (∃ metric, counter = .modelCall metric r.tenantId r.modelSecurityProfileDigest ∧
        counter.charge (.modelCall r) = MemoryModelCallReservationStore.charge metric r) ∨
      counter.charge (.modelCall r) = 0 := by
  unfold charge OrderedMap.share
  split
  swap
  · exact .inr rfl
  rename_i hcounts
  cases counter with
  | admission | activeExecution => cases hcounts
  | modelCall metric tenantId profile =>
    obtain ⟨rfl, rfl⟩ := of_decide_eq_true hcounts
    exact .inl ⟨metric, rfl, rfl⟩

/-- What is expired is charged no more. -/
theorem charge_expired {request : AdmissionRequest} {clock : Int} {row row' : ReservationRow}
    (h : ReservationTransaction.expired request clock row = some row') :
    counter.charge row' = 0 ∧ ∀ r, row' ≠ .modelCall r := by
  unfold ReservationTransaction.expired at h
  split at h
  · split at h
    · obtain rfl := Option.some.inj h
      refine ⟨?_, by rintro r ⟨⟩⟩
      unfold charge OrderedMap.share
      cases counter <;> simp [counts]
    · cases h
  · cases h

end ReservationCounter

/-! ### What is known of a transaction -/

section Knowledge

open ReservationTransaction

variable (limits : List QuotaLimit) (hashtext : AdvisoryKey → Int) (counter : ReservationCounter)
  (M : ℚ)

/-- A model call that is stored declares a maximum of output bytes. -/
def Outputs (row : ReservationRow) : Prop :=
  ∀ r, row = .modelCall r → r.outputBytesMaximum.isSome

/-- A settlement that counts costs is put for a reservation that declares a maximum of them. -/
def Declares (next : ModelCall) : Prop :=
  counter.IsCost → MemoryModelCallReservationStore.CostDeclared next

/-- The transaction holds the lock of a counter. -/
def Locked (counter : ReservationCounter) (locks : List ReservationLock) : Prop :=
  .advisory (hashtext counter.lock) ∈ locks

/-- A model call that is not stored fits under the limits that are not checked any more. -/
structure CallFits (seen : ReservationRows) (locks : List ReservationLock) (next : ModelCall)
    (rest : List ((ModelMetric × Nat) × QuotaLimit)) : Prop where
  accepted : next.status = .accepted
  output : next.outputBytesMaximum.isSome
  locked : .advisory (hashtext (.modelCall next.tenantId next.modelSecurityProfileDigest)) ∈ locks
  fits : ∀ metric, counter = .modelCall metric next.tenantId next.modelSecurityProfileDigest →
    (∃ limit, limit.maximum = M ∧
      ((metric, MemoryModelCallReservationStore.charge metric next), limit) ∈ rest) ∨
    ((counter.used seen + MemoryModelCallReservationStore.charge metric next : Nat) : ℚ) ≤ M

/-- **What is known before a statement.** -/
def StageKnows (seen : ReservationRows) (locks : List ReservationLock) : ReservationStage → Prop
  | .admissionPrior request | .admissionNow request | .admissionExpire request _
  | .admissionUsed request _ =>
      Locked hashtext (ReservationTransaction.counter limits request) locks
  | .admissionId request _ =>
      Locked hashtext (ReservationTransaction.counter limits request) locks ∧
        (counter = ReservationTransaction.counter limits request →
          ((counter.used seen + request.amount : Nat) : ℚ) ≤ M)
  | .activeExecutionPrior requested | .activeExecutionNow requested none
  | .activeExecutionUsed requested _ =>
      Locked hashtext (.activeExecution requested.tenantId requested.runId) locks
  | .activeExecutionNow requested (some prior) =>
      .row (.activeExecution requested.recordKey) ∈ locks ∧
        seen.get (.activeExecution requested.recordKey) = some (.activeExecution prior)
  | .modelCallPrior next => Declares counter next
  | .modelCallLock next => next.status = .accepted ∧ next.outputBytesMaximum.isSome
  | .modelCallUsed next entry rest => CallFits hashtext counter M seen locks next (entry :: rest)
  | .insert _ row => Outputs row ∧ (counter.charge row = 0 ∨ Locked hashtext counter locks ∧
      ((counter.used seen + counter.charge row : Nat) : ℚ) ≤ M)
  | .update key row => Outputs row ∧ .row key ∈ locks ∧
      counter.charge row ≤ counter.charged (seen.get key)
  | .admissionLock _ | .activeExecutionLock _ | .finished => True

/-- What is known of the rows that a transaction has written: it has the lock of the counter, or
has raised no charge. -/
structure Written (rows : ReservationRows) (t : ReservationTransaction) : Prop where
  held : ∀ key row, t.written.get key = some row → .row key ∈ t.locks
  raises : Locked hashtext counter t.locks ∨ ∀ key row, t.written.get key = some row →
    counter.charge row ≤ counter.charged (rows.get key)
  within : ((counter.used (t.seen rows) : Nat) : ℚ) ≤ M
  outputs : ∀ key row, (t.seen rows).get key = some row → Outputs row

/-- **What is known of a transaction.** -/
structure Knows (rows : ReservationRows) (t : ReservationTransaction) : Prop
    extends Written hashtext counter M rows t where
  stage : StageKnows limits hashtext counter M (t.seen rows) t.locks t.stage
  rest : ∀ next, .putModelCallReservation next ∈ t.rest → Declares counter next

variable {limits hashtext counter M}
variable {seen seen' rows : ReservationRows} {locks locks' : List ReservationLock}
  {t : ReservationTransaction}

/-- What is known stays known while the locks are kept, the counter does not grow under its lock,
and locked rows do not change. -/
theorem StageKnows.mono {stage : ReservationStage}
    (h : StageKnows limits hashtext counter M seen locks stage)
    (hlocks : ∀ lock ∈ locks, lock ∈ locks')
    (hused : Locked hashtext counter locks → counter.used seen' ≤ counter.used seen)
    (hget : ∀ key, .row key ∈ locks → seen'.get key = seen.get key) :
    StageKnows limits hashtext counter M seen' locks' stage := by
  have hle : Locked hashtext counter locks → ∀ n,
      ((counter.used seen + n : Nat) : ℚ) ≤ M → ((counter.used seen' + n : Nat) : ℚ) ≤ M := by
    intro hlocked n hfits
    exact (Nat.cast_le.mpr (Nat.add_le_add_right (hused hlocked) n)).trans hfits
  unfold StageKnows at h ⊢
  split at h
  · exact hlocks _ h
  · exact hlocks _ h
  · exact hlocks _ h
  · exact hlocks _ h
  · exact ⟨hlocks _ h.1, fun hcounter => hle (hcounter ▸ h.1) _ (h.2 hcounter)⟩
  · exact hlocks _ h
  · exact hlocks _ h
  · exact hlocks _ h
  · exact ⟨hlocks _ h.1, (hget _ h.1).trans h.2⟩
  · exact h
  · exact h
  · refine ⟨h.accepted, h.output, hlocks _ h.locked, fun metric hcounter => ?_⟩
    refine (h.fits metric hcounter).imp_right (hle ?_ _)
    rw [hcounter]
    exact h.locked
  · refine ⟨h.1, h.2.imp_right fun hfits => ?_⟩
    exact ⟨hlocks _ hfits.1, hle hfits.1 _ hfits.2⟩
  · exact ⟨h.1, hlocks _ h.2.1, by rw [hget _ h.2.1]; exact h.2.2⟩
  · trivial
  · trivial
  · trivial

/-- More locks. -/
theorem Written.lock (h : Written hashtext counter M rows t) {next : ReservationTransaction}
    (hwritten : next.written = t.written) (hlocks : ∀ lock ∈ t.locks, lock ∈ next.locks) :
    Written hashtext counter M rows next := by
  have hseen : next.seen rows = t.seen rows := by
    rw [ReservationTransaction.seen, ReservationTransaction.seen, hwritten]
  refine ⟨fun key row hget => hlocks _ (h.held key row (hwritten ▸ hget)), ?_, ?_, ?_⟩
  · rw [hwritten]
    exact h.raises.imp_left (hlocks _)
  · rw [hseen]
    exact h.within
  · rw [hseen]
    exact h.outputs

theorem get_seen_write (key k : ReservationKey) (row : ReservationRow) :
    ((t.write key row).seen rows).get k = ((t.seen rows).set key row).get k :=
  OrderedMap.get_overlay_set rows t.written key k row

/-- A row that the transaction sees is charged no more than it has written. -/
theorem Written.charged_le (h : ∀ key row, t.written.get key = some row →
      counter.charge row ≤ counter.charged (rows.get key)) (key : ReservationKey) :
    counter.charged ((t.seen rows).get key) ≤ counter.charged (rows.get key) := by
  rw [ReservationTransaction.seen, OrderedMap.get_overlay]
  cases hget : t.written.get key with
  | none => exact le_rfl
  | some row => exact h key row hget

/-- **A row is written** that raises no charge, or under the lock of the counter and within its
maximum. -/
theorem Written.write (h : Written hashtext counter M rows t) {key : ReservationKey}
    {row : ReservationRow} (houtputs : Outputs row) (hlock : .row key ∈ t.locks)
    (hcharge : counter.charge row ≤ counter.charged ((t.seen rows).get key) ∨
      Locked hashtext counter t.locks ∧
        ((counter.used (t.seen rows) + counter.charge row : Nat) : ℚ) ≤ M) :
    Written hashtext counter M rows (t.write key row) := by
  have hused : counter.used ((t.write key row).seen rows) =
      counter.used ((t.seen rows).set key row) := by
    refine le_antisymm (ReservationCounter.used_le_of_get fun k => ?_)
      (ReservationCounter.used_le_of_get fun k => ?_)
    · rw [get_seen_write]
    · rw [get_seen_write]
  have hset := @ReservationCounter.used_set counter (t.seen rows) key row
  refine ⟨fun k r hget => ?_, ?_, ?_, fun k r hget => ?_⟩
  · rw [ReservationTransaction.write, OrderedMap.get_set] at hget
    split at hget
    · rename_i hk
      rw [hk]
      exact hlock
    · exact h.held k r hget
  · rcases h.raises with hlocked | hraises
    · exact .inl hlocked
    rcases hcharge with hle | ⟨hlocked, -⟩
    · refine .inr fun k r hget => ?_
      rw [ReservationTransaction.write, OrderedMap.get_set] at hget
      split at hget
      · rename_i hk
        obtain rfl := Option.some.inj hget
        rw [hk]
        exact hle.trans (Written.charged_le hraises key)
      · exact hraises k r hget
    · exact .inl hlocked
  · rw [hused]
    rcases hcharge with hle | ⟨-, hfits⟩
    · refine le_trans (Nat.cast_le.mpr ?_) h.within
      omega
    · refine le_trans (Nat.cast_le.mpr ?_) hfits
      omega
  · rw [get_seen_write, OrderedMap.get_set] at hget
    split at hget
    · obtain rfl := Option.some.inj hget
      exact houtputs
    · exact h.outputs k r hget

/-- The next operation of a transaction. -/
theorem Written.proceed (h : Written hashtext counter M rows { t with locks })
    (hrest : ∀ next, .putModelCallReservation next ∈ t.rest → Declares counter next) :
    Knows limits hashtext counter M rows { t.proceed with locks } := by
  cases hwork : t.rest with
  | nil =>
    have hproceed : t.proceed = { t with stage := .finished } := by
      unfold ReservationTransaction.proceed
      rw [hwork]
    rw [hproceed]
    exact ⟨h.lock rfl fun _ h => h, trivial, hrest⟩
  | cons work rest =>
    have hproceed : t.proceed = { t with stage := work.stage, rest } := by
      unfold ReservationTransaction.proceed
      rw [hwork]
    rw [hwork] at hrest
    rw [hproceed]
    refine ⟨h.lock rfl fun _ h => h, ?_, fun next hnext =>
      hrest next (List.mem_cons_of_mem _ hnext)⟩
    cases work with
    | reserveAdmission request => trivial
    | putActiveExecutionReservation requested => trivial
    | putModelCallReservation next => exact hrest next List.mem_cons_self

end Knowledge

/-! ### What a statement does to its transaction -/

section Statement

open ReservationTransaction

variable {limits : List QuotaLimit} {budget : String → String → JsNumber}
  {digestCanonicalJson : AdmissionRequest → Digest} {hashtext : AdvisoryKey → Int}
  {counter : ReservationCounter} {M : ℚ} {rows : ReservationRows}
  {t next : ReservationTransaction} {locks : List ReservationLock} {answer : Int}

/-- The amounts that exceed no limit are within the maximum of the counter. -/
theorem within_of_exceededLimit {request : AdmissionRequest} {amounts : Nat}
    (hM : counter.maximum limits budget = some M)
    (hcounter : counter = ReservationTransaction.counter limits request)
    (h : exceededLimit limits request amounts = none) : (amounts : ℚ) ≤ M := by
  subst hcounter
  obtain ⟨limit, hlimit, rfl⟩ := Option.map_eq_some_iff.mp hM
  obtain ⟨hselect, -⟩ := Option.filter_eq_some_iff.mp hlimit
  rw [exceededLimit, hselect] at h
  simpa [Option.filter] using h

/-- Rows that are charged nothing are written. -/
theorem Written.expire (h : Written hashtext counter M rows t)
    (entries : List (ReservationKey × ReservationRow))
    (hentries : ∀ x ∈ entries, Outputs x.2 ∧ .row x.1 ∈ t.locks ∧ counter.charge x.2 = 0) :
    Written hashtext counter M rows (entries.foldl (fun t x => t.write x.1 x.2) t) := by
  induction entries generalizing t with
  | nil => exact h
  | cons x rest ih =>
    obtain ⟨houtputs, hlock, hzero⟩ := hentries x List.mem_cons_self
    refine ih (h.write houtputs hlock (.inl ?_)) fun y hy =>
      hentries y (List.mem_cons_of_mem _ hy)
    rw [hzero]
    exact Nat.zero_le _

theorem foldl_write_locks (entries : List (ReservationKey × ReservationRow))
    (t : ReservationTransaction) (locks : List ReservationLock) :
    { entries.foldl (fun t x => t.write x.1 x.2) t with locks } =
      entries.foldl (fun t x => t.write x.1 x.2) { t with locks } := by
  induction entries generalizing t with
  | nil => rfl
  | cons x rest ih => exact ih (t.write x.1 x.2)

theorem foldl_write_fields (entries : List (ReservationKey × ReservationRow))
    (t : ReservationTransaction) :
    (entries.foldl (fun t x => t.write x.1 x.2) t).locks = t.locks ∧
      (entries.foldl (fun t x => t.write x.1 x.2) t).rest = t.rest := by
  induction entries generalizing t with
  | nil => exact ⟨rfl, rfl⟩
  | cons x rest ih => exact ih (t.write x.1 x.2)

/-- What a model call is charged once it is checked against every limit. -/
theorem CallFits.stage {seen : ReservationRows} {call : ModelCall}
    {rest : List ((ModelMetric × Nat) × QuotaLimit)}
    (h : CallFits hashtext counter M seen locks call rest) :
    StageKnows limits hashtext counter M seen locks (modelCallStage call rest) := by
  cases rest with
  | cons entry rest => exact h
  | nil =>
    refine ⟨fun r hr => ?_, ?_⟩
    · obtain rfl := ReservationRow.modelCall.inj hr
      exact h.output
    · obtain ⟨metric, hcounter, hcharge⟩ | hzero := counter.charge_modelCall call
      · obtain ⟨limit, -, hmem⟩ | hfits := h.fits metric hcounter
        · cases hmem
        · rw [hcharge]
          refine .inr ⟨?_, hfits⟩
          rw [Locked, hcounter]
          exact h.locked
      · exact .inl hzero

/-- The limits that a model call is checked against. -/
theorem CallFits.start {call : ModelCall} {seen : ReservationRows}
    (hM : counter.maximum limits budget = some M) (hwithin : (counter.used seen : ℚ) ≤ M)
    (haccepted : call.status = .accepted) (houtput : call.outputBytesMaximum.isSome)
    (hlocked : .advisory (hashtext (.modelCall call.tenantId call.modelSecurityProfileDigest)) ∈
      locks) :
    CallFits hashtext counter M seen locks call (quotas limits call) := by
  refine ⟨haccepted, houtput, hlocked, fun metric hcounter => ?_⟩
  subst hcounter
  obtain ⟨limit, hlimit, hmaximum⟩ := Option.map_eq_some_iff.mp hM
  obtain hentry | hzero := @MemoryModelCallReservationStore.charge_new call metric haccepted
  · exact .inl ⟨limit, hmaximum, List.mem_filterMap.mpr ⟨_, hentry, by rw [hlimit]; rfl⟩⟩
  · right
    rw [hzero]
    exact hwithin

/-- One limit more is checked. -/
theorem CallFits.checked {call : ModelCall} {seen : ReservationRows}
    {entry : (ModelMetric × Nat) × QuotaLimit} {rest : List ((ModelMetric × Nat) × QuotaLimit)}
    (h : CallFits hashtext counter M seen locks call (entry :: rest))
    (hentry : ¬ entry.2.maximum < ((ReservationCounter.modelCall entry.1.1 call.tenantId
      call.modelSecurityProfileDigest).used seen + entry.1.2 : Nat)) :
    CallFits hashtext counter M seen locks call rest := by
  refine ⟨h.accepted, h.output, h.locked, fun metric hcounter => ?_⟩
  obtain ⟨limit, hmaximum, hmem⟩ | hfits := h.fits metric hcounter
  · rcases List.mem_cons.mp hmem with rfl | hmem
    · right
      subst hcounter
      rw [← hmaximum]
      exact not_lt.mp hentry
    · exact .inl ⟨limit, hmaximum, hmem⟩
  · exact .inr hfits

/-- A settlement of a stored reservation raises no charge. -/
theorem charge_settlement {prior requested r : ActiveExecution} {now : Int}
    (h : settlement prior requested now = .ok (some r)) :
    counter.charge (.activeExecution r) ≤ counter.charge (.activeExecution prior) := by
  unfold settlement at h
  split at h
  · cases h
  split at h
  · cases h
  split at h
  · split at h <;> cases h
  rename_i hreserved
  split at h
  · cases h
  cases hsettle : MemoryActiveExecutionReservationStore.settle prior requested.state
      (reading now) with
  | error e =>
    rw [hsettle] at h
    cases h
  | ok settled =>
    rw [hsettle] at h
    obtain rfl := Option.some.inj (Except.ok.inj h)
    obtain ⟨hidentity, -⟩ := MemoryActiveExecutionReservationStore.settle_ok hsettle
    obtain ⟨htenant, hrun, hmaximum⟩ :=
      MemoryActiveExecutionReservationStore.executionIdentity_eq hidentity
    obtain ⟨hcounter, hcharge⟩ | hzero := counter.charge_activeExecution settled
    · have hprior : counter.charge (.activeExecution prior) = prior.charge := by
        rw [hcounter, htenant, hrun]
        exact if_pos (decide_eq_true ⟨rfl, rfl⟩)
      rw [hcharge, hprior,
        MemoryActiveExecutionReservationStore.charge_of_reserved (not_not.mp hreserved), ← hmaximum]
      exact MemoryActiveExecutionReservationStore.charge_le settled
    · rw [hzero]
      exact Nat.zero_le _

/-- A move of a stored model call raises no charge. -/
theorem charge_moved {prior call : ModelCall}
    (hidentity : prior.toCallIdentity = call.toCallIdentity)
    (hallowed : MemoryModelCallReservationStore.allowed prior.status call.status = true)
    (hwithin : MemoryModelCallReservationStore.settlementExceeds call = false)
    (houtput : call.outputBytesMaximum.isSome) (hdeclares : Declares counter call) :
    counter.charge (.modelCall call) ≤ counter.charge (.modelCall prior) := by
  obtain ⟨metric, hcounter, hcharge⟩ | hzero := counter.charge_modelCall call
  · have hprior : counter.charge (.modelCall prior) =
        MemoryModelCallReservationStore.charge metric prior := by
      rw [hcounter, ← hidentity]
      exact if_pos (decide_eq_true ⟨rfl, rfl⟩)
    rw [hcharge, hprior]
    refine MemoryModelCallReservationStore.charge_le_of_allowed hidentity hallowed hwithin houtput
      fun hcost => hdeclares ?_
    rw [hcounter, hcost]
    trivial
  · rw [hzero]
    exact Nat.zero_le _

theorem priorActiveExecution_eq {requested prior : ActiveExecution}
    (h : priorActiveExecution rows requested = some prior) :
    rows.get (.activeExecution requested.recordKey) = some (.activeExecution prior) := by
  unfold priorActiveExecution at h
  split at h
  · rename_i hget
    obtain rfl := Option.some.inj h
    exact hget
  · cases h

theorem priorModelCall_eq {call prior : ModelCall} (h : priorModelCall rows call = some prior) :
    rows.get (.modelCall call.recordKey) = some (.modelCall prior) := by
  unfold priorModelCall at h
  split at h
  · rename_i hget
    obtain rfl := Option.some.inj h
    exact hget
  · cases h

/-- **A statement** keeps what is known of its transaction. -/
theorem Knows.statement (h : Knows limits hashtext counter M rows t)
    (hM : counter.maximum limits budget = some M)
    (hs : t.statement limits budget digestCanonicalJson hashtext rows answer =
      some (locks, next)) :
    Knows limits hashtext counter M rows { next with locks := t.locks ++ locks } := by
  have hlock : ∀ lock ∈ t.locks, lock ∈ t.locks ++ locks := fun _ => List.mem_append_left _
  have hwritten : Written hashtext counter M rows { t with locks := t.locks ++ locks } :=
    h.toWritten.lock rfl hlock
  have hproceeds : Knows limits hashtext counter M rows
      { t.proceed with locks := t.locks ++ locks } := hwritten.proceed h.rest
  have hgoes : ∀ stage,
      StageKnows limits hashtext counter M (t.seen rows) (t.locks ++ locks) stage →
      Knows limits hashtext counter M rows { t with stage, locks := t.locks ++ locks } :=
    fun stage hstage => ⟨hwritten.lock rfl fun _ h => h, hstage, h.rest⟩
  have hkept : StageKnows limits hashtext counter M (t.seen rows) (t.locks ++ locks) t.stage :=
    h.stage.mono hlock (fun _ => le_rfl) fun _ _ => rfl
  unfold ReservationTransaction.statement at hs
  cases hstage : t.stage with
  | admissionLock request =>
    rw [hstage] at hs
    obtain ⟨rfl, rfl⟩ := Prod.mk.inj (Option.some.inj hs)
    exact hgoes (.admissionPrior request) (List.mem_append_right _ List.mem_cons_self)
  | admissionPrior request =>
    rw [hstage] at hs hkept
    dsimp only at hs
    split at hs
    · split at hs
      · cases hs
      · obtain ⟨-, rfl⟩ := Prod.mk.inj (Option.some.inj hs)
        exact hproceeds
    · obtain ⟨-, rfl⟩ := Prod.mk.inj (Option.some.inj hs)
      exact hgoes (.admissionNow request) hkept
  | admissionNow request =>
    rw [hstage] at hs hkept
    dsimp only at hs
    split at hs
    · cases hs
    · rename_i now _
      obtain ⟨-, rfl⟩ := Prod.mk.inj (Option.some.inj hs)
      exact hgoes (.admissionExpire request now) hkept
  | admissionExpire request now =>
    rw [hstage] at hs hkept
    obtain ⟨rfl, rfl⟩ := Prod.mk.inj (Option.some.inj hs)
    have hexpired := hwritten.expire (ReservationTransaction.expire request answer (t.seen rows))
      fun x hx => by
        obtain ⟨y, -, hy⟩ := List.mem_filterMap.mp hx
        obtain ⟨row, hrow, rfl⟩ := Option.map_eq_some_iff.mp hy
        obtain ⟨hzero, hrow⟩ := counter.charge_expired hrow
        refine ⟨fun r hr => absurd hr (hrow r), List.mem_append_right _ ?_, hzero⟩
        exact List.mem_map_of_mem hx
    rw [← foldl_write_locks] at hexpired
    refine ⟨hexpired.lock rfl fun _ h => h, hkept, ?_⟩
    rw [(foldl_write_fields _ t).2]
    exact h.rest
  | admissionUsed request now =>
    rw [hstage] at hs hkept
    dsimp only at hs
    split at hs
    · obtain ⟨-, rfl⟩ := Prod.mk.inj (Option.some.inj hs)
      exact ⟨hwritten.lock rfl fun _ h => h, trivial, fun _ h => absurd h List.not_mem_nil⟩
    · rename_i hlimit
      obtain ⟨-, rfl⟩ := Prod.mk.inj (Option.some.inj hs)
      refine hgoes (.admissionId request now) ⟨hkept, fun hcounter => ?_⟩
      have := within_of_exceededLimit hM hcounter hlimit
      rw [hcounter]
      exact this
  | admissionId request now =>
    rw [hstage] at hs hkept
    dsimp only at hs
    split at hs
    · cases hs
    rename_i reservation hcreate
    obtain ⟨-, rfl⟩ := Prod.mk.inj (Option.some.inj hs)
    obtain ⟨-, rfl⟩ := PostgresQuotaStore.create_eq_ok.mp hcreate
    refine hgoes (.insert _ _) ⟨by rintro r ⟨⟩, ?_⟩
    obtain ⟨hcounter, hcharge⟩ | hzero := ReservationCounter.charge_admission hM
    · right
      rw [hcharge]
      exact ⟨hcounter ▸ hkept.1, hkept.2 hcounter⟩
    · exact .inl hzero
  | activeExecutionLock requested =>
    rw [hstage] at hs
    dsimp only at hs
    split at hs
    · cases hs
    · obtain ⟨rfl, rfl⟩ := Prod.mk.inj (Option.some.inj hs)
      exact hgoes (.activeExecutionPrior requested) (List.mem_append_right _ List.mem_cons_self)
  | activeExecutionPrior requested =>
    rw [hstage] at hs hkept
    dsimp only at hs
    split at hs
    · obtain ⟨-, rfl⟩ := Prod.mk.inj (Option.some.inj hs)
      exact hgoes (.activeExecutionNow requested none) hkept
    · rename_i prior hprior
      obtain ⟨rfl, rfl⟩ := Prod.mk.inj (Option.some.inj hs)
      exact hgoes (.activeExecutionNow requested (some prior))
        ⟨List.mem_append_right _ List.mem_cons_self, priorActiveExecution_eq hprior⟩
  | activeExecutionNow requested prior =>
    rw [hstage] at hs hkept
    cases prior with
    | none =>
      dsimp only at hs
      split at hs
      · cases hs
      · obtain ⟨-, rfl⟩ := Prod.mk.inj (Option.some.inj hs)
        exact hgoes (.activeExecutionUsed requested answer) hkept
    | some prior =>
      dsimp only at hs
      split at hs
      · cases hs
      · obtain ⟨-, rfl⟩ := Prod.mk.inj (Option.some.inj hs)
        exact hproceeds
      · rename_i settled hsettled
        obtain ⟨-, rfl⟩ := Prod.mk.inj (Option.some.inj hs)
        refine hgoes (.update _ _) ⟨by rintro r ⟨⟩, hkept.1, ?_⟩
        rw [hkept.2]
        exact charge_settlement hsettled
  | activeExecutionUsed requested now =>
    rw [hstage] at hs hkept
    dsimp only at hs
    split at hs
    · cases hs
    rename_i maximum hmaximum
    split at hs
    · cases hs
    rename_i hbudget
    split at hs
    · cases hs
    rename_i started hstart
    obtain ⟨-, rfl⟩ := Prod.mk.inj (Option.some.inj hs)
    obtain ⟨hidentity, -⟩ := MemoryActiveExecutionReservationStore.start_ok hstart
    obtain ⟨htenant, hrun, hcharged⟩ :=
      MemoryActiveExecutionReservationStore.executionIdentity_eq hidentity
    refine hgoes (.insert _ _) ⟨by rintro r ⟨⟩, ?_⟩
    obtain ⟨hcounter, hcharge⟩ | hzero := counter.charge_activeExecution started
    · right
      rw [htenant, hrun] at hcounter
      subst hcounter
      refine ⟨hkept, ?_⟩
      obtain rfl : (maximum : ℚ) = M := by
        rw [ReservationCounter.maximum, hmaximum] at hM
        exact Option.some.inj hM
      have hle := MemoryActiveExecutionReservationStore.charge_le started
      refine Nat.cast_le.mpr ?_
      rw [hcharge]
      omega
    · exact .inl hzero
  | modelCallPrior call =>
    rw [hstage] at hs hkept
    dsimp only at hs
    split at hs
    · split at hs
      · cases hs
      · rename_i hcall
        obtain ⟨-, rfl⟩ := Prod.mk.inj (Option.some.inj hs)
        obtain ⟨haccepted, houtput⟩ := not_or.mp hcall
        exact hgoes (.modelCallLock call)
          ⟨not_not.mp haccepted, Option.isSome_iff_ne_none.mpr houtput⟩
    · rename_i prior hprior
      have hget := priorModelCall_eq hprior
      split at hs
      · obtain ⟨-, rfl⟩ := Prod.mk.inj (Option.some.inj hs)
        exact hproceeds
      split at hs
      · cases hs
      rename_i hidentity
      split at hs
      · cases hs
      rename_i hallowed
      split at hs
      · cases hs
      rename_i hwithin
      obtain ⟨rfl, rfl⟩ := Prod.mk.inj (Option.some.inj hs)
      have hidentity := not_not.mp hidentity
      have houtput : call.outputBytesMaximum.isSome := by
        rw [← hidentity]
        exact h.outputs _ _ hget prior rfl
      refine hgoes (.update _ _) ⟨fun r hr => ?_, List.mem_append_right _ List.mem_cons_self, ?_⟩
      · obtain rfl := ReservationRow.modelCall.inj hr
        exact houtput
      · rw [hget]
        exact charge_moved hidentity (not_not.mp hallowed) (Bool.not_eq_true _ ▸ hwithin) houtput
          hkept
  | modelCallLock call =>
    rw [hstage] at hs hkept
    obtain ⟨rfl, rfl⟩ := Prod.mk.inj (Option.some.inj hs)
    exact hgoes _ (CallFits.start hM h.within hkept.1 hkept.2
      (List.mem_append_right _ List.mem_cons_self)).stage
  | modelCallUsed call entry rest =>
    rw [hstage] at hs hkept
    dsimp only at hs
    split at hs
    · cases hs
    · rename_i hentry
      obtain ⟨-, rfl⟩ := Prod.mk.inj (Option.some.inj hs)
      exact hgoes _ (CallFits.checked hkept hentry).stage
  | insert key row =>
    rw [hstage] at hs hkept
    dsimp only at hs
    split at hs
    · cases hs
    rename_i hfresh
    obtain ⟨rfl, rfl⟩ := Prod.mk.inj (Option.some.inj hs)
    refine @Written.proceed _ _ _ _ _ _ (t.write key row) ?_ h.rest
    refine hwritten.write hkept.1 (List.mem_append_right _ List.mem_cons_self) ?_
    refine hkept.2.imp (fun hzero => ?_) id
    rw [hzero]
    exact Nat.zero_le _
  | update key row =>
    rw [hstage] at hs hkept
    obtain ⟨rfl, rfl⟩ := Prod.mk.inj (Option.some.inj hs)
    refine @Written.proceed _ _ _ _ _ _ (t.write key row) ?_ h.rest
    exact hwritten.write hkept.1 hkept.2.1 (.inl hkept.2.2)
  | finished =>
    rw [hstage] at hs
    obtain ⟨-, rfl⟩ := Prod.mk.inj (Option.some.inj hs)
    exact ⟨hwritten, hkept, h.rest⟩

end Statement

/-! ### What a commit does to the others -/

section Commit

variable {limits : List QuotaLimit} {hashtext : AdvisoryKey → Int} {counter : ReservationCounter}
  {M : ℚ} {rows : ReservationRows} {t t' : ReservationTransaction}

/-- **Another transaction commits**: it has locked other rows, and has raised no charge of a counter
whose lock this one holds. -/
theorem Knows.committed (h' : Knows limits hashtext counter M rows t')
    (h : Written hashtext counter M rows t) (hapart : ∀ lock ∈ t.locks, lock ∉ t'.locks) :
    Knows limits hashtext counter M (t.seen rows) t' := by
  -- a row that this transaction has locked is as it was
  have hsame : ∀ key, .row key ∈ t'.locks → (t.seen rows).get key = rows.get key := by
    intro key hlock
    rw [ReservationTransaction.seen, OrderedMap.get_overlay]
    cases hget : t.written.get key with
    | none => rfl
    | some row => exact absurd hlock (hapart _ (h.held key row hget))
  have hused : Locked hashtext counter t'.locks →
      counter.used (t'.seen (t.seen rows)) ≤ counter.used (t'.seen rows) := by
    intro hlocked
    have hraises := h.raises.resolve_left fun hother => hapart _ hother hlocked
    refine ReservationCounter.used_le_of_get fun key => ?_
    change counter.charged (((t.seen rows).overlay t'.written).get key) ≤
      counter.charged ((rows.overlay t'.written).get key)
    rw [OrderedMap.get_overlay, OrderedMap.get_overlay]
    cases t'.written.get key with
    | some row => exact le_rfl
    | none => exact Written.charged_le hraises key
  have hraises : Locked hashtext counter t'.locks ∨ ∀ key row, t'.written.get key = some row →
      counter.charge row ≤ counter.charged ((t.seen rows).get key) := by
    refine h'.raises.imp_right fun hraises key row hget => ?_
    rw [hsame key (h'.held key row hget)]
    exact hraises key row hget
  refine ⟨⟨h'.held, hraises, ?_, fun key row hget => ?_⟩, ?_, h'.rest⟩
  · rcases hraises with hlocked | hraises
    · exact (Nat.cast_le.mpr (hused hlocked)).trans h'.within
    · refine (Nat.cast_le.mpr ?_).trans h.within
      exact ReservationCounter.used_le_of_get (Written.charged_le hraises)
  · rw [ReservationTransaction.seen, OrderedMap.get_overlay] at hget
    cases hwritten : t'.written.get key with
    | none =>
      rw [hwritten] at hget
      exact h.outputs key row hget
    | some r =>
      rw [hwritten] at hget
      refine h'.outputs key row ?_
      rw [ReservationTransaction.seen, OrderedMap.get_overlay, hwritten]
      exact hget
  · refine h'.stage.mono (fun _ h => h) hused fun key hlock => ?_
    rw [ReservationTransaction.seen, OrderedMap.get_overlay, hsame key hlock]
    exact (OrderedMap.get_overlay rows t'.written key).symm

end Commit

namespace ReservationDatabase

section Steps

variable {limits : List QuotaLimit} {budget : String → String → JsNumber}
  {digestCanonicalJson : AdmissionRequest → Digest} {hashtext : AdvisoryKey → Int}
  {counter : ReservationCounter} {M : ℚ} {s : ReservationDatabase}

variable (limits hashtext counter M) in
/-- **The invariant**, for one counter. -/
structure Sound (s : ReservationDatabase) : Prop where
  within : ((counter.used s.rows : Nat) : ℚ) ≤ M
  outputs : ∀ key row, s.rows.get key = some row → Outputs row
  knows : ∀ id t, s.transactions.get id = some t → Knows limits hashtext counter M s.rows t
  exclusive : s.transactions.Exclusive (·.locks)

theorem sound_start (hM : 0 ≤ M) : Sound limits hashtext counter M start where
  within := by
    rw [start, ReservationCounter.used, OrderedMap.total_empty, Nat.cast_zero]
    exact hM
  outputs _ _ h := nomatch h
  knows _ _ h := nomatch h
  exclusive := OrderedMap.exclusive_empty

/-- What counters may sum up to is not negative. -/
theorem maximum_nonneg (hM : counter.maximum limits budget = some M) : 0 ≤ M := by
  cases counter with
  | admission | modelCall =>
    obtain ⟨limit, -, rfl⟩ := Option.map_eq_some_iff.mp hM
    exact limit.maximum_pos.le
  | activeExecution =>
    obtain ⟨maximum, -, rfl⟩ := Option.map_eq_some_iff.mp hM
    exact Nat.cast_nonneg maximum

theorem Sound.begin (h : Sound limits hashtext counter M s) (id : Nat) (work : List ReservationWork)
    (hmeets : ∀ next, .putModelCallReservation next ∈ work → Declares counter next) :
    Sound limits hashtext counter M
      (s.step limits budget digestCanonicalJson hashtext (.begin id work)) := by
  unfold step
  dsimp only
  split
  · exact h
  have hnew : Written hashtext counter M s.rows ⟨.finished, work, .empty, []⟩ := by
    refine ⟨fun _ _ h => (nomatch h), .inr fun _ _ h => (nomatch h), h.within, h.outputs⟩
  have hknows := @Written.proceed limits hashtext counter M s.rows []
    ⟨.finished, work, .empty, []⟩ hnew hmeets
  have hunlocked :
      { ReservationTransaction.proceed ⟨.finished, work, .empty, []⟩ with locks := [] } =
        ReservationTransaction.proceed ⟨.finished, work, .empty, []⟩ := by
    cases work <;> rfl
  have hlocks : (ReservationTransaction.proceed ⟨.finished, work, .empty, []⟩).locks = [] :=
    congrArg ReservationTransaction.locks hunlocked.symm
  rw [hunlocked] at hknows
  refine ⟨h.within, h.outputs, fun i t ht => ?_, h.exclusive.set fun _ _ _ _ hlock => ?_⟩
  · rw [OrderedMap.get_set] at ht
    split at ht
    · obtain rfl := Option.some.inj ht
      exact hknows
    · exact h.knows i t ht
  · rw [hlocks] at hlock
    exact absurd hlock List.not_mem_nil

/-- A transaction is gone with all that it has written. -/
theorem Sound.rollback (h : Sound limits hashtext counter M s) (id : Nat) :
    Sound limits hashtext counter M { s with transactions := s.transactions.delete id } :=
  ⟨h.within, h.outputs, fun i t ht => h.knows i t (OrderedMap.get_of_delete ht).2,
    h.exclusive.delete id⟩

theorem Sound.statement (h : Sound limits hashtext counter M s)
    (hM : counter.maximum limits budget = some M) (id : Nat) (answer : Int) :
    Sound limits hashtext counter M
      (s.step limits budget digestCanonicalJson hashtext (.statement id answer)) := by
  unfold step
  dsimp only
  split
  · exact h
  rename_i t ht
  split
  · exact h.rollback id
  rename_i locks next hs
  split
  · exact h
  rename_i hwaits
  rw [Bool.not_eq_true] at hwaits
  refine ⟨h.within, h.outputs, fun i t' ht' => ?_, h.exclusive.set (h.exclusive.free ht hwaits)⟩
  rw [OrderedMap.get_set] at ht'
  split at ht'
  · obtain rfl := Option.some.inj ht'
    exact (h.knows id t ht).statement hM hs
  · exact h.knows i t' ht'

theorem Sound.commit (h : Sound limits hashtext counter M s) (id : Nat) :
    Sound limits hashtext counter M
      (s.step limits budget digestCanonicalJson hashtext (.commit id)) := by
  unfold step
  dsimp only
  split
  · exact h
  rename_i t ht
  split
  swap
  · exact h
  have hknows := h.knows id t ht
  refine ⟨hknows.within, hknows.outputs, fun i t' ht' => ?_, h.exclusive.delete id⟩
  obtain ⟨hne, ht'⟩ := OrderedMap.get_of_delete ht'
  refine (h.knows i t' ht').committed hknows.toWritten fun lock hlock hlock' => hne ?_
  exact h.exclusive i id t' t lock ht' ht hlock' hlock

/-- **Every step**, if it meets the condition where the counter is one of costs. -/
theorem Sound.step (h : Sound limits hashtext counter M s)
    (hM : counter.maximum limits budget = some M) {step : ReservationStep}
    (hmeets : counter.IsCost → Meets step) :
    Sound limits hashtext counter M
      (s.step limits budget digestCanonicalJson hashtext step) := by
  cases step with
  | begin id work => exact h.begin id work fun next hnext hcost => hmeets hcost _ hnext
  | statement id answer => exact h.statement hM id answer
  | commit id => exact h.commit id
  | rollback id => exact h.rollback id

end Steps

section Witness

open MemoryModelCallReservationStore (uncosted uncostedAccepted uncostedSettled costLimit)

/-- A transaction that makes its statements one after the other and commits. -/
def alone (id : Nat) (work : List ReservationWork) (statements : Nat) : List ReservationStep :=
  .begin id work :: List.replicate statements (.statement id 0) ++ [.commit id]

/-- What a sequence of steps leaves, with a limit of costs. -/
def afterCosts (steps : List ReservationStep) : ReservationDatabase :=
  after [costLimit] (fun _ _ => none) (fun _ => "digest") (fun _ => 0) steps

/-- A reservation that declares a maximum of eight. -/
def costed : CallIdentity :=
  { uncosted with maximumCallCostMinor := some 8, currency := some "EUR" }

/-- It is accepted, -/
def costedAccepted : ModelCall :=
  { costed with
    status := .accepted
    settlement := none
    cost_currency := rfl
    settled_iff := uncostedAccepted.settled_iff }

/-- and settled with costs of seven. -/
def costedSettled : ModelCall :=
  { costed with
    status := .settled
    settlement := uncostedSettled.settlement.map ({ · with
      chargedCostMinor := some 7
      currency := some "EUR"
      cost_currency := rfl })
    cost_currency := rfl
    settled_iff := by decide }

/-- A reservation is made and settled, while another one waits for the lock and is refused. -/
def twoCalls : List ReservationStep :=
  [.begin 0 [.putModelCallReservation costedAccepted],
    .begin 1 [.putModelCallReservation { costedAccepted with stepId := "other" }],
    .statement 0 0, .statement 1 0, .statement 0 0, .statement 1 0, .statement 0 0,
    .statement 0 0, .commit 0] ++
  [.statement 1 0, .statement 1 0] ++
  alone 2 [.putModelCallReservation costedSettled] 2

/-- A reservation that declares no maximum is made, and settled with costs. -/
def undeclaredCosts : List ReservationStep :=
  alone 0 [.putModelCallReservation uncostedAccepted] 3 ++
    alone 1 [.putModelCallReservation uncostedSettled] 2

end Witness

end ReservationDatabase

end Pactmark
