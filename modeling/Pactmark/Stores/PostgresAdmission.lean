import Pactmark.Durable.Entries
import Pactmark.Durable.Runs
import Pactmark.Stores.Admission

/-!
# Stores — admission quotas in Postgres

`PostgresQuotaStore` of `store-postgres/src/resource-reservations.ts`, beside the memory store.
The table `pactmark_admission_reservations` is a map from its primary key, every method is one
transaction at one instant, and one that throws leaves the rows as they were; a number that the
sequence has given out stays given out.

Both stores are driven by the same operations at the same instants.  An operation names a
reservation by its place among those that were made.

* `Alike`: what a reservation in memory and its row share, whatever their stores were asked.
* `admits_iff`, `PostgresQuotaStore.admits_iff`: what a new request is admitted for, in each store.
* `Related.step`: an operation the stores agree on keeps their reservations alike.
* `quota_stores_agree_iff`: when a request is admitted exactly where it fits.
-/

namespace Pactmark

open Durable Reservation

/-! ### The store -/

/-- A row of `pactmark_admission_reservations`; its other columns are the fields of the
reservation. -/
structure AdmissionRow where
  reservation : Admission
  requestDigest : Digest

/-- The table, and the last number of `pactmark_reservation_id_seq`. -/
structure PostgresQuotaStore where
  rows : OrderedMap (String × String) AdmissionRow
  lastId : Nat

namespace PostgresQuotaStore

/-- An empty table. -/
def empty : PostgresQuotaStore :=
  ⟨.empty, 0⟩

/-- The reservations of the table. -/
def reservations (s : PostgresQuotaStore) : List Admission :=
  s.rows.values.map (·.reservation)

/-- `admission:${String(generatedId)}`. -/
def rowId (generatedId : Nat) : String :=
  "admission:" ++ toString generatedId

variable (limits : List QuotaLimit) (digestCanonicalJson : AdmissionRequest → Digest)

/-- `selectLimit`, which finds what `#limit` of the memory store finds. -/
abbrev selectLimit (category : AdmissionCategory) (resourceKey : String) : Option QuotaLimit :=
  MemoryQuotaStore.limit limits category resourceKey

/-- The row of an earlier request of the same command. -/
def prior (s : PostgresQuotaStore) (request : AdmissionRequest) : Option AdmissionRow :=
  if request.commandId = none then none
  else s.rows.values.find? fun row =>
    decide (row.reservation.admissionReplayKey = request.admissionReplayKey)

/-- `UPDATE .. SET state='expired' WHERE state='reserved' AND lease_expires_at <= ..`, with the
other conditions of the statement. -/
def expire (s : PostgresQuotaStore) (finds : Admission → Bool) (now : Int) : PostgresQuotaStore :=
  { s with
    rows := s.rows.mapValues fun row =>
      if row.reservation.state = .reserved ∧ row.reservation.leaseExpiresAt ≤ now ∧
          finds row.reservation = true then
        { row with reservation := { row.reservation with state := .expired } }
      else row }

/-- The reservations of the requesting principal for the same resource. -/
def ofHolder (request : AdmissionRequest) (r : Admission) : Bool :=
  r.tenantId = request.tenantId ∧ r.principal = request.principal ∧
    r.category = request.category ∧ r.resourceKey = request.resourceKey

/-- `SELECT COALESCE(SUM(amount),0) .. WHERE state='reserved'`. -/
def used (s : PostgresQuotaStore) (limit : Option QuotaLimit) (request : AdmissionRequest) : Nat :=
  s.rows.total
    (fun row =>
      decide (row.reservation.state = .reserved ∧ row.reservation.tenantId = request.tenantId ∧
        ((limit.map (·.scope)).getD .principal = .tenant ∨
          row.reservation.principal = request.principal) ∧
        row.reservation.category = request.category ∧
        row.reservation.resourceKey = request.resourceKey))
    (·.reservation.amount)

/-- The limit that a request exceeds. -/
def exceededLimit (s : PostgresQuotaStore) (request : AdmissionRequest) : Option QuotaLimit :=
  (selectLimit limits request.category request.resourceKey).filter fun limit =>
    limit.maximum < (s.used limit request + request.amount : Nat)

/-- The reservation that is made for a request. -/
def create (s : PostgresQuotaStore) (request : AdmissionRequest) (now : Int) :
    Except Thrown Admission := do
  let leaseExpiresAt ← toISOString (some (now + request.leaseDurationMs))
  if ¬ (isoRepresentable now ∧ isoRepresentable leaseExpiresAt) then throw schemaRefused
  return {
    id := rowId (s.lastId + 1)
    tenantId := request.tenantId
    principal := request.principal
    commandId := request.commandId
    category := request.category
    resourceKey := request.resourceKey
    amount := request.amount
    amount_pos := request.amount_pos
    state := .reserved
    fencingToken := 1
    reservedAtServerTime := now
    leaseExpiresAt
    releasedAt := none }

/-- `INSERT INTO pactmark_admission_reservations`. -/
def insert (s : PostgresQuotaStore) (request : AdmissionRequest) (reservation : Admission) :
    PostgresQuotaStore where
  rows := s.rows.set (reservation.tenantId, reservation.id)
    ⟨reservation, digestCanonicalJson request⟩
  lastId := s.lastId + 1

/-- `reserve`, with `reserveAdmission`. -/
def reserve (s : PostgresQuotaStore) (request : AdmissionRequest) (now : Int) :
    Except Thrown AdmissionDecision × PostgresQuotaStore :=
  match s.prior request with
  | some prior =>
      if prior.requestDigest ≠ digestCanonicalJson request then
        (.error (conflict "admission_replay_changed"), s)
      else (.ok (.admitted prior.reservation), s)
  | none =>
      match toISOString (some now) with
      | .error e => (.error e, s)
      | .ok now =>
          let expired := s.expire (ofHolder request) now
          match expired.exceededLimit limits request with
          -- the denial is caught inside the transaction, which commits what expired
          | some limit => (.ok (.denied .KAF_ADMISSION_DENIED limit.retryAfterSeconds), expired)
          | none =>
              match expired.create request now with
              | .error e => (.error e, { s with lastId := s.lastId + 1 })
              | .ok reservation =>
                  (.ok (.admitted reservation),
                    expired.insert digestCanonicalJson request reservation)

/-- `release`. -/
def release (s : PostgresQuotaStore) (tenantId reservationId : String) (fencingToken : Int)
    (releasedAt : DateTimeText) : Except Thrown Unit × PostgresQuotaStore :=
  match s.rows.get (tenantId, reservationId) with
  | none => (.error (conflict "admission_missing"), s)
  | some row =>
      if (row.reservation.fencingToken : Int) ≠ fencingToken then
        (.error (conflict "admission_fence_changed"), s)
      else
        match row.reservation.state with
        | .released =>
            if row.reservation.releasedAt.map (·.text) = some releasedAt.text then (.ok (), s)
            else (.error (conflict "admission_release_changed"), s)
        | .expired => (.error (conflict "admission_not_releasable"), s)
        | .reserved =>
            match releasedAt.parsed with
            | none => (.error schemaRefused, s)
            | some instant =>
                (.ok (), { s with
                  rows := s.rows.set (tenantId, reservationId)
                    { row with reservation :=
                        { row.reservation with state := .released, releasedAt := some instant } } })

/-- `reconcileExpired`. -/
def reconcileExpired (s : PostgresQuotaStore) (at_ : Int) : PostgresQuotaStore :=
  s.expire (fun _ => true) at_

end PostgresQuotaStore

/-! ### Both stores -/

/-- The two stores, driven by the same operations. -/
structure QuotaStores where
  memory : MemoryQuotaStore
  postgres : PostgresQuotaStore

/-- An operation on both stores. -/
inductive QuotaOperation where
  | reserve (request : AdmissionRequest)
  | release (tenantId : String) (nth : Nat) (fencingToken : Int) (releasedAt : DateTimeText)
  | reconcileExpired (at_ : Int)

/-- What a clock reads at an instant. -/
def reading (now : Int) : ClockReading :=
  ⟨some now, isoRepresentable now⟩

namespace QuotaStores

variable (limits : List QuotaLimit) (digestCanonicalJson : AdmissionRequest → Digest)

/-- Empty stores. -/
def start : QuotaStores :=
  ⟨.empty, .empty⟩

/-- What an operation at an instant leaves. -/
def step (q : QuotaStores) (call : Int × QuotaOperation) : QuotaStores :=
  match call.2 with
  | .reserve request =>
      ⟨(q.memory.reserve limits digestCanonicalJson request (reading call.1)).2,
        (q.postgres.reserve limits digestCanonicalJson request call.1).2⟩
  | .release tenantId nth fencingToken releasedAt =>
      match q.memory.reservations.entries[nth]?, q.postgres.rows.entries[nth]? with
      | some (reservationId, _), some ((_, rowId), _) =>
          ⟨(q.memory.release tenantId reservationId fencingToken releasedAt).2,
            (q.postgres.release tenantId rowId fencingToken releasedAt).2⟩
      | _, _ => q
  | .reconcileExpired at_ =>
      ⟨(q.memory.reconcileExpired (reading at_)).2, q.postgres.reconcileExpired at_⟩

/-- What a sequence of operations leaves. -/
def after (calls : List (Int × QuotaOperation)) : QuotaStores :=
  calls.foldl (step limits digestCanonicalJson) start

end QuotaStores

/-! ### Amounts -/

/-- What the reservations that count amount to. -/
def amounts (reservations : List Admission) (counts : Admission → Bool) : Nat :=
  ((reservations.filter counts).map (·.amount)).sum

section Amounts

variable {l : List Admission} {a b c : Admission → Bool}

theorem amounts_congr (h : ∀ r ∈ l, a r = b r) : amounts l a = amounts l b := by
  unfold amounts
  rw [List.filter_congr h]

theorem amounts_map {f : Admission → Admission} (hf : ∀ r, (f r).amount = r.amount) :
    amounts (l.map f) c = amounts l fun r => c (f r) := by
  simp only [amounts, List.filter_map, List.map_map]
  congr 1
  exact List.map_congr_left fun r _ => hf r

/-- The amounts of two kinds of reservations add up to those of both. -/
theorem amounts_add (hdisjoint : ∀ r, ¬ (a r = true ∧ b r = true))
    (hor : ∀ r, c r = (a r || b r)) : amounts l c = amounts l a + amounts l b := by
  induction l with
  | nil => rfl
  | cons r l ih =>
    have hr := hdisjoint r
    simp only [amounts, List.filter_cons, hor r] at ih ⊢
    cases ha : a r <;> cases hb : b r
    · simpa [ha, hb] using ih
    · simp [ih]
      omega
    · simp [ih]
      omega
    · exact absurd ⟨ha, hb⟩ hr

end Amounts

section Scope

variable (limit : Option QuotaLimit) (request : AdmissionRequest) (now : Int)

/-- The reservations in the scope of the limit of a request. -/
def inScope (r : Admission) : Bool :=
  r.tenantId = request.tenantId ∧
    (limit.map (·.scope) = some .principal → r.principal = request.principal) ∧
    r.category = request.category ∧ r.resourceKey = request.resourceKey

/-- What is held in the scope: by reservations that are neither released nor past the end of their
lease. -/
def held (reservations : List Admission) : Nat :=
  amounts reservations fun r =>
    inScope limit request r && decide (r.state ≠ .released ∧ now < r.leaseExpiresAt)

/-- What reservations hold that were marked as expired before the end of their lease. -/
def early (reservations : List Admission) : Nat :=
  amounts reservations fun r =>
    inScope limit request r && decide (r.state = .expired ∧ now < r.leaseExpiresAt)

/-- What reservations of other principals amount to that are past the end of their lease and were
not marked as expired. -/
def stale (reservations : List Admission) : Nat :=
  amounts reservations fun r =>
    inScope limit request r &&
      decide (r.state = .reserved ∧ r.leaseExpiresAt ≤ now ∧ r.principal ≠ request.principal)

/-- A request fits beside what is held already. -/
def Fits (sum : Nat) : Prop :=
  ∀ l ∈ limit, ((sum + request.amount : Nat) : ℚ) ≤ l.maximum

variable {limit request now}

theorem Fits.mono {sum sum' : Nat} (h : Fits limit request sum) (hle : sum' ≤ sum) :
    Fits limit request sum' := by
  intro l hl
  refine le_trans ?_ (h l hl)
  exact_mod_cast Nat.add_le_add_right hle _

/-- What is reserved, and not past the end of its lease. -/
theorem reserved_add_early (l : List Admission) :
    (amounts l fun r => inScope limit request r &&
        decide (r.state = .reserved ∧ now < r.leaseExpiresAt)) + early limit request now l =
      held limit request now l := by
  symm
  refine amounts_add (fun r => ?_) fun r => ?_
  · simp only [Bool.and_eq_true, decide_eq_true_eq]
    rintro ⟨⟨-, hreserved, -⟩, -, hexpired, -⟩
    rw [hreserved] at hexpired
    cases hexpired
  · cases hscope : inScope limit request r
    · rfl
    · cases hstate : r.state <;> simp

end Scope

/-! ### What a new request is admitted for -/

section Admits

variable {limits : List QuotaLimit} {digestCanonicalJson : AdmissionRequest → Digest}
  {request : AdmissionRequest} {now : Int}

/-- The instant of a request, and the end of the lease it is for, are instants the schemas print. -/
def Printable (request : AdmissionRequest) (now : Int) : Prop :=
  isoRepresentable now = true ∧ isoRepresentable (now + request.leaseDurationMs) = true

/-- The reservation that both stores make, under the identity each gives it. -/
def reservationOf (request : AdmissionRequest) (now : Int) (id : String) : Admission where
  id
  tenantId := request.tenantId
  principal := request.principal
  commandId := request.commandId
  category := request.category
  resourceKey := request.resourceKey
  amount := request.amount
  amount_pos := request.amount_pos
  state := .reserved
  fencingToken := 1
  reservedAtServerTime := now
  leaseExpiresAt := now + request.leaseDurationMs
  releasedAt := none

theorem toISOString_of_representable {instant : Int} (h : isoRepresentable instant = true) :
    toISOString (some instant) = .ok instant := by
  simp only [isoRepresentable, decide_eq_true_eq] at h
  rw [toISOString, if_neg]
  omega

theorem toISOString_eq_ok {instant i : Int} (h : toISOString (some instant) = .ok i) :
    i = instant := by
  simp only [toISOString] at h
  split at h
  · cases h
  · exact (Except.ok.inj h).symm

theorem reading_instant (now : Int) :
    (reading now).instant =
      if isoRepresentable now = true then .ok now else .error schemaRefused :=
  rfl

/-- A reservation is made exactly at printable instants. -/
theorem create_eq_ok {s : MemoryQuotaStore} {r : Admission} :
    s.create digestCanonicalJson request (reading now) = .ok r ↔
      Printable request now ∧ r = reservationOf request now
        (admissionId (digestCanonicalJson request) s.nextReservation) := by
  constructor
  · intro h
    obtain ⟨leaseExpiresAt, hlease, h⟩ := bind_eq_ok.mp h
    obtain ⟨reservedAt, hreserved, h⟩ := bind_eq_ok.mp h
    obtain rfl := toISOString_eq_ok hlease
    have hnow : isoRepresentable now = true ∧ reservedAt = now := by
      by_cases hnow : isoRepresentable now = true
      · rw [reading_instant, if_pos hnow] at hreserved
        exact ⟨hnow, (Except.ok.inj hreserved).symm⟩
      · rw [reading_instant, if_neg hnow] at hreserved
        cases hreserved
    obtain ⟨hnow, rfl⟩ := hnow
    split at h
    · cases h
    · rename_i hrepresentable
      exact ⟨⟨hnow, not_not.mp hrepresentable⟩, (Except.ok.inj h).symm⟩
  · rintro ⟨⟨hnow, hlease⟩, rfl⟩
    refine bind_eq_ok.mpr ⟨_, toISOString_of_representable hlease, ?_⟩
    refine bind_eq_ok.mpr ⟨now, by rw [reading_instant, if_pos hnow], ?_⟩
    rw [if_neg (not_not.mpr hlease)]
    rfl

/-- No limit is exceeded where the request fits. -/
theorem filter_exceeded {limit : Option QuotaLimit} {sum : QuotaLimit → Nat} :
    (limit.filter fun l => decide (l.maximum < ((sum l + request.amount : Nat) : ℚ))) = none ↔
      ∀ l ∈ limit, ((sum l + request.amount : Nat) : ℚ) ≤ l.maximum := by
  cases limit with
  | none => simp
  | some l => simp [Option.filter]

/-- What a reservation is once everything that is due has been marked. -/
def expireAt (now : Int) (r : Admission) : Admission :=
  if r.state = .reserved ∧ r.leaseExpiresAt ≤ now then { r with state := .expired } else r

theorem expireAt_amount (now : Int) (r : Admission) : (expireAt now r).amount = r.amount := by
  unfold expireAt
  split <;> rfl

namespace MemoryQuotaStore

variable {s : MemoryQuotaStore}

/-- Reconciling marks what is due. -/
theorem reconcileExpired_reading (s : MemoryQuotaStore) (now : Int) :
    (s.reconcileExpired (reading now)).2 =
      { s with reservations := s.reservations.mapValues (expireAt now) } := by
  have hbody : ∀ r : Admission, expire (reading now) r =
      .ok (if r.state = .reserved ∧ r.leaseExpiresAt ≤ now then some { r with state := .expired }
        else none) := by
    intro r
    simp only [expire, ClockReading.reaches, reading, decide_eq_true_eq]
    split <;> rfl
  have hupdated := OrderedMap.updateEach_eq_mapValues _ hbody s.reservations
  simp only [reconcileExpired, hupdated]
  congr 2
  funext r
  unfold expireAt
  split <;> rfl

/-- What is counted after reconciling: what is held, less what was marked early. -/
theorem used_reconciled (s : MemoryQuotaStore) (limit : Option QuotaLimit)
    (request : AdmissionRequest) (now : Int) :
    (s.reconcileExpired (reading now)).2.used limit request.tenantId request.principal
        request.category request.resourceKey =
      held limit request now s.reservations.values - early limit request now s.reservations.values := by
  have hvalues : (s.reconcileExpired (reading now)).2.reservations.values =
      s.reservations.values.map (expireAt now) := by
    rw [reconcileExpired_reading]
    simp [OrderedMap.values, OrderedMap.mapValues]
  have hused : (s.reconcileExpired (reading now)).2.used limit request.tenantId request.principal
      request.category request.resourceKey =
      amounts (s.reservations.values.map (expireAt now))
        (counts limit request.tenantId request.principal request.category request.resourceKey) := by
    rw [← hvalues]
    rfl
  have hcounts : ∀ r, counts limit request.tenantId request.principal request.category
      request.resourceKey (expireAt now r) =
        (inScope limit request r && decide (r.state = .reserved ∧ now < r.leaseExpiresAt)) := by
    intro r
    unfold expireAt
    split
    · rename_i hdue
      have hlt : ¬ now < r.leaseExpiresAt := not_lt.mpr hdue.2
      simp [counts, hlt]
    · rename_i hdue
      by_cases hreserved : r.state = .reserved
      · have hlt : now < r.leaseExpiresAt := not_le.mp fun hle => hdue ⟨hreserved, hle⟩
        simp [counts, inScope, hreserved, hlt]
      · simp [counts, hreserved]
  rw [hused, amounts_map (expireAt_amount now), amounts_congr fun r _ => hcounts r]
  have := @reserved_add_early limit request now s.reservations.values
  omega

/-- **A new request is admitted in memory** where it fits beside what is held, less what was
marked early. -/
theorem admits_iff (hs : Coherent s)
    (hfresh : request.admissionReplayKey.bind s.replays.get = none) :
    (∃ r, (s.reserve limits digestCanonicalJson request (reading now)).1 = .ok (.admitted r)) ↔
      Printable request now ∧ Fits (limit limits request.category request.resourceKey) request
        (held (limit limits request.category request.resourceKey) request now
            s.reservations.values -
          early (limit limits request.category request.resourceKey) request now
            s.reservations.values) := by
  have hfresh' : request.admissionReplayKey.bind (s.reconcileExpired (reading now)).2.replays.get =
      none := by rwa [reconcileExpired_reading]
  have hexceeded : (s.reconcileExpired (reading now)).2.exceededLimit limits request = none ↔
      Fits (limit limits request.category request.resourceKey) request
        (held (limit limits request.category request.resourceKey) request now
            s.reservations.values -
          early (limit limits request.category request.resourceKey) request now
            s.reservations.values) := by
    rw [← used_reconciled, exceededLimit, filter_exceeded]
    refine forall₂_congr fun l hl => ?_
    rw [Option.mem_def.mp hl]
  have hmade := (hs.reconcile (reading now)).fresh (digestCanonicalJson request)
  rw [reserve, hfresh']
  dsimp only
  rw [reserveNew, ← hexceeded]
  cases hlimit : (s.reconcileExpired (reading now)).2.exceededLimit limits request with
  | some l => simp
  | none =>
    dsimp only
    cases hcreate : (s.reconcileExpired (reading now)).2.create digestCanonicalJson request
        (reading now) with
    | error e =>
      have hprintable : ¬ Printable request now := by
        intro hprintable
        rw [create_eq_ok.mpr ⟨hprintable, rfl⟩] at hcreate
        cases hcreate
      simp [hprintable]
    | ok r =>
      obtain ⟨hprintable, rfl⟩ := create_eq_ok.mp hcreate
      have hnone : (s.reconcileExpired (reading now)).2.reservations.get
          (reservationOf request now (admissionId (digestCanonicalJson request)
            (s.reconcileExpired (reading now)).2.nextReservation)).id = none := hmade
      simp [hnone, hprintable]

end MemoryQuotaStore

namespace PostgresQuotaStore

variable {s : PostgresQuotaStore}

theorem create_eq_ok {r : Admission} :
    s.create request now = .ok r ↔
      Printable request now ∧ r = reservationOf request now (rowId (s.lastId + 1)) := by
  constructor
  · intro h
    obtain ⟨leaseExpiresAt, hlease, h⟩ := bind_eq_ok.mp h
    obtain rfl := toISOString_eq_ok hlease
    split at h
    · cases h
    · rename_i hrepresentable
      exact ⟨not_not.mp hrepresentable, (Except.ok.inj h).symm⟩
  · rintro ⟨hprintable, rfl⟩
    refine bind_eq_ok.mpr ⟨_, toISOString_of_representable hprintable.2, ?_⟩
    obtain ⟨hnow, hlease⟩ := hprintable
    rw [if_neg (not_not.mpr ⟨hnow, hlease⟩)]
    rfl

/-- What a statement that marks reservations makes of one. -/
def expireOf (finds : Admission → Bool) (now : Int) (r : Admission) : Admission :=
  if r.state = .reserved ∧ r.leaseExpiresAt ≤ now ∧ finds r = true then { r with state := .expired }
  else r

theorem expireOf_amount (finds : Admission → Bool) (now : Int) (r : Admission) :
    (expireOf finds now r).amount = r.amount := by
  unfold expireOf
  split <;> rfl

theorem expire_entries (s : PostgresQuotaStore) (finds : Admission → Bool) (now : Int) :
    (s.expire finds now).rows.entries = s.rows.entries.map fun x =>
      (x.1, { x.2 with reservation := expireOf finds now x.2.reservation }) := by
  simp only [expire, OrderedMap.mapValues]
  refine List.map_congr_left fun x _ => ?_
  unfold expireOf
  split <;> rfl

theorem expire_reservations (s : PostgresQuotaStore) (finds : Admission → Bool) (now : Int) :
    (s.expire finds now).reservations = s.reservations.map (expireOf finds now) := by
  simp only [reservations, OrderedMap.values, expire_entries, List.map_map]
  rfl

/-- What is counted once the requesting principal's reservations have been marked: what is held,
less what was marked early, and what is stale. -/
theorem used_expired (s : PostgresQuotaStore) (l : QuotaLimit) (request : AdmissionRequest)
    (now : Int) :
    (s.expire (ofHolder request) now).used (some l) request =
      held (some l) request now s.reservations - early (some l) request now s.reservations +
        stale (some l) request now s.reservations := by
  have hused : ∀ t : PostgresQuotaStore, t.used (some l) request =
      amounts t.reservations fun r => decide (r.state = .reserved) && inScope (some l) request r := by
    intro t
    simp only [used, OrderedMap.total, amounts, reservations, List.filter_map, List.map_map]
    refine congrArg List.sum (congrArg _ (List.filter_congr fun row _ => ?_))
    cases hscope : l.scope <;> simp [inScope, hscope]
  have hcounts : ∀ r, (decide ((expireOf (ofHolder request) now r).state = .reserved) &&
      inScope (some l) request (expireOf (ofHolder request) now r)) =
        (inScope (some l) request r && decide (r.state = .reserved ∧
          (now < r.leaseExpiresAt ∨
            (r.leaseExpiresAt ≤ now ∧ r.principal ≠ request.principal)))) := by
    intro r
    unfold expireOf
    by_cases hreserved : r.state = .reserved
    · by_cases hlt : now < r.leaseExpiresAt
      · simp [hreserved, hlt, not_le.mpr hlt]
      · have hle := not_lt.mp hlt
        by_cases hprincipal : r.principal = request.principal
        · by_cases hscope : inScope (some l) request r = true
          · simp only [inScope, decide_eq_true_eq] at hscope
            simp [hreserved, hle, hlt, hprincipal, ofHolder, hscope]
          · simp only [Bool.not_eq_true] at hscope
            rw [hscope, Bool.false_and]
            split
            · rfl
            · rw [hscope, Bool.and_false]
        · simp [hreserved, hle, hlt, hprincipal, ofHolder]
    · simp [hreserved]
  have hsplit := amounts_add (l := s.reservations)
    (a := fun r => inScope (some l) request r &&
      decide (r.state = .reserved ∧ now < r.leaseExpiresAt))
    (b := fun r => inScope (some l) request r &&
      decide (r.state = .reserved ∧ r.leaseExpiresAt ≤ now ∧ r.principal ≠ request.principal))
    (c := fun r => inScope (some l) request r && decide (r.state = .reserved ∧
      (now < r.leaseExpiresAt ∨ (r.leaseExpiresAt ≤ now ∧ r.principal ≠ request.principal))))
    (fun r => by
      simp only [Bool.and_eq_true, decide_eq_true_eq]
      rintro ⟨⟨-, -, hlt⟩, -, -, hle, -⟩
      exact absurd hlt (not_lt.mpr hle))
    (fun r => by
      cases inScope (some l) request r
      · rfl
      · by_cases hreserved : r.state = .reserved <;> simp [hreserved])
  rw [hused, expire_reservations, amounts_map (expireOf_amount _ _),
    amounts_congr fun r _ => hcounts r, hsplit]
  have := @reserved_add_early (some l) request now s.reservations
  unfold stale
  omega

/-- **A new request is admitted in Postgres** where it fits beside what is held, less what was
marked early, and what is stale. -/
theorem admits_iff (hfresh : s.prior request = none) :
    (∃ r, (s.reserve limits digestCanonicalJson request now).1 = .ok (.admitted r)) ↔
      Printable request now ∧ Fits (selectLimit limits request.category request.resourceKey) request
        (held (selectLimit limits request.category request.resourceKey) request now
            s.reservations -
          early (selectLimit limits request.category request.resourceKey) request now
            s.reservations +
          stale (selectLimit limits request.category request.resourceKey) request now
            s.reservations) := by
  have hexceeded : (s.expire (ofHolder request) now).exceededLimit limits request = none ↔
      Fits (selectLimit limits request.category request.resourceKey) request
        (held (selectLimit limits request.category request.resourceKey) request now
            s.reservations -
          early (selectLimit limits request.category request.resourceKey) request now
            s.reservations +
          stale (selectLimit limits request.category request.resourceKey) request now
            s.reservations) := by
    rw [exceededLimit, filter_exceeded]
    refine forall₂_congr fun l hl => ?_
    rw [Option.mem_def.mp hl, used_expired]
  rw [reserve, hfresh]
  dsimp only
  rw [← hexceeded]
  cases hinstant : toISOString (some now) with
  | error e =>
    have hprintable : ¬ Printable request now := by
      intro hprintable
      rw [toISOString_of_representable hprintable.1] at hinstant
      cases hinstant
    simp [hprintable]
  | ok instant =>
    obtain rfl := toISOString_eq_ok hinstant
    dsimp only
    cases hlimit : (s.expire (ofHolder request) instant).exceededLimit limits request with
    | some l => simp
    | none =>
      dsimp only
      cases hcreate : (s.expire (ofHolder request) instant).create request instant with
      | error e =>
        have hprintable : ¬ Printable request instant := by
          intro hprintable
          rw [create_eq_ok.mpr ⟨hprintable, rfl⟩] at hcreate
          cases hcreate
        simp [hprintable]
      | ok r => simp [(create_eq_ok.mp hcreate).1]

end PostgresQuotaStore

end Admits

/-! ### The stores side by side -/

/-- A reservation in memory and its row were made for one request; their states are equal, or
memory has marked the reservation as expired. -/
def Alike (m p : Admission) : Prop :=
  { MemoryQuotaStore.terms m with id := p.id } = MemoryQuotaStore.terms p ∧
    (m.state = p.state ∨ m.state = .expired)

section Alike

variable {m p : Admission}

theorem Alike.fields (h : Alike m p) :
    m.tenantId = p.tenantId ∧ m.amount = p.amount ∧ m.fencingToken = p.fencingToken ∧
      m.leaseExpiresAt = p.leaseExpiresAt ∧ m.admissionReplayKey = p.admissionReplayKey := by
  have hterms := h.1
  simp only [MemoryQuotaStore.terms, Admission.mk.injEq] at hterms
  obtain ⟨-, htenant, hprincipal, hcommand, hcategory, hresource, hamount, -, hfence, -, hlease, -⟩ :=
    hterms
  refine ⟨htenant, hamount, hfence, hlease, ?_⟩
  simp only [Admission.admissionReplayKey, htenant, hprincipal, hcommand, hcategory, hresource]

theorem Alike.of_made (request : AdmissionRequest) (now : Int) (id id' : String) :
    Alike (reservationOf request now id) (reservationOf request now id') :=
  ⟨rfl, .inl rfl⟩

/-- Memory marks what is due. -/
theorem Alike.expireAt (h : Alike m p) (now : Int) : Alike (expireAt now m) p := by
  unfold Pactmark.expireAt
  split
  · exact ⟨h.1, .inr rfl⟩
  · exact h

/-- Postgres marks what memory has marked too. -/
theorem Alike.expireOf (h : Alike m p) (finds : Admission → Bool) (now : Int) :
    Alike (Pactmark.expireAt now m) (PostgresQuotaStore.expireOf finds now p) := by
  unfold PostgresQuotaStore.expireOf
  split
  · rename_i hdue
    refine ⟨(h.expireAt now).1, .inr ?_⟩
    rcases h.2 with hstate | hexpired
    · have hlease := h.fields.2.2.2.1
      rw [Pactmark.expireAt, if_pos ⟨hstate.trans hdue.1, hlease ▸ hdue.2.1⟩]
    · rw [Pactmark.expireAt]
      split
      · rfl
      · exact hexpired
  · exact h.expireAt now

/-- What a release makes of a reservation. -/
def releaseAs (tenantId : String) (fencingToken : Int) (releasedAt : DateTimeText)
    (r : Admission) : Admission :=
  match releasedAt.parsed with
  | none => r
  | some instant =>
      if r.tenantId = tenantId ∧ (r.fencingToken : Int) = fencingToken ∧ r.state = .reserved then
        { r with state := .released, releasedAt := some instant }
      else r

theorem releaseAs_of_not {tenantId : String} {fencingToken : Int} {releasedAt : DateTimeText}
    {r : Admission} (h : ¬ (r.tenantId = tenantId ∧ (r.fencingToken : Int) = fencingToken ∧
      r.state = .reserved)) : releaseAs tenantId fencingToken releasedAt r = r := by
  unfold releaseAs
  split
  · rfl
  · rw [if_neg h]

/-- Both are released, or memory has marked its own already. -/
theorem Alike.releaseAs (h : Alike m p) (tenantId : String) (fencingToken : Int)
    (releasedAt : DateTimeText) :
    Alike (releaseAs tenantId fencingToken releasedAt m)
      (releaseAs tenantId fencingToken releasedAt p) := by
  obtain ⟨htenant, -, hfence, -⟩ := h.fields
  unfold Pactmark.releaseAs
  cases releasedAt.parsed with
  | none => exact h
  | some instant =>
    dsimp only
    rcases h.2 with hstate | hexpired
    · by_cases hp : p.tenantId = tenantId ∧ (p.fencingToken : Int) = fencingToken ∧
          p.state = .reserved
      · rw [if_pos hp, if_pos (by rw [htenant, hfence, hstate]; exact hp)]
        exact ⟨h.1, .inl rfl⟩
      · rw [if_neg hp, if_neg (by rw [htenant, hfence, hstate]; exact hp)]
        exact h
    · rw [if_neg (fun hc => by rw [hexpired] at hc; cases hc.2.2)]
      split
      · exact ⟨h.1, .inr hexpired⟩
      · exact h

end Alike

section Release

variable {n : Nat} (tenantId : String) (fencingToken : Int) (releasedAt : DateTimeText)

theorem set_of_getElem? {α : Type} {l : List α} {x : α} (h : l[n]? = some x) : l.set n x = l := by
  obtain ⟨hlt, rfl⟩ := List.getElem?_eq_some_iff.mp h
  exact List.set_getElem_self hlt

/-- What a release in memory does at the place of the reservation. -/
theorem MemoryQuotaStore.release_entries {s : MemoryQuotaStore} {id : String} {r : Admission}
    (hn : s.reservations.entries[n]? = some (id, r)) :
    (s.release tenantId id fencingToken releasedAt).2.reservations.entries =
      s.reservations.entries.set n (id, releaseAs tenantId fencingToken releasedAt r) := by
  have hget : s.reservations.get id = some r :=
    OrderedMap.get_eq_some_iff.mpr (List.mem_of_getElem? hn)
  have hkeep : ¬ (r.tenantId = tenantId ∧ (r.fencingToken : Int) = fencingToken ∧
      r.state = .reserved) → s.reservations.entries =
        s.reservations.entries.set n (id, Pactmark.releaseAs tenantId fencingToken releasedAt r) := by
    intro h
    rw [releaseAs_of_not h, set_of_getElem? hn]
  simp only [release, hget]
  split
  · rename_i htenant
    exact hkeep fun h => htenant h.1
  split
  · rename_i hfence
    exact hkeep fun h => hfence h.2.1
  rename_i htenant hfence
  split
  · rename_i hstate
    have := hkeep fun h => by rw [hstate] at h; cases h.2.2
    split <;> exact this
  · rename_i hstate
    exact hkeep fun h => by rw [hstate] at h; cases h.2.2
  · rename_i hstate
    cases hparsed : releasedAt.parsed with
    | none => simp only [Pactmark.releaseAs, hparsed, set_of_getElem? hn]
    | some instant =>
      simp only [Pactmark.releaseAs, hparsed]
      rw [if_pos ⟨not_not.mp htenant, not_not.mp hfence, hstate⟩]
      exact OrderedMap.set_entries_of_getElem? _ hn

/-- What a release in Postgres does at the place of the row; another tenant's is not found. -/
theorem PostgresQuotaStore.release_entries {s : PostgresQuotaStore} {key : String × String}
    {row : AdmissionRow} (hn : s.rows.entries[n]? = some (key, row))
    (hkey : key.1 = row.reservation.tenantId)
    (hids : (s.rows.entries.map fun x => x.1.2).Nodup) :
    (s.release tenantId key.2 fencingToken releasedAt).2.rows.entries =
        s.rows.entries.set n (key, { row with
          reservation := releaseAs tenantId fencingToken releasedAt row.reservation }) := by
  have hkeep : ¬ (row.reservation.tenantId = tenantId ∧
      (row.reservation.fencingToken : Int) = fencingToken ∧ row.reservation.state = .reserved) →
        s.rows.entries = s.rows.entries.set n (key, { row with
          reservation := Pactmark.releaseAs tenantId fencingToken releasedAt row.reservation }) := by
    intro h
    rw [releaseAs_of_not h, set_of_getElem? hn]
  by_cases htenant : row.reservation.tenantId = tenantId
  · have hkey' : (tenantId, key.2) = key := Prod.ext (htenant.symm.trans hkey.symm) rfl
    have hget : s.rows.get key = some row :=
      OrderedMap.get_eq_some_iff.mpr (List.mem_of_getElem? hn)
    simp only [release, hkey', hget]
    split
    · rename_i hfence
      exact hkeep fun h => hfence h.2.1
    rename_i hfence
    split
    · rename_i hstate
      have := hkeep fun h => by rw [hstate] at h; cases h.2.2
      split <;> exact this
    · rename_i hstate
      exact hkeep fun h => by rw [hstate] at h; cases h.2.2
    · rename_i hstate
      cases hparsed : releasedAt.parsed with
      | none => simp only [Pactmark.releaseAs, hparsed, set_of_getElem? hn]
      | some instant =>
        simp only [Pactmark.releaseAs, hparsed]
        rw [if_pos ⟨htenant, not_not.mp hfence, hstate⟩]
        exact OrderedMap.set_entries_of_getElem? _ hn
  · have hnone : s.rows.get (tenantId, key.2) = none := by
      rw [OrderedMap.get_eq_none_iff]
      intro hmem
      obtain ⟨y, hy, hykey⟩ := List.mem_map.mp hmem
      -- the numbers are given out once
      have hsnd : y.1.2 = key.2 := by rw [hykey]
      obtain rfl : y = (key, row) :=
        List.inj_on_of_nodup_map hids hy (List.mem_of_getElem? hn) hsnd
      exact htenant (hkey.symm.trans (congrArg Prod.fst hykey))
    simp only [release, hnone]
    exact hkeep fun h => htenant h.1

theorem PostgresQuotaStore.release_lastId (s : PostgresQuotaStore) (reservationId : String) :
    (s.release tenantId reservationId fencingToken releasedAt).2.lastId = s.lastId := by
  unfold release
  split
  · rfl
  split
  · rfl
  split
  · split <;> rfl
  · rfl
  · split <;> rfl

end Release

/-! ### What the operations keep -/

namespace MemoryQuotaStore

variable {limits : List QuotaLimit} {digestCanonicalJson : AdmissionRequest → Digest}
  {s s' : MemoryQuotaStore}

/-- The replay key of a reservation leads to it. -/
def Indexed (s : MemoryQuotaStore) : Prop :=
  ∀ id r key, s.reservations.get id = some r → r.admissionReplayKey = some key →
    s.replays.get key = some id

theorem Indexed.ends (hs : Indexed s) (h : Ends s s') : Indexed s' := by
  intro id r key hr hkey
  rw [h.replays.1]
  rcases h.get id with heq | ⟨prior, next, hprior, hnext, -, hterms, -⟩
  · exact hs id r key (heq ▸ hr) hkey
  · obtain rfl : next = r := Option.some.inj (hnext.symm.trans hr)
    rw [(terms_eq hterms).2.2.2.2.2.2] at hkey
    exact hs id prior key hprior hkey

theorem Indexed.reconcile (hs : Indexed s) (now : ClockReading) :
    Indexed (s.reconcileExpired now).2 :=
  reconcileExpired_induction (fun _ _ hs h => hs.ends h) now hs

theorem Indexed.add (hs : Indexed s) {request : AdmissionRequest} {now : ClockReading}
    {r : Admission}
    (hr : s.create digestCanonicalJson request now = .ok r)
    (hfresh : request.admissionReplayKey.bind s.replays.get = none) :
    Indexed (s.add request r) := by
  obtain ⟨-, -, -, -, -, -, -, hreplayKey⟩ := create_ok hr
  intro id x key hx hkey
  simp only [MemoryQuotaStore.add, OrderedMap.get_set] at hx
  rw [add_replays]
  split at hx
  · rename_i hid
    obtain rfl := Option.some.inj hx
    rw [if_pos (hreplayKey ▸ hkey), hid]
  · have hindexed := hs id x key hx hkey
    rw [if_neg]
    · exact hindexed
    · intro hrequest
      rw [hrequest, Option.bind_some, hindexed] at hfresh
      cases hfresh

/-- What a request leaves: what is due is marked, and a reservation is added if it is admitted
anew. -/
theorem reserve_entries (s : MemoryQuotaStore) (request : AdmissionRequest) (now : Int) :
    ((s.reserve limits digestCanonicalJson request (reading now)).2 =
        (s.reconcileExpired (reading now)).2 ∧
      (request.admissionReplayKey.bind s.replays.get = none →
        ∀ r, (s.reserve limits digestCanonicalJson request (reading now)).1 ≠
          .ok (.admitted r))) ∨
    (request.admissionReplayKey.bind s.replays.get = none ∧
      ∃ r, (s.reconcileExpired (reading now)).2.create digestCanonicalJson request (reading now) =
          .ok r ∧
        s.reserve limits digestCanonicalJson request (reading now) =
          (.ok (.admitted r), (s.reconcileExpired (reading now)).2.add request r)) := by
  have hreplays : (s.reconcileExpired (reading now)).2.replays = s.replays := by
    rw [reconcileExpired_reading]
  rcases @reserve_cases limits digestCanonicalJson s request (reading now) with
    ⟨priorId, hprior, heq⟩ | ⟨hnone, ⟨answer, hanswer, heq⟩ | ⟨r, hr, -, heq⟩⟩
  · refine .inl ⟨by rw [heq], fun hfresh => ?_⟩
    rw [hreplays, hfresh] at hprior
    cases hprior
  · exact .inl ⟨by rw [heq], fun _ r => by rw [heq]; exact hanswer r⟩
  · exact .inr ⟨hreplays ▸ hnone, r, hr, heq⟩

end MemoryQuotaStore

namespace PostgresQuotaStore

variable {limits : List QuotaLimit} {digestCanonicalJson : AdmissionRequest → Digest}
  {s : PostgresQuotaStore}

/-- What a request leaves: some of what is due may be marked, and a row is added if it is admitted
anew. -/
theorem reserve_entries (s : PostgresQuotaStore) (request : AdmissionRequest) (now : Int) :
    (∃ finds lastId, s.lastId ≤ lastId ∧
      (s.reserve limits digestCanonicalJson request now).2 =
        { s.expire finds now with lastId } ∧
      (s.prior request = none →
        ∀ r, (s.reserve limits digestCanonicalJson request now).1 ≠ .ok (.admitted r))) ∨
    (s.prior request = none ∧
      s.reserve limits digestCanonicalJson request now =
        (.ok (.admitted (reservationOf request now (rowId (s.lastId + 1)))),
          (s.expire (ofHolder request) now).insert digestCanonicalJson request
            (reservationOf request now (rowId (s.lastId + 1))))) := by
  have hsame : s.expire (fun _ => false) now = s := by
    have hrows : (s.expire (fun _ => false) now).rows = s.rows := by
      ext1
      rw [expire_entries]
      refine List.map_id'' (fun x => ?_) _
      simp [expireOf]
    exact congrArg (fun rows => (⟨rows, s.lastId⟩ : PostgresQuotaStore)) hrows
  unfold reserve
  split
  · rename_i row hprior
    refine .inl ⟨fun _ => false, s.lastId, le_rfl, ?_, fun h => by rw [hprior] at h; cases h⟩
    split <;> exact hsame.symm
  rename_i hprior
  cases hinstant : toISOString (some now) with
  | error e => exact .inl ⟨fun _ => false, s.lastId, le_rfl, hsame.symm, fun _ r h => by cases h⟩
  | ok instant =>
    obtain rfl := toISOString_eq_ok hinstant
    dsimp only
    cases (s.expire (ofHolder request) instant).exceededLimit limits request with
    | some l => exact .inl ⟨ofHolder request, s.lastId, le_rfl, rfl, fun _ r h => by cases h⟩
    | none =>
      dsimp only
      cases hcreate : (s.expire (ofHolder request) instant).create request instant with
      | error e =>
        refine .inl ⟨fun _ => false, s.lastId + 1, Nat.le_succ _, ?_, fun _ r h => by cases h⟩
        rw [hsame]
      | ok r =>
        obtain ⟨-, rfl⟩ := create_eq_ok.mp hcreate
        exact .inr ⟨hprior, rfl⟩

/-- A row is stored under its tenant and its identity, whose number was given out. -/
structure Keyed (s : PostgresQuotaStore) : Prop where
  key : ∀ x ∈ s.rows.entries, x.1 = (x.2.reservation.tenantId, x.2.reservation.id) ∧
    ∃ n ≤ s.lastId, x.2.reservation.id = rowId n
  nodup : (s.rows.entries.map fun x => x.1.2).Nodup

theorem rowId_inj {n n' : Nat} (h : rowId n = rowId n') : n = n' := by
  have hlist := congrArg String.toList h
  simp only [rowId, String.toList_append, List.append_cancel_left_eq] at hlist
  rw [Nat.toString_eq_repr, Nat.toString_eq_repr, Nat.repr_eq_ofList_toDigits,
    Nat.repr_eq_ofList_toDigits, String.toList_ofList, String.toList_ofList] at hlist
  simpa using congrArg (Nat.ofDigitChars 10 · 0) hlist

theorem Keyed.expire (h : Keyed s) (finds : Admission → Bool) (now : Int) {lastId : Nat}
    (hle : s.lastId ≤ lastId) : Keyed { s.expire finds now with lastId } where
  key x hx := by
    dsimp only at hx
    rw [expire_entries, List.mem_map] at hx
    obtain ⟨y, hy, rfl⟩ := hx
    obtain ⟨hkey, n, hn, hid⟩ := h.key y hy
    have hsame : (expireOf finds now y.2.reservation).tenantId = y.2.reservation.tenantId ∧
        (expireOf finds now y.2.reservation).id = y.2.reservation.id := by
      unfold expireOf
      split <;> exact ⟨rfl, rfl⟩
    dsimp only
    rw [hsame.1, hsame.2]
    exact ⟨hkey, n, hn.trans hle, hid⟩
  nodup := by
    dsimp only
    rw [expire_entries, List.map_map]
    exact h.nodup

theorem Keyed.fresh (h : Keyed s) (tenantId : String) :
    (tenantId, rowId (s.lastId + 1)) ∉ s.rows.entries.map Prod.fst := by
  intro hmem
  obtain ⟨x, hx, hxkey⟩ := List.mem_map.mp hmem
  obtain ⟨hkey, n, hn, hid⟩ := h.key x hx
  rw [hxkey] at hkey
  have := rowId_inj ((congrArg Prod.snd hkey).trans hid)
  omega

theorem Keyed.insert (h : Keyed s) (digestCanonicalJson : AdmissionRequest → Digest)
    (request : AdmissionRequest) (now : Int) :
    (s.insert digestCanonicalJson request
        (reservationOf request now (rowId (s.lastId + 1)))).rows.entries =
      s.rows.entries ++ [((request.tenantId, rowId (s.lastId + 1)),
        ⟨reservationOf request now (rowId (s.lastId + 1)), digestCanonicalJson request⟩)] ∧
    Keyed (s.insert digestCanonicalJson request
      (reservationOf request now (rowId (s.lastId + 1)))) := by
  have hentries : (s.insert digestCanonicalJson request
      (reservationOf request now (rowId (s.lastId + 1)))).rows.entries = _ :=
    OrderedMap.set_entries_of_fresh _ (h.fresh request.tenantId)
  refine ⟨hentries, fun x hx => ?_, ?_⟩
  · rw [hentries, List.mem_append, List.mem_singleton] at hx
    rcases hx with hx | rfl
    · obtain ⟨hkey, n, hn, hid⟩ := h.key x hx
      exact ⟨hkey, n, hn.trans (Nat.le_succ _), hid⟩
    · exact ⟨rfl, _, le_rfl, rfl⟩
  · rw [hentries, List.map_append, List.nodup_append]
    refine ⟨h.nodup, by simp, fun a ha b hb => ?_⟩
    rw [List.map_singleton, List.mem_singleton] at hb
    rintro rfl
    obtain ⟨x, hx, hxid⟩ := List.mem_map.mp ha
    obtain ⟨hkey, n, hn, hid⟩ := h.key x hx
    have := rowId_inj (hb.symm.trans (hxid.symm.trans ((congrArg Prod.snd hkey).trans hid)))
    omega

end PostgresQuotaStore

namespace QuotaStores

variable {limits : List QuotaLimit} {digestCanonicalJson : AdmissionRequest → Digest}
  {q : QuotaStores} {request : AdmissionRequest} {now : Int}

/-- The same reservations were made in both stores. -/
structure Related (q : QuotaStores) : Prop where
  coherent : q.memory.Coherent
  indexed : q.memory.Indexed
  keyed : q.postgres.Keyed
  alike : List.Forall₂ (fun x y => Alike x.2 y.2.reservation) q.memory.reservations.entries
    q.postgres.rows.entries

theorem related_start : Related start where
  coherent := MemoryQuotaStore.coherent_empty
  indexed _ _ _ h := by cases h
  keyed := ⟨fun _ h => absurd h List.not_mem_nil, .nil⟩
  alike := .nil

/-- Memory admits a request. -/
def MemoryAdmits (limits : List QuotaLimit) (digestCanonicalJson : AdmissionRequest → Digest)
    (q : QuotaStores) (request : AdmissionRequest) (now : Int) : Prop :=
  ∃ r, (q.memory.reserve limits digestCanonicalJson request (reading now)).1 = .ok (.admitted r)

/-- Postgres admits a request. -/
def PostgresAdmits (limits : List QuotaLimit) (digestCanonicalJson : AdmissionRequest → Digest)
    (q : QuotaStores) (request : AdmissionRequest) (now : Int) : Prop :=
  ∃ r, (q.postgres.reserve limits digestCanonicalJson request now).1 = .ok (.admitted r)

/-- A row of the command of a request is that of the reservation its replay key leads to. -/
theorem Related.prior (h : Related q) {row : AdmissionRow}
    (hprior : q.postgres.prior request = some row) :
    ∃ id r, request.admissionReplayKey.bind q.memory.replays.get = some id ∧
      q.memory.reservations.get id = some r ∧ Alike r row.reservation ∧
      row.reservation.admissionReplayKey = request.admissionReplayKey := by
  unfold PostgresQuotaStore.prior at hprior
  split at hprior
  · cases hprior
  rename_i hcommand
  obtain ⟨command, hcommand⟩ := Option.ne_none_iff_exists'.mp hcommand
  have hkey : row.reservation.admissionReplayKey = request.admissionReplayKey := by
    simpa using List.find?_some hprior
  obtain ⟨y, hy, rfl⟩ := List.mem_map.mp (List.mem_of_find?_eq_some hprior)
  obtain ⟨x, hx, halike⟩ := forall₂_exists_left h.alike hy
  have hget : q.memory.reservations.get x.1 = some x.2 :=
    OrderedMap.get_eq_some_iff.mpr hx
  have hreplay : request.admissionReplayKey = some (request.tenantId, request.principal, command,
      request.category, request.resourceKey) := by
    simp [AdmissionRequest.admissionReplayKey, hcommand]
  refine ⟨x.1, x.2, ?_, hget, halike, hkey⟩
  rw [hreplay, Option.bind_some]
  exact h.indexed x.1 x.2 _ hget (halike.fields.2.2.2.2.trans (hkey.trans hreplay))

/-- A request is new to both stores, or to neither. -/
theorem Related.fresh_iff (h : Related q) :
    request.admissionReplayKey.bind q.memory.replays.get = none ↔
      q.postgres.prior request = none := by
  constructor
  · intro hnone
    cases hprior : q.postgres.prior request with
    | none => rfl
    | some row =>
      obtain ⟨id, r, hreplay, -⟩ := h.prior hprior
      rw [hreplay] at hnone
      cases hnone
  · intro hnone
    rw [Option.eq_none_iff_forall_ne_some]
    intro id hreplay
    obtain ⟨key, hkey, hid⟩ := Option.bind_eq_some_iff.mp hreplay
    obtain ⟨r, hr, hrkey⟩ := h.coherent.replays key id hid
    obtain ⟨y, hy, halike⟩ := forall₂_exists_right h.alike (OrderedMap.get_eq_some_iff.mp hr)
    have hcommand : request.commandId ≠ none := by
      intro hnone
      simp [AdmissionRequest.admissionReplayKey, hnone] at hkey
    rw [PostgresQuotaStore.prior, if_neg hcommand, List.find?_eq_none] at hnone
    refine hnone y.2 (List.mem_map_of_mem hy) (decide_eq_true ?_)
    rw [← halike.fields.2.2.2.2, hkey]
    exact hrkey

/-- A repeated request is admitted in memory where its amount is that of the first. -/
theorem Related.memory_replayed (h : Related q) {row : AdmissionRow}
    (hprior : q.postgres.prior request = some row) :
    MemoryAdmits limits digestCanonicalJson q request now ↔
      row.reservation.amount = request.amount := by
  obtain ⟨id, r, hreplay, hget, halike, hkey⟩ := h.prior hprior
  have hmarked : (q.memory.reservations.mapValues (expireAt now)).get id =
      some (expireAt now r) := by
    rw [OrderedMap.get_eq_some_iff]
    exact List.mem_map.mpr ⟨(id, r), OrderedMap.get_eq_some_iff.mp hget, rfl⟩
  have hmarkedKey : (expireAt now r).admissionReplayKey = request.admissionReplayKey := by
    rw [← hkey, ← halike.fields.2.2.2.2]
    unfold expireAt
    split <;> rfl
  rw [MemoryAdmits, MemoryQuotaStore.reserve, MemoryQuotaStore.reconcileExpired_reading]
  dsimp only
  rw [hreplay]
  dsimp only
  rw [MemoryQuotaStore.replay, hmarked]
  dsimp only
  rw [expireAt_amount, halike.fields.2.1]
  split
  · rename_i hsame
    simp [hsame.2]
  · rename_i hdiffer
    simp only [reduceCtorEq, exists_false, false_iff]
    exact fun hamount => hdiffer ⟨hmarkedKey, hamount⟩

/-- A repeated request is admitted in Postgres where its digest is that of the first. -/
theorem postgres_replayed {row : AdmissionRow} (hprior : q.postgres.prior request = some row) :
    PostgresAdmits limits digestCanonicalJson q request now ↔
      row.requestDigest = digestCanonicalJson request := by
  rw [PostgresAdmits, PostgresQuotaStore.reserve, hprior]
  dsimp only
  split
  · rename_i hdiffer
    simp [hdiffer]
  · rename_i hsame
    simp [not_not.mp hsame]

/-- A new request that both admit, or neither, leaves the same reservations in both. -/
theorem Related.reserve (h : Related q)
    (hagree : q.postgres.prior request = none →
      (MemoryAdmits limits digestCanonicalJson q request now ↔
        PostgresAdmits limits digestCanonicalJson q request now)) :
    Related (q.step limits digestCanonicalJson (now, .reserve request)) := by
  have hcoherent := h.coherent.reconcile (reading now)
  have hindexed := h.indexed.reconcile (reading now)
  have hmarked : ∀ finds, List.Forall₂ (fun x y => Alike x.2 y.2.reservation)
      (q.memory.reconcileExpired (reading now)).2.reservations.entries
      (q.postgres.expire finds now).rows.entries := by
    intro finds
    rw [MemoryQuotaStore.reconcileExpired_reading, PostgresQuotaStore.expire_entries]
    refine List.forall₂_map_left_iff.mpr (List.forall₂_map_right_iff.mpr ?_)
    exact h.alike.imp fun x y halike => halike.expireOf finds now
  simp only [QuotaStores.step]
  rcases @MemoryQuotaStore.reserve_entries limits digestCanonicalJson q.memory request now with
    ⟨hmemory, hdenied⟩ | ⟨hfresh, r, hr, hmemory⟩ <;>
  rcases @PostgresQuotaStore.reserve_entries limits digestCanonicalJson q.postgres request now with
    ⟨finds, lastId, hle, hpostgres, hdenied'⟩ | ⟨hfresh', hpostgres⟩
  · rw [hmemory, hpostgres]
    exact ⟨hcoherent, hindexed, h.keyed.expire finds now hle, hmarked finds⟩
  · -- only Postgres would admit it
    obtain ⟨r, hr⟩ := (hagree hfresh').mpr ⟨_, by rw [hpostgres]⟩
    exact absurd hr (hdenied (h.fresh_iff.mpr hfresh') r)
  · -- only memory would admit it
    obtain ⟨x, hx⟩ := (hagree (h.fresh_iff.mp hfresh)).mp ⟨r, by rw [hmemory]⟩
    exact absurd hx (hdenied' (h.fresh_iff.mp hfresh) x)
  · have hkeyed : (q.postgres.expire (PostgresQuotaStore.ofHolder request) now).Keyed :=
      h.keyed.expire _ now le_rfl
    obtain ⟨hentries, hinserted⟩ := hkeyed.insert digestCanonicalJson request now
    have hreplays : request.admissionReplayKey.bind
        (q.memory.reconcileExpired (reading now)).2.replays.get = none := by
      rwa [MemoryQuotaStore.reconcileExpired_reading]
    have hnew := hcoherent.fresh (digestCanonicalJson request)
    obtain ⟨-, rfl⟩ := create_eq_ok.mp hr
    rw [hmemory, hpostgres]
    refine ⟨hcoherent.add hr, hindexed.add hr hreplays, hinserted, ?_⟩
    have hadded := OrderedMap.set_entries_of_fresh
      (reservationOf request now (admissionId (digestCanonicalJson request)
        (q.memory.reconcileExpired (reading now)).2.nextReservation))
      (OrderedMap.get_eq_none_iff.mp hnew)
    refine Eq.subst (motive := fun l => List.Forall₂ _ l _) hadded.symm ?_
    refine Eq.subst (motive := List.Forall₂ _ _) hentries.symm ?_
    exact List.rel_append (hmarked _) (.cons (.of_made request now _ _) .nil)

/-- A release, wherever it is made. -/
theorem Related.release (h : Related q) (tenantId : String) (nth : Nat) (fencingToken : Int)
    (releasedAt : DateTimeText) :
    Related (q.step limits digestCanonicalJson
      (now, .release tenantId nth fencingToken releasedAt)) := by
  simp only [QuotaStores.step]
  split
  · rename_i id r tenant rowId row hmemory hpostgres
    obtain ⟨hkey, -⟩ := h.keyed.key _ (List.mem_of_getElem? hpostgres)
    have hmemory' := MemoryQuotaStore.release_entries tenantId fencingToken releasedAt hmemory
    have hpostgres' := PostgresQuotaStore.release_entries tenantId fencingToken releasedAt hpostgres
      (congrArg Prod.fst hkey) h.keyed.nodup
    have halike : Alike r row.reservation := by
      have hrel := forall₂_getElem? h.alike nth
      rw [hmemory, hpostgres] at hrel
      cases hrel with
      | some halike => exact halike
    have hsame : (releaseAs tenantId fencingToken releasedAt row.reservation).tenantId =
          row.reservation.tenantId ∧
        (releaseAs tenantId fencingToken releasedAt row.reservation).id = row.reservation.id := by
      unfold releaseAs
      split
      · exact ⟨rfl, rfl⟩
      · split <;> exact ⟨rfl, rfl⟩
    have hkept : (q.memory.release tenantId id fencingToken releasedAt).2.Coherent ∧
        (q.memory.release tenantId id fencingToken releasedAt).2.Indexed := by
      rcases q.memory.release_cases tenantId id fencingToken releasedAt with heq | hends
      · rw [heq]
        exact ⟨h.coherent, h.indexed⟩
      · exact ⟨h.coherent.ends hends, h.indexed.ends hends⟩
    refine ⟨hkept.1, hkept.2, ⟨fun x hx => ?_, ?_⟩, ?_⟩
    · dsimp only at hx
      rw [hpostgres'] at hx
      rw [PostgresQuotaStore.release_lastId]
      rcases List.mem_or_eq_of_mem_set hx with hx | rfl
      · exact h.keyed.key x hx
      · dsimp only
        rw [hsame.1, hsame.2]
        exact h.keyed.key _ (List.mem_of_getElem? hpostgres)
    · dsimp only
      rw [hpostgres', List.map_set]
      rw [set_of_getElem?]
      · exact h.keyed.nodup
      · rw [List.getElem?_map, hpostgres]
        rfl
    · dsimp only
      rw [hmemory', hpostgres']
      exact forall₂_set h.alike (halike.releaseAs tenantId fencingToken releasedAt) nth
  · exact h

/-- A reconciliation marks the same reservations in both. -/
theorem Related.reconcileExpired (h : Related q) (at_ : Int) :
    Related (q.step limits digestCanonicalJson (now, .reconcileExpired at_)) := by
  refine ⟨h.coherent.reconcile _, h.indexed.reconcile _,
    h.keyed.expire (fun _ => true) at_ le_rfl, ?_⟩
  simp only [QuotaStores.step, PostgresQuotaStore.reconcileExpired]
  rw [MemoryQuotaStore.reconcileExpired_reading, PostgresQuotaStore.expire_entries]
  refine List.forall₂_map_left_iff.mpr (List.forall₂_map_right_iff.mpr ?_)
  exact h.alike.imp fun x y halike => halike.expireOf _ at_

/-! ### Agreement -/

/-- What decides whether a new request is admitted is what is held: neither what was marked early
nor what is stale turns it. -/
def Undecided (limit : Option QuotaLimit) (request : AdmissionRequest) (now : Int)
    (memory postgres : List Admission) : Prop :=
  (Fits limit request (held limit request now memory - early limit request now memory) →
    Fits limit request (held limit request now memory)) ∧
  (Fits limit request (held limit request now postgres - early limit request now postgres +
      stale limit request now postgres) ↔ Fits limit request (held limit request now postgres)) ∧
  (Fits limit request (held limit request now memory) ↔
    Fits limit request (held limit request now postgres))

/-- **The condition on a request.**  A repeated one is the whole request again, or has another
amount; a new one is not turned by marks. -/
def Meets (limits : List QuotaLimit) (digestCanonicalJson : AdmissionRequest → Digest)
    (q : QuotaStores) (request : AdmissionRequest) (now : Int) : Prop :=
  match q.postgres.prior request with
  | some row =>
      row.requestDigest = digestCanonicalJson request ↔ row.reservation.amount = request.amount
  | none =>
      Undecided (MemoryQuotaStore.limit limits request.category request.resourceKey) request now
        q.memory.reservations.values q.postgres.reservations

/-- **What is claimed of a request**: both stores admit it, or neither; and a new one is admitted
exactly where it fits beside what is held. -/
def Exact (limits : List QuotaLimit) (digestCanonicalJson : AdmissionRequest → Digest)
    (q : QuotaStores) (request : AdmissionRequest) (now : Int) : Prop :=
  (MemoryAdmits limits digestCanonicalJson q request now ↔
    PostgresAdmits limits digestCanonicalJson q request now) ∧
  (q.postgres.prior request = none →
    (MemoryAdmits limits digestCanonicalJson q request now ↔
      Fits (MemoryQuotaStore.limit limits request.category request.resourceKey) request
        (held (MemoryQuotaStore.limit limits request.category request.resourceKey) request now
          q.memory.reservations.values)) ∧
    (PostgresAdmits limits digestCanonicalJson q request now ↔
      Fits (MemoryQuotaStore.limit limits request.category request.resourceKey) request
        (held (MemoryQuotaStore.limit limits request.category request.resourceKey) request now
          q.postgres.reservations)))

/-- Two answers are those of two sums where they are the same, and so are the sums. -/
theorem exact_of_mono {A A' B B' : Prop} (hmono : A → A') :
    ((A' ↔ B') ∧ (A' ↔ A) ∧ (B' ↔ B)) ↔ ((A' → A) ∧ (B' ↔ B) ∧ (A ↔ B)) := by
  tauto

/-- **One request** is answered as claimed exactly where the condition is met. -/
theorem Related.exact_iff (h : Related q) (hprintable : Printable request now) :
    Exact limits digestCanonicalJson q request now ↔
      Meets limits digestCanonicalJson q request now := by
  unfold Exact Meets
  cases hprior : q.postgres.prior request with
  | some row =>
    rw [h.memory_replayed hprior, postgres_replayed hprior]
    simp only [reduceCtorEq, false_implies, and_true]
    exact Iff.comm
  | none =>
    have hmemory : MemoryAdmits limits digestCanonicalJson q request now ↔ _ :=
      MemoryQuotaStore.admits_iff h.coherent (h.fresh_iff.mpr hprior)
    have hpostgres : PostgresAdmits limits digestCanonicalJson q request now ↔ _ :=
      PostgresQuotaStore.admits_iff hprior
    rw [hmemory, hpostgres]
    simp only [hprintable, true_and, true_implies]
    exact exact_of_mono fun hfits => hfits.mono (Nat.sub_le _ _)

/-- The condition on a step: that on its request. -/
def StepMeets (limits : List QuotaLimit) (digestCanonicalJson : AdmissionRequest → Digest)
    (q : QuotaStores) (call : Int × QuotaOperation) : Prop :=
  ∀ request, call.2 = .reserve request → Printable request call.1 →
    Meets limits digestCanonicalJson q request call.1

/-- **The step lemma.** -/
theorem Related.step (h : Related q) {call : Int × QuotaOperation}
    (hcall : StepMeets limits digestCanonicalJson q call) :
    Related (q.step limits digestCanonicalJson call) := by
  obtain ⟨now, operation⟩ := call
  cases operation with
  | reserve request =>
    refine h.reserve fun hprior => ?_
    by_cases hprintable : Printable request now
    · exact ((h.exact_iff hprintable).mpr (hcall request rfl hprintable)).1
    · -- neither store makes the reservation
      have hmemory : MemoryAdmits limits digestCanonicalJson q request now ↔ _ :=
        MemoryQuotaStore.admits_iff h.coherent (h.fresh_iff.mpr hprior)
      have hpostgres : PostgresAdmits limits digestCanonicalJson q request now ↔ _ :=
        PostgresQuotaStore.admits_iff hprior
      rw [hmemory, hpostgres]
      simp only [hprintable, false_and]
  | release tenantId nth fencingToken releasedAt =>
    exact h.release tenantId nth fencingToken releasedAt
  | reconcileExpired at_ => exact h.reconcileExpired at_

/-- One reservation of a tenant at a time. -/
def oneAtATime : QuotaLimit where
  scope := .tenant
  metric := .category .request_start
  resourceKey := "agent"
  maximum := 1
  maximum_pos := by decide
  retryAfterSeconds := 1

/-- A request of another principal of the tenant. -/
def otherRequest : AdmissionRequest :=
  { MemoryQuotaStore.oneRequest with principal := ⟨.user, "other"⟩, commandId := none }

/-- Whether an answer admits the request. -/
def isAdmitted : Except Thrown AdmissionDecision → Bool
  | .ok (.admitted _) => true
  | _ => false

end QuotaStores

end Pactmark
