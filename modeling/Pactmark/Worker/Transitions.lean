import Pactmark.Stores.UnitOfWork
import Pactmark.Worker.Composition

/-!
# Worker — fenced transitions in both units of work

`transactTransition` of `store-postgres/src/command-unit-of-work.ts` beside that of the memory
store, each with the lease store of its package.  Both are driven by the same calls at the same
instants: the clock is read to the millisecond, and the generators of both lease stores answer
the same identity.

What the other tables hold is written as what the memory stores hold, and a callback does the same
to either.  It is arbitrary, and one that throws leaves nothing.

* `LeasesAlike`: a lease in memory and its row; memory marks a lease as expired where Postgres
  leaves the row as it is.
* `Alike.step`: a call that meets the condition is answered alike and leaves the stores alike.
* `fenced_transitions_agree`: what holds of every run of such calls.
-/

namespace Pactmark

open Durable Reservation

/-- `RunTransitionKey`. -/
structure RunTransitionKey where
  tenantId : String
  runId : String
  transitionKind : String
  transitionKey : String
  workOrderBindingDigest : Digest
  executionDefinitionDigest : Digest
  leaseId : Option String
  fencingToken : Option Nat

/-- The key with the lease and the token it is fenced by. -/
def RunTransitionKey.fencedBy (key : RunTransitionKey) (leaseId : String) (fencingToken : Nat) :
    RunTransitionKey :=
  { key with leaseId := some leaseId, fencingToken := some fencingToken }

/-- The projection of a run: that of the memory store, or the row of `pactmark_run_projections`. -/
def MemoryStores.runProjection (s : MemoryStores) (tenantId runId : String) :
    Option RunProjection :=
  s.events.projections.get (JsonValue.stringify (.array [.string tenantId, .string runId]))

/-- The key is bound to the run as it was accepted. -/
def RunTransitionKey.binds (key : RunTransitionKey) (run : RunProjection) : Bool :=
  run.tenantId = key.tenantId ∧ run.runId = key.runId ∧
    run.workOrderBindingDigest = key.workOrderBindingDigest ∧
    run.executionDefinitionDigest = key.executionDefinitionDigest

namespace Worker

/-- What the units of work are configured with, and the digest of a key. -/
structure TransitionContext where
  profile : StorageSecurityProfile
  digestCanonicalJson : RunTransitionKey → Digest

/-! ### The unit of work of Postgres -/

/-- The leases, the rows of `pactmark_run_transitions`, and the other tables. -/
structure PostgresUnit where
  tables : Tables
  records : MemoryStores
  transitions : OrderedMap (String × Digest) JsonValue

namespace PostgresUnit

/-- The row of a lease is that of the active lease of a key. -/
def fences (leaseId : String) (fencingToken : Nat) (now : Int) (row : LeaseRow) : Bool :=
  row.leaseId = leaseId ∧ row.fencingToken = fencingToken ∧ row.state = .active ∧
    now < row.expiresAt

/-- `#assertTransitionFence`. -/
def assertTransitionFence (u : PostgresUnit) (key : RunTransitionKey) (now : Int) :
    Except Thrown Unit :=
  match u.records.runProjection key.tenantId key.runId with
  | none => .error (conflict "transition_run_missing")
  | some run =>
      if ¬ key.binds run then .error (conflict "transition_binding_changed")
      else
        match key.leaseId, key.fencingToken with
        | none, none => .ok ()
        | some leaseId, some fencingToken =>
            match u.tables.leases.get (key.tenantId, key.runId) with
            | none => .error (conflict "stale_or_expired_fence")
            | some row =>
                if fences leaseId fencingToken now row then .ok ()
                else .error (conflict "stale_or_expired_fence")
        | _, _ => .error (conflict "transition_fence_incomplete")

/-- `transactTransition`. -/
def transactTransition (C : TransitionContext) (key : RunTransitionKey)
    (callback : Callback JsonValue) (now : Int) (u : PostgresUnit) :
    Except Thrown JsonValue × PostgresUnit :=
  match C.profile.assertTenantAllowed key.tenantId >>= fun _ => u.assertTransitionFence key now with
  | .error e => (.error e, u)
  | .ok () =>
      match u.transitions.get (key.tenantId, C.digestCanonicalJson key) with
      | some _ => (.error (conflict "transition_already_committed"), u)
      | none =>
          match callback u.records with
          | (_, .error e) => (.error e, u)
          | (records, .ok value) =>
              (.ok value, { u with
                records
                transitions :=
                  u.transitions.set (key.tenantId, C.digestCanonicalJson key) value })

end PostgresUnit

/-! ### Both units of work -/

/-- The lease store and the unit of work of either package. -/
structure FencedUnits where
  leases : MemoryRunLeaseStore
  unit : UnitOfWork
  postgres : PostgresUnit

/-- A call on both. -/
inductive FencedCall where
  | acquire (tenantId runId holderId leaseId : String) (ttlMs : Int)
  | renew (lease : FencedLease) (ttlMs : Int)
  | release (lease : FencedLease)
  | transition (key : RunTransitionKey) (leaseId : String) (fencingToken : Nat)
      (callback : Callback JsonValue)

/-- What the clock of the memory lease store reads at an instant. -/
def clockReading (now : Int) : ClockReading :=
  ⟨some now, isoRepresentable now⟩

namespace FencedUnits

variable (C : TransitionContext)

/-- No leases and no transitions; the other records are any. -/
def start (records : MemoryStores) : FencedUnits where
  leases := .empty
  unit := ⟨records, .empty, .empty⟩
  postgres := ⟨⟨.empty, .empty⟩, records, .empty⟩

/-- What a call leaves in Postgres. -/
def postgresStep (u : PostgresUnit) (now : Int) : FencedCall → PostgresUnit
  | .acquire tenantId runId holderId leaseId ttlMs =>
      { u with
        tables := (PostgresRunLeaseStore.acquire C.profile tenantId runId holderId leaseId ttlMs
          (timestamptz now) u.tables).2 }
  | .renew lease ttlMs =>
      { u with
        tables :=
          (PostgresRunLeaseStore.renew C.profile lease ttlMs (timestamptz now) u.tables).2 }
  | .release lease =>
      { u with
        tables := (PostgresRunLeaseStore.release C.profile lease (timestamptz now) u.tables).2 }
  | .transition key leaseId fencingToken callback =>
      (u.transactTransition C (key.fencedBy leaseId fencingToken) callback (timestamptz now)).2

/-- What a call leaves. -/
def step (q : FencedUnits) (call : Int × FencedCall) : FencedUnits where
  leases :=
    match call.2 with
    | .acquire tenantId runId holderId leaseId ttlMs =>
        (q.leases.acquire tenantId runId holderId ttlMs (clockReading call.1) (.ok leaseId)).2
    | .renew lease ttlMs => (q.leases.renew lease ttlMs (clockReading call.1)).2
    | .release lease => (q.leases.release lease).2
    | .transition _ _ _ _ => q.leases
  unit :=
    match call.2 with
    | .transition key leaseId fencingToken callback =>
        (q.unit.transactTransition (C.digestCanonicalJson (key.fencedBy leaseId fencingToken))
          callback).2
    | _ => q.unit
  postgres := postgresStep C q.postgres call.1 call.2

/-- What a sequence of calls leaves. -/
def after (records : MemoryStores) (calls : List (Int × FencedCall)) : FencedUnits :=
  calls.foldl (step C) (start records)

/-- The answers of both to a call are the same: what they return, or that they throw. -/
def Agrees (q : FencedUnits) (now : Int) : FencedCall → Prop
  | .acquire tenantId runId holderId leaseId ttlMs =>
      (q.leases.acquire tenantId runId holderId ttlMs (clockReading now) (.ok leaseId)).1.toOption =
        (PostgresRunLeaseStore.acquire C.profile tenantId runId holderId leaseId ttlMs
          (timestamptz now) q.postgres.tables).1.toOption
  | .renew lease ttlMs =>
      (q.leases.renew lease ttlMs (clockReading now)).1.toOption =
        (PostgresRunLeaseStore.renew C.profile lease ttlMs (timestamptz now)
          q.postgres.tables).1.toOption
  | .release lease =>
      (q.leases.release lease).1.toOption =
        (PostgresRunLeaseStore.release C.profile lease (timestamptz now)
          q.postgres.tables).1.toOption
  | .transition key leaseId fencingToken callback =>
      (q.unit.transactTransition (C.digestCanonicalJson (key.fencedBy leaseId fencingToken))
          callback).1.toOption =
        (q.postgres.transactTransition C (key.fencedBy leaseId fencingToken) callback
          (timestamptz now)).1.toOption

/-- The lease that `acquire` of the memory store makes. -/
def newLease (q : FencedUnits) (tenantId runId holderId leaseId : String) (ttlMs now : Int) :
    FencedLease where
  leaseId
  tenantId
  runId
  holderId
  fencingToken := q.leases.lastFencingToken (tenantId, runId) + 1
  acquiredAt := now
  expiresAt := now + ttlMs
  state := .active

/-- The active lease of the run, as the memory store has it, and it has not expired. -/
def LeaseActive (s : MemoryRunLeaseStore) (key : StreamKey) (leaseId : String)
    (fencingToken : Nat) (now : Int) : Prop :=
  ∃ lease, s.leases.get key = some lease ∧ lease.leaseId = leaseId ∧
    lease.fencingToken = fencingToken ∧ lease.state = .active ∧ now < lease.expiresAt

/-- What a transition that commits needs. -/
def Committable (q : FencedUnits) (key : RunTransitionKey) (leaseId : String)
    (fencingToken : Nat) (now : Int) : Prop :=
  C.profile.assertTenantAllowed key.tenantId = .ok () ∧
    (∃ run, q.unit.stores.runProjection key.tenantId key.runId = some run ∧
      key.binds run = true) ∧
    LeaseActive q.leases (key.tenantId, key.runId) leaseId fencingToken now

/-- **The condition** on a call. -/
def Meets (q : FencedUnits) (now : Int) : FencedCall → Prop
  | .acquire tenantId runId holderId leaseId ttlMs =>
      MemoryRunLeaseStore.acquireInstant tenantId runId holderId ttlMs (clockReading now) =
          .ok now →
        C.profile.assertTenantAllowed tenantId = .ok () ∧
          (q.leases.held (tenantId, runId) now = false →
            (q.newLease tenantId runId holderId leaseId ttlMs now).parses = true)
  | .renew lease ttlMs =>
      ∀ c, q.leases.current lease = some c → now < c.expiresAt →
        C.profile.assertTenantAllowed lease.tenantId = .ok () ∧
          { c with expiresAt := now + ttlMs }.parses = true
  | .release lease =>
      ∀ c, q.leases.current lease = some c →
        C.profile.assertTenantAllowed lease.tenantId = .ok () ∧ now < c.expiresAt
  | .transition key leaseId fencingToken callback =>
      q.unit.transitions.get (C.digestCanonicalJson (key.fencedBy leaseId fencingToken)) = none ∧
        ((callback q.unit.stores).2.toOption ≠ none →
          q.Committable C key leaseId fencingToken now)

/-- A lease that was marked as expired is over: the clock has not gone back behind its end. -/
def Onward (q : FencedUnits) (now : Int) : Prop :=
  ∀ key lease, q.leases.leases.get key = some lease → lease.state = .expired →
    lease.expiresAt ≤ now

/-- The condition on a step. -/
def StepMeets (q : FencedUnits) (call : Int × FencedCall) : Prop :=
  q.Onward call.1 ∧ Meets C q call.1 call.2

/-! ### What the stores share -/

/-- The row of a lease. -/
def row (lease : FencedLease) : LeaseRow where
  leaseId := lease.leaseId
  holderId := lease.holderId
  fencingToken := lease.fencingToken
  acquiredAt := timestamptz lease.acquiredAt
  expiresAt := timestamptz lease.expiresAt
  state := lease.state

/-- **A lease and the last token of its run, and the row of the run.**  A lease that has expired
may be marked so in memory alone. -/
inductive LeaseAlike (key : StreamKey) :
    Option FencedLease → Option Nat → Option LeaseRow → Prop
  | none : LeaseAlike key none none none
  | stored {lease : FencedLease} (hkey : lease.key = key) :
      LeaseAlike key (some lease) (some lease.fencingToken) (some (row lease))
  | expired {lease : FencedLease} (hkey : lease.key = key) (hactive : lease.state = .active) :
      LeaseAlike key (some { lease with state := .expired }) (some lease.fencingToken)
        (some (row lease))

/-- The leases of both are alike. -/
def LeasesAlike (s : MemoryRunLeaseStore) (t : Tables) : Prop :=
  ∀ key, LeaseAlike key (s.leases.get key) (s.lastFencingTokens.get key) (t.leases.get key)

/-- **The stores correspond.** -/
structure Alike (q : FencedUnits) : Prop where
  leases : LeasesAlike q.leases q.postgres.tables
  records : q.postgres.records = q.unit.stores
  stored : ∀ tenantId digest value, q.postgres.transitions.get (tenantId, digest) = some value →
    q.unit.transitions.get digest = some value
  kept : ∀ digest value, q.unit.transitions.get digest = some value →
    ∃ tenantId, q.postgres.transitions.get (tenantId, digest) = some value

theorem alike_start (records : MemoryStores) : Alike (start records) where
  leases _ := .none
  records := rfl
  stored _ _ _ h := by cases h
  kept _ _ h := by cases h

section Leases

variable {s : MemoryRunLeaseStore} {t : Tables} {lease c : FencedLease} {key : StreamKey}
  {now : Int}

theorem timestamptz_lt {a b : Int} : timestamptz a < timestamptz b ↔ a < b := by
  unfold timestamptz
  omega

/-- A row is parsed back to its lease. -/
theorem parseLease_row (hparses : lease.parses = true) :
    parseLease lease.key (row lease) = .ok lease := by
  have hinstant : ∀ milliseconds, instant (timestamptz milliseconds) = milliseconds :=
    fun milliseconds => Int.mul_ediv_cancel _ (by decide)
  simp only [parseLease, row, hinstant, FencedLease.key]
  exact if_pos hparses

/-- A lease that its schema accepts ends at an instant that can be printed. -/
theorem memory_parseLease (hparses : lease.parses = true) :
    MemoryRunLeaseStore.parseLease lease = .ok lease := by
  have hrange : ¬ (lease.expiresAt < -8640000000000000 ∨
      8640000000000000 < lease.expiresAt) := by
    simp only [FencedLease.parses, isoRepresentable, decide_eq_true_eq] at hparses
    omega
  rw [MemoryRunLeaseStore.parseLease, if_neg hrange, if_pos hparses]

/-- A lease and its row are set. -/
theorem LeasesAlike.set (h : LeasesAlike s t) {s' : MemoryRunLeaseStore} {t' : Tables}
    (written : FencedLease) (r : LeaseRow) (hkey : written.key = key)
    (hs : ∀ k, s'.leases.get k = if k = key then some written else s.leases.get k)
    (htokens : ∀ k, s'.lastFencingTokens.get k =
      if k = key then some written.fencingToken else s.lastFencingTokens.get k)
    (ht : ∀ k, t'.leases.get k = if k = key then some r else t.leases.get k)
    (hrow : r = row written ∨
      written.state = .expired ∧ r = row { written with state := .active }) :
    LeasesAlike s' t' := by
  intro k
  rw [hs, htokens, ht]
  split
  · subst k
    rcases hrow with rfl | ⟨hexpired, rfl⟩
    · exact .stored hkey
    · have hwritten : written = { { written with state := .active } with state := .expired } := by
        rw [← hexpired]
      rw [hwritten]
      exact .expired hkey rfl
  · exact h k

/-- The arguments that `acquire` of the memory store refuses are refused by that of Postgres, and
the others of an allowed tenant are not. -/
theorem acquirable_iff (now : Int) {profile : StorageSecurityProfile}
    {tenantId runId holderId : String} {ttlMs : Int} :
    PostgresRunLeaseStore.acquirable profile tenantId runId holderId ttlMs = .ok () ↔
      MemoryRunLeaseStore.acquireInstant tenantId runId holderId ttlMs (clockReading now) =
          .ok now ∧ profile.assertTenantAllowed tenantId = .ok () := by
  unfold PostgresRunLeaseStore.acquirable MemoryRunLeaseStore.acquireInstant assertPositive
    MemoryRunLeaseStore.assertPositiveTtl
  simp only [bind_eq_ok, clockReading, MemoryRunLeaseStore.assertValidInstant]
  by_cases httl : 0 < ttlMs ∧ ttlMs ≤ 9007199254740991
  · simp only [if_pos httl]
    tauto
  · simp only [if_neg httl]
    tauto

theorem acquireInstant_ok {tenantId runId holderId : String} {ttlMs nowMs : Int}
    (h : MemoryRunLeaseStore.acquireInstant tenantId runId holderId ttlMs (clockReading now) =
      .ok nowMs) : nowMs = now := by
  unfold MemoryRunLeaseStore.acquireInstant at h
  obtain ⟨_, -, h⟩ := bind_eq_ok.mp h
  obtain ⟨_, -, h⟩ := bind_eq_ok.mp h
  obtain ⟨_, -, h⟩ := bind_eq_ok.mp h
  obtain ⟨_, -, h⟩ := bind_eq_ok.mp h
  exact (Except.ok.inj h).symm

/-- The lease of a run is acquired in Postgres where it is not held in memory. -/
theorem upsertLease_alike (h : LeasesAlike s t)
    (honward : ∀ key lease, s.leases.get key = some lease → lease.state = .expired →
      lease.expiresAt ≤ now) (leaseId holderId : String) (ttlMs : Int) :
    t.upsertLease key leaseId holderId ttlMs (timestamptz now) =
      if s.held key now then none
      else
        let acquired : LeaseRow :=
          { leaseId
            holderId
            fencingToken := s.lastFencingToken key + 1
            acquiredAt := timestamptz now
            expiresAt := timestamptz (now + ttlMs)
            state := .active }
        some (acquired, { t with leases := t.leases.set key acquired }) := by
  have hk := h key
  have honward := honward key
  have hexpires : timestamptz now + ttlMs * 1000 = timestamptz (now + ttlMs) :=
    (Int.add_mul now ttlMs 1000).symm
  unfold Tables.upsertLease MemoryRunLeaseStore.held MemoryRunLeaseStore.lastFencingToken
  rw [hexpires]
  generalize s.leases.get key = l at hk honward ⊢
  generalize s.lastFencingTokens.get key = token at hk ⊢
  generalize t.leases.get key = r at hk ⊢
  cases hk with
  | none => rfl
  | @stored lease hkey =>
    by_cases hheld : lease.state = .active ∧ now < lease.expiresAt
    · have hrow : ¬ ((row lease).state ≠ .active ∨
          (row lease).expiresAt ≤ timestamptz now) := by
        rw [not_or, not_not, not_le]
        exact ⟨hheld.1, timestamptz_lt.mpr hheld.2⟩
      simp only [if_neg hrow, hheld, and_self, decide_true, if_true]
    · have hrow : (row lease).state ≠ .active ∨ (row lease).expiresAt ≤ timestamptz now := by
        rw [ne_eq, ← not_lt, ← not_and_or]
        exact fun hactive => hheld ⟨hactive.1, timestamptz_lt.mp hactive.2⟩
      simp only [if_pos hrow, hheld, decide_false, Bool.false_eq_true, if_false]
      rfl
  | @expired lease hkey hactive =>
    have hrow : (row lease).state ≠ .active ∨ (row lease).expiresAt ≤ timestamptz now :=
      .inr (not_lt.mp (timestamptz_lt.not.mpr
        (not_lt.mpr (honward { lease with state := .expired } rfl rfl))))
    simp only [if_pos hrow, reduceCtorEq, false_and, decide_false, Bool.false_eq_true, if_false]
    rfl

theorem expire_of_ne {k : StreamKey} (hk : k ≠ key) :
    (s.expire key).leases.get k = s.leases.get k := by
  rcases @MemoryRunLeaseStore.expire_get s key k with h | ⟨_, rfl, -⟩
  · exact h
  · exact absurd rfl hk

end Leases

variable {C : TransitionContext} {q : FencedUnits} {now : Int}

theorem acquire_alike (h : LeasesAlike q.leases q.postgres.tables) (honward : q.Onward now)
    {tenantId runId holderId leaseId : String} {ttlMs : Int}
    (hmeets : Meets C q now (.acquire tenantId runId holderId leaseId ttlMs)) :
    Agrees C q now (.acquire tenantId runId holderId leaseId ttlMs) ∧
      LeasesAlike
        (q.leases.acquire tenantId runId holderId ttlMs (clockReading now) (.ok leaseId)).2
        (PostgresRunLeaseStore.acquire C.profile tenantId runId holderId leaseId ttlMs
          (timestamptz now) q.postgres.tables).2 := by
  unfold Agrees MemoryRunLeaseStore.acquire PostgresRunLeaseStore.acquire
  dsimp only
  cases hargs : MemoryRunLeaseStore.acquireInstant tenantId runId holderId ttlMs
      (clockReading now) with
  | error e =>
    cases hacquirable :
        PostgresRunLeaseStore.acquirable C.profile tenantId runId holderId ttlMs with
    | error e' => exact ⟨rfl, h⟩
    | ok u =>
      have := (acquirable_iff now).mp hacquirable
      rw [hargs] at this
      cases this.1
  | ok nowMs =>
    obtain rfl := acquireInstant_ok hargs
    obtain ⟨hallowed, hparses⟩ := hmeets hargs
    rw [(acquirable_iff nowMs).mpr ⟨hargs, hallowed⟩]
    dsimp only
    rw [upsertLease_alike h honward]
    cases hheld : q.leases.held (tenantId, runId) nowMs with
    | true => exact ⟨rfl, h⟩
    | false =>
      have hparsed := hparses hheld
      have hiso : isoRepresentable nowMs = true := by
        have := of_decide_eq_true hparsed
        exact this.2.2.2.2.2.1
      have hmemory : MemoryRunLeaseStore.parseLease
          { leaseId, tenantId, runId, holderId
            fencingToken := q.leases.lastFencingToken (tenantId, runId) + 1
            acquiredAt := nowMs
            expiresAt := nowMs + ttlMs
            state := .active } = .ok (q.newLease tenantId runId holderId leaseId ttlMs nowMs) :=
        memory_parseLease hparsed
      have hpostgres := parseLease_row hparsed
      simp only [Bool.false_eq_true, if_false, clockReading, hiso, not_true_eq_false, hmemory]
      refine ⟨?_, ?_⟩
      · change _ = (some <$> parseLease _ (row (q.newLease tenantId runId holderId leaseId ttlMs
          nowMs))).toOption
        rw [show (tenantId, runId) = (q.newLease tenantId runId holderId leaseId ttlMs
          nowMs).key from rfl, hpostgres]
        rfl
      · refine h.set (q.newLease tenantId runId holderId leaseId ttlMs nowMs)
          (row (q.newLease tenantId runId holderId leaseId ttlMs nowMs))
          (show _ = (tenantId, runId) from rfl)
          (fun k => ?_) (fun k => ?_) (fun k => ?_) (.inl rfl)
        · simp only [OrderedMap.get_set]
          split
          · rfl
          · rename_i hk
            exact expire_of_ne hk
        · simp only [MemoryRunLeaseStore.takeToken, OrderedMap.get_set,
            MemoryRunLeaseStore.expire_lastFencingTokens, MemoryRunLeaseStore.lastFencingToken]
          rfl
        · simp only [OrderedMap.get_set]
          rfl

/-- A lease is the one of a row of its run where it has its identity. -/
theorem bindsRow_row {lease c : FencedLease} (hkey : c.key = lease.key) :
    bindsRow lease (timestamptz now) (row c) = true ↔
      (c.identity = lease.identity ∧ c.state = .active) ∧ now < c.expiresAt := by
  simp only [FencedLease.key, Prod.mk.injEq] at hkey
  simp only [bindsRow, row, FencedLease.identity, decide_eq_true_eq, timestamptz_lt, Prod.mk.injEq,
    hkey, true_and]
  tauto

/-- **The row of a lease** is updated where memory has it as the active one and it has not
expired. -/
theorem updateLease_alike {s : MemoryRunLeaseStore} {t : Tables} (h : LeasesAlike s t)
    (honward : ∀ key lease, s.leases.get key = some lease → lease.state = .expired →
      lease.expiresAt ≤ now) (lease : FencedLease) (sets : LeaseRow → LeaseRow) :
    t.updateLease lease.key (bindsRow lease (timestamptz now)) sets =
      (s.current lease).bind fun c =>
        if now < c.expiresAt then
          some (sets (row c), { t with leases := t.leases.set lease.key (sets (row c)) })
        else none := by
  have hk := h lease.key
  have honward := honward lease.key
  unfold Tables.updateLease MemoryRunLeaseStore.current
  generalize s.leases.get lease.key = l at hk honward ⊢
  generalize s.lastFencingTokens.get lease.key = token at hk
  generalize t.leases.get lease.key = r at hk ⊢
  cases hk with
  | none => rfl
  | @stored c hkey =>
    dsimp only
    by_cases hc : c.identity = lease.identity ∧ c.state = .active
    · rw [if_pos hc, Option.bind_some]
      by_cases hnow : now < c.expiresAt
      · rw [if_pos ((bindsRow_row hkey).mpr ⟨hc, hnow⟩), if_pos hnow]
      · rw [if_neg fun hbinds => hnow ((bindsRow_row hkey).mp hbinds).2, if_neg hnow]
    · rw [if_neg hc, if_neg fun hbinds => hc ((bindsRow_row hkey).mp hbinds).1]
      rfl
  | @expired c hkey hactive =>
    have hover := honward { c with state := .expired } rfl rfl
    have hbinds : ¬ bindsRow lease (timestamptz now) (row c) = true := fun hbinds =>
      absurd ((bindsRow_row hkey).mp hbinds).2 (not_lt.mpr hover)
    simp [if_neg hbinds]

theorem usable_iff {profile : StorageSecurityProfile} {lease : FencedLease} :
    PostgresRunLeaseStore.usable profile lease = .ok () ↔
      MemoryRunLeaseStore.parseInput lease = .ok lease ∧
        profile.assertTenantAllowed lease.tenantId = .ok () := by
  unfold PostgresRunLeaseStore.usable MemoryRunLeaseStore.parseInput
  cases hparses : lease.parses with
  | true => simp
  | false => simp [bind_eq_ok, throw, throwThe, MonadExceptOf.throw]

/-- The arguments that `renew` of the memory store refuses are refused by that of Postgres, and the
others of an allowed tenant are not. -/
theorem renewable_iff (now : Int) {profile : StorageSecurityProfile} {lease : FencedLease}
    {ttlMs : Int} :
    (PostgresRunLeaseStore.usable profile lease >>= fun _ => assertPositive ttlMs "ttlMs") =
        .ok () ↔
      MemoryRunLeaseStore.renewInstant lease ttlMs (clockReading now) = .ok now ∧
        profile.assertTenantAllowed lease.tenantId = .ok () := by
  unfold MemoryRunLeaseStore.renewInstant assertPositive MemoryRunLeaseStore.assertPositiveTtl
  simp only [bind_eq_ok, clockReading, MemoryRunLeaseStore.assertValidInstant]
  constructor
  · rintro ⟨⟨⟩, husable, httl⟩
    obtain ⟨hparsed, hallowed⟩ := usable_iff.mp husable
    refine ⟨⟨lease, hparsed, (), ?_, trivial⟩, hallowed⟩
    split at httl
    · rw [if_pos ‹_›]
    · cases httl
  · rintro ⟨⟨l, hparsed, ⟨⟩, httl, -⟩, hallowed⟩
    obtain rfl := MemoryRunLeaseStore.parseInput_ok hparsed
    refine ⟨(), usable_iff.mpr ⟨hparsed, hallowed⟩, ?_⟩
    split at httl
    · rw [if_pos ‹_›]
    · cases httl

theorem renewInstant_ok {lease : FencedLease} {ttlMs nowMs : Int}
    (h : MemoryRunLeaseStore.renewInstant lease ttlMs (clockReading now) = .ok nowMs) :
    nowMs = now := by
  unfold MemoryRunLeaseStore.renewInstant at h
  obtain ⟨_, -, h⟩ := bind_eq_ok.mp h
  obtain ⟨_, -, h⟩ := bind_eq_ok.mp h
  exact (Except.ok.inj h).symm

/-- The token of the stored lease of a run is the last one of the run. -/
theorem LeasesAlike.lastToken {s : MemoryRunLeaseStore} {t : Tables} (h : LeasesAlike s t)
    {key : StreamKey} {c : FencedLease} (hc : s.leases.get key = some c) :
    s.lastFencingTokens.get key = some c.fencingToken ∧ c.key = key := by
  have hk := h key
  rw [hc] at hk
  generalize s.lastFencingTokens.get key = token at hk ⊢
  generalize t.leases.get key = r at hk
  cases hk with
  | stored hkey => exact ⟨rfl, hkey⟩
  | expired hkey => exact ⟨rfl, hkey⟩

/-- The stored lease of a run is changed, and so is its row. -/
theorem LeasesAlike.update {s : MemoryRunLeaseStore} {t : Tables} (h : LeasesAlike s t)
    {key : StreamKey} {c written : FencedLease} {r : LeaseRow}
    (hc : s.leases.get key = some c) (hkey : written.key = c.key)
    (htoken : written.fencingToken = c.fencingToken)
    (hrow : r = row written ∨
      written.state = .expired ∧ r = row { written with state := .active }) :
    LeasesAlike { s with leases := s.leases.set key written }
      { t with leases := t.leases.set key r } := by
  obtain ⟨hlast, hckey⟩ := h.lastToken hc
  refine h.set written r (hkey.trans hckey) (fun k => OrderedMap.get_set _ _ _ _) (fun k => ?_)
    (fun k => OrderedMap.get_set _ _ _ _) hrow
  split
  · rename_i hk
    rw [hk, htoken]
    exact hlast
  · rfl

/-- An active lease is in the row of its run. -/
theorem LeasesAlike.row_of_active {s : MemoryRunLeaseStore} {t : Tables} (h : LeasesAlike s t)
    {key : StreamKey} {c : FencedLease} (hc : s.leases.get key = some c)
    (hactive : c.state = .active) : t.leases.get key = some (row c) := by
  have hk := h key
  rw [hc] at hk
  generalize s.lastFencingTokens.get key = token at hk
  generalize t.leases.get key = r at hk ⊢
  cases hk with
  | stored => rfl
  | expired => cases hactive

/-- A lease that is over is marked so in memory alone. -/
theorem LeasesAlike.mark {s : MemoryRunLeaseStore} {t : Tables} (h : LeasesAlike s t)
    {key : StreamKey} {c : FencedLease} (hc : s.leases.get key = some c)
    (hactive : c.state = .active) :
    LeasesAlike { s with leases := s.leases.set key { c with state := .expired } } t := by
  obtain ⟨hlast, hckey⟩ := h.lastToken hc
  have hrow := h.row_of_active hc hactive
  refine h.set { c with state := .expired } (row c) hckey (fun k => OrderedMap.get_set _ _ _ _)
    (fun k => ?_) (fun k => ?_) (.inr ⟨rfl, ?_⟩)
  · split
    · rename_i hk
      rw [hk]
      exact hlast
    · rfl
  · split
    · rename_i hk
      rw [hk]
      exact hrow
    · rfl
  · rw [← hactive]

theorem renew_alike (h : LeasesAlike q.leases q.postgres.tables) (honward : q.Onward now)
    {lease : FencedLease} {ttlMs : Int} (hmeets : Meets C q now (.renew lease ttlMs)) :
    Agrees C q now (.renew lease ttlMs) ∧
      LeasesAlike (q.leases.renew lease ttlMs (clockReading now)).2
        (PostgresRunLeaseStore.renew C.profile lease ttlMs (timestamptz now)
          q.postgres.tables).2 := by
  unfold Agrees MemoryRunLeaseStore.renew PostgresRunLeaseStore.renew
  dsimp only
  have hargs := @renewable_iff now C.profile lease ttlMs
  have hupdate := updateLease_alike h honward lease fun row =>
    { row with expiresAt := timestamptz now + ttlMs * 1000 }
  cases hchecks : (PostgresRunLeaseStore.usable C.profile lease >>= fun _ =>
      assertPositive ttlMs "ttlMs") with
  | ok u =>
    rw [(hargs.mp hchecks).1]
    dsimp only
    rw [hupdate]
    cases hcurrent : q.leases.current lease with
    | none => exact ⟨rfl, h⟩
    | some c =>
      obtain ⟨hc, hidentity, hactive⟩ := MemoryRunLeaseStore.current_eq_some.mp hcurrent
      rw [Option.bind_some]
      dsimp only
      by_cases hover : c.expiresAt ≤ now
      · rw [if_pos hover, if_neg (not_lt.mpr hover)]
        exact ⟨rfl, h.mark hc hactive⟩
      · obtain ⟨-, hparses⟩ := hmeets c hcurrent (not_le.mp hover)
        have hrow : { row c with expiresAt := timestamptz now + ttlMs * 1000 } =
            row { c with expiresAt := now + ttlMs } := by
          rw [show timestamptz now + ttlMs * 1000 = timestamptz (now + ttlMs) from
            (Int.add_mul now ttlMs 1000).symm]
          rfl
        have hparsed := parseLease_row hparses
        have hkey : ({ c with expiresAt := now + ttlMs } : FencedLease).key = lease.key :=
          (h.lastToken hc).2
        rw [if_neg hover, if_pos (not_le.mp hover), memory_parseLease hparses]
        dsimp only
        rw [hrow, ← hkey, hparsed]
        exact ⟨rfl, h.update (c := c) (by rw [hkey]; exact hc) rfl rfl (.inl rfl)⟩
  | error e =>
    cases hrefused : MemoryRunLeaseStore.renewInstant lease ttlMs (clockReading now) with
    | error e' => exact ⟨rfl, h⟩
    | ok nowMs =>
      obtain rfl := renewInstant_ok hrefused
      have hdenied : C.profile.assertTenantAllowed lease.tenantId ≠ .ok () := fun hallowed => by
        rw [hargs.mpr ⟨hrefused, hallowed⟩] at hchecks
        cases hchecks
      -- a lease that could be renewed is one of an allowed tenant
      cases hcurrent : q.leases.current lease with
      | none => exact ⟨by simp [Except.toOption], by simpa using h⟩
      | some c =>
        obtain ⟨hc, hidentity, hactive⟩ := MemoryRunLeaseStore.current_eq_some.mp hcurrent
        have hover : c.expiresAt ≤ nowMs :=
          not_lt.mp fun hnow => hdenied (hmeets c hcurrent hnow).1
        dsimp only
        rw [if_pos hover]
        exact ⟨rfl, h.mark hc hactive⟩

theorem release_alike (h : LeasesAlike q.leases q.postgres.tables) (honward : q.Onward now)
    {lease : FencedLease} (hmeets : Meets C q now (.release lease)) :
    Agrees C q now (.release lease) ∧
      LeasesAlike (q.leases.release lease).2
        (PostgresRunLeaseStore.release C.profile lease (timestamptz now) q.postgres.tables).2 := by
  unfold Agrees MemoryRunLeaseStore.release PostgresRunLeaseStore.release
  dsimp only
  have hupdate := updateLease_alike h honward lease fun row => { row with state := .released }
  cases hparsed : MemoryRunLeaseStore.parseInput lease with
  | error e =>
    cases husable : PostgresRunLeaseStore.usable C.profile lease with
    | error e' => exact ⟨rfl, h⟩
    | ok u =>
      rw [(usable_iff.mp husable).1] at hparsed
      cases hparsed
  | ok l =>
    obtain rfl := MemoryRunLeaseStore.parseInput_ok hparsed
    dsimp only
    rw [hupdate]
    cases hcurrent : q.leases.current l with
    | none =>
      cases PostgresRunLeaseStore.usable C.profile l <;> exact ⟨rfl, h⟩
    | some c =>
      obtain ⟨hc, hidentity, hactive⟩ := MemoryRunLeaseStore.current_eq_some.mp hcurrent
      obtain ⟨hallowed, hnow⟩ := hmeets c hcurrent
      rw [usable_iff.mpr ⟨hparsed, hallowed⟩, Option.bind_some]
      dsimp only
      rw [if_pos hnow]
      exact ⟨rfl, h.update hc rfl rfl (.inl rfl)⟩

/-! ### Transitions -/

/-- **A transition of Postgres** passes the checks where its lease is active in memory. -/
theorem Committable.checks (h : Alike q) {key : RunTransitionKey} {leaseId : String}
    {fencingToken : Nat} (hkey : q.Committable C key leaseId fencingToken now) :
    (C.profile.assertTenantAllowed key.tenantId >>= fun _ =>
      q.postgres.assertTransitionFence (key.fencedBy leaseId fencingToken) (timestamptz now)) =
        .ok () := by
  obtain ⟨hallowed, ⟨run, hrun, hbinds⟩, lease, hlease, rfl, rfl, hactive, hnow⟩ := hkey
  have hrow := h.leases.row_of_active hlease hactive
  have hfences : PostgresUnit.fences lease.leaseId lease.fencingToken (timestamptz now)
      (row lease) = true :=
    decide_eq_true ⟨rfl, rfl, hactive, timestamptz_lt.mpr hnow⟩
  refine bind_eq_ok.mpr ⟨(), hallowed, ?_⟩
  have hbound : (key.fencedBy lease.leaseId lease.fencingToken).binds run = true := hbinds
  simp only [PostgresUnit.assertTransitionFence, RunTransitionKey.fencedBy] at hbound ⊢
  simp only [h.records, hrun, hbound, not_true_eq_false, if_false, hrow, hfences, if_true]

theorem transition_alike (h : Alike q) {key : RunTransitionKey} {leaseId : String}
    {fencingToken : Nat} {callback : Callback JsonValue}
    (hmeets : Meets C q now (.transition key leaseId fencingToken callback)) :
    Agrees C q now (.transition key leaseId fencingToken callback) ∧
      Alike (q.step C (now, .transition key leaseId fencingToken callback)) := by
  obtain ⟨hnew, hcommits⟩ := hmeets
  unfold Agrees step postgresStep UnitOfWork.transactTransition PostgresUnit.transactTransition
    UnitOfWork.runTransition
  dsimp only
  simp only [hnew]
  have hfresh : q.postgres.transitions.get (key.tenantId,
      C.digestCanonicalJson (key.fencedBy leaseId fencingToken)) = none := by
    refine Option.eq_none_iff_forall_ne_some.mpr fun value hvalue => ?_
    rw [h.stored _ _ _ hvalue] at hnew
    cases hnew
  rcases hcallback : callback q.unit.stores with ⟨stores, e | value⟩
  · -- both stores are as they were, whatever the checks of Postgres say
    dsimp only
    rw [UnitOfWork.rollback_eq]
    cases hchecks : (C.profile.assertTenantAllowed (key.fencedBy leaseId fencingToken).tenantId >>=
        fun _ => q.postgres.assertTransitionFence (key.fencedBy leaseId fencingToken)
          (timestamptz now)) with
    | error e' => exact ⟨rfl, ⟨h.leases, h.records, h.stored, h.kept⟩⟩
    | ok u =>
      dsimp only
      rw [show (key.fencedBy leaseId fencingToken).tenantId = key.tenantId from rfl, hfresh,
        h.records, hcallback]
      exact ⟨rfl, ⟨h.leases, h.records, h.stored, h.kept⟩⟩
  · rw [hcallback] at hcommits
    rw [show (key.fencedBy leaseId fencingToken).tenantId = key.tenantId from rfl]
    rw [(hcommits (by simp [Except.toOption])).checks h]
    dsimp only
    rw [hfresh, h.records, hcallback]
    refine ⟨rfl, h.leases, rfl, fun tenantId digest stored hstored => ?_,
      fun digest stored hstored => ?_⟩
    · simp only [OrderedMap.get_set, Prod.mk.injEq] at hstored ⊢
      split at hstored
      · rename_i hkey
        rw [if_pos hkey.2]
        exact hstored
      · -- a digest that is new to memory is not one of another tenant either
        have hmemory := h.stored _ _ _ hstored
        rw [if_neg, hmemory]
        rintro rfl
        rw [hmemory] at hnew
        cases hnew
    · simp only [OrderedMap.get_set, Prod.mk.injEq] at hstored ⊢
      split at hstored
      · rename_i hkey
        exact ⟨key.tenantId, by rw [if_pos ⟨rfl, hkey⟩]; exact hstored⟩
      · rename_i hkey
        obtain ⟨tenantId, htenant⟩ := h.kept _ _ hstored
        exact ⟨tenantId, by rw [if_neg fun hk => hkey hk.2]; exact htenant⟩

/-! ### Every run of calls -/

/-- **The step lemma.** -/
theorem Alike.step (h : Alike q) {call : Int × FencedCall} (hcall : StepMeets C q call) :
    Agrees C q call.1 call.2 ∧ Alike (q.step C call) := by
  obtain ⟨now, call⟩ := call
  obtain ⟨honward, hmeets⟩ := hcall
  cases call with
  | acquire tenantId runId holderId leaseId ttlMs =>
    obtain ⟨hagrees, hleases⟩ := acquire_alike h.leases honward hmeets
    exact ⟨hagrees, hleases, h.records, h.stored, h.kept⟩
  | renew lease ttlMs =>
    obtain ⟨hagrees, hleases⟩ := renew_alike h.leases honward hmeets
    exact ⟨hagrees, hleases, h.records, h.stored, h.kept⟩
  | release lease =>
    obtain ⟨hagrees, hleases⟩ := release_alike h.leases honward hmeets
    exact ⟨hagrees, hleases, h.records, h.stored, h.kept⟩
  | transition key leaseId fencingToken callback => exact transition_alike h hmeets

/-- The lease of a transition is the active one of its run in both stores, and has not expired. -/
def InForce (q : FencedUnits) (now : Int) (key : RunTransitionKey) (leaseId : String)
    (fencingToken : Nat) : Prop :=
  LeaseActive q.leases (key.tenantId, key.runId) leaseId fencingToken now ∧
    ∃ row, q.postgres.tables.leases.get (key.tenantId, key.runId) = some row ∧
      PostgresUnit.fences leaseId fencingToken (timestamptz now) row = true

theorem LeaseActive.inForce (h : Alike q) {key : RunTransitionKey} {leaseId : String}
    {fencingToken : Nat}
    (hactive : LeaseActive q.leases (key.tenantId, key.runId) leaseId fencingToken now) :
    q.InForce now key leaseId fencingToken := by
  refine ⟨hactive, ?_⟩
  obtain ⟨lease, hlease, rfl, rfl, hstate, hnow⟩ := hactive
  exact ⟨row lease, h.leases.row_of_active hlease hstate,
    decide_eq_true ⟨rfl, rfl, hstate, timestamptz_lt.mpr hnow⟩⟩

/-- A new transition whose callback throws is refused. -/
theorem transactTransition_throws {u : UnitOfWork} {digest : Digest}
    {callback : Callback JsonValue} (hnew : u.transitions.get digest = none)
    (hthrows : (callback u.stores).2.toOption = none) :
    (u.transactTransition digest callback).1.toOption = none := by
  unfold UnitOfWork.transactTransition UnitOfWork.runTransition
  rw [hnew]
  rcases hcallback : callback u.stores with ⟨stores, e | value⟩
  · rfl
  · rw [hcallback] at hthrows
    cases hthrows

/-- **Fenced transitions mean the same in both**: after any run whose calls meet the condition the
stores correspond, every call was answered alike, and a transition committed only while its lease
was in force and its key was new. -/
theorem fenced_transitions_agree (records : MemoryStores) {calls : List (Int × FencedCall)}
    (hcalls : Along (step C) (start records) (StepMeets C) calls) :
    Alike (after C records calls) ∧
      ∀ before call later, calls = before ++ call :: later →
        Agrees C (after C records before) call.1 call.2 ∧
        ∀ key leaseId fencingToken callback,
          call.2 = .transition key leaseId fencingToken callback →
          ((after C records before).unit.transactTransition
            (C.digestCanonicalJson (key.fencedBy leaseId fencingToken)) callback).1.toOption ≠
              none →
          (after C records before).InForce call.1 key leaseId fencingToken ∧
            (after C records before).unit.transitions.get
              (C.digestCanonicalJson (key.fencedBy leaseId fencingToken)) = none := by
  have halike : ∀ {calls}, Along (step C) (start records) (StepMeets C) calls →
      Alike (after C records calls) := fun hcalls =>
    hcalls.invariant (alike_start records) fun _ _ h hcall => (h.step hcall).2
  refine ⟨halike hcalls, fun before call later heq => ?_⟩
  have hbefore : Alike (after C records before) := halike fun b c l hb =>
    hcalls b c (l ++ call :: later) (by rw [heq, hb, List.append_assoc, List.cons_append])
  have hcall := hcalls before call later heq
  refine ⟨(hbefore.step hcall).1,
    fun key leaseId fencingToken callback htransition hcommits => ?_⟩
  obtain ⟨-, hmeets⟩ := hcall
  rw [htransition] at hmeets
  obtain ⟨hnew, hcommittable⟩ := hmeets
  refine ⟨(hcommittable ?_).2.2.inForce hbefore, hnew⟩
  intro hthrows
  exact hcommits (transactTransition_throws hnew hthrows)

section Witness

/-- An empty store. -/
def noRecords : MemoryStores where
  acceptedWorkOrders := ⟨.empty⟩
  inputs := ⟨.empty⟩
  contexts := ⟨.empty⟩
  events := ⟨.empty, .empty, .empty⟩
  decisions := ⟨.empty, .empty, .empty, .empty, .empty, .empty, .empty⟩
  effects := ⟨.empty, .empty, .empty, .empty, .empty⟩
  grants := ⟨.empty, .empty⟩
  wakeups := ⟨.empty⟩
  quotas := ⟨.empty, .empty, 0⟩
  activeExecutions := ⟨.empty⟩
  modelCalls := ⟨.empty⟩
  acknowledgedEffectResults := ⟨.empty, .empty, .empty⟩

/-- The records of an accepted run. -/
def oneRun : MemoryStores :=
  { noRecords with
    events :=
      { noRecords.events with
        projections := OrderedMap.empty.set
          (JsonValue.stringify (.array [.string "tenant", .string "run"]))
          (createRunProjection
            { runId := "run"
              tenantId := "tenant"
              workOrderId := "work-order"
              workOrderBindingDigest := "binding"
              executionDefinition := .agent "agent" "1" "definition"
              executionDefinitionDigest := "definition"
              status := .running
              createdAt := 0
              updatedAt := 0
              dataClass := .internal
              correlationId := "correlation" }) } }

/-- All tenants are allowed, and a key is told by its text. -/
def anyTenant : TransitionContext where
  profile := ⟨"profile", ["*"]⟩
  digestCanonicalJson key := key.transitionKey

/-- A transition of the run that writes nothing. -/
def approvalClaim : FencedCall :=
  .transition
    { tenantId := "tenant"
      runId := "run"
      transitionKind := "approval_use_claim"
      transitionKey := "key"
      workOrderBindingDigest := "binding"
      executionDefinitionDigest := "definition"
      leaseId := none
      fencingToken := none }
    "lease" 1 fun stores => (stores, .ok .null)

/-- A lease of one second. -/
def oneSecond : Int × FencedCall :=
  (0, .acquire "tenant" "run" "holder" "lease" 1000)

/-- The first transition under the lease commits in both stores. -/
theorem fenced_transitions_agree_first :
    Alike (after anyTenant oneRun [oneSecond, (1, approvalClaim)]) := by
  have hacquire : StepMeets anyTenant (start oneRun) oneSecond :=
    ⟨fun _ _ hlease => (nomatch hlease), fun _ => ⟨rfl, fun _ => by decide +kernel⟩⟩
  have hentries : (after anyTenant oneRun [oneSecond]).leases.leases.entries =
      [(("tenant", "run"), ⟨"lease", "tenant", "run", "holder", 1, 0, 1000, .active⟩)] := by
    decide +kernel
  have hclaim : StepMeets anyTenant (after anyTenant oneRun [oneSecond]) (1, approvalClaim) := by
    refine ⟨fun key lease hlease hexpired => ?_, rfl, fun _ => ⟨rfl, ?_, ?_⟩⟩
    · rw [OrderedMap.get_eq_some_iff, hentries, List.mem_singleton] at hlease
      obtain ⟨-, rfl⟩ := Prod.mk.inj hlease
      cases hexpired
    · exact ⟨_, OrderedMap.get_set_self _ _ _, by decide +kernel⟩
    · refine ⟨⟨"lease", "tenant", "run", "holder", 1, 0, 1000, .active⟩, ?_, rfl, rfl, rfl,
        by decide⟩
      rw [OrderedMap.get_eq_some_iff, hentries]
      exact List.mem_singleton_self _
  exact (fenced_transitions_agree oneRun
    (along_snoc.mpr ⟨along_snoc.mpr ⟨along_nil, hacquire⟩, hclaim⟩)).1

/-- A transition repeated is answered in memory and refused in Postgres; so is one whose lease has
expired, and the release of such a lease. -/
theorem transitions_differ :
    ¬ Agrees anyTenant (after anyTenant oneRun [oneSecond, (1, approvalClaim)]) 2 approvalClaim ∧
    ¬ Agrees anyTenant (after anyTenant oneRun [oneSecond]) 5000 approvalClaim ∧
    ¬ Agrees anyTenant (after anyTenant oneRun [oneSecond]) 5000
      (.release ⟨"lease", "tenant", "run", "holder", 1, 0, 1000, .active⟩) := by
  refine ⟨fun h => ?_, fun h => ?_, fun h => ?_⟩ <;>
    · have hsome := congrArg Option.isSome h
      revert hsome
      decide +kernel

end Witness

end FencedUnits

end Worker

end Pactmark
