import Pactmark.Agent.Compensation
import Pactmark.Worker.Recovery

/-!
# Worker — the queue and the lease store of the runtime

`PostgresRunLeaseStore` of `store-postgres/src/lease-store.ts` acquires, renews and releases leases
in `pactmark_run_leases`, the table in which `DurablePostgresWorkerQueue` acquires one for every
claim.  A worker that holds a claim has the runtime execute its run, and `AgentRuntime.execute`
acquires the lease of the run again.

A run of the two is a list of transactions of either, each some time after the one before it.
Runtimes renew and release any lease they were ever answered.

* `upsertLease_active`: while a lease of a run is active, no other is acquired.
* `Fenced.step`: the tokens of a run increase, whoever acquires its leases.
* `execute_unleased`: an execution that is answered no lease commits nothing.
-/

namespace Pactmark

open Durable Reservation

namespace Worker

/-! ### The lease store -/

/-- The statement that acquires a lease, in both packages: the row of the run is inserted, or taken
over with the next token if it is not active any more. -/
def Tables.upsertLease (t : Tables) (key : StreamKey) (leaseId holderId : String)
    (ttlMs now : Int) : Option (LeaseRow × Tables) :=
  let acquired (fencingToken : Nat) : LeaseRow :=
    { leaseId
      holderId
      fencingToken
      acquiredAt := now
      expiresAt := now + ttlMs * 1000
      state := .active }
  match t.leases.get key with
  | none => some (acquired 1, { t with leases := t.leases.set key (acquired 1) })
  | some lease =>
      if lease.state ≠ .active ∨ lease.expiresAt ≤ now then
        some (acquired (lease.fencingToken + 1),
          { t with leases := t.leases.set key (acquired (lease.fencingToken + 1)) })
      else none

/-- What the store is configured with. -/
structure StorageSecurityProfile where
  id : String
  allowedTenants : List String

/-- `PostgresStorageGuard.assertTenantAllowed`. -/
def StorageSecurityProfile.assertTenantAllowed (profile : StorageSecurityProfile)
    (tenantId : String) : Except Thrown Unit :=
  if tenantId.toList.all isWhiteSpace ∨
      ¬ ("*" ∈ profile.allowedTenants ∨ tenantId ∈ profile.allowedTenants) then
    .error (.kaf
      { code := .KAF_STORAGE_SECURITY_PROFILE
        details := { reason := some "tenant", others := [("profileId", profile.id)] } })
  else .ok ()

/-- `assertPositive` of the store. -/
def assertPositive (value : Int) (path : String) : Except Thrown Unit :=
  if 0 < value ∧ value ≤ 9007199254740991 then .ok ()
  else .error (MemoryRunLeaseStore.schemaInvalid path "positive_integer")

/-- The conditions of `renew` and `release` on the row of a lease. -/
def bindsRow (lease : FencedLease) (now : Int) (row : LeaseRow) : Bool :=
  row.leaseId = lease.leaseId ∧ row.holderId = lease.holderId ∧
    row.fencingToken = lease.fencingToken ∧ row.state = .active ∧ now < row.expiresAt

namespace PostgresRunLeaseStore

variable (profile : StorageSecurityProfile)

/-- The checks `acquire` starts with. -/
def acquirable (tenantId runId holderId : String) (ttlMs : Int) : Except Thrown Unit := do
  MemoryRunLeaseStore.assertNonempty tenantId "tenantId"
  MemoryRunLeaseStore.assertNonempty runId "runId"
  profile.assertTenantAllowed tenantId
  MemoryRunLeaseStore.assertNonempty holderId "holderId"
  assertPositive ttlMs "ttlMs"

/-- `acquire`; the row is committed before it is parsed. -/
def acquire (tenantId runId holderId leaseId : String) (ttlMs now : Int) (t : Tables) :
    Except Thrown (Option FencedLease) × Tables :=
  match acquirable profile tenantId runId holderId ttlMs with
  | .error e => (.error e, t)
  | .ok () =>
      match t.upsertLease (tenantId, runId) leaseId holderId ttlMs now with
      | none => (.ok none, t)
      | some (row, t) => (some <$> parseLease (tenantId, runId) row, t)

/-- The checks `renew` and `release` start with. -/
def usable (lease : FencedLease) : Except Thrown Unit := do
  if ¬ lease.parses then throw schemaRefused
  profile.assertTenantAllowed lease.tenantId

/-- `renew`. -/
def renew (lease : FencedLease) (ttlMs now : Int) (t : Tables) :
    Except Thrown FencedLease × Tables :=
  match usable profile lease >>= fun _ => assertPositive ttlMs "ttlMs" with
  | .error e => (.error e, t)
  | .ok () =>
      match t.updateLease lease.key (bindsRow lease now) fun row =>
          { row with expiresAt := now + ttlMs * 1000 } with
      | none => (.error (conflict "stale_or_expired_lease"), t)
      | some (row, t) => (parseLease lease.key row, t)

/-- `release`. -/
def release (lease : FencedLease) (now : Int) (t : Tables) : Except Thrown Unit × Tables :=
  match usable profile lease with
  | .error e => (.error e, t)
  | .ok () =>
      match t.updateLease lease.key (bindsRow lease now) fun row =>
          { row with state := .released } with
      | none => (.error (conflict "stale_or_expired_lease"), t)
      | some (_, t) => (.ok (), t)

end PostgresRunLeaseStore

/-! ### Runs of both -/

/-- The queue, the leases that runtimes hold, and all leases that were acquired, in order. -/
structure Composition where
  queue : Queue
  leases : List FencedLease
  issued : List FencedLease

/-- A transaction of a worker or of a runtime; a runtime names a lease by its place among those
ever answered. -/
inductive ComposedCall where
  | queue (call : QueueCall)
  | acquire (profile : StorageSecurityProfile) (tenantId runId holderId leaseId : String)
      (ttlMs : Int)
  | renew (profile : StorageSecurityProfile) (held : Nat) (ttlMs : Int)
  | release (profile : StorageSecurityProfile) (held : Nat)

namespace Composition

variable (C : QueueContext)

/-- Empty tables. -/
def start : Composition :=
  ⟨.start, [], []⟩

/-- The tables are those a statement of the lease store leaves. -/
def withTables (d : Composition) (tables : Tables) : Composition :=
  { d with queue := { d.queue with tables } }

/-- What a transaction leaves at the instant it is made. -/
def transaction (d : Composition) : ComposedCall → Composition
  | .queue call =>
      match d.queue.transaction C call with
      | .error _ => d
      | .ok queue =>
          { d with
            queue
            issued := d.issued ++ (queue.handed.drop d.queue.handed.length).map (·.lease) }
  | .acquire profile tenantId runId holderId leaseId ttlMs =>
      let (answer, tables) := PostgresRunLeaseStore.acquire profile tenantId runId holderId leaseId
        ttlMs d.queue.now d.queue.tables
      match answer with
      | .ok (some lease) =>
          { d.withTables tables with
            leases := d.leases ++ [lease]
            issued := d.issued ++ [lease] }
      | _ => d.withTables tables
  | .renew profile held ttlMs =>
      match d.leases[held]? with
      | none => d
      | some lease =>
          let (answer, tables) :=
            PostgresRunLeaseStore.renew profile lease ttlMs d.queue.now d.queue.tables
          match answer with
          | .ok lease => { d.withTables tables with leases := d.leases ++ [lease] }
          | .error _ => d.withTables tables
  | .release profile held =>
      match d.leases[held]? with
      | none => d
      | some lease =>
          d.withTables
            (PostgresRunLeaseStore.release profile lease d.queue.now d.queue.tables).2

/-- Some time passes. -/
def elapse (d : Composition) (elapsed : Nat) : Composition :=
  { d with queue := d.queue.elapse elapsed }

/-- A transaction, some time after the one before it. -/
def step (d : Composition) (call : Nat × ComposedCall) : Composition :=
  (d.elapse call.1).transaction C call.2

/-- What a sequence of transactions leaves. -/
def after (calls : List (Nat × ComposedCall)) : Composition :=
  calls.foldl (step C) start

/-- A lease is the active one of its run, and has not expired. -/
def Active (d : Composition) (lease : FencedLease) : Prop :=
  ∃ row, d.queue.tables.leases.get lease.key = some row ∧ bindsRow lease d.queue.now row = true

end Composition

/-! ### The statements -/

section Statements

variable {C : QueueContext} {t t' : Tables} {key : StreamKey} {profile : StorageSecurityProfile}

/-- The queue acquires the lease of a claim by the same statement. -/
theorem acquireLease_eq_upsertLease {holderId : String} {leaseTtlMs now : Int} {row : WakeupRow} :
    acquireLease C holderId leaseTtlMs now t row =
      t.upsertLease row.runKey (leaseId C row) holderId leaseTtlMs now :=
  rfl

/-- **No lease is acquired** while one of the run is active. -/
theorem upsertLease_active {leaseId holderId : String} {ttlMs now : Int} {l : LeaseRow}
    (hl : t.leases.get key = some l) (hactive : l.state = .active) (hexpires : now < l.expiresAt) :
    t.upsertLease key leaseId holderId ttlMs now = none := by
  have hheld : ¬ (l.state ≠ .active ∨ l.expiresAt ≤ now) := by
    rw [not_or, not_not, not_le]
    exact ⟨hactive, hexpires⟩
  simp only [Tables.upsertLease, hl, if_neg hheld]

/-- An acquired lease takes the next token. -/
theorem upsertLease_eq_some {leaseId holderId : String} {ttlMs now : Int} {l' : LeaseRow}
    (h : t.upsertLease key leaseId holderId ttlMs now = some (l', t')) :
    t' = { t with leases := t.leases.set key l' } ∧
      ∀ l, t.leases.get key = some l → l.fencingToken < l'.fencingToken := by
  simp only [Tables.upsertLease] at h
  split at h
  · rename_i hnone
    obtain ⟨rfl, rfl⟩ := Prod.mk.inj (Option.some.inj h)
    exact ⟨rfl, fun l hl => by rw [hnone] at hl; cases hl⟩
  · rename_i lease hlease
    split at h
    · obtain ⟨rfl, rfl⟩ := Prod.mk.inj (Option.some.inj h)
      refine ⟨rfl, fun l hl => ?_⟩
      obtain rfl : lease = l := Option.some.inj (hlease.symm.trans hl)
      exact Nat.lt_succ_self _
    · cases h

/-- What `acquire` leaves: the tables as they are, or the lease it answers with a new token. -/
theorem acquire_cases (profile : StorageSecurityProfile) (tenantId runId holderId leaseId : String)
    (ttlMs now : Int) (t : Tables) :
    let acquired := PostgresRunLeaseStore.acquire profile tenantId runId holderId leaseId ttlMs now t
    (acquired.2 = t ∧ ∀ lease, acquired.1 ≠ .ok (some lease)) ∨
      ∃ l', acquired.2 = { t with leases := t.leases.set (tenantId, runId) l' } ∧
        (∀ l, t.leases.get (tenantId, runId) = some l → l.fencingToken < l'.fencingToken) ∧
        ∀ lease, acquired.1 = .ok (some lease) →
          lease.key = (tenantId, runId) ∧ lease.fencingToken = l'.fencingToken := by
  intro acquired
  simp only [acquired, PostgresRunLeaseStore.acquire]
  split
  · exact .inl ⟨rfl, by rintro _ ⟨⟩⟩
  split
  · exact .inl ⟨rfl, by rintro _ ⟨⟩⟩
  rename_i l' t' hupserted
  obtain ⟨rfl, hgreater⟩ := upsertLease_eq_some hupserted
  refine .inr ⟨l', rfl, hgreater, fun lease hlease => ?_⟩
  cases hparsed : parseLease (tenantId, runId) l' with
  | error e => rw [hparsed] at hlease; cases hlease
  | ok parsed =>
    rw [hparsed] at hlease
    obtain rfl : parsed = lease := Option.some.inj (Except.ok.inj hlease)
    obtain ⟨hkey, htoken, -⟩ := parseLease_ok hparsed
    exact ⟨hkey, htoken⟩

/-- While a lease of the run is active, `acquire` answers none and changes nothing. -/
theorem acquire_active {tenantId runId : String} {l : LeaseRow} {now : Int}
    (hl : t.leases.get (tenantId, runId) = some l) (hactive : l.state = .active)
    (hexpires : now < l.expiresAt) (profile : StorageSecurityProfile) (holderId leaseId : String)
    (ttlMs : Int) :
    PostgresRunLeaseStore.acquire profile tenantId runId holderId leaseId ttlMs now t =
      ((PostgresRunLeaseStore.acquirable profile tenantId runId holderId ttlMs).map fun _ => none,
        t) := by
  unfold PostgresRunLeaseStore.acquire
  cases PostgresRunLeaseStore.acquirable profile tenantId runId holderId ttlMs with
  | error e => rfl
  | ok u =>
    rw [upsertLease_active hl hactive hexpires]
    rfl

/-- What `renew` and `release` leave: the tokens of the leases stay. -/
def KeepsTokens (t t' : Tables) : Prop :=
  t' = t ∨ ∃ key l l', t.leases.get key = some l ∧ l'.fencingToken = l.fencingToken ∧
    t' = { t with leases := t.leases.set key l' }

theorem renew_keepsTokens (profile : StorageSecurityProfile) (lease : FencedLease)
    (ttlMs now : Int) (t : Tables) :
    KeepsTokens t (PostgresRunLeaseStore.renew profile lease ttlMs now t).2 := by
  unfold PostgresRunLeaseStore.renew
  split
  · exact .inl rfl
  split
  · exact .inl rfl
  rename_i hupdated
  obtain ⟨l, hl, -, rfl, rfl⟩ := updateLease_eq_some hupdated
  exact .inr ⟨_, l, { l with expiresAt := now + ttlMs * 1000 }, hl, rfl, rfl⟩

theorem release_keepsTokens (profile : StorageSecurityProfile) (lease : FencedLease) (now : Int)
    (t : Tables) : KeepsTokens t (PostgresRunLeaseStore.release profile lease now t).2 := by
  unfold PostgresRunLeaseStore.release
  split
  · exact .inl rfl
  split
  · exact .inl rfl
  rename_i hupdated
  obtain ⟨l, hl, -, rfl, rfl⟩ := updateLease_eq_some hupdated
  exact .inr ⟨_, l, { l with state := .released }, hl, rfl, rfl⟩

theorem KeepsTokens.proceeds (h : KeepsTokens t t') (hlegal : Legal t) : Proceeds t t' := by
  rcases h with rfl | ⟨key, l, l', hl, htoken, rfl⟩
  · exact .refl hlegal
  · refine .setLease hlegal key l' fun x hx => ?_
    obtain rfl : l = x := Option.some.inj (hl.symm.trans hx)
    exact htoken.ge

end Statements

/-! ### The invariant -/

/-- The queue is safe, and every lease that was acquired has a token of its own, not greater than
that of the row of its run. -/
structure Fenced (d : Composition) : Prop where
  safe : Safe d.queue
  row : ∀ lease ∈ d.issued, ∃ l, d.queue.tables.leases.get lease.key = some l ∧
    lease.fencingToken ≤ l.fencingToken
  increasing : d.issued.Pairwise fun a b => a.key = b.key → a.fencingToken < b.fencingToken

namespace Fenced

variable {C : QueueContext} {d : Composition} {t' : Tables}

theorem start : Fenced Composition.start where
  safe := safe_start
  row _ h := absurd h List.not_mem_nil
  increasing := .nil

/-- Leases are acquired whose tokens are greater than those of the rows they take over. -/
theorem issue (h : Fenced d) {queue : Queue} {leases issued : List FencedLease}
    (hsafe : Safe queue) (hevolves : Evolves d.queue.tables queue.tables)
    (hrow : ∀ lease ∈ issued, ∃ l, queue.tables.leases.get lease.key = some l ∧
      lease.fencingToken ≤ l.fencingToken)
    (hgreater : ∀ lease ∈ issued, ∀ l, d.queue.tables.leases.get lease.key = some l →
      l.fencingToken < lease.fencingToken)
    (hdistinct : issued.Pairwise fun a b => a.key ≠ b.key) :
    Fenced ⟨queue, leases, d.issued ++ issued⟩ where
  safe := hsafe
  row lease hlease := by
    rcases List.mem_append.mp hlease with hlease | hlease
    · obtain ⟨l, hl, hle⟩ := h.row lease hlease
      obtain ⟨l', hl', hle'⟩ := hevolves.leases _ l hl
      exact ⟨l', hl', hle.trans hle'⟩
    · exact hrow lease hlease
  increasing := by
    refine List.pairwise_append.mpr
      ⟨h.increasing, hdistinct.imp fun hne heq => absurd heq hne, fun a ha b hb hkey => ?_⟩
    obtain ⟨l, hl, hle⟩ := h.row a ha
    exact lt_of_le_of_lt hle (hgreater b hb l (hkey ▸ hl))

/-- Nothing is acquired. -/
theorem proceed (h : Fenced d) (hp : Proceeds d.queue.tables t') (leases : List FencedLease) :
    Fenced { d.withTables t' with leases } := by
  have hissue : Fenced ⟨{ d.queue with tables := t' }, leases, d.issued ++ []⟩ :=
    h.issue (h.safe.evolves hp.evolves hp.legal h.safe.held) hp.evolves
      (fun _ hl => absurd hl List.not_mem_nil) (fun _ hl => absurd hl List.not_mem_nil) .nil
  rwa [List.append_nil] at hissue

theorem elapse (h : Fenced d) (elapsed : Nat) : Fenced (d.elapse elapsed) where
  safe := h.safe.elapse elapsed
  row := h.row
  increasing := h.increasing

/-- What a transaction of the queue hands out takes its runs' leases over. -/
theorem queue_handed {q q' : Queue} (h : Safe q) {call : QueueCall}
    (hok : q.transaction C call = .ok q') :
    ∃ claims, q'.handed = q.handed ++ claims ∧
      (claims.Pairwise fun a b => runKey a ≠ runKey b) ∧
      ∀ c ∈ claims, HandedOut q.tables q'.tables c := by
  have hnone : ∃ claims, q.handed = q.handed ++ claims ∧
      (claims.Pairwise fun a b => runKey a ≠ runKey b) ∧
      ∀ c ∈ claims, HandedOut q.tables q'.tables c :=
    ⟨[], (List.append_nil _).symm, .nil, fun _ hc => absurd hc List.not_mem_nil⟩
  cases transaction_committed hok with
  | @claim _ _ _ _ _ _ claims t' hrows =>
    have hclaims := claimRows_claims h.legal hrows
    exact ⟨claims, rfl, hclaims.distinct, hclaims.handed⟩
  | enqueue _ => exact hnone
  | recoverStale _ => exact hnone
  | missing _ => exact hnone
  | renew _ _ => exact hnone
  | complete _ _ => exact hnone
  | release _ _ => exact hnone

/-- **One transaction** of a worker or a runtime keeps the invariant. -/
theorem transaction (h : Fenced d) (call : ComposedCall) : Fenced (d.transaction C call) := by
  cases call with
  | queue call =>
    simp only [Composition.transaction]
    split
    · exact h
    rename_i q' hok
    obtain ⟨claims, hhanded, hdistinct, hclaims⟩ := queue_handed h.safe hok
    have htransacts := transaction_transacts h.safe hok
    rw [hhanded, List.drop_left]
    refine h.issue htransacts.safe htransacts.evolves ?_ ?_ ?_
    · intro lease hlease
      obtain ⟨c, hc, rfl⟩ := List.mem_map.mp hlease
      obtain ⟨l, hl, htoken⟩ := (hclaims c hc).lease
      exact ⟨l, (hclaims c hc).lease_key ▸ hl, htoken.ge⟩
    · intro lease hlease l hl
      obtain ⟨c, hc, rfl⟩ := List.mem_map.mp hlease
      exact (hclaims c hc).greater l ((hclaims c hc).lease_key ▸ hl)
    · refine List.pairwise_map.mpr (hdistinct.imp_of_mem fun ha hb hne => ?_)
      rwa [(hclaims _ ha).lease_key, (hclaims _ hb).lease_key]
  | acquire profile tenantId runId holderId leaseId ttlMs =>
    simp only [Composition.transaction]
    obtain ⟨htables, hnone⟩ | ⟨l', htables, hgreater, hanswer⟩ :=
      acquire_cases profile tenantId runId holderId leaseId ttlMs d.queue.now d.queue.tables
    · rw [htables]
      split
      · rename_i lease hlease
        exact absurd hlease (hnone lease)
      · exact h.proceed (.refl h.safe.legal) d.leases
    · have hp : Proceeds d.queue.tables _ := .setLease h.safe.legal (tenantId, runId) l'
        fun l hl => (hgreater l hl).le
      rw [htables]
      split
      · rename_i lease hlease
        obtain ⟨hkey, htoken⟩ := hanswer lease hlease
        refine h.issue (h.safe.evolves hp.evolves hp.legal h.safe.held) hp.evolves ?_ ?_
          (List.pairwise_singleton _ _)
        · intro x hx
          obtain rfl := List.mem_singleton.mp hx
          exact ⟨l', hkey ▸ OrderedMap.get_set_self _ _ _, htoken.le⟩
        · intro x hx l hl
          obtain rfl := List.mem_singleton.mp hx
          rw [htoken]
          exact hgreater l (hkey ▸ hl)
      · exact h.proceed hp d.leases
  | renew profile held ttlMs =>
    simp only [Composition.transaction]
    split
    · exact h
    rename_i lease _
    have hp := (renew_keepsTokens profile lease ttlMs d.queue.now d.queue.tables).proceeds
      h.safe.legal
    split
    · exact h.proceed hp _
    · exact h.proceed hp d.leases
  | release profile held =>
    simp only [Composition.transaction]
    split
    · exact h
    rename_i lease _
    exact h.proceed ((release_keepsTokens profile lease d.queue.now d.queue.tables).proceeds
      h.safe.legal) d.leases

theorem step (h : Fenced d) (call : Nat × ComposedCall) : Fenced (d.step C call) :=
  (h.elapse call.1).transaction call.2

/-- **Every run** keeps it. -/
theorem after (calls : List (Nat × ComposedCall)) : Fenced (Composition.after C calls) := by
  induction calls using List.reverseRecOn with
  | nil => exact start
  | append_singleton calls call ih =>
    rw [Composition.after, List.foldl_append]
    exact ih.step call

/-- At most one of the leases that were acquired is the active one of its run. -/
theorem exclusive (h : Fenced d) :
    d.issued.Pairwise fun a b => a.key = b.key → ¬ (d.Active a ∧ d.Active b) := by
  refine h.increasing.imp fun hlt hkey => ?_
  rintro ⟨⟨l, hl, ha⟩, ⟨l', hl', hb⟩⟩
  obtain rfl : l = l' := Option.some.inj (hl.symm.trans (hkey ▸ hl'))
  simp only [bindsRow, decide_eq_true_eq] at ha hb
  have := hlt hkey
  omega

end Fenced

/-! ### Executions -/

section Executions

variable {K : Config} {runId : String} {allow : (q : Query) → Answer q → Prop}
  {fault : Thrown → Prop} {s : Store}

/-- Nothing follows `acquire` when no lease is answered. -/
theorem solo_acquire_bind {β : Type} {I : Store → Prop} {P : β → Store → Prop}
    {f : RunLease → Runtime β} (hlease : ∀ lease, ¬ allow .acquireLease (.ok (some lease))) :
    (Pactmark.acquire.bind f).solo allow fault I P (fun _ _ => True) s := by
  unfold Pactmark.acquire
  refine Prog.solo_bind (Prog.solo_bind fun answer hanswer => ?_)
  cases answer with
  | error e => trivial
  | ok lease =>
    cases lease with
    | none => trivial
    | some lease => exact absurd hanswer (hlease lease)

/-- **An execution** that is answered no lease changes nothing; it returns only for a run that has
ended already. -/
theorem execute_unleased (hlease : ∀ lease, ¬ allow .acquireLease (.ok (some lease))) :
    (execute K runId).solo allow fault (fun s' => s' = s)
      (fun _ _ => s.truth.projection.status.terminal = true) (fun _ _ => True) s := by
  unfold execute getRun
  refine solo_still_bind (fun claims => ?_) fun _ => trivial
  refine Prog.solo_bind (solo_still_bind (fun _ => ?_) fun _ => trivial)
  refine Prog.solo_bind (Prog.solo_read ?_)
  refine solo_still_bind (fun _ => Prog.solo_pure ?_) fun _ => trivial
  split
  · rename_i hterminal
    exact Prog.solo_pure hterminal
  · refine Prog.solo_bind (Prog.solo_read ?_)
    split
    · -- a compensation resolves its definition and its tool first
      unfold executeCompensation
      refine Prog.solo_bind ?_
      refine solo_still_bind (fun definition => ?_) fun _ => trivial
      refine solo_still_bind (fun registration => ?_) fun _ => trivial
      exact solo_acquire_bind hlease
    · unfold executeAgent
      refine solo_still_bind (fun definition => ?_) fun _ => trivial
      split
      · trivial
      · exact solo_acquire_bind hlease

end Executions

/-! ### Composing -/

/-- What `leaseStore.acquire` answers an execution of a run, in some state of the tables. -/
def answered (answer : Except Thrown (Option FencedLease)) : Except Thrown (Option RunLease) :=
  answer.map fun lease => lease.map fun lease => ⟨lease.leaseId, lease.fencingToken⟩

/-- An execution of the run of a claim acquires a lease of it: for some configuration of the lease
store, and some host of the runtime. -/
def Composition.Acquires (d : Composition) (c : WorkerWakeupClaim) : Prop :=
  ∃ profile holderId leaseId ttlMs lease,
    (PostgresRunLeaseStore.acquire profile c.request.tenantId c.request.runId holderId leaseId ttlMs
      d.queue.now d.queue.tables).1 = .ok (some lease)

/-- **The queue and the lease store do not compose.**  While the lease of a claim is active, no
execution of its run acquires a lease or commits anything. -/
theorem leases_not_composed (C : QueueContext) (calls : List (Nat × ComposedCall)) :
    (∀ c ∈ (Composition.after C calls).queue.held, Leased (Composition.after C calls).queue c →
      ¬ (Composition.after C calls).Acquires c ∧
      -- whatever its collaborators answer, and however the storage may fail
      ∀ (K : Config) (allow : (q : Query) → Answer q → Prop) (fault : Thrown → Prop) (s s' : Store)
        (r : Option (Except Thrown Started)),
        (∀ answer, allow .acquireLease answer → ∃ profile holderId leaseId ttlMs,
          answer = answered (PostgresRunLeaseStore.acquire profile c.request.tenantId
            c.request.runId holderId leaseId ttlMs (Composition.after C calls).queue.now
            (Composition.after C calls).queue.tables).1) →
        (execute K c.request.runId).Ran allow fault s s' r →
        s' = s ∧ ∀ started, r = some (.ok started) → s.truth.projection.status.terminal = true) ∧
    -- two processes never hold an active lease of one run
    (Composition.after C calls).issued.Pairwise fun a b =>
      a.key = b.key →
        ¬ ((Composition.after C calls).Active a ∧ (Composition.after C calls).Active b) := by
  have hfenced : Fenced (Composition.after C calls) := .after calls
  generalize Composition.after C calls = d at hfenced
  refine ⟨fun c _ hleased => ?_, hfenced.exclusive⟩
  obtain ⟨l, hl, hbinds, hexpires⟩ := hleased
  obtain ⟨-, -, -, hactive⟩ := of_decide_eq_true hbinds
  have hanswer := acquire_active hl hactive hexpires
  have hnone : ∀ profile holderId leaseId ttlMs lease,
      (PostgresRunLeaseStore.acquire profile c.request.tenantId c.request.runId holderId leaseId
        ttlMs d.queue.now d.queue.tables).1 ≠ .ok (some lease) := by
    intro profile holderId leaseId ttlMs lease hacquired
    rw [hanswer] at hacquired
    dsimp only at hacquired
    cases hchecked : PostgresRunLeaseStore.acquirable profile c.request.tenantId c.request.runId
      holderId ttlMs with
    | error e => rw [hchecked] at hacquired; cases hacquired
    | ok u => rw [hchecked] at hacquired; cases hacquired
  refine ⟨?_, fun K allow fault s s' r hallow hran => ?_⟩
  · rintro ⟨profile, holderId, leaseId, ttlMs, lease, hacquired⟩
    exact hnone profile holderId leaseId ttlMs lease hacquired
  · have hlease : ∀ lease, ¬ allow .acquireLease (.ok (some lease)) := by
      intro lease hallowed
      obtain ⟨profile, holderId, leaseId, ttlMs, heq⟩ := hallow _ hallowed
      cases hacquired : (PostgresRunLeaseStore.acquire profile c.request.tenantId c.request.runId
        holderId leaseId ttlMs d.queue.now d.queue.tables).1 with
      | error e => rw [hacquired] at heq; cases heq
      | ok answer =>
        cases answer with
        | none => rw [hacquired] at heq; cases heq
        | some lease' => exact hnone _ _ _ _ _ hacquired
    obtain ⟨hs, hreturns, -⟩ := (execute_unleased hlease).ran hran rfl
    exact ⟨hs, hreturns⟩

/-- A worker claims the first wakeup of a run. -/
def claimedRun : List (Nat × ComposedCall) :=
  [(0, .queue (.enqueue (wakeupOf "tenant" "run" "first"))), (0, .queue (claimOne "tenant"))]

/-- The lease of the claim keeps the runtime of the same worker from executing the run. -/
theorem claimed_not_executed :
    ¬ ∀ (C : QueueContext) (calls : List (Nat × ComposedCall)),
      ∀ c ∈ (Composition.after C calls).queue.held, Leased (Composition.after C calls).queue c →
        (Composition.after C calls).Acquires c := by
  intro h
  have hheld : ∃ c, (Composition.after plainContext claimedRun).queue.held[0]? = some c ∧
      Leased (Composition.after plainContext claimedRun).queue c := by
    refine ⟨_, rfl, _, rfl, ?_, ?_⟩ <;> decide +kernel
  obtain ⟨c, hc, hleased⟩ := hheld
  obtain ⟨profile, holderId, leaseId, ttlMs, lease, hacquired⟩ :=
    h plainContext claimedRun c (List.mem_of_getElem? hc) hleased
  obtain ⟨l, hl, hbinds, hexpires⟩ := hleased
  obtain ⟨-, -, -, hactive⟩ := of_decide_eq_true hbinds
  rw [acquire_active hl hactive hexpires] at hacquired
  dsimp only at hacquired
  cases hchecked : PostgresRunLeaseStore.acquirable profile c.request.tenantId c.request.runId
    holderId ttlMs with
  | error e => rw [hchecked] at hacquired; cases hacquired
  | ok u => rw [hchecked] at hacquired; cases hacquired

end Worker

end Pactmark
