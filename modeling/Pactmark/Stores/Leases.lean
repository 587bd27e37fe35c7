import Pactmark.Core.Capability
import Pactmark.Core.CommandWindow
import Pactmark.Durable.Operations
import Pactmark.Durable.OrderedMap
import Pactmark.Durable.Snapshots
import Pactmark.Stores.EventStore

/-!
# Stores — fenced leases

`MemoryRunLeaseStore` of `store-memory/src/lease-store.ts`.  The clock is what each call reads,
and the identity of a lease is what `generateLeaseId` answers: both are arguments of the call
here, so that a run of calls is one under any clock and any generator.

* `Fenced`: the stored lease of a run is one that was issued, with the greatest token; its step
  lemma is `Fenced.step`.
* `Dead.step`: a lease that is not the active one of its run never becomes it again.
* `leases_exclusive`: what follows for every run of calls.
-/

namespace Pactmark

open Durable

/-! ### Leases -/

/-- `state` of a lease. -/
inductive LeaseState where
  | active
  | released
  | expired
  deriving DecidableEq, Repr

/-- `RunLease`, with every field of `RunLeaseSchema`. -/
structure FencedLease where
  leaseId : String
  tenantId : String
  runId : String
  holderId : String
  fencingToken : Nat
  acquiredAt : Int
  expiresAt : Int
  state : LeaseState
  deriving DecidableEq, Repr

/-- `recordKey(lease.tenantId, lease.runId)`. -/
def FencedLease.key (lease : FencedLease) : StreamKey :=
  (lease.tenantId, lease.runId)

/-- What `sameLease` compares. -/
def FencedLease.identity (lease : FencedLease) : String × String × String × String × Nat :=
  (lease.leaseId, lease.tenantId, lease.runId, lease.holderId, lease.fencingToken)

/-- `RunLeaseSchema.safeParse(lease).success`. -/
def FencedLease.parses (lease : FencedLease) : Bool :=
  lease.leaseId ≠ "" ∧ lease.tenantId ≠ "" ∧ lease.runId ≠ "" ∧ lease.holderId ≠ "" ∧
    lease.fencingToken ≤ 9007199254740991 ∧ isoRepresentable lease.acquiredAt ∧
    isoRepresentable lease.expiresAt

/-- What the clock answers: `Date.parse` of it, if that is a number, and whether it is an instant
of the schema. -/
structure ClockReading where
  milliseconds : Option Int
  iso : Bool

/-- `MemoryRunLeaseStore`. -/
structure MemoryRunLeaseStore where
  leases : OrderedMap StreamKey FencedLease
  lastFencingTokens : OrderedMap StreamKey Nat

namespace MemoryRunLeaseStore

/-- `new MemoryRunLeaseStore()`. -/
def empty : MemoryRunLeaseStore :=
  ⟨.empty, .empty⟩

/-- `#lastFencingTokens.get(key) ?? 0`. -/
def lastFencingToken (s : MemoryRunLeaseStore) (key : StreamKey) : Nat :=
  (s.lastFencingTokens.get key).getD 0

/-! ### The checks of the arguments -/

/-- `new KafError("KAF_SCHEMA_INVALID", { details: { path, issue } })`. -/
def schemaInvalid (path issue : String) : Thrown :=
  .kaf { code := .KAF_SCHEMA_INVALID, details := { others := [("path", path), ("issue", issue)] } }

/-- `assertNonempty`. -/
def assertNonempty (value path : String) : Except Thrown Unit :=
  if value.toList.all isWhiteSpace then .error (schemaInvalid path "too_small") else .ok ()

/-- `assertPositiveTtl`. -/
def assertPositiveTtl (ttlMs : Int) : Except Thrown Unit :=
  if 0 < ttlMs ∧ ttlMs ≤ 9007199254740991 then .ok ()
  else .error (schemaInvalid "ttlMs" "positive")

/-- `assertValidInstant`. -/
def assertValidInstant (now : ClockReading) : Except Thrown Int :=
  match now.milliseconds with
  | some milliseconds => .ok milliseconds
  | none => .error (schemaInvalid "clock.now" "datetime")

/-- The checks `acquire` starts with; it reads the clock after them. -/
def acquireInstant (tenantId runId holderId : String) (ttlMs : Int) (now : ClockReading) :
    Except Thrown Int := do
  assertNonempty tenantId "tenantId"
  assertNonempty runId "runId"
  assertNonempty holderId "holderId"
  assertPositiveTtl ttlMs
  assertValidInstant now

/-- `RunLeaseSchema.parse` of a lease that ends at `nowMs + ttlMs`, which `toISOString` prints. -/
def parseLease (lease : FencedLease) : Except Thrown FencedLease :=
  if lease.expiresAt < -8640000000000000 ∨ 8640000000000000 < lease.expiresAt then
    .error (.host "RangeError" true)
  else if lease.parses then .ok lease
  else .error (.host "ZodError" true)

/-- `RunLeaseSchema.parse` of an argument. -/
def parseInput (lease : FencedLease) : Except Thrown FencedLease :=
  if lease.parses then .ok lease else .error (.host "ZodError" true)

/-! ### The operations -/

/-- `existing.state === "active" && Date.parse(existing.expiresAt) > nowMs`. -/
def held (s : MemoryRunLeaseStore) (key : StreamKey) (nowMs : Int) : Bool :=
  match s.leases.get key with
  | some existing => existing.state = .active ∧ nowMs < existing.expiresAt
  | none => false

/-- An active lease is marked as expired. -/
def expire (s : MemoryRunLeaseStore) (key : StreamKey) : MemoryRunLeaseStore :=
  match s.leases.get key with
  | some existing =>
      if existing.state = .active then
        { s with leases := s.leases.set key { existing with state := .expired } }
      else s
  | none => s

/-- The next token is taken, whether or not a lease is made of it. -/
def takeToken (s : MemoryRunLeaseStore) (key : StreamKey) : MemoryRunLeaseStore :=
  { s with lastFencingTokens := s.lastFencingTokens.set key (s.lastFencingToken key + 1) }

/-- `acquire`; `generated` is what `generateLeaseId` answers. -/
def acquire (s : MemoryRunLeaseStore) (tenantId runId holderId : String) (ttlMs : Int)
    (now : ClockReading) (generated : Except Thrown String) :
    Except Thrown (Option FencedLease) × MemoryRunLeaseStore :=
  match acquireInstant tenantId runId holderId ttlMs now with
  | .error e => (.error e, s)
  | .ok nowMs =>
      if s.held (tenantId, runId) nowMs then (.ok none, s)
      else
        let fencingToken := s.lastFencingToken (tenantId, runId) + 1
        let s := (s.expire (tenantId, runId)).takeToken (tenantId, runId)
        match generated with
        | .error e => (.error e, s)
        | .ok leaseId =>
            if ¬ now.iso then (.error (.host "ZodError" true), s)
            else
              match parseLease
                { leaseId, tenantId, runId, holderId, fencingToken
                  acquiredAt := nowMs
                  expiresAt := nowMs + ttlMs
                  state := .active } with
              | .error e => (.error e, s)
              | .ok lease =>
                  (.ok (some lease), { s with leases := s.leases.set (tenantId, runId) lease })

/-- The stored lease, if it is the active one that `lease` names. -/
def current (s : MemoryRunLeaseStore) (lease : FencedLease) : Option FencedLease :=
  match s.leases.get lease.key with
  | some current =>
      if current.identity = lease.identity ∧ current.state = .active then some current else none
  | none => none

/-- The checks `renew` starts with; it reads the clock after them. -/
def renewInstant (input : FencedLease) (ttlMs : Int) (now : ClockReading) :
    Except Thrown Int := do
  let _ ← parseInput input
  assertPositiveTtl ttlMs
  assertValidInstant now

/-- `renew`. -/
def renew (s : MemoryRunLeaseStore) (lease : FencedLease) (ttlMs : Int) (now : ClockReading) :
    Except Thrown FencedLease × MemoryRunLeaseStore :=
  match renewInstant lease ttlMs now with
  | .error e => (.error e, s)
  | .ok nowMs =>
      match s.current lease with
      | none => (.error (conflict "stale_lease"), s)
      | some current =>
          if current.expiresAt ≤ nowMs then
            (.error (conflict "expired_lease"),
              { s with leases := s.leases.set lease.key { current with state := .expired } })
          else
            match parseLease { current with expiresAt := nowMs + ttlMs } with
            | .error e => (.error e, s)
            | .ok renewed => (.ok renewed, { s with leases := s.leases.set lease.key renewed })

/-- `release`. -/
def release (s : MemoryRunLeaseStore) (input : FencedLease) :
    Except Thrown Unit × MemoryRunLeaseStore :=
  match parseInput input with
  | .error e => (.error e, s)
  | .ok lease =>
      match s.current lease with
      | none => (.error (conflict "stale_lease"), s)
      | some current =>
          (.ok (), { s with leases := s.leases.set lease.key { current with state := .released } })

/-- `assertActive`. -/
def assertActive (s : MemoryRunLeaseStore) (input : FencedLease) (now : ClockReading) :
    Except Thrown Unit := do
  let lease ← parseInput input
  let nowMs ← assertValidInstant now
  match s.current lease with
  | none => .error (conflict "stale_or_expired_fence")
  | some current =>
      if current.expiresAt ≤ nowMs then .error (conflict "stale_or_expired_fence") else .ok ()

end MemoryRunLeaseStore

/-! ### Runs of calls -/

/-- A call on the store, with the reading of the clock it makes. -/
inductive LeaseCall where
  | acquire (tenantId runId holderId : String) (ttlMs : Int) (now : ClockReading)
      (generated : Except Thrown String)
  | renew (lease : FencedLease) (ttlMs : Int) (now : ClockReading)
  | release (lease : FencedLease)
  | assertActive (lease : FencedLease) (now : ClockReading)

/-- A store, and the leases it has issued in order. -/
structure LeaseRun where
  store : MemoryRunLeaseStore
  issued : List FencedLease

namespace LeaseRun

/-- What a call leaves. -/
def step (r : LeaseRun) : LeaseCall → LeaseRun
  | .acquire tenantId runId holderId ttlMs now generated =>
      match r.store.acquire tenantId runId holderId ttlMs now generated with
      | (.ok (some lease), store) => ⟨store, r.issued ++ [lease]⟩
      | (_, store) => { r with store }
  | .renew lease ttlMs now => { r with store := (r.store.renew lease ttlMs now).2 }
  | .release lease => { r with store := (r.store.release lease).2 }
  | .assertActive _ _ => r

/-- What a sequence of calls leaves. -/
def run (calls : List LeaseCall) : LeaseRun :=
  calls.foldl step ⟨.empty, []⟩

end LeaseRun

/-! ### What the operations do -/

/-- An event that is appended with a lease is one of the run of the lease, which is active. -/
theorem EventStore.appendFenced_ok {allowed : RunEvent → Bool} {active : Except Thrown Unit}
    {lease : StreamKey} {event : RunEvent} {n : Int} {s s' : EventStore} {answer : Nat × Bool}
    (h : EventStore.appendFenced allowed active lease event n s = .ok answer s') :
    active = .ok () ∧ event.key = lease := by
  unfold EventStore.appendFenced at h
  cases active with
  | error e => cases h
  | ok u =>
    refine ⟨rfl, ?_⟩
    by_contra hkey
    by_cases hallowed : allowed event = true <;>
      simp [hallowed, hkey] at h

namespace MemoryRunLeaseStore

variable {s : MemoryRunLeaseStore} {lease c : FencedLease} {key : StreamKey}

theorem current_eq_some :
    s.current lease = some c ↔
      s.leases.get lease.key = some c ∧ c.identity = lease.identity ∧ c.state = .active := by
  unfold current
  cases s.leases.get lease.key with
  | none => simp
  | some existing =>
    simp only [Option.ite_none_right_eq_some, Option.some.injEq]
    constructor
    · rintro ⟨h, rfl⟩
      exact ⟨rfl, h⟩
    · rintro ⟨rfl, h⟩
      exact ⟨h, rfl⟩

theorem parseLease_ok {l : FencedLease} (h : parseLease l = .ok c) : c = l := by
  unfold parseLease at h
  split at h
  · cases h
  split at h <;> cases h
  rfl

theorem parseInput_ok {l : FencedLease} (h : parseInput l = .ok c) : c = l := by
  unfold parseInput at h
  split at h <;> cases h
  rfl

/-- **A lease that is accepted** is the active one of its run, and is not over. -/
theorem assertActive_ok {now : ClockReading} (h : s.assertActive lease now = .ok ()) :
    ∃ c, s.leases.get lease.key = some c ∧ c.identity = lease.identity ∧ c.state = .active := by
  obtain ⟨l, hl, hchecks⟩ := bind_eq_ok.mp h
  obtain rfl := parseInput_ok hl
  obtain ⟨nowMs, -, hstored⟩ := bind_eq_ok.mp hchecks
  split at hstored
  · cases hstored
  rename_i current hcurrent
  exact ⟨current, current_eq_some.mp hcurrent⟩

/-- What marking a lease as expired does: at most the state of the lease of the key changes. -/
theorem expire_get (k : StreamKey) :
    (s.expire key).leases.get k = s.leases.get k ∨
      ∃ c, k = key ∧ s.leases.get k = some c ∧
        (s.expire key).leases.get k = some { c with state := .expired } := by
  unfold expire
  cases hc : s.leases.get key with
  | none => exact .inl rfl
  | some c =>
    dsimp only
    split
    · by_cases hk : k = key
      · subst hk
        exact .inr ⟨c, rfl, hc, by simp [OrderedMap.get_set]⟩
      · exact .inl (by simp [OrderedMap.get_set, hk])
    · exact .inl rfl

@[simp] theorem expire_lastFencingTokens :
    (s.expire key).lastFencingTokens = s.lastFencingTokens := by
  unfold expire
  split
  · split <;> rfl
  · rfl

/-- No lease of the key is active once it was marked. -/
theorem expire_inactive (h : (s.expire key).leases.get key = some c) : c.state ≠ .active := by
  unfold expire at h
  cases hc : s.leases.get key with
  | none => simp [hc] at h
  | some x =>
    simp only [hc] at h
    split at h <;> rename_i hs
    · simp only [OrderedMap.get_set, if_true, Option.some.injEq] at h
      rw [← h]
      rintro ⟨⟩
    · rw [hc] at h
      cases h
      exact hs

/-- **`acquire`**: nothing happens, or the lease of the key is marked and its token is taken,
and then a lease of that token is stored or none is. -/
theorem acquire_cases (s : MemoryRunLeaseStore) (tenantId runId holderId : String) (ttlMs : Int)
    (now : ClockReading) (generated : Except Thrown String) :
    ((s.acquire tenantId runId holderId ttlMs now generated).2 = s ∧
        (∀ lease, (s.acquire tenantId runId holderId ttlMs now generated).1 ≠ .ok (some lease)) ∧
        ∀ nowMs, acquireInstant tenantId runId holderId ttlMs now = .ok nowMs →
          s.held (tenantId, runId) nowMs = true) ∨
      ((s.acquire tenantId runId holderId ttlMs now generated).2 =
          (s.expire (tenantId, runId)).takeToken (tenantId, runId) ∧
        ∀ lease, (s.acquire tenantId runId holderId ttlMs now generated).1 ≠ .ok (some lease)) ∨
      ∃ lease, lease.key = (tenantId, runId) ∧
        lease.fencingToken = s.lastFencingToken (tenantId, runId) + 1 ∧
        s.acquire tenantId runId holderId ttlMs now generated =
          (.ok (some lease),
            { (s.expire (tenantId, runId)).takeToken (tenantId, runId) with
              leases := (s.expire (tenantId, runId)).leases.set (tenantId, runId) lease }) := by
  unfold acquire
  split
  · rename_i e he
    exact .inl ⟨rfl, by rintro _ ⟨⟩, fun nowMs h => by rw [he] at h; cases h⟩
  rename_i nowMs hnow
  split
  · exact .inl ⟨rfl, by rintro _ ⟨⟩, fun ms h => by rw [hnow] at h; cases h; assumption⟩
  split
  · exact .inr (.inl ⟨rfl, by rintro _ ⟨⟩⟩)
  dsimp only
  split
  · exact .inr (.inl ⟨rfl, by rintro _ ⟨⟩⟩)
  split
  · exact .inr (.inl ⟨rfl, by rintro _ ⟨⟩⟩)
  · rename_i lease hlease
    obtain rfl := parseLease_ok hlease
    exact .inr (.inr ⟨_, rfl, rfl, rfl⟩)

theorem release_cases (s : MemoryRunLeaseStore) (input : FencedLease) :
    ((s.release input).2 = s ∧ (s.release input).1 ≠ .ok ()) ∨
      ∃ c, s.leases.get input.key = some c ∧ c.identity = input.identity ∧ c.state = .active ∧
        (s.release input).2 =
          { s with leases := s.leases.set input.key { c with state := .released } } := by
  unfold release
  split
  · exact .inl ⟨rfl, by rintro ⟨⟩⟩
  · rename_i l hl
    obtain rfl := parseInput_ok hl
    split
    · exact .inl ⟨rfl, by rintro ⟨⟩⟩
    · obtain ⟨hget, hid, hactive⟩ := current_eq_some.mp ‹_›
      exact .inr ⟨_, hget, hid, hactive, rfl⟩

theorem renew_cases (s : MemoryRunLeaseStore) (input : FencedLease) (ttlMs : Int)
    (now : ClockReading) :
    ((s.renew input ttlMs now).2 = s ∧
        ∀ nowMs, renewInstant input ttlMs now = .ok nowMs → ∀ c, s.current input = some c →
          nowMs < c.expiresAt) ∨
      ∃ c, s.leases.get input.key = some c ∧ c.identity = input.identity ∧ c.state = .active ∧
        ((s.renew input ttlMs now).2 =
            { s with leases := s.leases.set input.key { c with state := .expired } } ∨
          ∃ expiresAt, (s.renew input ttlMs now).2 =
              { s with leases := s.leases.set input.key { c with expiresAt } } ∧
            ∀ nowMs, renewInstant input ttlMs now = .ok nowMs → nowMs < c.expiresAt) := by
  unfold renew
  split
  · rename_i e he
    exact .inl ⟨rfl, fun nowMs h => by rw [he] at h; cases h⟩
  rename_i nowMs hnow
  split
  · rename_i hc
    exact .inl ⟨rfl, fun _ _ c h => by rw [hc] at h; cases h⟩
  rename_i c hc
  obtain ⟨hget, hid, hactive⟩ := current_eq_some.mp hc
  split
  · exact .inr ⟨c, hget, hid, hactive, .inl rfl⟩
  rename_i hexpires
  split
  · refine .inl ⟨rfl, fun ms h x hx => ?_⟩
    obtain rfl : nowMs = ms := Except.ok.inj (hnow.symm.trans h)
    obtain rfl : c = x := Option.some.inj (hc.symm.trans hx)
    omega
  · rename_i renewed hrenewed
    obtain rfl := parseLease_ok hrenewed
    refine .inr ⟨c, hget, hid, hactive, .inr ⟨_, rfl, fun ms h => ?_⟩⟩
    obtain rfl : nowMs = ms := Except.ok.inj (hnow.symm.trans h)
    omega

/-- What every call but an issuing one does to a store: a lease stays what it is, or its state
and its expiry change, and it is not active unless it was. -/
structure Touches (s s' : MemoryRunLeaseStore) : Prop where
  lease : ∀ k, s'.leases.get k = s.leases.get k ∨
    ∃ c c', s.leases.get k = some c ∧ s'.leases.get k = some c' ∧ c'.identity = c.identity ∧
      (c'.state = .active → c.state = .active)
  token : ∀ k, s.lastFencingToken k ≤ s'.lastFencingToken k

theorem Touches.refl (s : MemoryRunLeaseStore) : Touches s s :=
  ⟨fun _ => .inl rfl, fun _ => le_rfl⟩

theorem Touches.set {s : MemoryRunLeaseStore} {key : StreamKey} {c c' : FencedLease}
    (hc : s.leases.get key = some c) (hid : c'.identity = c.identity)
    (hstate : c'.state = .active → c.state = .active) :
    Touches s { s with leases := s.leases.set key c' } where
  lease k := by
    simp only [OrderedMap.get_set]
    split
    · rename_i hk
      exact .inr ⟨c, c', hk ▸ hc, rfl, hid, hstate⟩
    · exact .inl rfl
  token _ := le_rfl

theorem Touches.expire (s : MemoryRunLeaseStore) (key : StreamKey) :
    Touches s ((s.expire key).takeToken key) where
  lease k := by
    rcases @expire_get s key k with h | ⟨c, -, hc, h⟩
    · exact .inl h
    · exact .inr ⟨c, _, hc, h, rfl, nofun⟩
  token k := by
    simp only [lastFencingToken, takeToken, expire_lastFencingTokens, OrderedMap.get_set]
    split
    · rename_i hk
      simp [hk]
    · exact le_rfl

theorem takeToken_lastFencingToken (s : MemoryRunLeaseStore) (key : StreamKey) :
    ((s.expire key).takeToken key).lastFencingToken key = s.lastFencingToken key + 1 := by
  simp [lastFencingToken, takeToken, OrderedMap.get_set]

end MemoryRunLeaseStore

/-! ### What a run of calls keeps -/

namespace LeaseRun

open MemoryRunLeaseStore

variable {r r' : LeaseRun} {call : LeaseCall} {l : FencedLease}

/-- A store that has issued a lease. -/
def issue (r : LeaseRun) (s : MemoryRunLeaseStore) (lease : FencedLease) : LeaseRun :=
  ⟨{ s with leases := s.leases.set lease.key lease }, r.issued ++ [lease]⟩

theorem step_acquire {tenantId runId holderId : String} {ttlMs : Int} {now : ClockReading}
    {generated : Except Thrown String}
    (hne : ∀ lease,
      (r.store.acquire tenantId runId holderId ttlMs now generated).1 ≠ .ok (some lease)) :
    r.step (.acquire tenantId runId holderId ttlMs now generated) =
      { r with store := (r.store.acquire tenantId runId holderId ttlMs now generated).2 } := by
  simp only [step]

/-- **What a call does**: it touches the store, and may issue a lease of the next token then. -/
theorem step_cases (r : LeaseRun) (call : LeaseCall) :
    ∃ s, Touches r.store s ∧
      (r.step call = { r with store := s } ∨
        ∃ lease, lease.fencingToken = r.store.lastFencingToken lease.key + 1 ∧
          s.lastFencingToken lease.key = lease.fencingToken ∧ r.step call = r.issue s lease) := by
  cases call with
  | acquire tenantId runId holderId ttlMs now generated =>
    rcases r.store.acquire_cases tenantId runId holderId ttlMs now generated with
      ⟨hs, hne, -⟩ | ⟨hs, hne⟩ | ⟨lease, hkey, htoken, heq⟩
    · refine ⟨_, .refl _, .inl ?_⟩
      rw [step_acquire hne, hs]
    · refine ⟨_, .expire r.store (tenantId, runId), .inl ?_⟩
      rw [step_acquire hne, hs]
    · refine ⟨_, .expire r.store (tenantId, runId), .inr ⟨lease, ?_, ?_, ?_⟩⟩
      · rw [hkey, htoken]
      · rw [hkey, htoken, takeToken_lastFencingToken]
      · simp only [step, heq, issue, hkey]
        rfl
  | renew input ttlMs now =>
    rcases r.store.renew_cases input ttlMs now with
      ⟨hs, -⟩ | ⟨c, hget, hid, hactive, hs | ⟨expiresAt, hs, -⟩⟩
    · exact ⟨_, .refl _, .inl (by rw [step, hs])⟩
    · refine ⟨_, ?_, .inl (by rw [step, hs])⟩
      exact .set hget rfl nofun
    · refine ⟨_, ?_, .inl (by rw [step, hs])⟩
      exact .set hget rfl id
  | release input =>
    rcases r.store.release_cases input with ⟨hs, -⟩ | ⟨c, hget, hid, hactive, hs⟩
    · exact ⟨_, .refl _, .inl (by rw [step, hs])⟩
    · refine ⟨_, ?_, .inl (by rw [step, hs])⟩
      exact .set hget rfl nofun
  | assertActive => exact ⟨_, .refl _, .inl rfl⟩

/-- The invariant of a store and of what it has issued. -/
structure Fenced (r : LeaseRun) : Prop where
  taken : ∀ i ∈ r.issued, i.fencingToken ≤ r.store.lastFencingToken i.key
  ordered : r.issued.Pairwise fun i j => i.key = j.key → i.fencingToken < j.fencingToken
  stored : ∀ k c, r.store.leases.get k = some c → c.key = k ∧
    (∃ i ∈ r.issued, i.identity = c.identity) ∧
      ∀ i ∈ r.issued, i.key = k → i.fencingToken ≤ c.fencingToken

theorem key_of_identity {a b : FencedLease} (h : a.identity = b.identity) : a.key = b.key := by
  simp only [FencedLease.identity, Prod.mk.injEq] at h
  simp [FencedLease.key, h]

theorem token_of_identity {a b : FencedLease} (h : a.identity = b.identity) :
    a.fencingToken = b.fencingToken := by
  simp only [FencedLease.identity, Prod.mk.injEq] at h
  exact h.2.2.2.2

theorem Fenced.touches {s : MemoryRunLeaseStore} (h : Fenced r) (ht : Touches r.store s) :
    Fenced { r with store := s } where
  taken i hi := (h.taken i hi).trans (ht.token _)
  ordered := h.ordered
  stored k c hc := by
    rcases ht.lease k with heq | ⟨x, x', hx, hx', hid, -⟩
    · exact h.stored k c (heq ▸ hc)
    · obtain rfl : x' = c := Option.some.inj (hx'.symm.trans hc)
      obtain ⟨hkey, ⟨i, hi, hix⟩, hmax⟩ := h.stored k x hx
      refine ⟨(key_of_identity hid).trans hkey, ⟨i, hi, hix.trans hid.symm⟩, ?_⟩
      rw [token_of_identity hid]
      exact hmax

theorem Fenced.issue {s : MemoryRunLeaseStore} {lease : FencedLease}
    (h : Fenced { r with store := s })
    (hfresh : ∀ i ∈ r.issued, i.key = lease.key → i.fencingToken < lease.fencingToken)
    (htoken : s.lastFencingToken lease.key = lease.fencingToken) : Fenced (r.issue s lease) where
  taken i hi := by
    rcases List.mem_append.mp hi with hi | hi
    · exact h.taken i hi
    · rw [List.mem_singleton.mp hi]
      exact htoken.ge
  ordered := by
    refine List.pairwise_append.mpr ⟨h.ordered, List.pairwise_singleton _ _, ?_⟩
    intro i hi j hj hkey
    rw [List.mem_singleton.mp hj] at hkey ⊢
    exact hfresh i hi hkey
  stored k c hc := by
    simp only [LeaseRun.issue, OrderedMap.get_set] at hc
    split at hc
    · rename_i hk
      obtain rfl := Option.some.inj hc
      refine ⟨hk.symm, ⟨lease, by simp [LeaseRun.issue], rfl⟩, fun i hi hkey => ?_⟩
      rcases List.mem_append.mp hi with hi | hi
      · exact (hfresh i hi (hkey.trans hk)).le
      · rw [List.mem_singleton.mp hi]
    · rename_i hk
      obtain ⟨hkey, ⟨i, hi, hid⟩, hmax⟩ := h.stored k c hc
      refine ⟨hkey, ⟨i, List.mem_append_left _ hi, hid⟩, fun j hj hjk => ?_⟩
      rcases List.mem_append.mp hj with hj | hj
      · exact hmax j hj hjk
      · rw [List.mem_singleton.mp hj] at hjk
        exact absurd hjk.symm hk

/-- **One call.** -/
theorem Fenced.step (h : Fenced r) (call : LeaseCall) : Fenced (r.step call) := by
  obtain ⟨s, ht, hstep | ⟨lease, hnext, htoken, hstep⟩⟩ := step_cases r call
  · rw [hstep]
    exact h.touches ht
  · rw [hstep]
    refine (h.touches ht).issue (fun i hi hkey => ?_) htoken
    have := h.taken i hi
    rw [hkey] at this
    omega

/-- The lease was issued, and it is not the active lease of its run. -/
structure Dead (r : LeaseRun) (l : FencedLease) : Prop where
  issued : l ∈ r.issued
  inactive : ∀ c, r.store.leases.get l.key = some c → c.identity = l.identity → c.state ≠ .active

/-- **A lease that is not the active one of its run never becomes it again.** -/
theorem Dead.step (hd : Dead r l) (h : Fenced r) (call : LeaseCall) : Dead (r.step call) l := by
  obtain ⟨s, ht, hstep⟩ := step_cases r call
  have htouched : ∀ c, s.leases.get l.key = some c → c.identity = l.identity →
      c.state ≠ .active := by
    intro c hc hid
    rcases ht.lease l.key with heq | ⟨x, x', hx, hx', hxid, hactive⟩
    · exact hd.inactive c (heq ▸ hc) hid
    · obtain rfl : x' = c := Option.some.inj (hx'.symm.trans hc)
      exact fun ha => hd.inactive x hx (hxid.symm.trans hid) (hactive ha)
  rcases hstep with hstep | ⟨lease, hnext, -, hstep⟩
  · rw [hstep]
    exact ⟨hd.issued, htouched⟩
  · rw [hstep]
    refine ⟨List.mem_append_left _ hd.issued, fun c hc hid => ?_⟩
    simp only [LeaseRun.issue, OrderedMap.get_set] at hc
    split at hc
    · rename_i hk
      obtain rfl := Option.some.inj hc
      -- The token of the new lease is above all that were taken, that of `l` among them.
      have := h.taken l hd.issued
      rw [hk, ← token_of_identity hid] at this
      omega
    · exact htouched c hc hid

/-! ### How a lease ends -/

/-- The call supersedes the lease, releases it, or observes that it has expired. -/
def Retires (r : LeaseRun) (l : FencedLease) : LeaseCall → Prop
  | .acquire tenantId runId holderId ttlMs now generated =>
      l.key = (tenantId, runId) ∧
        ((∃ lease, (r.store.acquire tenantId runId holderId ttlMs now generated).1 =
            .ok (some lease)) ∨
          ∃ nowMs c, acquireInstant tenantId runId holderId ttlMs now = .ok nowMs ∧
            r.store.leases.get l.key = some c ∧ c.identity = l.identity ∧ c.expiresAt ≤ nowMs)
  | .renew input ttlMs now =>
      ∃ nowMs c, renewInstant input ttlMs now = .ok nowMs ∧ input.identity = l.identity ∧
        r.store.current input = some c ∧ c.expiresAt ≤ nowMs
  | .release input => input.identity = l.identity ∧ (r.store.release input).1 = .ok ()
  | .assertActive _ _ => False

theorem Retires.dead (h : Fenced r) (hl : l ∈ r.issued) (hr : Retires r l call) :
    Dead (r.step call) l := by
  cases call with
  | acquire tenantId runId holderId ttlMs now generated =>
    obtain ⟨hkey, hr⟩ := hr
    rcases r.store.acquire_cases tenantId runId holderId ttlMs now generated with
      ⟨hs, hne, hheld⟩ | ⟨hs, hne⟩ | ⟨lease, hlkey, htoken, heq⟩
    · -- Neither was a lease returned, nor was the stored one found expired.
      rcases hr with ⟨lease, hlease⟩ | ⟨nowMs, c, hnow, hc, -, hexpired⟩
      · exact absurd hlease (hne lease)
      · have := hheld nowMs hnow
        rw [held, ← hkey, hc] at this
        have hlt := (of_decide_eq_true this).2
        omega
    · rw [step_acquire hne, hs]
      refine ⟨hl, fun c hc _ => ?_⟩
      rw [hkey] at hc
      exact expire_inactive hc
    · have hstep : r.step (.acquire tenantId runId holderId ttlMs now generated) =
          ⟨{ (r.store.expire (tenantId, runId)).takeToken (tenantId, runId) with
              leases := (r.store.expire (tenantId, runId)).leases.set (tenantId, runId) lease },
            r.issued ++ [lease]⟩ := by
        simp only [step, heq]
      rw [hstep]
      refine ⟨List.mem_append_left _ hl, fun c hc hid => ?_⟩
      simp only [hkey, OrderedMap.get_set, if_true] at hc
      obtain rfl := Option.some.inj hc
      have := h.taken l hl
      rw [hkey, ← token_of_identity hid, htoken] at this
      omega
  | renew input ttlMs now =>
    obtain ⟨nowMs, c, hnow, hid, hc, hexpired⟩ := hr
    rcases r.store.renew_cases input ttlMs now with
      ⟨-, hlive⟩ | ⟨x, hget, hxid, hactive, hs | ⟨expiresAt, -, hlive⟩⟩
    · have := hlive nowMs hnow c hc
      omega
    · refine ⟨hl, fun y hy _ => ?_⟩
      rw [step, hs, key_of_identity hid.symm] at hy
      simp only [OrderedMap.get_set, if_true] at hy
      rw [← Option.some.inj hy]
      rintro ⟨⟩
    · have := hlive nowMs hnow
      obtain rfl : x = c := by
        have := (current_eq_some.mp hc).1
        exact Option.some.inj (hget.symm.trans this)
      omega
  | release input =>
    obtain ⟨hid, hok⟩ := hr
    rcases r.store.release_cases input with ⟨-, hne⟩ | ⟨c, hget, -, -, hs⟩
    · exact absurd hok hne
    · refine ⟨hl, fun y hy _ => ?_⟩
      rw [step, hs, key_of_identity hid.symm] at hy
      simp only [OrderedMap.get_set, if_true] at hy
      rw [← Option.some.inj hy]
      rintro ⟨⟩
  | assertActive => exact hr.elim

/-! ### Every run of calls -/

theorem fenced_empty : Fenced ⟨.empty, []⟩ where
  taken _ hi := absurd hi List.not_mem_nil
  ordered := .nil
  stored k c hc := by simp [MemoryRunLeaseStore.empty] at hc

theorem Dead.foldl (hd : Dead r l) (h : Fenced r) (calls : List LeaseCall) :
    Dead (calls.foldl LeaseRun.step r) l :=
  (Snapshotted.foldl_invariant (P := fun r => Dead r l ∧ Fenced r)
    (fun _ call h => ⟨h.1.step h.2 call, h.2.step call⟩) calls ⟨hd, h⟩).1

theorem fenced_run (calls : List LeaseCall) : Fenced (run calls) :=
  Snapshotted.foldl_invariant (P := Fenced) (fun _ call h => h.step call) calls fenced_empty

/-- **An accepted lease** was issued, and its token is the greatest of its run. -/
theorem Fenced.assertActive (h : Fenced r) {lease : FencedLease} {now : ClockReading}
    (hok : r.store.assertActive lease now = .ok ()) :
    (∃ i ∈ r.issued, i.identity = lease.identity) ∧
      ∀ i ∈ r.issued, i.key = lease.key → i.fencingToken ≤ lease.fencingToken := by
  obtain ⟨c, hc, hid, -⟩ := assertActive_ok hok
  obtain ⟨-, ⟨i, hi, hic⟩, hmax⟩ := h.stored _ c hc
  rw [token_of_identity hid] at hmax
  exact ⟨⟨i, hi, hic.trans hid⟩, hmax⟩

/-- **Fenced leases are exclusive**: in every run of calls, whatever the clock answers, the tokens
of a run increase, at most one identity is accepted for it, which is the one with the greatest
token, and a lease that ended is accepted no more. -/
theorem leases_exclusive (calls : List LeaseCall) :
    ((run calls).issued.Pairwise fun i j => i.key = j.key → i.fencingToken < j.fencingToken) ∧
    (∀ lease now, (run calls).store.assertActive lease now = .ok () →
      (∃ i ∈ (run calls).issued, i.identity = lease.identity) ∧
        ∀ i ∈ (run calls).issued, i.key = lease.key → i.fencingToken ≤ lease.fencingToken) ∧
    (∀ lease lease' now now', (run calls).store.assertActive lease now = .ok () →
      (run calls).store.assertActive lease' now' = .ok () → lease.key = lease'.key →
        lease.identity = lease'.identity) ∧
    (∀ pre call post, calls = pre ++ call :: post → ∀ l ∈ (run pre).issued,
      Retires (run pre) l call → ∀ lease now, lease.identity = l.identity →
        (run calls).store.assertActive lease now ≠ .ok ()) ∧
    ∀ (allowed : RunEvent → Bool) (events events' : EventStore) (event : RunEvent)
      (expectedSequence : Int) (answer : Nat × Bool) (lease : FencedLease) (now : ClockReading),
      EventStore.appendFenced allowed ((run calls).store.assertActive lease now) lease.key event
        expectedSequence events = .ok answer events' →
      event.key = lease.key ∧ (∃ i ∈ (run calls).issued, i.identity = lease.identity) ∧
        ∀ i ∈ (run calls).issued, i.key = event.key → i.fencingToken ≤ lease.fencingToken := by
  have h := fenced_run calls
  refine ⟨h.ordered, fun _ _ hok => h.assertActive hok, ?_, ?_, ?_⟩
  · intro lease lease' now now' hok hok' hkey
    obtain ⟨c, hc, hid, -⟩ := assertActive_ok hok
    obtain ⟨c', hc', hid', -⟩ := assertActive_ok hok'
    rw [hkey, hc'] at hc
    obtain rfl := Option.some.inj hc
    exact hid.symm.trans hid'
  · rintro pre call post rfl l hl hretires lease now hid hok
    have hdead := hretires.dead (fenced_run pre) hl
    have hlater := hdead.foldl ((fenced_run pre).step call) post
    obtain ⟨c, hc, hcid, hactive⟩ := assertActive_ok hok
    rw [key_of_identity hid, run, List.foldl_append, List.foldl_cons] at hc
    exact hlater.inactive c hc (hcid.trans hid) hactive
  · intro allowed events events' event n answer lease now happend
    obtain ⟨hactive, hkey⟩ := EventStore.appendFenced_ok happend
    rw [hkey]
    exact ⟨rfl, h.assertActive hactive⟩

end LeaseRun

end Pactmark
