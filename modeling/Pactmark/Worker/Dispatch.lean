import Pactmark.Durable.Operations
import Pactmark.Stores.ActiveExecution
import Pactmark.Worker.Authority
import Pactmark.Worker.Queue

/-!
# Worker — dispatching claims

`#dispatch`, `#renewLease` and `#release` of `PostgresRunWorker` in
`driver-postgres-worker/src/index.ts`.  From its start to the call of the driver a dispatch does not
wait, so this part is one step; every renewal, and what happens once the driver has answered, is
another.  Dispatches run side by side: a run of the worker is a list of such steps.  What the clock,
the queue and the driver answer is part of a step.

* `Known`: what the issuer has observed and invalidated, in terms of the claims that were dispatched
  and the calls that were made.
* `dispatch_executes_iff`: a claim reaches the driver unless an earlier attempt was released.
* `released_not_executed`: so a wakeup that was released once is not executed again.
-/

namespace Pactmark

open Durable

namespace Worker

/-- `WorkerWakeupClaimSchema.parse`. -/
def parseWakeupClaim (input : WorkerWakeupClaim) : Except Thrown WorkerWakeupClaim :=
  match boundedText 256 input.receiptId, boundedText 256 input.request.tenantId,
      boundedText 256 input.request.runId, boundedText 512 input.request.deduplicationKey,
      boundedText 256 input.workOrderId with
  | some receiptId, some tenantId, some runId, some deduplicationKey, some workOrderId =>
      if input.maximumScopes.length ≤ 256 ∧ input.lease.parses = true then
        .ok
          { input with
            receiptId
            request := { input.request with tenantId, runId, deduplicationKey }
            workOrderId }
      else .error schemaRefused
  | _, _, _, _, _ => .error schemaRefused

/-- A call to the driver or to the queue. -/
inductive WorkerCall where
  | execute (authority : Nat) (claim : WorkerWakeupClaim)
  | complete (claim : WorkerWakeupClaim) (status : ClaimResultStatus) (accepted : Bool)
  | release (claim : WorkerWakeupClaim) (retryAt : Int) (reasonCode : String)
  deriving DecidableEq, Repr

/-- The call releases an attempt of a receipt. -/
def WorkerCall.releases (receiptId : String) : WorkerCall → Prop
  | .release claim .. => claim.receiptId = receiptId
  | _ => False

/-- The call completes a receipt, and the queue accepts it. -/
def WorkerCall.completes (receiptId : String) : WorkerCall → Prop
  | .complete claim _ accepted => accepted = true ∧ claim.receiptId = receiptId
  | _ => False

/-- The call ends an attempt of a receipt. -/
def WorkerCall.ends (receiptId : String) (call : WorkerCall) : Prop :=
  call.releases receiptId ∨ call.completes receiptId

/-- A dispatch that has reached the driver. -/
structure Attempt where
  claim : WorkerWakeupClaim
  activeClaim : WorkerWakeupClaim
  renewalFailure : Option Thrown
  finished : Bool

/-- `PostgresRunWorker`, with the calls it has made. -/
structure PostgresRunWorker where
  workerId : String
  retryDelayMs : Nat
  authorityIssuer : WorkerDelegatingAuthorityIssuer
  attempts : List Attempt
  calls : List WorkerCall

/-- What `Date.parse(clock.now())` is where a dispatch reads the clock, and whether the queue accepts
the release of an aborted dispatch. -/
structure Readings where
  started : Option Int
  verified : Option Int
  released : Option Int
  accepted : Bool
  retried : Option Int

/-- `Date.parse(expiresAt) <= Date.parse(now)`. -/
def reached (expiresAt : Int) (now : Option Int) : Bool :=
  now.any fun instant => decide (expiresAt ≤ instant)

/-- The reason a dispatch that failed is released for. -/
def failureCode (aborted : Bool) (renewalFailure : Option Thrown) (error : Thrown) : String :=
  match renewalFailure with
  | some (.kaf e) => e.code.text
  | some _ => KafErrorCode.KAF_STORAGE_CONCURRENCY_CONFLICT.text
  | none =>
      if aborted then "KAF_RUNTIME_ABORTED"
      else
        match error with
        | .kaf e => e.code.text
        | _ => "KAF_RUNTIME_WORKER_FAILURE"

namespace PostgresRunWorker

/-- `#descriptor`: the texts of a claim are bounded, but for the id of its lease. -/
def descriptor (s : PostgresRunWorker) (claim : WorkerWakeupClaim) :
    Except Thrown RunDelegationDescriptor :=
  match boundedText 256 claim.lease.leaseId with
  | none => .error schemaRefused
  | some leaseId =>
      .ok
        { actorId := s.workerId
          initiatingPrincipal := claim.initiatingPrincipal
          tenantId := claim.request.tenantId
          runId := claim.request.runId
          workOrderId := claim.workOrderId
          workOrderBindingDigest := claim.workOrderBindingDigest
          executionDefinition := claim.executionDefinition
          executionDefinitionDigest := claim.executionDefinitionDigest
          purpose := claim.purpose
          maximumScopes := claim.maximumScopes
          schedulerReceiptId := claim.receiptId
          schedulerReceiptDigest := claim.requestDigest
          leaseId
          fencingToken := claim.lease.fencingToken
          issuedAt := claim.claimedAt
          expiresAt := claim.lease.expiresAt }

/-- `#release`, up to the call of the queue. -/
def release (s : PostgresRunWorker) (claim : WorkerWakeupClaim) (reasonCode : String)
    (now : Option Int) : Except Thrown Unit × PostgresRunWorker :=
  match toISOString (now.map (· + s.retryDelayMs)) with
  | .error e => (.error e, s)
  | .ok retryAt =>
      match s.authorityIssuer.invalidateSchedulerReceipt claim.receiptId with
      | .error e => (.error e, s)
      | .ok authorityIssuer =>
          (.ok (), { s with
            authorityIssuer
            calls := s.calls ++ [.release claim retryAt reasonCode] })

/-- The lease of a claim is observed, an authority is issued for it, and verified. -/
def authorize (s : PostgresRunWorker) (claim : WorkerWakeupClaim) (verifiedAt : Option Int) :
    Except Thrown Nat × WorkerDelegatingAuthorityIssuer :=
  match s.authorityIssuer.observeLease claim.lease with
  | .error e => (.error e, s.authorityIssuer)
  | .ok issuer =>
      match s.descriptor claim with
      | .error e => (.error e, issuer)
      | .ok descriptor =>
          match issuer.issueDelegated descriptor with
          | .error e => (.error e, issuer)
          | .ok (authority, issuer) =>
              match issuer.verifyDelegated authority verifiedAt with
              | .error _ => (.error (kafError .KAF_AUTHORIZATION_BINDING_MISMATCH), issuer)
              | .ok _ => (.ok authority, issuer)

/-- `#dispatch`, up to the call of the driver. -/
def dispatch (s : PostgresRunWorker) (claim : WorkerWakeupClaim) (readings : Readings)
    (aborted : Bool) : PostgresRunWorker :=
  if claim.lease.state ≠ .active ∨ reached claim.lease.expiresAt readings.started = true then
    (s.release claim "KAF_STORAGE_LEASE_EXPIRED" readings.released).2
  else
    match s.authorize claim readings.verified with
    | (.error e, authorityIssuer) =>
        ({ s with authorityIssuer }.release claim (failureCode aborted none e)
          readings.released).2
    | (.ok authority, authorityIssuer) =>
        if aborted then
          match { s with authorityIssuer }.release claim "KAF_RUNTIME_ABORTED"
              readings.released with
          | (.ok (), s) =>
              if readings.accepted then s
              else (s.release claim "KAF_RUNTIME_ABORTED" readings.retried).2
          | (.error _, s) => (s.release claim "KAF_RUNTIME_ABORTED" readings.retried).2
        else
          { s with
            authorityIssuer
            attempts := s.attempts ++ [⟨claim, claim, none, false⟩]
            calls := s.calls ++ [.execute authority claim] }

/-- What `#renewLease` checks of a renewed claim. -/
def checkRenewed (original renewed : WorkerWakeupClaim) (now : Option Int) : Except Thrown Unit :=
  if renewed.receiptId ≠ original.receiptId ∨ renewed.requestDigest ≠ original.requestDigest ∨
      renewed.workOrderBindingDigest ≠ original.workOrderBindingDigest ∨
      renewed.executionDefinitionDigest ≠ original.executionDefinitionDigest ∨
      renewed.lease.tenantId ≠ original.lease.tenantId ∨
      renewed.lease.runId ≠ original.lease.runId then
    .error (kafError .KAF_AUTHORIZATION_BINDING_MISMATCH)
  else if renewed.lease.state ≠ .active ∨ renewed.lease.leaseId ≠ original.lease.leaseId ∨
      renewed.lease.fencingToken ≠ original.lease.fencingToken ∨
      reached renewed.lease.expiresAt now = true then
    .error (kafError .KAF_STORAGE_CONCURRENCY_CONFLICT)
  else .ok ()

/-- A turn of `#renewLease`, from what the queue answers on. -/
def renewed (s : PostgresRunWorker) (original : WorkerWakeupClaim)
    (answer : Except Thrown WorkerWakeupClaim) (now : Option Int) :
    Except Thrown (WorkerWakeupClaim × WorkerDelegatingAuthorityIssuer) := do
  let renewed ← parseWakeupClaim (← answer)
  checkRenewed original renewed now
  let authorityIssuer ← s.authorityIssuer.observeLease renewed.lease
  return (renewed, authorityIssuer)

/-- A turn of `#renewLease` of an attempt. -/
def renew (s : PostgresRunWorker) (n : Nat) (answer : Except Thrown WorkerWakeupClaim)
    (now : Option Int) : PostgresRunWorker :=
  match s.attempts[n]? with
  | none => s
  | some attempt =>
      match attempt.renewalFailure with
      | some _ => s
      | none =>
          match s.renewed attempt.claim answer now with
          | .error e =>
              { s with attempts := s.attempts.set n { attempt with renewalFailure := some e } }
          | .ok (activeClaim, authorityIssuer) =>
              { s with
                authorityIssuer
                attempts := s.attempts.set n { attempt with activeClaim } }

/-- The rest of `#dispatch`, once the driver has answered: a completion that the queue accepts, or a
release. -/
def finish (s : PostgresRunWorker) (n : Nat) (executed : Except Thrown ClaimResultStatus)
    (aborted : Bool) (completed : Except Thrown Unit) (now : Option Int) : PostgresRunWorker :=
  match s.attempts[n]? with
  | none => s
  | some attempt =>
      if attempt.finished then s
      else
        let s := { s with attempts := s.attempts.set n { attempt with finished := true } }
        let failed (s : PostgresRunWorker) (e : Thrown) :=
          (s.release attempt.activeClaim (failureCode aborted attempt.renewalFailure e) now).2
        match executed, attempt.renewalFailure with
        | .error e, _ => failed s e
        | .ok _, some e => failed s e
        | .ok status, none =>
            if aborted then failed s .abort
            else
              match completed with
              | .error e =>
                  failed { s with
                    calls := s.calls ++ [.complete attempt.activeClaim status false] } e
              | .ok () =>
                  match s.authorityIssuer.invalidateSchedulerReceipt attempt.claim.receiptId with
                  | .ok authorityIssuer =>
                      { s with
                        authorityIssuer
                        calls := s.calls ++ [.complete attempt.activeClaim status true] }
                  | .error e =>
                      failed { s with
                        calls := s.calls ++ [.complete attempt.activeClaim status true] } e

/-- A step of the worker. -/
inductive WorkerStep where
  | dispatch (input : WorkerWakeupClaim) (readings : Readings) (aborted : Bool)
  | renew (n : Nat) (answer : Except Thrown WorkerWakeupClaim) (now : Option Int)
  | finish (n : Nat) (executed : Except Thrown ClaimResultStatus) (aborted : Bool)
      (completed : Except Thrown Unit) (now : Option Int)

/-- What a step leaves; `runOnce` parses the claims it dispatches. -/
def step (s : PostgresRunWorker) : WorkerStep → PostgresRunWorker
  | .dispatch input readings aborted =>
      match parseWakeupClaim input with
      | .error _ => s
      | .ok claim => s.dispatch claim readings aborted
  | .renew n answer now => s.renew n answer now
  | .finish n executed aborted completed now => s.finish n executed aborted completed now

/-- `new PostgresRunWorker({ authorityIssuer, workerId, retryDelayMs })`. -/
def start (issuerId workerId : String) (retryDelayMs : Nat) : PostgresRunWorker :=
  ⟨workerId, retryDelayMs, .create issuerId, [], []⟩

/-- What a sequence of steps leaves. -/
def after (issuerId workerId : String) (retryDelayMs : Nat) (steps : List WorkerStep) :
    PostgresRunWorker :=
  steps.foldl step (start issuerId workerId retryDelayMs)

/-! ### What the issuer knows -/

/-- The claim that a step dispatches. -/
def dispatched : WorkerStep → Option WorkerWakeupClaim
  | .dispatch input _ _ => (parseWakeupClaim input).toOption
  | .renew .. => none
  | .finish .. => none

theorem parseWakeupClaim_ok {input claim : WorkerWakeupClaim}
    (h : parseWakeupClaim input = .ok claim) :
    boundedText 256 claim.receiptId = some claim.receiptId ∧ claim.lease.parses = true := by
  unfold parseWakeupClaim at h
  split at h
  · rename_i receiptId _ _ _ _ hreceipt _ _ _ _
    split at h
    · rename_i hbounds
      obtain rfl := Except.ok.inj h
      exact ⟨boundedText_idem hreceipt, hbounds.2⟩
    · cases h
  · cases h

/-- What was observed is the lease of a claim that was dispatched, and the invalid receipts are those
whose attempts have ended. -/
structure Known (claims : List WorkerWakeupClaim) (s : PostgresRunWorker) : Prop where
  leases : ∀ key observed, s.authorityIssuer.leases.get key = some observed →
    ∃ c ∈ claims, c.lease.key = key ∧ c.lease.fencingToken = observed.fencingToken
  attempts : ∀ a ∈ s.attempts, a.claim ∈ claims ∧ a.activeClaim.receiptId = a.claim.receiptId
  parsed : ∀ c ∈ claims, boundedText 256 c.receiptId = some c.receiptId
  invalid : ∀ receiptId, receiptId ∈ s.authorityIssuer.invalidReceipts ↔
    ∃ call ∈ s.calls, call.ends receiptId

variable {s : PostgresRunWorker} {claims : List WorkerWakeupClaim} {claim : WorkerWakeupClaim}

theorem known_start (issuerId workerId : String) (retryDelayMs : Nat) :
    Known [] (start issuerId workerId retryDelayMs) where
  leases _ _ h := by cases h
  attempts _ h := absurd h List.not_mem_nil
  parsed _ h := absurd h List.not_mem_nil
  invalid receiptId := by
    constructor
    · exact fun h => absurd h List.not_mem_nil
    · rintro ⟨_, h, -⟩
      exact absurd h List.not_mem_nil

/-- A release invalidates the receipt, or does nothing. -/
theorem Known.release (h : Known claims s)
    (hparsed : boundedText 256 claim.receiptId = some claim.receiptId) (reasonCode : String)
    (now : Option Int) : Known claims (s.release claim reasonCode now).2 := by
  unfold PostgresRunWorker.release
  split
  · exact h
  split
  · exact h
  rename_i issuer hissuer
  obtain ⟨receiptId, hreceipt, rfl⟩ :=
    WorkerDelegatingAuthorityIssuer.invalidateSchedulerReceipt_ok hissuer
  obtain rfl : claim.receiptId = receiptId := Option.some.inj (hparsed.symm.trans hreceipt)
  refine { h with invalid := fun receiptId => ?_ }
  simp only [List.mem_cons, List.mem_append, List.not_mem_nil, or_false, h.invalid, or_and_right,
    exists_or, exists_eq_left, WorkerCall.ends, WorkerCall.releases, WorkerCall.completes]
  rw [or_comm, eq_comm]

/-- The issuer observes another lease of a claim that was dispatched. -/
theorem Known.observe (h : Known claims s) {issuer : WorkerDelegatingAuthorityIssuer}
    (hinvalid : issuer.invalidReceipts = s.authorityIssuer.invalidReceipts)
    (hleases : ∀ key observed, issuer.leases.get key = some observed →
      s.authorityIssuer.leases.get key = some observed ∨
        ∃ c ∈ claims, c.lease.key = key ∧ c.lease.fencingToken = observed.fencingToken) :
    Known claims { s with authorityIssuer := issuer } where
  leases key observed hget := by
    rcases hleases key observed hget with hget | hnew
    · exact h.leases key observed hget
    · exact hnew
  attempts := h.attempts
  parsed := h.parsed
  invalid receiptId := by
    rw [← h.invalid, ← hinvalid]

/-- The issuer observes a lease of a claim that was dispatched, as it was or renewed. -/
theorem Known.observeLease (h : Known claims s) {lease : FencedLease}
    {issuer : WorkerDelegatingAuthorityIssuer}
    (hok : s.authorityIssuer.observeLease lease = .ok issuer) (hmem : claim ∈ claims)
    (hkey : lease.key = claim.lease.key) (htoken : lease.fencingToken = claim.lease.fencingToken) :
    Known claims { s with authorityIssuer := issuer } := by
  obtain rfl := WorkerDelegatingAuthorityIssuer.observeLease_ok hok
  refine h.observe rfl fun key observed hget => ?_
  dsimp only at hget
  rw [OrderedMap.get_set] at hget
  split at hget
  · rename_i heq
    obtain rfl := Option.some.inj hget
    exact .inr ⟨claim, hmem, hkey.symm.trans heq.symm, htoken.symm⟩
  · exact .inl hget

/-- What `authorize` does to the issuer: it observes the lease of the claim. -/
theorem authorize_issuer (s : PostgresRunWorker) (claim : WorkerWakeupClaim)
    (verifiedAt : Option Int) :
    (s.authorize claim verifiedAt).2.invalidReceipts = s.authorityIssuer.invalidReceipts ∧
      ∀ key observed, (s.authorize claim verifiedAt).2.leases.get key = some observed →
        s.authorityIssuer.leases.get key = some observed ∨
          (claim.lease.key = key ∧ claim.lease.fencingToken = observed.fencingToken) := by
  unfold authorize
  split
  · exact ⟨rfl, fun _ _ h => .inl h⟩
  rename_i issuer hobserved
  obtain rfl := WorkerDelegatingAuthorityIssuer.observeLease_ok hobserved
  have hobserve : ∀ key observed,
      (s.authorityIssuer.leases.set claim.lease.key
        ⟨claim.lease.leaseId, claim.lease.fencingToken⟩).get key = some observed →
      s.authorityIssuer.leases.get key = some observed ∨
        (claim.lease.key = key ∧ claim.lease.fencingToken = observed.fencingToken) := by
    intro key observed hget
    rw [OrderedMap.get_set] at hget
    split at hget
    · rename_i hkey
      obtain rfl := Option.some.inj hget
      exact .inr ⟨hkey.symm, rfl⟩
    · exact .inl hget
  split
  · exact ⟨rfl, hobserve⟩
  split
  · exact ⟨rfl, hobserve⟩
  rename_i authority issuer hissued
  obtain ⟨-, -, -, rfl⟩ := WorkerDelegatingAuthorityIssuer.issueDelegated_ok hissued
  split
  · exact ⟨rfl, hobserve⟩
  · exact ⟨rfl, hobserve⟩

theorem Known.dispatch (h : Known claims s) (hmem : claim ∈ claims) (readings : Readings)
    (aborted : Bool) : Known claims (s.dispatch claim readings aborted) := by
  have hparsed := h.parsed claim hmem
  unfold PostgresRunWorker.dispatch
  split
  · exact h.release hparsed _ _
  obtain ⟨hinvalid, hleases⟩ := authorize_issuer s claim readings.verified
  generalize s.authorize claim readings.verified = result at hinvalid hleases
  obtain ⟨authority, issuer⟩ := result
  have hobserved : Known claims { s with authorityIssuer := issuer } :=
    h.observe hinvalid fun key observed hget =>
      (hleases key observed hget).imp_right fun hnew => ⟨claim, hmem, hnew⟩
  cases authority with
  | error e => exact hobserved.release hparsed _ _
  | ok authority =>
    dsimp only
    split
    · have hreleased := hobserved.release hparsed "KAF_RUNTIME_ABORTED" readings.released
      generalize PostgresRunWorker.release { s with authorityIssuer := issuer } claim
        "KAF_RUNTIME_ABORTED" readings.released = result at hreleased
      obtain ⟨answer, s'⟩ := result
      cases answer with
      | error e => exact hreleased.release hparsed _ _
      | ok =>
        dsimp only
        split
        · exact hreleased
        · exact hreleased.release hparsed _ _
    · refine { hobserved with attempts := fun a ha => ?_, invalid := fun receiptId => ?_ }
      · rcases List.mem_append.mp ha with ha | ha
        · exact h.attempts a ha
        · obtain rfl := List.mem_singleton.mp ha
          exact ⟨hmem, rfl⟩
      · simp [hobserved.invalid receiptId, WorkerCall.ends, WorkerCall.releases,
          WorkerCall.completes, or_and_right, exists_or]

/-- An attempt changes, but for its claim and the receipt of the claim that is active. -/
theorem Known.setAttempt (h : Known claims s) {n : Nat} {a : Attempt}
    (ha : s.attempts[n]? = some a) (a' : Attempt) (hclaim : a'.claim = a.claim)
    (hreceipt : a'.activeClaim.receiptId = a'.claim.receiptId) :
    Known claims { s with attempts := s.attempts.set n a' } := by
  refine { h with attempts := fun x hx => ?_ }
  rcases List.mem_or_eq_of_mem_set hx with hx | rfl
  · exact h.attempts x hx
  · rw [hclaim] at hreceipt ⊢
    exact ⟨(h.attempts a (List.mem_of_getElem? ha)).1, hreceipt⟩

theorem checkRenewed_ok {original renewed : WorkerWakeupClaim} {now : Option Int}
    (h : checkRenewed original renewed now = .ok ()) :
    renewed.receiptId = original.receiptId ∧ renewed.lease.key = original.lease.key ∧
      renewed.lease.fencingToken = original.lease.fencingToken := by
  unfold checkRenewed at h
  split at h
  · cases h
  rename_i hbinding
  split at h
  · cases h
  rename_i hlease
  simp only [ne_eq, not_or, not_not] at hbinding hlease
  obtain ⟨hreceipt, -, -, -, htenant, hrun⟩ := hbinding
  refine ⟨hreceipt, ?_, hlease.2.2.1⟩
  rw [FencedLease.key, FencedLease.key, htenant, hrun]

theorem Known.renew (h : Known claims s) (n : Nat) (answer : Except Thrown WorkerWakeupClaim)
    (now : Option Int) : Known claims (s.renew n answer now) := by
  unfold PostgresRunWorker.renew
  split
  · exact h
  rename_i attempt hattempt
  obtain ⟨hmem, hreceipt⟩ := h.attempts attempt (List.mem_of_getElem? hattempt)
  split
  · exact h
  split
  · exact h.setAttempt hattempt _ rfl hreceipt
  rename_i result activeClaim issuer hrenewed
  obtain ⟨answered, -, hrenewed⟩ := bind_eq_ok.mp hrenewed
  obtain ⟨parsed, -, hrenewed⟩ := bind_eq_ok.mp hrenewed
  obtain ⟨_, hchecked, hrenewed⟩ := bind_eq_ok.mp hrenewed
  obtain ⟨issuer', hobserved, hrenewed⟩ := bind_eq_ok.mp hrenewed
  obtain ⟨rfl, rfl⟩ := Prod.mk.inj (Except.ok.inj hrenewed)
  obtain ⟨hsame, hkey, htoken⟩ := checkRenewed_ok hchecked
  exact (h.observeLease hobserved hmem hkey htoken).setAttempt hattempt _ rfl hsame

/-- A completion is called. -/
theorem Known.complete (h : Known claims s) (claim : WorkerWakeupClaim)
    (status : ClaimResultStatus) :
    Known claims { s with calls := s.calls ++ [.complete claim status false] } := by
  refine { h with invalid := fun receiptId => ?_ }
  simp [h.invalid receiptId, WorkerCall.ends, WorkerCall.releases, WorkerCall.completes,
    or_and_right, exists_or]

theorem Known.finish (h : Known claims s) (n : Nat) (executed : Except Thrown ClaimResultStatus)
    (aborted : Bool) (completed : Except Thrown Unit) (now : Option Int) :
    Known claims (s.finish n executed aborted completed now) := by
  unfold PostgresRunWorker.finish
  split
  · exact h
  rename_i attempt hattempt
  obtain ⟨hmem, hreceipt⟩ := h.attempts attempt (List.mem_of_getElem? hattempt)
  have hclaim := h.parsed attempt.claim hmem
  have hactive : boundedText 256 attempt.activeClaim.receiptId =
      some attempt.activeClaim.receiptId := by
    rw [hreceipt]
    exact hclaim
  split
  · exact h
  have hfinished := h.setAttempt hattempt { attempt with finished := true } rfl hreceipt
  dsimp only
  split
  · exact hfinished.release hactive _ _
  · exact hfinished.release hactive _ _
  rename_i status _
  split
  · exact hfinished.release hactive _ _
  split
  · exact (hfinished.complete attempt.activeClaim status).release hactive _ _
  split
  · rename_i issuer hissuer
    obtain ⟨receiptId, hparsed, rfl⟩ :=
      WorkerDelegatingAuthorityIssuer.invalidateSchedulerReceipt_ok hissuer
    obtain rfl : attempt.claim.receiptId = receiptId :=
      Option.some.inj (hclaim.symm.trans hparsed)
    refine { hfinished with invalid := fun receiptId => ?_ }
    simp only [List.mem_cons, List.mem_append, List.not_mem_nil, or_false, h.invalid, or_and_right,
      exists_or, exists_eq_left, WorkerCall.ends, WorkerCall.releases, WorkerCall.completes,
      false_or, true_and, hreceipt]
    rw [or_comm, eq_comm]
  · rename_i e herror
    rw [WorkerDelegatingAuthorityIssuer.invalidateSchedulerReceipt, hclaim] at herror
    cases herror

theorem Known.mono (h : Known claims s) {claims' : List WorkerWakeupClaim}
    (hsub : ∀ c ∈ claims, c ∈ claims')
    (hparsed : ∀ c ∈ claims', boundedText 256 c.receiptId = some c.receiptId) :
    Known claims' s where
  leases key observed hget := by
    obtain ⟨c, hc, hlease⟩ := h.leases key observed hget
    exact ⟨c, hsub c hc, hlease⟩
  attempts a ha := ⟨hsub _ (h.attempts a ha).1, (h.attempts a ha).2⟩
  parsed := hparsed
  invalid := h.invalid

/-- **One step** keeps what the issuer knows. -/
theorem Known.step (h : Known claims s) (step : WorkerStep) :
    Known (claims ++ (dispatched step).toList) (s.step step) := by
  cases step with
  | dispatch input readings aborted =>
    simp only [PostgresRunWorker.step, dispatched]
    cases hparse : parseWakeupClaim input with
    | error e => simpa [Except.toOption] using h
    | ok claim =>
      simp only [Except.toOption, Option.toList_some]
      have hknown : Known (claims ++ [claim]) s := by
        refine h.mono (fun c hc => List.mem_append_left _ hc) fun c hc => ?_
        rcases List.mem_append.mp hc with hc | hc
        · exact h.parsed c hc
        · obtain rfl := List.mem_singleton.mp hc
          exact (parseWakeupClaim_ok hparse).1
      exact hknown.dispatch (List.mem_append_right _ (List.mem_singleton.mpr rfl)) readings aborted
  | renew n answer now =>
    simpa [dispatched, PostgresRunWorker.step] using h.renew n answer now
  | finish n executed aborted completed now =>
    simpa [dispatched, PostgresRunWorker.step] using h.finish n executed aborted completed now

/-- What the issuer knows, after any sequence of steps. -/
theorem after_known (issuerId workerId : String) (retryDelayMs : Nat) (steps : List WorkerStep) :
    Known (steps.filterMap dispatched) (after issuerId workerId retryDelayMs steps) := by
  induction steps using List.reverseRecOn with
  | nil => exact known_start issuerId workerId retryDelayMs
  | append_singleton steps step ih =>
    rw [after, List.foldl_append, List.filterMap_append]
    have hstep := ih.step step
    cases hd : dispatched step with
    | none => simpa [hd, after] using hstep
    | some c => simpa [hd, after] using hstep

/-! ### Reaching the driver -/

/-- What the queue hands out: the lease of the run, under an id that is bounded as it is. -/
structure OfQueue (claim : WorkerWakeupClaim) : Prop where
  lease_key : claim.lease.key = runKey claim
  lease_id : boundedText 256 claim.lease.leaseId = some claim.lease.leaseId

/-- **When a claim is authorized** that no greater token was observed for: its receipt is not
invalid, and the clock is within the lease. -/
theorem authorize_iff (hqueue : OfQueue claim) (hparses : claim.lease.parses = true)
    (htoken : ∀ current, s.authorityIssuer.leases.get claim.lease.key = some current →
      current.fencingToken ≤ claim.lease.fencingToken) (verifiedAt : Option Int) :
    (∃ authority, (s.authorize claim verifiedAt).1 = .ok authority ∧
        ((s.authorize claim verifiedAt).2.verifyDelegated authority verifiedAt).isOk = true) ↔
      claim.receiptId ∉ s.authorityIssuer.invalidReceipts ∧
        ∀ instant ∈ verifiedAt, claim.claimedAt ≤ instant ∧ instant < claim.lease.expiresAt := by
  have hobserve := WorkerDelegatingAuthorityIssuer.observeLease_eq_ok hparses htoken
  have hlease : (s.authorityIssuer.leases.set claim.lease.key
      ⟨claim.lease.leaseId, claim.lease.fencingToken⟩).get
        (claim.request.tenantId, claim.request.runId) =
      some ⟨claim.lease.leaseId, claim.lease.fencingToken⟩ := by
    rw [hqueue.lease_key]
    exact OrderedMap.get_set_self _ _ _
  unfold authorize
  simp only [hobserve, descriptor, hqueue.lease_id]
  by_cases hinvalid : claim.receiptId ∈ s.authorityIssuer.invalidReceipts
  · -- `issueDelegated` refuses the receipt
    simp [WorkerDelegatingAuthorityIssuer.issueDelegated, hlease, hinvalid]
  split
  · rename_i e hissued
    simp [WorkerDelegatingAuthorityIssuer.issueDelegated, hlease, hinvalid] at hissued
  rename_i authority issuer hissued
  have hverify := WorkerDelegatingAuthorityIssuer.verifyDelegated_issued hissued verifiedAt
  rw [and_iff_right hinvalid, ← hverify]
  cases hresult : issuer.verifyDelegated authority verifiedAt with
  | error e => simp [Except.isOk, Except.toBool]
  | ok descriptor => simp [hresult, Except.isOk, Except.toBool]

/-- A release makes no call but to release. -/
theorem release_calls (s : PostgresRunWorker) (claim : WorkerWakeupClaim) (reasonCode : String)
    (now : Option Int) :
    ∃ calls, (s.release claim reasonCode now).2.calls = s.calls ++ calls ∧
      ∀ call ∈ calls, call.releases claim.receiptId := by
  unfold PostgresRunWorker.release
  split
  · exact ⟨[], (List.append_nil _).symm, fun _ h => absurd h List.not_mem_nil⟩
  split
  · exact ⟨[], (List.append_nil _).symm, fun _ h => absurd h List.not_mem_nil⟩
  · rename_i retryAt _ _ _ _
    refine ⟨[.release claim retryAt reasonCode], rfl, fun call hcall => ?_⟩
    obtain rfl := List.mem_singleton.mp hcall
    exact rfl

/-- **A dispatch** reaches the driver with an authority that was verified, or makes no call but to
release. -/
theorem dispatch_cases (s : PostgresRunWorker) (claim : WorkerWakeupClaim) (readings : Readings)
    (aborted : Bool) :
    (∃ authority, (s.authorize claim readings.verified).1 = .ok authority ∧ aborted = false ∧
      (s.dispatch claim readings aborted).calls = s.calls ++ [.execute authority claim] ∧
      (s.dispatch claim readings aborted).authorityIssuer =
        (s.authorize claim readings.verified).2) ∨
    ((claim.lease.state = .active → reached claim.lease.expiresAt readings.started = false →
        aborted = false → ∃ e, (s.authorize claim readings.verified).1 = .error e) ∧
      ∃ calls, (s.dispatch claim readings aborted).calls = s.calls ++ calls ∧
        ∀ call ∈ calls, call.releases claim.receiptId) := by
  unfold PostgresRunWorker.dispatch
  split
  · rename_i hinactive
    refine .inr ⟨fun hactive hreached _ => ?_, release_calls _ _ _ _⟩
    rcases hinactive with h | h
    · exact absurd hactive h
    · rw [hreached] at h
      cases h
  generalize s.authorize claim readings.verified = result
  obtain ⟨authority, issuer⟩ := result
  cases authority with
  | error e => exact .inr ⟨fun _ _ _ => ⟨e, rfl⟩, release_calls _ _ _ _⟩
  | ok authority =>
    cases aborted with
    | false => exact .inl ⟨authority, rfl, rfl, rfl, rfl⟩
    | true =>
      refine .inr ⟨fun _ _ h => (by cases h), ?_⟩
      obtain ⟨calls, hcalls, hreleases⟩ := release_calls
        { s with authorityIssuer := issuer } claim "KAF_RUNTIME_ABORTED" readings.released
      dsimp only
      rw [if_pos rfl]
      generalize PostgresRunWorker.release { s with authorityIssuer := issuer } claim
        "KAF_RUNTIME_ABORTED" readings.released = result at hcalls
      obtain ⟨answer, s'⟩ := result
      -- the release is tried once more where it was refused
      have hagain : ∃ calls', (s'.release claim "KAF_RUNTIME_ABORTED" readings.retried).2.calls =
          s.calls ++ calls' ∧ ∀ call ∈ calls', call.releases claim.receiptId := by
        obtain ⟨calls', hcalls', hreleases'⟩ :=
          release_calls s' claim "KAF_RUNTIME_ABORTED" readings.retried
        refine ⟨calls ++ calls', ?_, fun call hcall => ?_⟩
        · rw [hcalls', ← List.append_assoc, ← hcalls]
        · rcases List.mem_append.mp hcall with hcall | hcall
          · exact hreleases call hcall
          · exact hreleases' call hcall
      cases answer with
      | error e => exact hagain
      | ok =>
        dsimp only
        split
        · exact ⟨calls, hcalls, hreleases⟩
        · exact hagain

/-- **When a claim reaches the driver**, after any sequence of steps of the worker, for a queue that
hands out greater tokens for a run each time: a wakeup that is not completed, with an active lease, is
executed under an authority that verifies if and only if the worker is not aborted, its clock is not
behind the claim, and no earlier attempt of the wakeup was released. -/
theorem dispatch_executes_iff (issuerId workerId : String) (retryDelayMs : Nat)
    (steps : List WorkerStep) (input : WorkerWakeupClaim) (readings : Readings) (aborted : Bool)
    (hparse : parseWakeupClaim input = .ok claim) (hqueue : OfQueue claim)
    (hfenced : ∀ earlier ∈ steps.filterMap dispatched, earlier.lease.key = claim.lease.key →
      earlier.lease.fencingToken < claim.lease.fencingToken)
    (hactive : claim.lease.state = .active ∧
      reached claim.lease.expiresAt readings.started = false ∧
      reached claim.lease.expiresAt readings.verified = false)
    (hpending : ∀ call ∈ (after issuerId workerId retryDelayMs steps).calls,
      ¬ call.completes claim.receiptId) :
    (∃ authority,
      (after issuerId workerId retryDelayMs (steps ++ [.dispatch input readings aborted])).calls =
        (after issuerId workerId retryDelayMs steps).calls ++ [.execute authority claim] ∧
      ((after issuerId workerId retryDelayMs (steps ++ [.dispatch input readings aborted])
        ).authorityIssuer.verifyDelegated authority readings.verified).isOk = true) ↔
      aborted = false ∧ (∀ instant ∈ readings.verified, claim.claimedAt ≤ instant) ∧
        ∀ call ∈ (after issuerId workerId retryDelayMs steps).calls,
          ¬ call.releases claim.receiptId := by
  have hknown := after_known issuerId workerId retryDelayMs steps
  have hstep : after issuerId workerId retryDelayMs (steps ++ [.dispatch input readings aborted]) =
      (after issuerId workerId retryDelayMs steps).dispatch claim readings aborted := by
    simp only [after, List.foldl_append, List.foldl_cons, List.foldl_nil, PostgresRunWorker.step,
      hparse]
  rw [hstep]
  generalize after issuerId workerId retryDelayMs steps = s at hknown hpending
  obtain ⟨hstate, hstarted, hverified⟩ := hactive
  have hauthorize := authorize_iff hqueue (parseWakeupClaim_ok hparse).2 (fun current hcurrent => by
    obtain ⟨earlier, hearlier, hkey, htoken⟩ := hknown.leases _ _ hcurrent
    exact htoken ▸ (hfenced earlier hearlier hkey).le) readings.verified
  -- the receipt is invalid if an attempt was released
  have hinvalid : claim.receiptId ∉ s.authorityIssuer.invalidReceipts ↔
      ∀ call ∈ s.calls, ¬ call.releases claim.receiptId := by
    rw [hknown.invalid]
    constructor
    · exact fun h call hcall hreleases => h ⟨call, hcall, .inl hreleases⟩
    · rintro h ⟨call, hcall, hreleases | hcompletes⟩
      · exact h call hcall hreleases
      · exact hpending call hcall hcompletes
  have hclock : (∀ instant ∈ readings.verified, claim.claimedAt ≤ instant ∧
      instant < claim.lease.expiresAt) ↔ ∀ instant ∈ readings.verified, claim.claimedAt ≤ instant := by
    refine ⟨fun h instant hinstant => (h instant hinstant).1, fun h instant hinstant => ?_⟩
    rw [hinstant, reached, Option.any_some, decide_eq_false_iff_not, not_le] at hverified
    exact ⟨h instant hinstant, hverified⟩
  rw [hinvalid, hclock] at hauthorize
  rcases dispatch_cases s claim readings aborted with
    ⟨authority, hok, haborted, hcalls, hissuer⟩ | ⟨hrefused, calls, hcalls, hreleases⟩
  · constructor
    · rintro ⟨authority', hexecuted, hverifies⟩
      rw [hcalls] at hexecuted
      obtain ⟨rfl, -⟩ : authority = authority' ∧ claim = claim := by
        simpa using List.append_cancel_left hexecuted
      obtain ⟨hnone, hbefore⟩ := hauthorize.mp ⟨authority, hok, hissuer ▸ hverifies⟩
      exact ⟨haborted, hbefore, hnone⟩
    · rintro ⟨-, hbefore, hnone⟩
      obtain ⟨authority', hok', hverifies⟩ := hauthorize.mpr ⟨hnone, hbefore⟩
      obtain rfl : authority = authority' := Except.ok.inj (hok.symm.trans hok')
      exact ⟨authority, hcalls, hissuer ▸ hverifies⟩
  · constructor
    · rintro ⟨authority, hexecuted, -⟩
      rw [hcalls] at hexecuted
      obtain rfl := List.append_cancel_left hexecuted
      exact absurd (hreleases _ List.mem_cons_self) (fun h => h)
    · rintro ⟨haborted, hbefore, hnone⟩
      obtain ⟨authority, hok, -⟩ := hauthorize.mpr ⟨hnone, hbefore⟩
      obtain ⟨e, he⟩ := hrefused hstate hstarted haborted
      rw [hok] at he
      cases he

/-! ### Two attempts of one wakeup -/

/-- A claim of one wakeup, with a token. -/
def attemptOf (fencingToken : Nat) : WorkerWakeupClaim where
  receiptId := "wakeup"
  requestDigest := "digest"
  request :=
    { tenantId := "tenant"
      runId := "run"
      reason := .run_accepted
      notBefore := ⟨"1970-01-01T00:00:00.000Z", 0⟩
      deduplicationKey := "command"
      payload := "\x7b\x7d" }
  initiatingPrincipal := ⟨.user, "principal"⟩
  workOrderId := "order"
  workOrderBindingDigest := "binding"
  executionDefinition := .agent "agent" "1" "digest"
  executionDefinitionDigest := "definition"
  purpose := ⟨"purpose", "1"⟩
  maximumScopes := []
  lease :=
    { leaseId := "worker-lease"
      tenantId := "tenant"
      runId := "run"
      holderId := "worker"
      fencingToken
      acquiredAt := 0
      expiresAt := 30000
      state := .active }
  claimedAt := 0

/-- The clock stands still, and the queue accepts a release. -/
def still : Readings :=
  ⟨some 0, some 0, some 0, true, some 0⟩

theorem attemptOf_parses {fencingToken : Nat} (h : fencingToken ≤ 9007199254740991) :
    parseWakeupClaim (attemptOf fencingToken) = .ok (attemptOf fencingToken) := by
  have hparses : (attemptOf fencingToken).lease.parses = true := by
    simp [FencedLease.parses, attemptOf, h, isoRepresentable]
  have htexts : boundedText 256 "wakeup" = some "wakeup" ∧
      boundedText 256 "tenant" = some "tenant" ∧ boundedText 256 "run" = some "run" ∧
      boundedText 512 "command" = some "command" ∧ boundedText 256 "order" = some "order" := by
    decide +kernel
  obtain ⟨hreceipt, htenant, hrun, hkey, horder⟩ := htexts
  simp only [parseWakeupClaim, hparses]
  simp [attemptOf, hreceipt, htenant, hrun, hkey, horder]

theorem attemptOf_ofQueue (fencingToken : Nat) : OfQueue (attemptOf fencingToken) where
  lease_key := rfl
  lease_id := by
    change boundedText 256 "worker-lease" = some "worker-lease"
    decide +kernel

/-- The first attempt reaches the driver. -/
theorem dispatch_executes_first :
    ∃ authority,
      (after "issuer" "worker" 5000 ([] ++ [.dispatch (attemptOf 1) still false])).calls =
        (after "issuer" "worker" 5000 []).calls ++ [.execute authority (attemptOf 1)] ∧
      ((after "issuer" "worker" 5000 ([] ++ [.dispatch (attemptOf 1) still false])
        ).authorityIssuer.verifyDelegated authority (some 0)).isOk = true :=
  (dispatch_executes_iff "issuer" "worker" 5000 [] (attemptOf 1) still false
    (attemptOf_parses (by decide)) (attemptOf_ofQueue 1) (fun _ h => absurd h List.not_mem_nil)
    ⟨rfl, rfl, rfl⟩ (fun _ h => absurd h List.not_mem_nil)).mpr
    ⟨rfl, fun _ h => (by rw [← Option.some.inj h]; decide), fun _ h => absurd h List.not_mem_nil⟩

/-- The driver fails, the wakeup is released, and its second attempt does not reach the driver. -/
theorem released_not_executed :
    ¬ ∀ (issuerId workerId : String) (retryDelayMs : Nat) (steps : List WorkerStep)
        (input claim : WorkerWakeupClaim) (readings : Readings),
      parseWakeupClaim input = .ok claim → OfQueue claim →
      (∀ earlier ∈ steps.filterMap dispatched, earlier.lease.key = claim.lease.key →
        earlier.lease.fencingToken < claim.lease.fencingToken) →
      (claim.lease.state = .active ∧ reached claim.lease.expiresAt readings.started = false ∧
        reached claim.lease.expiresAt readings.verified = false) →
      (∀ call ∈ (after issuerId workerId retryDelayMs steps).calls,
        ¬ call.completes claim.receiptId) →
      (∀ instant ∈ readings.verified, claim.claimedAt ≤ instant) →
      ∃ authority,
        (after issuerId workerId retryDelayMs (steps ++ [.dispatch input readings false])).calls =
          (after issuerId workerId retryDelayMs steps).calls ++ [.execute authority claim] := by
  intro h
  let steps : List WorkerStep := [.dispatch (attemptOf 1) still false,
    .finish 0 (.error (.host "Error" true)) false (.ok ()) (some 0)]
  have hcalls : (after "issuer" "worker" 5000 steps).calls =
      [.execute 0 (attemptOf 1), .release (attemptOf 1) 5000 "KAF_RUNTIME_WORKER_FAILURE"] := by
    decide +kernel
  have hagain : (after "issuer" "worker" 5000
      (steps ++ [.dispatch (attemptOf 2) still false])).calls =
      [.execute 0 (attemptOf 1), .release (attemptOf 1) 5000 "KAF_RUNTIME_WORKER_FAILURE",
        .release (attemptOf 2) 5000 "KAF_AUTHORIZATION_BINDING_MISMATCH"] := by
    decide +kernel
  obtain ⟨authority, hexecuted⟩ := h "issuer" "worker" 5000 steps (attemptOf 2) (attemptOf 2) still
    (attemptOf_parses (by decide)) (attemptOf_ofQueue 2) (by decide +kernel) ⟨rfl, rfl, rfl⟩
    (fun call hcall => by
      rw [hcalls] at hcall
      simp only [List.mem_cons, List.not_mem_nil, or_false] at hcall
      rcases hcall with rfl | rfl <;> exact fun h => h)
    (by decide)
  rw [hagain, hcalls] at hexecuted
  simp at hexecuted

end PostgresRunWorker

end Worker

end Pactmark
