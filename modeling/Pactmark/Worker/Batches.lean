import Pactmark.Durable.Promises
import Pactmark.Durable.Runs
import Pactmark.Worker.Dispatch
import Pactmark.Worker.QueueSafety

/-!
# Worker — the batches of a worker

`start`, `runOnce` and the promises of `#dispatch` of `PostgresRunWorker` in
`driver-postgres-worker/src/index.ts`.  The dispatches of a batch run side by side, each in steps
from one await to the next, against the tables of the queue, which others change as they like.
`runOnce` awaits `Promise.all` of them, and `start` makes one batch after the other.

A dispatch that fails releases its claim; nothing handles the refusal of that release.

* `release_iff`: the queue takes a claim back exactly if its binding is current.
* `ended_of_advance`: a dispatch ends its claim, if its binding is current.
* `worker_proper_iff`: when the worker outlives the claims it loses.
-/

namespace Pactmark

open Durable

namespace Worker

/-! ### One dispatch -/

/-- Where a dispatch is: before its start, awaiting the driver, or a transaction of the queue; a
release may be followed by one more.  At the end it has settled its promise. -/
inductive DispatchPhase where
  | ready
  | executing (activeClaim : WorkerWakeupClaim) (renewalFailure : Option Thrown)
  | completing (activeClaim : WorkerWakeupClaim) (status : ClaimResultStatus)
  | releasing (activeClaim : WorkerWakeupClaim) (reasonCode : String) (again : Bool)
  | settled (result : Except Thrown Unit)

/-- What a dispatch goes on with; what the issuer, the clock and the signals answer is part of
it. -/
inductive DispatchEvent where
  | start (now : Int) (authorized : Except Thrown Unit) (aborted : Bool)
  | renew (now clock : Int) (observed : Except Thrown Unit)
  | executed (result : Except Thrown ClaimResultStatus) (aborted : Bool)
  | transact (now clock : Int) (aborted : Bool)

/-- The claims of a batch, as `claim` returns them and as they are parsed. -/
structure Batch where
  allowedTenants : List String
  leaseTtlMs : Int
  retryDelayMs : Nat
  claims : List WorkerWakeupClaim
  allowed : ∀ c ∈ claims, c.request.tenantId ∈ allowedTenants
  parsed : ∀ c ∈ claims, parseWakeupClaim c = .ok c

namespace Batch

variable (B : Batch)

/-- A turn of `#renewLease`, of the claim that was dispatched and the one it has become. -/
def renewed (original activeClaim : WorkerWakeupClaim) (now clock : Int)
    (observed : Except Thrown Unit) (t : Tables) : Except Thrown WorkerWakeupClaim × Tables :=
  match Worker.renew B.allowedTenants activeClaim B.leaseTtlMs now t with
  | .error e => (.error e, t)
  | .ok (answer, t) =>
      (do
        let renewed ← parseWakeupClaim answer
        PostgresRunWorker.checkRenewed original renewed (some clock)
        observed
        return renewed, t)

/-- A dispatch that goes on, and what it leaves of the tables. -/
def advance (original : WorkerWakeupClaim) (t : Tables) :
    DispatchPhase → DispatchEvent → DispatchPhase × Tables
  | .ready, .start now authorized aborted =>
      if original.lease.state ≠ .active ∨ reached original.lease.expiresAt (some now) = true then
        (.releasing original "KAF_STORAGE_LEASE_EXPIRED" false, t)
      else
        match authorized with
        | .error e => (.releasing original (failureCode aborted none e) false, t)
        | .ok () =>
            -- The release of an aborted dispatch is in the `try`, so its refusal is caught.
            if aborted then (.releasing original "KAF_RUNTIME_ABORTED" true, t)
            else (.executing original none, t)
  | .executing activeClaim none, .renew now clock observed =>
      match B.renewed original activeClaim now clock observed t with
      | (.error e, t) => (.executing activeClaim (some e), t)
      | (.ok activeClaim, t) => (.executing activeClaim none, t)
  | .executing activeClaim renewalFailure, .executed result aborted =>
      match result, renewalFailure with
      | .error e, _ => (.releasing activeClaim (failureCode aborted renewalFailure e) false, t)
      | .ok _, some e => (.releasing activeClaim (failureCode aborted (some e) e) false, t)
      | .ok status, none =>
          if aborted then (.releasing activeClaim (failureCode aborted none .abort) false, t)
          else (.completing activeClaim status, t)
  | .completing activeClaim status, .transact now clock aborted =>
      match complete B.allowedTenants activeClaim status clock now t with
      | .error e => (.releasing activeClaim (failureCode aborted none e) false, t)
      | .ok t => (.settled (.ok ()), t)
  | .releasing activeClaim reasonCode again, .transact now clock aborted =>
      match release B.allowedTenants activeClaim (clock + B.retryDelayMs) reasonCode now t with
      | .error e =>
          if again then (.releasing activeClaim (failureCode aborted none e) false, t)
          else (.settled (.error e), t)
      | .ok t => (.settled (.ok ()), t)
  | phase, _ => (phase, t)

end Batch

/-! ### A batch -/

/-- The promise of a dispatch. -/
def DispatchPhase.promise : DispatchPhase → Promise Thrown Unit
  | .settled result => .ofExcept result
  | _ => .pending

/-- The tables, the dispatches, and the promise that `runOnce` awaits. -/
structure BatchState where
  tables : Tables
  phases : List DispatchPhase
  all : Promise Thrown Unit

/-- A step of others, or of a dispatch. -/
inductive BatchStep where
  | others (tables : Tables)
  | advance (dispatch : Nat) (event : DispatchEvent)

namespace Batch

variable (B : Batch)

/-- The dispatches before their start. -/
def init (tables : Tables) : BatchState :=
  let phases := B.claims.map fun _ => DispatchPhase.ready
  ⟨tables, phases, Promise.pending.all (phases.map DispatchPhase.promise)⟩

/-- One step. -/
def step (s : BatchState) : BatchStep → BatchState
  | .others tables => { s with tables }
  | .advance i event =>
      match B.claims[i]?, s.phases[i]? with
      | some original, some phase =>
          let (phase, tables) := B.advance original s.tables phase event
          let phases := s.phases.set i phase
          ⟨tables, phases, s.all.all (phases.map DispatchPhase.promise)⟩
      | _, _ => s

/-- What `runOnce` returns or throws, once it does. -/
def runOnce (s : BatchState) : Option (Except Thrown Nat) :=
  match s.all with
  | .pending => none
  | .fulfilled () => some (.ok B.claims.length)
  | .rejected e => some (.error e)

end Batch

/-! ### The rounds of the worker -/

/-- How the sleep between two rounds ends; it throws an `AbortError` if its signal is aborted. -/
inductive Slept where
  | done
  | aborted
  deriving DecidableEq

/-- A round of the loop of `start`: the signal at its head, the batch with all its steps, and the
sleep. -/
structure Round where
  aborted : Bool
  batch : Batch
  tables : Tables
  steps : List BatchStep
  slept : Slept

/-- The dispatches of a round after some of its steps. -/
def Round.after (r : Round) (steps : List BatchStep) : BatchState :=
  steps.foldl r.batch.step (r.batch.init r.tables)

/-- How `start` ends. -/
inductive StartResult where
  | returned (aborted : Bool)
  | threw (error : Thrown)
  deriving DecidableEq

/-- The loop of `start`: how it ends, if it does. -/
def start : List Round → Option StartResult
  | [] => none
  | r :: rounds =>
      if r.aborted then some (.returned r.aborted)
      else
        match r.batch.runOnce (r.after r.steps) with
        | none => none
        | some (.error e) => some (.threw e)
        | some (.ok 0) =>
            match r.slept with
            | .done => start rounds
            | .aborted => some (.returned true)
        | some (.ok _) => start rounds

/-! ### What a transaction of the queue does -/

/-- The binding of a claim is current. -/
def Current (t : Tables) (c : WorkerWakeupClaim) : Prop :=
  (∃ w, t.wakeups.get (wakeupKey c) = some w ∧ bindsWakeup c w = true) ∧
    ∃ l, t.leases.get c.lease.key = some l ∧ bindsLease c l = true

section Queue

variable {t t' : Tables} {c : WorkerWakeupClaim} {allowedTenants : List String}

theorem release_iff {retryAt now : Int} {reasonCode : String}
    (hallowed : c.request.tenantId ∈ allowedTenants) (hreason : isReasonCode reasonCode = true) :
    (∃ t', release allowedTenants c retryAt reasonCode now t = .ok t') ↔ Current t c := by
  have htenant : assertTenantAllowed allowedTenants c.request.tenantId = .ok () := by
    rw [assertTenantAllowed, if_pos hallowed]
  unfold release
  rw [htenant, ok_bind, if_neg (by simp [hreason])]
  constructor
  · rintro ⟨t', hok⟩
    obtain ⟨t₁, hmarked, hok⟩ := bind_eq_ok.mp hok
    obtain ⟨w, hw, hbound, rfl⟩ := updateWakeup_eq_some (orConflict_ok hmarked)
    have hupdated := orConflict_ok hok
    rw [Option.map_eq_some_iff] at hupdated
    obtain ⟨⟨l', t₂⟩, hupdated, rfl⟩ := hupdated
    obtain ⟨l, hl, hlease, -, -⟩ := updateLease_eq_some hupdated
    exact ⟨⟨w, hw, hbound⟩, l, hl, hlease⟩
  · rintro ⟨⟨w, hw, hbound⟩, l, hl, hlease⟩
    simp only [Tables.updateWakeup, hw, hbound, if_true, orConflict, ok_bind, releaseExactLease,
      Tables.updateLease, hl, hlease, Option.map_some]
    exact ⟨_, rfl⟩

end Queue

/-! ### The steps of a dispatch -/

/-- The claim a dispatch will end. -/
def DispatchPhase.activeClaim : DispatchPhase → Option WorkerWakeupClaim
  | .ready => none
  | .executing activeClaim _ => some activeClaim
  | .completing activeClaim _ => some activeClaim
  | .releasing activeClaim _ _ => some activeClaim
  | .settled _ => none

/-- The claim is the one that was dispatched, with a lease that may have been renewed, and it is
released for a reason the queue takes. -/
def DispatchPhase.Valid (original : WorkerWakeupClaim) : DispatchPhase → Prop
  | .ready => True
  | .executing activeClaim _ => activeClaim = { original with lease := activeClaim.lease }
  | .completing activeClaim _ => activeClaim = { original with lease := activeClaim.lease }
  | .releasing activeClaim reasonCode _ =>
      activeClaim = { original with lease := activeClaim.lease } ∧ isReasonCode reasonCode = true
  | .settled _ => True

theorem isReasonCode_failureCode (aborted : Bool) (renewalFailure : Option Thrown) (e : Thrown) :
    isReasonCode (failureCode aborted renewalFailure e) = true := by
  have hcode : ∀ code : KafErrorCode, isReasonCode code.text = true := by
    intro code
    cases code <;> decide
  unfold failureCode
  split
  · exact hcode _
  · exact hcode _
  · split
    · decide
    · split
      · exact hcode _
      · decide

/-- Another lease makes no other claim. -/
theorem parseWakeupClaim_lease {c c' : WorkerWakeupClaim} {lease : FencedLease}
    (h : parseWakeupClaim c = .ok c) (h' : parseWakeupClaim { c with lease } = .ok c') :
    c' = { c with lease } := by
  unfold parseWakeupClaim at h h'
  dsimp only at h h'
  split at h
  · rename_i receiptId tenantId runId deduplicationKey workOrderId h₁ h₂ h₃ h₄ h₅
    rw [h₁, h₂, h₃, h₄, h₅] at h'
    dsimp only at h'
    split at h
    · split at h'
      · have hsame := Except.ok.inj h
        obtain rfl := Except.ok.inj h'
        rw [← hsame]
      · cases h'
    · cases h
  · cases h

namespace Batch

variable {B : Batch} {original : WorkerWakeupClaim} {t : Tables} {phase : DispatchPhase}
  {event : DispatchEvent}

/-- **A renewed claim** is the claim with another lease. -/
theorem renewed_ok {activeClaim c : WorkerWakeupClaim} {now clock : Int}
    {observed : Except Thrown Unit} {t' : Tables} (hparsed : parseWakeupClaim original = .ok original)
    (hactive : activeClaim = { original with lease := activeClaim.lease })
    (h : B.renewed original activeClaim now clock observed t = (.ok c, t')) :
    c = { original with lease := c.lease } := by
  unfold renewed at h
  split at h
  · cases h
  · rename_i answer t₁ hanswer
    obtain ⟨hok, -⟩ := Prod.mk.inj h
    obtain ⟨c', hc', hok⟩ := bind_eq_ok.mp hok
    obtain ⟨u, -, hok⟩ := bind_eq_ok.mp hok
    obtain ⟨u', -, hok⟩ := bind_eq_ok.mp hok
    obtain rfl := Except.ok.inj hok
    have hrenewed : ∃ lease, answer = { activeClaim with lease } := by
      unfold Worker.renew at hanswer
      obtain ⟨u, -, hanswer⟩ := bind_eq_ok.mp hanswer
      split at hanswer
      · cases hanswer
      obtain ⟨⟨row, t₂⟩, -, hanswer⟩ := bind_eq_ok.mp hanswer
      obtain ⟨lease, -, hanswer⟩ := bind_eq_ok.mp hanswer
      obtain ⟨t₃, -, hanswer⟩ := bind_eq_ok.mp hanswer
      exact ⟨lease, ((Prod.mk.inj (Except.ok.inj hanswer)).1).symm⟩
    obtain ⟨lease, rfl⟩ := hrenewed
    rw [hactive] at hc'
    have hsame := parseWakeupClaim_lease hparsed hc'
    rw [hsame]

/-- **A dispatch stays valid** when it goes on. -/
theorem advance_valid (hparsed : parseWakeupClaim original = .ok original)
    (h : phase.Valid original) : (B.advance original t phase event).1.Valid original := by
  unfold advance
  split
  · -- The start of a dispatch.
    split
    · exact ⟨rfl, by decide⟩
    split
    · exact ⟨rfl, isReasonCode_failureCode _ _ _⟩
    · split
      · exact ⟨rfl, by decide⟩
      · exact rfl
  · -- A renewal.
    split
    · exact h
    · rename_i hrenewed
      exact renewed_ok hparsed h hrenewed
  · -- The driver has answered.
    split
    · exact ⟨h, isReasonCode_failureCode _ _ _⟩
    · exact ⟨h, isReasonCode_failureCode _ _ _⟩
    · split
      · exact ⟨h, isReasonCode_failureCode _ _ _⟩
      · exact h
  · -- A completion.
    split
    · exact ⟨h, isReasonCode_failureCode _ _ _⟩
    · trivial
  · -- A release.
    split
    · split
      · exact ⟨h.1, isReasonCode_failureCode _ _ _⟩
      · trivial
    · trivial
  · exact h

/-- **A dispatch that is rejected** was so before, or its last release is refused. -/
theorem advance_rejected {e : Thrown}
    (h : (B.advance original t phase event).1 = .settled (.error e)) :
    phase = .settled (.error e) ∨ ∃ c reasonCode now clock aborted,
      phase = .releasing c reasonCode false ∧ event = .transact now clock aborted ∧
        release B.allowedTenants c (clock + B.retryDelayMs) reasonCode now t = .error e := by
  unfold advance at h
  split at h
  · split at h
    · cases h
    split at h
    · cases h
    · split at h <;> cases h
  · split at h <;> cases h
  · split at h
    · cases h
    · cases h
    · split at h <;> cases h
  · split at h <;> cases h
  · split at h
    · rename_i e' hrefused
      split at h
      · cases h
      · rename_i hlast
        obtain rfl := Except.error.inj (DispatchPhase.settled.inj h)
        exact .inr ⟨_, _, _, _, _, by rw [eq_false_of_ne_true hlast], rfl, hrefused⟩
    · cases h
  · exact .inl h

/-- **A dispatch that settles** completes its claim or releases it, if its binding is current. -/
theorem ended_of_advance {result : Except Thrown Unit} {c : WorkerWakeupClaim}
    (hallowed : original.request.tenantId ∈ B.allowedTenants) (hvalid : phase.Valid original)
    (hc : phase.activeClaim = some c)
    (h : (B.advance original t phase event).1 = .settled result) (hcurrent : Current t c) :
    Leaves c .completed t (B.advance original t phase event).2 ∨
      Leaves c .pending t (B.advance original t phase event).2 := by
  unfold advance at h ⊢
  split at h
  · cases hc
  · split at h <;> cases h
  · split at h
    · cases h
    · cases h
    · split at h <;> cases h
  · obtain rfl := Option.some.inj hc
    split at h
    · cases h
    · rename_i t' hcompleted
      exact .inl (complete_leaves hcompleted)
  · obtain rfl := Option.some.inj hc
    rename_i activeClaim reasonCode again now clock aborted
    have htenant : activeClaim.request.tenantId ∈ B.allowedTenants := by
      rw [hvalid.1]
      exact hallowed
    obtain ⟨t', hreleased⟩ := (release_iff htenant hvalid.2).mpr hcurrent
    rw [hreleased]
    exact .inr (release_leaves hreleased)
  · have hsettled : phase = .settled result := h
    rw [hsettled] at hc
    cases hc

theorem advance_settled (result : Except Thrown Unit) :
    B.advance original t (.settled result) event = (.settled result, t) := by
  cases event <;> rfl

/-! ### The steps of a batch -/

/-- There is a dispatch for every claim, and it is valid. -/
structure Tracks (B : Batch) (s : BatchState) : Prop where
  length : s.phases.length = B.claims.length
  valid : ∀ (i : Nat) (original : WorkerWakeupClaim) (phase : DispatchPhase), B.claims[i]? = some original → s.phases[i]? = some phase →
    phase.Valid original

/-- No dispatch has been rejected, and `Promise.all` is fulfilled once all dispatches are. -/
structure Resolving (s : BatchState) : Prop where
  none_rejected : ∀ phase ∈ s.phases, ∀ e, phase ≠ .settled (.error e)
  all : s.all =
    if (s.phases.map DispatchPhase.promise).all Promise.isFulfilled then .fulfilled () else .pending

/-- `runOnce` waits for all dispatches, and resolves with the number of claims. -/
structure Proper (B : Batch) (s : BatchState) : Prop where
  waits : ∀ result, B.runOnce s = some result → ∀ phase ∈ s.phases, phase.promise.IsSettled
  resolves : (∀ phase ∈ s.phases, phase.promise.IsSettled) →
    B.runOnce s = some (.ok B.claims.length)

/-- The last release of a dispatch is that of a claim whose binding is current. -/
def Meets (s : BatchState) : BatchStep → Prop
  | .others _ => True
  | .advance i event => ∀ c reasonCode now clock aborted, event = .transact now clock aborted →
      s.phases[i]? = some (.releasing c reasonCode false) → Current s.tables c

/-- A dispatch that settles has completed its claim or released it, if the binding of the claim
was current. -/
def Ends (B : Batch) (s : BatchState) (step : BatchStep) : Prop :=
  ∀ i event phase c result, step = .advance i event → s.phases[i]? = some phase →
    phase.activeClaim = some c → (B.step s step).phases[i]? = some (.settled result) →
    Current s.tables c →
    Leaves c .completed s.tables (B.step s step).tables ∨
      Leaves c .pending s.tables (B.step s step).tables

variable {s : BatchState}

/-- **One step** of a dispatch that there is. -/
theorem step_advance {i : Nat} (horiginal : B.claims[i]? = some original)
    (hphase : s.phases[i]? = some phase) :
    B.step s (.advance i event) =
      ⟨(B.advance original s.tables phase event).2,
        s.phases.set i (B.advance original s.tables phase event).1,
        s.all.all ((s.phases.set i (B.advance original s.tables phase event).1).map
          DispatchPhase.promise)⟩ := by
  simp only [step, horiginal, hphase]

theorem Tracks.exists_claim (h : Tracks B s) {i : Nat} (hphase : s.phases[i]? = some phase) :
    ∃ original, B.claims[i]? = some original ∧ original ∈ B.claims := by
  obtain ⟨hlt, -⟩ := List.getElem?_eq_some_iff.mp hphase
  have hclaim : i < B.claims.length := h.length ▸ hlt
  exact ⟨B.claims[i], List.getElem?_eq_getElem hclaim, List.getElem_mem hclaim⟩

theorem tracks_init (t : Tables) : Tracks B (B.init t) where
  length := List.length_map _
  valid i original phase _ hphase := by
    obtain ⟨c, -, rfl⟩ := List.mem_map.mp (List.mem_of_getElem? hphase)
    trivial

theorem Tracks.step (h : Tracks B s) (st : BatchStep) : Tracks B (B.step s st) := by
  cases st with
  | others tables => exact ⟨h.length, h.valid⟩
  | advance i event =>
    cases hphase : s.phases[i]? with
    | none =>
      have hsame : B.step s (.advance i event) = s := by
        cases hclaim : B.claims[i]? <;> simp [Batch.step, hphase, hclaim]
      rw [hsame]
      exact h
    | some phase =>
      obtain ⟨original, horiginal, hmem⟩ := h.exists_claim hphase
      rw [step_advance horiginal hphase]
      refine ⟨by rw [List.length_set, h.length], fun j original' phase' horiginal' hphase' => ?_⟩
      dsimp only at hphase'
      rcases eq_or_ne i j with rfl | hne
      · obtain ⟨hlt, -⟩ := List.getElem?_eq_some_iff.mp hphase
        rw [List.getElem?_set_self hlt] at hphase'
        obtain rfl := Option.some.inj hphase'
        obtain rfl := Option.some.inj (horiginal.symm.trans horiginal')
        exact advance_valid (B.parsed _ hmem) (h.valid _ _ _ horiginal hphase)
      · rw [List.getElem?_set_ne hne] at hphase'
        exact h.valid j original' phase' horiginal' hphase'

theorem resolving_init (t : Tables) : Resolving (B.init t) where
  none_rejected phase hphase e := by
    obtain ⟨c, -, rfl⟩ := List.mem_map.mp hphase
    exact DispatchPhase.noConfusion
  all := Promise.all_of_not_rejected fun e he => by
    obtain ⟨phase, hphase, hpromise⟩ := List.mem_map.mp he
    obtain ⟨c, -, rfl⟩ := List.mem_map.mp hphase
    cases hpromise

/-- **A batch goes on to resolve**, if the step meets the condition. -/
theorem Resolving.step (h : Resolving s) (hinv : Tracks B s) {st : BatchStep}
    (hmeets : Meets s st) : Resolving (B.step s st) := by
  cases st with
  | others tables => exact ⟨h.none_rejected, h.all⟩
  | advance i event =>
    cases hphase : s.phases[i]? with
    | none =>
      have hsame : B.step s (.advance i event) = s := by
        cases hclaim : B.claims[i]? <;> simp [Batch.step, hphase, hclaim]
      rw [hsame]
      exact h
    | some phase =>
      obtain ⟨original, horiginal, hmem⟩ := hinv.exists_claim hphase
      have hvalid := hinv.valid i original phase horiginal hphase
      rw [step_advance horiginal hphase]
      have hrejected : ∀ phase' ∈ s.phases.set i (B.advance original s.tables phase event).1,
          ∀ e, phase' ≠ .settled (.error e) := by
        intro phase' hphase' e heq
        rcases List.mem_or_eq_of_mem_set hphase' with hold | rfl
        · exact h.none_rejected phase' hold e heq
        rcases advance_rejected heq with rfl | ⟨c, reasonCode, now, clock, aborted, rfl, rfl, hrefused⟩
        · exact h.none_rejected _ (List.mem_of_getElem? hphase) e rfl
        · have hcurrent := hmeets c reasonCode now clock aborted rfl hphase
          have htenant : c.request.tenantId ∈ B.allowedTenants := by
            rw [hvalid.1]
            exact B.allowed original hmem
          obtain ⟨t', hreleased⟩ := (release_iff htenant hvalid.2).mpr hcurrent
          rw [hreleased] at hrefused
          cases hrefused
      refine ⟨hrejected, ?_⟩
      dsimp only
      by_cases hdone : (s.phases.map DispatchPhase.promise).all Promise.isFulfilled = true
      · -- All dispatches are settled, so nothing goes on.
        have hsettled : phase = .settled (.ok ()) := by
          have hfulfilled := List.all_eq_true.mp hdone phase.promise
            (List.mem_map_of_mem (List.mem_of_getElem? hphase))
          cases phase with
          | settled result =>
            cases result with
            | ok u => rfl
            | error e => cases hfulfilled
          | _ => cases hfulfilled
        subst hsettled
        obtain ⟨hlt, hget⟩ := List.getElem?_eq_some_iff.mp hphase
        have hsame : s.phases.set i (.settled (.ok ())) = s.phases := by
          rw [← hget]
          exact List.set_getElem_self hlt
        rw [advance_settled, hsame, h.all, if_pos hdone]
        rfl
      · rw [h.all, if_neg hdone]
        refine Promise.all_of_not_rejected fun e he => ?_
        obtain ⟨phase', hphase', hpromise⟩ := List.mem_map.mp he
        cases phase' with
        | settled result =>
          cases result with
          | ok u => cases hpromise
          | error e' => exact hrejected _ hphase' e' rfl
        | _ => cases hpromise

theorem Resolving.proper (h : Resolving s) : Proper B s := by
  have hfulfilled : ∀ {phase : DispatchPhase}, phase.promise.isFulfilled = true →
      phase.promise.IsSettled := by
    intro phase hphase
    cases hpromise : phase.promise with
    | pending =>
      rw [hpromise] at hphase
      cases hphase
    | fulfilled value => trivial
    | rejected e => trivial
  refine ⟨fun result hresult phase hphase => ?_, fun hsettled => ?_⟩
  · unfold runOnce at hresult
    rw [h.all] at hresult
    split_ifs at hresult with hdone
    exact hfulfilled (List.all_eq_true.mp hdone _ (List.mem_map_of_mem hphase))
  · have hdone : (s.phases.map DispatchPhase.promise).all Promise.isFulfilled = true := by
      rw [List.all_eq_true]
      intro promise hpromise
      obtain ⟨phase, hphase, rfl⟩ := List.mem_map.mp hpromise
      have hphase' := hsettled phase hphase
      cases phase with
      | settled result =>
        cases result with
        | ok u => rfl
        | error e => exact absurd rfl (h.none_rejected _ hphase e)
      | _ => exact hphase'.elim
    unfold runOnce
    rw [h.all, if_pos hdone]

/-- **A refused release** rejects the batch at once. -/
theorem not_proper_of_refused (h : Resolving s) (hinv : Tracks B s) {st : BatchStep}
    (hrefused : ¬ Meets s st) : ¬ Proper B (B.step s st) := by
  intro hproper
  cases st with
  | others tables => exact hrefused trivial
  | advance i event =>
    simp only [Meets, not_forall] at hrefused
    obtain ⟨c, reasonCode, now, clock, aborted, rfl, hphase, hcurrent⟩ := hrefused
    obtain ⟨original, horiginal, hmem⟩ := hinv.exists_claim hphase
    have hvalid := hinv.valid i original _ horiginal hphase
    have htenant : c.request.tenantId ∈ B.allowedTenants := by
      rw [hvalid.1]
      exact B.allowed original hmem
    have hrelease : ∃ e, release B.allowedTenants c (clock + B.retryDelayMs) reasonCode now s.tables =
        .error e := by
      cases hresult : release B.allowedTenants c (clock + B.retryDelayMs) reasonCode now s.tables with
      | error e => exact ⟨e, rfl⟩
      | ok t' => exact absurd ((release_iff htenant hvalid.2).mp ⟨t', hresult⟩) hcurrent
    obtain ⟨e, he⟩ := hrelease
    have hadvance : B.advance original s.tables (.releasing c reasonCode false)
        (.transact now clock aborted) = (.settled (.error e), s.tables) := by
      simp [advance, he]
    have hpending : s.all = .pending := by
      rw [h.all, if_neg]
      intro hdone
      have := List.all_eq_true.mp hdone _ (List.mem_map_of_mem (List.mem_of_getElem? hphase))
      cases this
    obtain ⟨hlt, -⟩ := List.getElem?_eq_some_iff.mp hphase
    have hrejected : Promise.rejected e ∈
        (s.phases.set i (.settled (.error e))).map DispatchPhase.promise :=
      List.mem_map.mpr ⟨_, List.mem_set hlt _, rfl⟩
    obtain ⟨e', hall⟩ := Promise.all_rejected hrejected
    have hresult : B.runOnce (B.step s (.advance i (.transact now clock aborted))) =
        some (.error e') := by
      rw [step_advance horiginal hphase, hadvance, hpending]
      simp only [runOnce, hall]
    have hok := hproper.resolves (hproper.waits _ hresult)
    rw [hresult] at hok
    cases hok

/-- **A dispatch that settles** has ended its claim, if the binding of the claim was current. -/
theorem ends_of_step (hinv : Tracks B s) (st : BatchStep) : Ends B s st := by
  rintro i event phase c result rfl hphase hc hsettled hcurrent
  obtain ⟨original, horiginal, hmem⟩ := hinv.exists_claim hphase
  obtain ⟨hlt, -⟩ := List.getElem?_eq_some_iff.mp hphase
  rw [step_advance horiginal hphase] at hsettled ⊢
  dsimp only at hsettled ⊢
  rw [List.getElem?_set_self hlt] at hsettled
  exact ended_of_advance (B.allowed _ hmem) (hinv.valid _ _ _ horiginal hphase) hc
    (Option.some.inj hsettled) hcurrent

end Batch

/-! ### The rounds -/

namespace Round

variable {r : Round} {steps : List BatchStep}

theorem after_snoc (st : BatchStep) : r.after (steps ++ [st]) = r.batch.step (r.after steps) st := by
  simp [after]

theorem tracks_after (r : Round) (steps : List BatchStep) : Batch.Tracks r.batch (r.after steps) := by
  induction steps using List.reverseRecOn with
  | nil => exact Batch.tracks_init r.tables
  | append_singleton steps st ih =>
    rw [after_snoc]
    exact ih.step st

/-- Every last release of the round is that of a claim whose binding is current. -/
def Holds (r : Round) (steps : List BatchStep) : Prop :=
  Along r.batch.step (r.batch.init r.tables) Batch.Meets steps

theorem resolving_after (h : r.Holds steps) : Batch.Resolving (r.after steps) := by
  induction steps using List.reverseRecOn with
  | nil => exact Batch.resolving_init r.tables
  | append_singleton steps st ih =>
    obtain ⟨hsteps, hst⟩ := along_snoc.mp h
    rw [after_snoc]
    exact (ih hsteps).step (r.tracks_after steps) hst

/-- **A batch is proper**, at every time, exactly if its last releases are of claims whose binding
is current. -/
theorem proper_iff :
    (∀ before later, steps = before ++ later → Batch.Proper r.batch (r.after before)) ↔
      r.Holds steps := by
  constructor
  · intro h
    induction steps using List.reverseRecOn with
    | nil => exact along_nil
    | append_singleton steps st ih =>
      have hsteps : r.Holds steps := ih fun before later heq =>
        h before (later ++ [st]) (by rw [heq, List.append_assoc])
      refine along_snoc.mpr ⟨hsteps, ?_⟩
      by_contra hrefused
      refine Batch.not_proper_of_refused (resolving_after hsteps) (r.tracks_after steps) hrefused ?_
      rw [← after_snoc]
      exact h (steps ++ [st]) [] (List.append_nil _).symm
  · rintro h before later rfl
    have hbefore : r.Holds before := by
      intro before' call later' heq
      exact h before' call (later' ++ later) (by rw [heq, List.append_assoc, List.cons_append])
    exact (resolving_after hbefore).proper

end Round

/-- The worker outlives the claims it loses: every batch waits for all its dispatches and resolves
with the number of claims, every dispatch that settles has ended its claim if the binding was
current, and the loop returns only when its signal is aborted. -/
structure WorkerProper (rounds : List Round) : Prop where
  batches : ∀ r ∈ rounds, ∀ before later, r.steps = before ++ later →
    Batch.Proper r.batch (r.after before)
  ends : ∀ r ∈ rounds,
    Along r.batch.step (r.batch.init r.tables) (Batch.Ends r.batch) r.steps
  returns : ∀ result, start rounds = some result → result = .returned true

/-- The loop returns only when its signal is aborted, if every batch resolves. -/
theorem start_returned {rounds : List Round} (h : ∀ r ∈ rounds, r.Holds r.steps) {result : StartResult}
    (hstart : start rounds = some result) : result = .returned true := by
  induction rounds with
  | nil => cases hstart
  | cons r rounds ih =>
    obtain ⟨hr, hrounds⟩ := List.forall_mem_cons.mp h
    unfold start at hstart
    split at hstart
    · rename_i haborted
      rw [← Option.some.inj hstart, haborted]
    split at hstart
    · cases hstart
    · rename_i e hresult
      have hall := (Round.resolving_after hr).all
      unfold Batch.runOnce at hresult
      rw [hall] at hresult
      split_ifs at hresult
      cases hresult
    · split at hstart
      · exact ih hrounds hstart
      · exact (Option.some.inj hstart).symm
    · exact ih hrounds hstart

/-- **When the worker outlives the claims it loses**: exactly if, whenever a dispatch releases its
claim for the last time, the binding of the claim is current. -/
theorem worker_proper_iff (rounds : List Round) :
    WorkerProper rounds ↔ ∀ r ∈ rounds, r.Holds r.steps := by
  constructor
  · exact fun h r hr => Round.proper_iff.mp (h.batches r hr)
  · intro h
    refine ⟨fun r hr => Round.proper_iff.mpr (h r hr), fun r _ before st later _ => ?_,
      fun result hstart => start_returned h hstart⟩
    exact Batch.ends_of_step (r.tracks_after before) st

/-! ### A claim that is lost -/

/-- A claim of another wakeup. -/
def otherAttempt : WorkerWakeupClaim :=
  let c := PostgresRunWorker.attemptOf 1
  { c with
    receiptId := "other"
    request := { c.request with runId := "other" }
    lease := { c.lease with runId := "other" } }

/-- The wakeup is claimed with a token, and so is the lease of its run. -/
def claimedWith (fencingToken : Nat) : Tables where
  wakeups := OrderedMap.empty.set ("tenant", "wakeup")
    { tenantId := "tenant"
      runId := "run"
      wakeupId := "wakeup"
      delegation := none
      requestDigest := "digest"
      workOrderId := "order"
      availableAt := 0
      state := .claimed
      claimedBy := some "worker"
      claimLeaseId := some "worker-lease"
      claimFencingToken := fencingToken }
  leases := OrderedMap.empty.set ("tenant", "run")
    ⟨"worker-lease", "worker", fencingToken, 0, 30000000, .active⟩

/-- Two claims are dispatched. -/
def lostBatch : Batch where
  allowedTenants := ["tenant"]
  leaseTtlMs := 30000
  retryDelayMs := 5000
  claims := [PostgresRunWorker.attemptOf 1, otherAttempt]
  allowed := by decide
  parsed := by
    have hother : boundedText 256 "other" = some "other" ∧
        boundedText 256 "tenant" = some "tenant" ∧ boundedText 512 "command" = some "command" ∧
        boundedText 256 "order" = some "order" := by
      decide +kernel
    obtain ⟨hreceipt, htenant, hkey, horder⟩ := hother
    have hlease : otherAttempt.lease.parses = true := by
      simp [FencedLease.parses, otherAttempt, PostgresRunWorker.attemptOf, isoRepresentable]
    have hparsed : parseWakeupClaim otherAttempt = .ok otherAttempt := by
      simp only [parseWakeupClaim, hlease]
      simp [otherAttempt, PostgresRunWorker.attemptOf, hreceipt, htenant, hkey, horder]
    intro c hc
    rcases List.mem_cons.mp hc with rfl | hc
    · exact PostgresRunWorker.attemptOf_parses (by decide)
    · obtain rfl := List.mem_singleton.mp hc
      exact hparsed

/-- The first of them is taken over while the driver works, and its driver ends before that of the
second. -/
def lostRound : Round where
  aborted := false
  batch := lostBatch
  tables := claimedWith 1
  steps :=
    [.advance 0 (.start 0 (.ok ()) false), .advance 1 (.start 0 (.ok ()) false),
      .others (claimedWith 2), .advance 0 (.executed (.ok .completed) false),
      .advance 0 (.transact 0 0 false), .advance 0 (.transact 0 0 false)]
  slept := .done

/-- **One lost claim stops the worker.** -/
theorem lost_claim_stops_worker : ¬ WorkerProper [lostRound] := by
  intro h
  have hthrew : start [lostRound] = some (.threw (conflict "wakeup_release_binding_changed")) := by
    decide +kernel
  cases h.returns _ hthrew

end Worker

end Pactmark
