import Pactmark.Core.Reservations
import Pactmark.Durable.Operations
import Pactmark.Durable.Totals
import Pactmark.Policy.Evaluate
import Pactmark.Stores.Leases

/-!
# Stores — active execution

`MemoryActiveExecutionReservationStore` of `store-memory/src/resource-reservations.ts`.  The clock
is what each call reads.  A reservation counts its maximum until it is settled, and what it was
charged from then on; a settled or closed reservation is never written again.

* `Settles`: one reservation that was reserved is settled or closed, and counts no more than it
  did.
* `step_cases`: a call changes nothing, reserves within the maximum it is given, or settles.
* `active_execution_bounded`: what holds after every sequence of calls.
-/

namespace Pactmark

open Durable Reservation Policy

/-- `recordKey(tenantId, runId, stepId, boundary, boundaryKey)`. -/
abbrev ActiveExecutionRecordKey := String × String × String × ExecutionBoundary × String

/-- The key a reservation is stored under. -/
def Reservation.ActiveExecutionFields.recordKey (r : ActiveExecutionFields) :
    ActiveExecutionRecordKey :=
  (r.tenantId, r.runId, r.stepId, r.boundary, r.boundaryKey)

/-- `activeExecutionIdentity`: what is left without the settlement and the instants. -/
def Reservation.ActiveExecutionFields.executionIdentity (r : ActiveExecutionFields) :
    ActiveExecutionFields :=
  { r with
    state := .reserved
    settledChargeMs := none
    refundedMs := none
    settledAtServerTime := none
    startedAtServerTime := 0
    expiresAt := 0 }

/-- What a reservation counts against the maximum of its run. -/
def Reservation.ActiveExecution.charge (r : ActiveExecution) : Nat :=
  match r.state with
  | .settled => r.settledChargeMs.getD r.maxChargeMs
  | _ => r.maxChargeMs

/-- `Number.isSafeInteger(value) && value > 0`. -/
def Policy.JsNumber.positiveSafeInteger : JsNumber → Option Nat
  | some (WithBot.some (WithTop.some q)) =>
      if q.den = 1 ∧ 0 < q.num ∧ q.num ≤ 9007199254740991 then some q.num.toNat else none
  | _ => none

/-- `new Date(milliseconds).toISOString()`, which throws for what is no instant. -/
def toISOString (milliseconds : Option Int) : Except Thrown Int :=
  match milliseconds with
  | none => .error (.host "RangeError" true)
  | some milliseconds =>
      if milliseconds < -8640000000000000 ∨ 8640000000000000 < milliseconds then
        .error (.host "RangeError" true)
      else .ok milliseconds

/-- What the clock answers, as the schema of an instant accepts it. -/
def ClockReading.instant (now : ClockReading) : Except Thrown Int :=
  match now.milliseconds with
  | some milliseconds => if now.iso then .ok milliseconds else .error schemaRefused
  | none => .error schemaRefused

/-- `Date.parse(expiresAt) <= Date.parse(now)`. -/
def ClockReading.reaches (now : ClockReading) (expiresAt : Int) : Bool :=
  match now.milliseconds with
  | some milliseconds => expiresAt ≤ milliseconds
  | none => false

/-- `MemoryActiveExecutionReservationStore`. -/
structure MemoryActiveExecutionReservationStore where
  reservations : OrderedMap ActiveExecutionRecordKey ActiveExecution

namespace MemoryActiveExecutionReservationStore

/-- `new MemoryActiveExecutionReservationStore()`. -/
def empty : MemoryActiveExecutionReservationStore :=
  ⟨.empty⟩

/-- `get`. -/
def get (s : MemoryActiveExecutionReservationStore) (key : ActiveExecutionRecordKey) :
    Option ActiveExecution :=
  s.reservations.get key

/-- The reservations of a run. -/
def ofRun (tenantId runId : String) (r : ActiveExecution) : Bool :=
  r.tenantId = tenantId ∧ r.runId = runId

/-- `consumedMilliseconds`. -/
def consumedMilliseconds (s : MemoryActiveExecutionReservationStore) (tenantId runId : String) :
    Nat :=
  s.reservations.total (ofRun tenantId runId) (·.charge)

/-! ### The operations -/

/-- The reservation that is stored for a first request. -/
def start (requested : ActiveExecution) (now : ClockReading) : Except Thrown ActiveExecution := do
  let expiresAt ← toISOString (now.milliseconds.map (· + requested.maxChargeMs))
  let startedAtServerTime ← now.instant
  if ¬ isoRepresentable expiresAt then throw schemaRefused
  ActiveExecution.parse { requested.toActiveExecutionFields with startedAtServerTime, expiresAt }

/-- The settlement of a reservation, of what the clock says has passed since it was made, or of
all of it. -/
def settle (prior : ActiveExecution) (state : ExecutionState) (now : ClockReading) :
    Except Thrown ActiveExecution := do
  let settledAtServerTime ← now.instant
  let settledChargeMs :=
    if state = .closed_uncertain then prior.maxChargeMs
    else min prior.maxChargeMs (settledAtServerTime - prior.startedAtServerTime).toNat
  ActiveExecution.parse
    { prior.toActiveExecutionFields with
      state
      settledChargeMs := some settledChargeMs
      refundedMs := some (prior.maxChargeMs - settledChargeMs)
      settledAtServerTime := some settledAtServerTime }

/-- `putInTransaction`, for a key that is not stored yet. -/
def reserve (s : MemoryActiveExecutionReservationStore) (requested : ActiveExecution)
    (runMaximumActiveExecutionMs : Nat) (now : ClockReading) :
    Except Thrown ActiveExecution × MemoryActiveExecutionReservationStore :=
  if requested.state ≠ .reserved then
    (.error (conflict "active_execution_must_start_reserved"), s)
  else
    let consumed := s.consumedMilliseconds requested.tenantId requested.runId
    if consumed + requested.maxChargeMs > runMaximumActiveExecutionMs then
      (.error (.kaf
        { code := .KAF_RUNTIME_CAPABILITY_MISSING
          details :=
            { reason := some "active_execution_budget_exhausted"
              others :=
                [("consumedMs", toString consumed), ("requestedMs", toString requested.maxChargeMs),
                  ("maximumMs", toString runMaximumActiveExecutionMs)] } }), s)
    else
      match start requested now with
      | .error e => (.error e, s)
      | .ok next => (.ok next, ⟨s.reservations.set requested.recordKey next⟩)

/-- `putInTransaction`, for a key that is stored. -/
def transition (s : MemoryActiveExecutionReservationStore) (prior requested : ActiveExecution)
    (now : ClockReading) :
    Except Thrown ActiveExecution × MemoryActiveExecutionReservationStore :=
  if prior = requested then (.ok prior, s)
  else if prior.executionIdentity ≠ requested.executionIdentity then
    (.error (conflict "active_execution_binding_changed"), s)
  else if prior.state ≠ .reserved then
    if requested.state = prior.state then (.ok prior, s)
    else (.error (conflict "active_execution_transition_changed"), s)
  else if requested.state = .reserved then (.ok prior, s)
  else
    match settle prior requested.state now with
    | .error e => (.error e, s)
    | .ok next => (.ok next, ⟨s.reservations.set requested.recordKey next⟩)

/-- `putInTransaction`. -/
def putInTransaction (s : MemoryActiveExecutionReservationStore) (input : ActiveExecutionFields)
    (runMaximumActiveExecutionMs : JsNumber) (now : ClockReading) :
    Except Thrown ActiveExecution × MemoryActiveExecutionReservationStore :=
  match runMaximumActiveExecutionMs.positiveSafeInteger with
  | none =>
      (.error (.kaf
        { code := .KAF_SCHEMA_INVALID
          details :=
            { others := [("path", "runMaximumActiveExecutionMs"),
                ("issue", "positive_safe_integer_required")] } }), s)
  | some maximum =>
      match ActiveExecution.parse input with
      | .error e => (.error e, s)
      | .ok requested =>
          match s.reservations.get requested.recordKey with
          | none => s.reserve requested maximum now
          | some prior => s.transition prior requested now

/-- What `reconcileExpired` does with a reservation. -/
def closeExpired (now : ClockReading) (prior : ActiveExecution) :
    Except Thrown (Option ActiveExecution) :=
  if prior.state = .reserved ∧ now.reaches prior.expiresAt then
    some <$> settle prior .closed_uncertain now
  else .ok none

/-- `reconcileExpired`. -/
def reconcileExpired (s : MemoryActiveExecutionReservationStore) (now : ClockReading) :
    Except Thrown Nat × MemoryActiveExecutionReservationStore :=
  let (answer, reservations) := s.reservations.updateEach (closeExpired now)
  (answer, ⟨reservations⟩)

/-- `putActiveExecutionReservation` of a transaction of the unit of work, given the projection of
the run and the accepted work orders of the tenant. -/
def putActiveExecutionReservation (tenantId : String) (projection : Option RunProjection)
    (acceptedWorkOrder : String → Option WorkOrder) (s : MemoryActiveExecutionReservationStore)
    (reservation : ActiveExecutionFields) (runMaximumActiveExecutionMs : JsNumber)
    (now : ClockReading) :
    Except Thrown ActiveExecution × MemoryActiveExecutionReservationStore :=
  if reservation.tenantId ≠ tenantId then
    (.error (conflict "cross_tenant_active_execution"), s)
  else
    match projection, projection.bind fun projection => acceptedWorkOrder projection.workOrderId with
    | some projection, some workOrder =>
        if projection.workOrderBindingDigest ≠ workOrder.workOrderBindingDigest ∨
            JsNumber.ofRat workOrder.budget.maxActiveExecutionMs ≠ runMaximumActiveExecutionMs then
          (.error (conflict "active_execution_work_order_budget_binding_changed"), s)
        else s.putInTransaction reservation runMaximumActiveExecutionMs now
    | _, _ => (.error (conflict "active_execution_work_order_budget_binding_changed"), s)

end MemoryActiveExecutionReservationStore

/-! ### Runs of calls -/

/-- A call on the store, with the reading of the clock it makes. -/
inductive ActiveExecutionCall where
  | putInTransaction (input : ActiveExecutionFields) (runMaximumActiveExecutionMs : JsNumber)
      (now : ClockReading)
  | reconcileExpired (now : ClockReading)

namespace MemoryActiveExecutionReservationStore

/-- What a call leaves. -/
def step (s : MemoryActiveExecutionReservationStore) :
    ActiveExecutionCall → MemoryActiveExecutionReservationStore
  | .putInTransaction input maximum now => (s.putInTransaction input maximum now).2
  | .reconcileExpired now => (s.reconcileExpired now).2

/-- What a sequence of calls leaves. -/
def after (calls : List ActiveExecutionCall) : MemoryActiveExecutionReservationStore :=
  calls.foldl step empty

/-! ### What the operations do -/

variable {s s' t : MemoryActiveExecutionReservationStore}

/-- What the identity of a reservation says about what it counts. -/
theorem executionIdentity_eq {a b : ActiveExecutionFields}
    (h : a.executionIdentity = b.executionIdentity) :
    a.tenantId = b.tenantId ∧ a.runId = b.runId ∧ a.maxChargeMs = b.maxChargeMs := by
  simp only [ActiveExecutionFields.executionIdentity, ActiveExecutionFields.mk.injEq] at h
  exact ⟨h.2.1, h.2.2.1, h.2.2.2.2.2.2.2.2.2.1⟩

theorem start_ok {requested next : ActiveExecution} {now : ClockReading}
    (h : start requested now = .ok next) :
    next.executionIdentity = requested.executionIdentity ∧ next.state = requested.state := by
  obtain ⟨expiresAt, -, h⟩ := bind_eq_ok.mp h
  obtain ⟨startedAtServerTime, -, h⟩ := bind_eq_ok.mp h
  split at h
  · cases h
  · simp [ActiveExecutionFields.executionIdentity, ActiveExecution.parse_ok h]

theorem settle_ok {prior next : ActiveExecution} {state : ExecutionState} {now : ClockReading}
    (h : settle prior state now = .ok next) :
    next.executionIdentity = prior.executionIdentity ∧ next.state = state := by
  obtain ⟨settledAtServerTime, -, h⟩ := bind_eq_ok.mp h
  simp [ActiveExecutionFields.executionIdentity, ActiveExecution.parse_ok h]

/-- No reservation counts more than its maximum. -/
theorem charge_le (r : ActiveExecution) : r.charge ≤ r.maxChargeMs := by
  unfold ActiveExecution.charge
  split
  · rename_i hs
    obtain ⟨settled, refunded, hsettled, -, hsum, -⟩ := r.settlement (by rw [hs]; decide)
    rw [hsettled, Option.getD_some]
    omega
  · exact le_rfl

theorem charge_of_reserved {r : ActiveExecution} (h : r.state = .reserved) :
    r.charge = r.maxChargeMs := by
  rw [ActiveExecution.charge, h]

/-- One reservation that was reserved is settled or closed. -/
structure Settles (s s' : MemoryActiveExecutionReservationStore) : Prop where
  settled : ∃ key prior next, s.get key = some prior ∧ prior.state = .reserved ∧
    next.executionIdentity = prior.executionIdentity ∧ next.state ≠ .reserved ∧
    s' = ⟨s.reservations.set key next⟩

/-- **A put** changes nothing, reserves within the maximum it is given, or settles. -/
theorem putInTransaction_cases (s : MemoryActiveExecutionReservationStore)
    (input : ActiveExecutionFields) (runMaximum : JsNumber) (now : ClockReading) :
    (s.putInTransaction input runMaximum now).2 = s ∨
      (∃ (maximum : Nat) (next : ActiveExecution),
        runMaximum.positiveSafeInteger = some maximum ∧ s.get input.recordKey = none ∧
        next.executionIdentity = input.executionIdentity ∧ next.state = .reserved ∧
        s.consumedMilliseconds input.tenantId input.runId + next.maxChargeMs ≤ maximum ∧
        (s.putInTransaction input runMaximum now).2 =
          ⟨s.reservations.set input.recordKey next⟩) ∨
      Settles s (s.putInTransaction input runMaximum now).2 := by
  unfold putInTransaction
  split
  · exact .inl rfl
  rename_i maximum hmaximum
  split
  · exact .inl rfl
  rename_i requested hrequested
  have hfields := ActiveExecution.parse_ok hrequested
  subst hfields
  split
  · rename_i hfresh
    unfold reserve
    split
    · exact .inl rfl
    rename_i hstate
    dsimp only
    split
    · exact .inl rfl
    rename_i hbudget
    split
    · exact .inl rfl
    rename_i next hnext
    obtain ⟨hid, hnextState⟩ := start_ok hnext
    obtain ⟨-, -, hcharge⟩ := executionIdentity_eq hid
    refine .inr (.inl ⟨maximum, next, hmaximum, hfresh, hid, ?_, ?_, rfl⟩)
    · rw [hnextState]
      exact not_not.mp hstate
    · omega
  · rename_i prior hprior
    unfold transition
    split
    · exact .inl rfl
    split
    · exact .inl rfl
    split
    · split <;> exact .inl rfl
    rename_i hreserved
    split
    · exact .inl rfl
    rename_i hstate
    split
    · exact .inl rfl
    · rename_i next hnext
      obtain ⟨hid, hnextState⟩ := settle_ok hnext
      exact .inr (.inr ⟨_, prior, next, hprior, not_not.mp hreserved, hid,
        by rw [hnextState]; exact hstate, rfl⟩)

/-- **Reconciling** settles one reservation after the other. -/
theorem reconcileExpired_induction {P : MemoryActiveExecutionReservationStore → Prop}
    (hsettles : ∀ s s', P s → Settles s s' → P s') (now : ClockReading) (hs : P s) :
    P (s.reconcileExpired now).2 := by
  refine OrderedMap.updateEach_induction (closeExpired now) (P := fun m => P ⟨m⟩) ?_ hs
  intro m key prior next hm hprior hnext
  unfold closeExpired at hnext
  split at hnext
  · rename_i hdue
    cases hsettle : settle prior .closed_uncertain now with
    | error e =>
      rw [hsettle] at hnext
      cases hnext
    | ok closed =>
      rw [hsettle] at hnext
      obtain rfl : closed = next := by injection hnext with h; exact Option.some.inj h
      obtain ⟨hid, hstate⟩ := settle_ok hsettle
      exact hsettles _ _ hm ⟨key, prior, closed, hprior, hdue.1, hid, by rw [hstate]; decide, rfl⟩
  · cases hnext

/-- Settling a reservation gives the run something back, or nothing. -/
theorem Settles.consumed_le (h : Settles s s') (tenantId runId : String) :
    s'.consumedMilliseconds tenantId runId ≤ s.consumedMilliseconds tenantId runId := by
  obtain ⟨key, prior, next, hprior, hreserved, hid, -, rfl⟩ := h.settled
  refine OrderedMap.total_set_le _ _ hprior ?_
  obtain ⟨htenant, hrun, hcharge⟩ := executionIdentity_eq hid
  have hle := charge_le next
  rw [hcharge, ← charge_of_reserved hreserved] at hle
  simp only [OrderedMap.share, ofRun, htenant, hrun]
  by_cases hof : prior.tenantId = tenantId ∧ prior.runId = runId
  · simpa [hof] using hle
  · simp [hof]

/-- A reservation that is not reserved any more stays what it is. -/
def Keeps (s s' : MemoryActiveExecutionReservationStore) : Prop :=
  ∀ key r, s.get key = some r → r.state ≠ .reserved → s'.get key = some r

theorem Settles.keeps (h : Settles s s') : Keeps s s' := by
  obtain ⟨key, prior, next, hprior, hreserved, -, -, rfl⟩ := h.settled
  intro k r hr hstate
  rw [get, OrderedMap.get_set_of_ne]
  · exact hr
  · rintro rfl
    obtain rfl : prior = r := Option.some.inj (hprior.symm.trans hr)
    exact hstate hreserved

theorem step_keeps (s : MemoryActiveExecutionReservationStore) (call : ActiveExecutionCall) :
    Keeps s (s.step call) := by
  cases call with
  | putInTransaction input maximum now =>
    rcases s.putInTransaction_cases input maximum now with
      h | ⟨_, next, -, hfresh, -, -, -, h⟩ | h
    · intro k r hr _
      rwa [step, h]
    · intro k r hr _
      rw [step, h]
      exact OrderedMap.get_set_of_agree (.inl hfresh) hr
    · exact h.keeps
  | reconcileExpired now =>
    exact reconcileExpired_induction (P := Keeps s)
      (fun _ _ hs h k r hr hstate => h.keeps k r (hs k r hr hstate) hstate) now
      (fun _ _ hr _ => hr)

/-! ### The maximum of a run -/

theorem positiveSafeInteger_eq {number : JsNumber} {n : Nat}
    (h : number.positiveSafeInteger = some n) : number = JsNumber.ofRat n := by
  unfold JsNumber.positiveSafeInteger at h
  split at h
  · rename_i q
    split at h
    · rename_i hq
      obtain rfl := Option.some.inj h
      have hnum : ((q.num.toNat : Int) : ℚ) = q := by
        rw [Int.toNat_of_nonneg hq.2.1.le]
        exact Rat.coe_int_num_of_den_eq_one hq.1
      rw [JsNumber.ofRat, ← Int.cast_natCast, hnum]
      rfl
    · cases h
  · cases h

/-- The reservations of a run count no more than its maximum. -/
def Within (maximum : JsNumber) (tenantId runId : String)
    (s : MemoryActiveExecutionReservationStore) : Prop :=
  maximum.atLeast (.ofRat (s.consumedMilliseconds tenantId runId)) = true

theorem Within.mono {maximum : JsNumber} {tenantId runId : String}
    (h : Within maximum tenantId runId s)
    (hle : s'.consumedMilliseconds tenantId runId ≤ s.consumedMilliseconds tenantId runId) :
    Within maximum tenantId runId s' := by
  unfold Within JsNumber.atLeast JsNumber.ofRat at *
  cases maximum with
  | none => cases h
  | some m =>
    simp only [decide_eq_true_eq] at h ⊢
    refine le_trans ?_ h
    exact_mod_cast hle

/-- **The step lemma**: a put that passes the maximum keeps the run within it. -/
theorem step_within {maximum : JsNumber} {tenantId runId : String} (call : ActiveExecutionCall)
    (hcall : ∀ input passed now, call = .putInTransaction input passed now →
      input.tenantId = tenantId → input.runId = runId → passed = maximum)
    (hs : Within maximum tenantId runId s) : Within maximum tenantId runId (s.step call) := by
  cases call with
  | putInTransaction input passed now =>
    rcases s.putInTransaction_cases input passed now with
      h | ⟨m, next, hm, hfresh, hid, hreserved, hbudget, h⟩ | h
    · rwa [step, h]
    · rw [step, h]
      obtain ⟨htenant, hrun, -⟩ := executionIdentity_eq hid
      have htotal := OrderedMap.total_set_of_fresh (ofRun tenantId runId) (·.charge) next hfresh
      by_cases hof : ofRun tenantId runId next = true
      · obtain ⟨ht, hr⟩ := of_decide_eq_true hof
        rw [htenant] at ht
        rw [hrun] at hr
        subst ht hr
        obtain rfl := hcall input passed now rfl rfl rfl
        rw [OrderedMap.share, if_pos hof, charge_of_reserved hreserved] at htotal
        rw [Within, consumedMilliseconds, htotal, positiveSafeInteger_eq hm]
        simp only [JsNumber.atLeast, JsNumber.ofRat, decide_eq_true_eq]
        exact_mod_cast hbudget
      · -- a reservation of another run counts nothing here
        rw [OrderedMap.share, if_neg hof, Nat.add_zero] at htotal
        exact hs.mono htotal.le
    · exact hs.mono (h.consumed_le tenantId runId)
  | reconcileExpired now =>
    exact reconcileExpired_induction (P := Within maximum tenantId runId)
      (fun _ _ hs h => hs.mono (h.consumed_le tenantId runId)) now hs

/-- The run lemma. -/
theorem after_within {maximum : JsNumber} {tenantId runId : String}
    (hpositive : maximum.exceeds (.ofRat 0) = true) (calls : List ActiveExecutionCall)
    (hcalls : ∀ input passed now, .putInTransaction input passed now ∈ calls →
      input.tenantId = tenantId → input.runId = runId → passed = maximum) :
    Within maximum tenantId runId (after calls) := by
  induction calls using List.reverseRecOn with
  | nil =>
    cases maximum with
    | none => cases hpositive
    | some m =>
      simp only [JsNumber.exceeds, JsNumber.ofRat, decide_eq_true_eq] at hpositive
      simpa [Within, JsNumber.atLeast, JsNumber.ofRat, after, empty, consumedMilliseconds]
        using hpositive.le
  | append_singleton calls call ih =>
    rw [after, List.foldl_append]
    refine step_within call (fun input passed now heq => ?_)
      (ih fun input passed now hmem => hcalls input passed now (List.mem_append_left _ hmem))
    exact hcalls input passed now (List.mem_append_right _ (by simp [heq]))

theorem after_append_keeps (calls later : List ActiveExecutionCall) :
    Keeps (after calls) (after (calls ++ later)) := by
  rw [after, after, List.foldl_append]
  exact Snapshotted.foldl_advances (R := Keeps) (fun _ _ _ hr _ => hr)
    (fun hst htu key r hr hstate => htu key r (hst key r hr hstate) hstate) step_keeps _ later

/-- A put that names a settled or closed reservation answers that one, or throws. -/
theorem putInTransaction_settled {input : ActiveExecutionFields} {r : ActiveExecution}
    (hr : s.get input.recordKey = some r) (hstate : r.state ≠ .reserved) (runMaximum : JsNumber)
    (now : ClockReading) :
    s.putInTransaction input runMaximum now = (.ok r, s) ∨
      ∃ e, s.putInTransaction input runMaximum now = (.error e, s) := by
  unfold putInTransaction
  split
  · exact .inr ⟨_, rfl⟩
  split
  · exact .inr ⟨_, rfl⟩
  rename_i requested hrequested
  have hfields := ActiveExecution.parse_ok hrequested
  subst hfields
  split
  · rename_i hfresh
    rw [get, hfresh] at hr
    cases hr
  · rename_i prior hprior
    obtain rfl : prior = r := Option.some.inj (hprior.symm.trans hr)
    unfold transition
    rw [if_pos hstate]
    split
    · exact .inl rfl
    split
    · exact .inr ⟨_, rfl⟩
    split
    · exact .inl rfl
    · exact .inr ⟨_, rfl⟩

/-- **The unit of work** puts with the maximum of the run's work order only. -/
theorem putActiveExecutionReservation_maximum (s : MemoryActiveExecutionReservationStore)
    (tenantId : String) (projection : Option RunProjection)
    (acceptedWorkOrder : String → Option WorkOrder) (reservation : ActiveExecutionFields)
    (runMaximum : JsNumber) (now : ClockReading) :
    (putActiveExecutionReservation tenantId projection acceptedWorkOrder s reservation runMaximum
        now).2 = s ∨
      ∃ run workOrder, projection = some run ∧ acceptedWorkOrder run.workOrderId = some workOrder ∧
        runMaximum = JsNumber.ofRat workOrder.budget.maxActiveExecutionMs ∧
        putActiveExecutionReservation tenantId projection acceptedWorkOrder s reservation
          runMaximum now = s.putInTransaction reservation runMaximum now := by
  unfold putActiveExecutionReservation
  split
  · exact .inl rfl
  split
  · rename_i run workOrder hworkOrder
    split
    · exact .inl rfl
    · rename_i hbound
      rw [not_or, not_not, not_not] at hbound
      exact .inr ⟨run, workOrder, rfl, hworkOrder, hbound.2.symm, rfl⟩
  · exact .inl rfl

/-- **Active execution is never overdrawn.**  After every sequence of calls, whatever the clock
answers them: a run whose puts all pass one positive maximum, as those of the unit of work do,
counts no more than it; a reservation that is settled or closed has shared its maximum out, and
refunds nothing if it is closed as uncertain; no later call changes it, and another settlement of
it only answers it again. -/
theorem active_execution_bounded (calls : List ActiveExecutionCall) :
    (∀ maximum : JsNumber, maximum.exceeds (.ofRat 0) = true → ∀ tenantId runId,
      (∀ input passed now, .putInTransaction input passed now ∈ calls →
        input.tenantId = tenantId → input.runId = runId → passed = maximum) →
      maximum.atLeast (.ofRat ((after calls).consumedMilliseconds tenantId runId)) = true) ∧
    (∀ tenantId projection acceptedWorkOrder reservation runMaximum now,
      (putActiveExecutionReservation tenantId projection acceptedWorkOrder (after calls)
          reservation runMaximum now).2 = after calls ∨
        ∃ run workOrder, projection = some run ∧
          acceptedWorkOrder run.workOrderId = some workOrder ∧
          runMaximum = JsNumber.ofRat workOrder.budget.maxActiveExecutionMs ∧
          putActiveExecutionReservation tenantId projection acceptedWorkOrder (after calls)
            reservation runMaximum now =
          (after calls).putInTransaction reservation runMaximum now) ∧
    (∀ key r, (after calls).get key = some r → r.state ≠ .reserved →
      (∃ settled refunded, r.settledChargeMs = some settled ∧ r.refundedMs = some refunded ∧
        settled + refunded = r.maxChargeMs ∧ settled ≤ r.maxChargeMs ∧
        (r.state = .closed_uncertain → refunded = 0)) ∧
      ∀ later, (after (calls ++ later)).get key = some r) ∧
    ∀ input r, (after calls).get input.recordKey = some r → r.state ≠ .reserved →
      ∀ runMaximum now,
        ((after calls).putInTransaction input runMaximum now).2 = after calls ∧
          ∀ answer, ((after calls).putInTransaction input runMaximum now).1 = .ok answer →
            answer = r := by
  refine ⟨fun maximum hpositive tenantId runId => after_within hpositive calls,
    putActiveExecutionReservation_maximum _, fun key r hr hstate => ⟨?_, fun later => ?_⟩,
    fun input r hr hstate runMaximum now => ?_⟩
  · obtain ⟨settled, refunded, hsettled, hrefunded, hsum, huncertain⟩ := r.settlement hstate
    exact ⟨settled, refunded, hsettled, hrefunded, hsum, by omega, huncertain⟩
  · exact after_append_keeps calls later key r hr hstate
  · rcases putInTransaction_settled hr hstate runMaximum now with h | ⟨e, h⟩
    · rw [h]
      exact ⟨rfl, fun answer hanswer => (Except.ok.inj hanswer).symm⟩
    · rw [h]
      exact ⟨rfl, fun _ hanswer => by cases hanswer⟩

end MemoryActiveExecutionReservationStore

end Pactmark
