import Mathlib.Data.Rat.Cast.Order
import Pactmark.Core.Reservations
import Pactmark.Durable.Snapshots
import Pactmark.Durable.Totals

/-!
# Stores — model calls

`MemoryModelCallReservationStore` of `store-memory/src/resource-reservations.ts`.  The quotas of a
tenant are checked when a reservation is made, against what the reservations of the tenant and the
profile are charged then; a settlement is checked against the maxima of its own reservation.  A
reservation without a maximum of costs counts no costs, and its settlement may charge any.

* `putInTransaction_cases`: a put changes nothing, makes a reservation within the quotas, or moves
  one along the transitions of its status.
* `charge_le`: a move does not raise the tokens and the bytes, nor the costs where a maximum is
  declared.
* `model_calls_bounded`: what holds after every sequence of puts.
-/

namespace Pactmark

open Durable Reservation

/-- `recordKey(tenantId, runId, stepId, String(attempt))`. -/
abbrev ModelCallRecordKey := String × String × String × Nat

/-- The key a reservation is stored under. -/
def Reservation.CallIdentity.recordKey (r : CallIdentity) : ModelCallRecordKey :=
  (r.tenantId, r.runId, r.stepId, r.attempt)

/-- The metrics of a model call. -/
inductive ModelMetric where
  | model_tokens
  | model_io_bytes
  | model_cost_minor
  deriving DecidableEq, Repr

/-- The metric of a quota limit. -/
def ModelMetric.quotaMetric : ModelMetric → QuotaMetric
  | .model_tokens => .model_tokens
  | .model_io_bytes => .model_io_bytes
  | .model_cost_minor => .model_cost_minor

/-- The name of a metric. -/
def ModelMetric.text : ModelMetric → String
  | .model_tokens => "model_tokens"
  | .model_io_bytes => "model_io_bytes"
  | .model_cost_minor => "model_cost_minor"

namespace MemoryModelCallReservationStore

/-- The maximum a reservation declares, and counts until it is settled. -/
def reservedMaximum (metric : ModelMetric) (r : ModelCall) : Nat :=
  match metric with
  | .model_tokens => r.inputTokenUpperBound + r.outputTokenMaximum
  | .model_io_bytes => r.inputBytes + r.outputBytesMaximum.getD 0
  | .model_cost_minor => r.maximumCallCostMinor.getD 0

/-- What a settlement charges. -/
def settledCharge (metric : ModelMetric) (settlement : ModelCallSettlement) : Nat :=
  match metric with
  | .model_tokens => settlement.chargedTokens
  | .model_io_bytes => settlement.chargedIoBytes
  | .model_cost_minor => settlement.chargedCostMinor.getD 0

/-- What a reservation adds to `used`. -/
def charge (metric : ModelMetric) (r : ModelCall) : Nat :=
  if r.status = .expired then 0
  else
    match r.status, r.settlement with
    | .settled, some settlement => settledCharge metric settlement
    | _, _ => reservedMaximum metric r

end MemoryModelCallReservationStore

/-- `MemoryModelCallReservationStore`. -/
structure MemoryModelCallReservationStore where
  limits : List QuotaLimit
  reservations : OrderedMap ModelCallRecordKey ModelCall

namespace MemoryModelCallReservationStore

/-- `new MemoryModelCallReservationStore(limits)`. -/
def create (limits : List QuotaLimit) : MemoryModelCallReservationStore :=
  ⟨limits, .empty⟩

/-- `get`. -/
def get (s : MemoryModelCallReservationStore) (key : ModelCallRecordKey) : Option ModelCall :=
  s.reservations.get key

/-- The first limit of the tenant for a metric and a profile. -/
def limit (s : MemoryModelCallReservationStore) (metric : ModelMetric) (profile : Digest) :
    Option QuotaLimit :=
  s.limits.find? fun candidate => candidate.scope = .tenant ∧
    candidate.metric = metric.quotaMetric ∧
    (candidate.resourceKey = profile ∨ candidate.resourceKey = "*")

/-- The reservations of a tenant and a profile. -/
def ofProfile (tenantId : String) (profile : Digest) (r : ModelCall) : Bool :=
  r.tenantId = tenantId ∧ r.modelSecurityProfileDigest = profile

/-- `used`. -/
def used (s : MemoryModelCallReservationStore) (metric : ModelMetric) (tenantId : String)
    (profile : Digest) : Nat :=
  s.reservations.total (ofProfile tenantId profile) (charge metric)

/-- `maximums`: a reservation without a maximum of costs is not checked for costs. -/
def maximums (next : ModelCall) : List (ModelMetric × Nat) :=
  [(.model_tokens, reservedMaximum .model_tokens next),
    (.model_io_bytes, reservedMaximum .model_io_bytes next)] ++
  match next.maximumCallCostMinor with
  | some maximum => [(.model_cost_minor, maximum)]
  | none => []

/-- The limit that a maximum exceeds, with what is used already. -/
def exceededLimit (s : MemoryModelCallReservationStore) (next : ModelCall)
    (entry : ModelMetric × Nat) : Option QuotaLimit :=
  (s.limit entry.1 next.modelSecurityProfileDigest).filter fun limit =>
    limit.maximum < (s.used entry.1 next.tenantId next.modelSecurityProfileDigest + entry.2 : Nat)

/-- The refusal of the first maximum that exceeds its limit. -/
def quotaRefusal (s : MemoryModelCallReservationStore) (next : ModelCall) : Option Thrown :=
  (maximums next).findSome? fun entry => (s.exceededLimit next entry).map fun limit =>
    .kaf
      { code := .KAF_ADMISSION_DENIED
        details :=
          { others := [("retryAfterSeconds", toString limit.retryAfterSeconds),
              ("metric", entry.1.text)] } }

/-- `allowed`. -/
def allowed : CallStatus → CallStatus → Bool
  | .accepted, .dispatched | .accepted, .settled | .accepted, .expired => true
  | .dispatched, .settled | .dispatched, .uncertain => true
  | _, _ => false

/-- The check of a settled cost: nothing is checked without a declared maximum. -/
def costExceeds (next : ModelCall) (settlement : ModelCallSettlement) : Bool :=
  match next.maximumCallCostMinor, settlement.chargedCostMinor with
  | none, _ => false
  | some _, none => true
  | some maximum, some cost => cost > maximum ∨ settlement.currency ≠ next.currency

/-- The check of a settlement. -/
def settlementExceeds (next : ModelCall) : Bool :=
  match next.settlement with
  | none => false
  | some settlement =>
      settlement.chargedTokens > reservedMaximum .model_tokens next ∨
        (next.outputBytesMaximum.isSome ∧
          settlement.chargedIoBytes > reservedMaximum .model_io_bytes next) ∨
        costExceeds next settlement

/-- `putInTransaction`. -/
def putInTransaction (s : MemoryModelCallReservationStore) (next : ModelCall) :
    Except Thrown ModelCall × MemoryModelCallReservationStore :=
  match s.reservations.get next.recordKey with
  | none =>
      if next.status ≠ .accepted then
        (.error (conflict "model_reservation_must_start_accepted"), s)
      else if next.outputBytesMaximum = none then
        (.error (conflict "model_reservation_io_maximum_required"), s)
      else
        match s.quotaRefusal next with
        | some e => (.error e, s)
        | none => (.ok next, { s with reservations := s.reservations.set next.recordKey next })
  | some prior =>
      if prior = next then (.ok prior, s)
      else if prior.toCallIdentity ≠ next.toCallIdentity then
        (.error (conflict "model_reservation_binding_changed"), s)
      else if ¬ allowed prior.status next.status then
        (.error (conflict "model_reservation_transition_changed"), s)
      else if settlementExceeds next then
        (.error (conflict "model_reservation_settlement_exceeds_maximum"), s)
      else (.ok next, { s with reservations := s.reservations.set next.recordKey next })

/-- What a sequence of puts leaves. -/
def after (limits : List QuotaLimit) (puts : List ModelCall) : MemoryModelCallReservationStore :=
  puts.foldl (fun s next => (s.putInTransaction next).2) (create limits)

/-! ### What a put does -/

variable {s : MemoryModelCallReservationStore} {prior next : ModelCall} {metric : ModelMetric}

/-- `next` moves a stored reservation along the transitions of its status. -/
structure Moves (s : MemoryModelCallReservationStore) (prior next : ModelCall) : Prop where
  stored : s.get next.recordKey = some prior
  identity : prior.toCallIdentity = next.toCallIdentity
  allowed : allowed prior.status next.status = true
  within : settlementExceeds next = false

/-- **A put** changes nothing, makes a reservation within the quotas, or moves one. -/
theorem putInTransaction_cases (s : MemoryModelCallReservationStore) (next : ModelCall) :
    (s.putInTransaction next).2 = s ∨
      (s.putInTransaction next).2 =
          { s with reservations := s.reservations.set next.recordKey next } ∧
        ((s.get next.recordKey = none ∧ next.status = .accepted ∧
            next.outputBytesMaximum.isSome ∧ s.quotaRefusal next = none) ∨
          ∃ prior, Moves s prior next) := by
  unfold putInTransaction
  split
  · rename_i hfresh
    split
    · exact .inl rfl
    rename_i haccepted
    split
    · exact .inl rfl
    rename_i houtput
    split
    · exact .inl rfl
    · rename_i hquota
      exact .inr ⟨rfl, .inl ⟨hfresh, not_not.mp haccepted, Option.isSome_iff_ne_none.mpr houtput,
        hquota⟩⟩
  · rename_i prior hprior
    split
    · exact .inl rfl
    split
    · exact .inl rfl
    rename_i hidentity
    split
    · exact .inl rfl
    rename_i hallowed
    split
    · exact .inl rfl
    · rename_i hwithin
      exact .inr ⟨rfl, .inr ⟨prior, hprior, not_not.mp hidentity, by simpa using hallowed,
        by simpa using hwithin⟩⟩

/-- The settlement charges costs only where the reservation declares a maximum of them. -/
def CostDeclared (next : ModelCall) : Prop :=
  ∀ settlement ∈ next.settlement, settlement.chargedCostMinor.isSome →
    next.maximumCallCostMinor.isSome

/-- A reservation that can still move counts the maximum it declares. -/
theorem charge_of_allowed {status : CallStatus} (h : allowed prior.status status = true) :
    charge metric prior = reservedMaximum metric prior := by
  unfold charge
  cases hs : prior.status <;> simp_all [allowed]

theorem settledCharge_le {settlement : ModelCallSettlement}
    (hsettlement : next.settlement = some settlement) (hwithin : settlementExceeds next = false)
    (houtput : next.outputBytesMaximum.isSome)
    (hcost : metric = .model_cost_minor → CostDeclared next) :
    settledCharge metric settlement ≤ reservedMaximum metric next := by
  simp only [settlementExceeds, hsettlement, houtput, true_and, decide_eq_false_iff_not, not_or,
    not_lt, gt_iff_lt] at hwithin
  obtain ⟨htokens, hio, hcosts⟩ := hwithin
  cases metric with
  | model_tokens => exact htokens
  | model_io_bytes => exact hio
  | model_cost_minor =>
    have hdeclared := hcost rfl settlement hsettlement
    simp only [settledCharge, reservedMaximum]
    cases hcharged : settlement.chargedCostMinor with
    | none => exact Nat.zero_le _
    | some cost =>
      obtain ⟨maximum, hmaximum⟩ := Option.isSome_iff_exists.mp (hdeclared (by rw [hcharged]; rfl))
      simp only [costExceeds, hmaximum, hcharged] at hcosts
      rw [hmaximum]
      simp only [Option.getD_some]
      simp at hcosts
      exact hcosts.1

/-- **A move raises no charge**, of costs only where a maximum is declared. -/
theorem charge_le_of_allowed (hidentity : prior.toCallIdentity = next.toCallIdentity)
    (hallowed : allowed prior.status next.status = true) (hwithin : settlementExceeds next = false)
    (houtput : next.outputBytesMaximum.isSome)
    (hcost : metric = .model_cost_minor → CostDeclared next) :
    charge metric next ≤ charge metric prior := by
  have hmaximum : reservedMaximum metric next = reservedMaximum metric prior := by
    cases metric <;> simp only [reservedMaximum, hidentity]
  rw [charge_of_allowed hallowed, ← hmaximum]
  unfold charge
  split
  · exact Nat.zero_le _
  split
  · rename_i settlement _ hsettlement
    exact settledCharge_le hsettlement hwithin houtput hcost
  · exact le_rfl

theorem charge_le (h : Moves s prior next) (houtput : next.outputBytesMaximum.isSome)
    (hcost : metric = .model_cost_minor → CostDeclared next) :
    charge metric next ≤ charge metric prior :=
  charge_le_of_allowed h.identity h.allowed h.within houtput hcost

/-- A maximum that is not refused fits under the limit of its metric. -/
theorem within_of_quotaRefusal (h : s.quotaRefusal next = none) {entry : ModelMetric × Nat}
    (hentry : entry ∈ maximums next) {limit : QuotaLimit}
    (hlimit : s.limit entry.1 next.modelSecurityProfileDigest = some limit) :
    ((s.used entry.1 next.tenantId next.modelSecurityProfileDigest + entry.2 : Nat) : ℚ) ≤
      limit.maximum := by
  have := List.findSome?_eq_none_iff.mp h entry hentry
  rw [Option.map_eq_none_iff, exceededLimit, hlimit] at this
  simpa [Option.filter] using this

/-! ### What a sequence of puts keeps -/

/-- Every stored reservation declares a maximum of output bytes. -/
def Outputs (s : MemoryModelCallReservationStore) : Prop :=
  ∀ key r, s.get key = some r → r.outputBytesMaximum.isSome

/-- What is used of a metric is within its limit. -/
def Bounded (metric : ModelMetric) (tenantId : String) (profile : Digest)
    (s : MemoryModelCallReservationStore) : Prop :=
  ∀ limit, s.limit metric profile = some limit →
    (s.used metric tenantId profile : ℚ) ≤ limit.maximum

theorem Moves.output (h : Moves s prior next) (hs : Outputs s) :
    next.outputBytesMaximum.isSome := by
  rw [← h.identity]
  exact hs _ prior h.stored

theorem Outputs.put (hs : Outputs s) (next : ModelCall) : Outputs (s.putInTransaction next).2 := by
  rcases putInTransaction_cases s next with heq | ⟨heq, hcases⟩
  · rwa [heq]
  · rw [heq]
    intro key r hr
    rw [get, OrderedMap.get_set] at hr
    split at hr
    · obtain rfl := Option.some.inj hr
      rcases hcases with ⟨-, -, houtput, -⟩ | ⟨prior, hmove⟩
      · exact houtput
      · exact hmove.output hs
    · exact hs key r hr

/-- A new reservation counts the maximum that is checked, or no costs. -/
theorem charge_new (haccepted : next.status = .accepted) :
    (metric, charge metric next) ∈ maximums next ∨ charge metric next = 0 := by
  have hcharge : charge metric next = reservedMaximum metric next := by
    simp [charge, haccepted]
  rw [hcharge]
  cases metric with
  | model_tokens => exact .inl (by simp [maximums])
  | model_io_bytes => exact .inl (by simp [maximums])
  | model_cost_minor =>
    cases hcost : next.maximumCallCostMinor with
    | none => exact .inr (by simp [reservedMaximum, hcost])
    | some maximum => exact .inl (by simp [maximums, reservedMaximum, hcost])

/-- **The step lemma** of the quotas. -/
theorem Bounded.put {tenantId : String} {profile : Digest} (h : Bounded metric tenantId profile s)
    (hs : Outputs s) (hcost : metric = .model_cost_minor → CostDeclared next) :
    Bounded metric tenantId profile (s.putInTransaction next).2 := by
  rcases putInTransaction_cases s next with heq | ⟨heq, hcases⟩
  · rwa [heq]
  rw [heq]
  intro limit hlimit
  rcases hcases with ⟨hfresh, haccepted, -, hquota⟩ | ⟨prior, hmove⟩
  · have htotal := OrderedMap.total_set_of_fresh (ofProfile tenantId profile) (charge metric) next
      hfresh
    rw [used, htotal]
    by_cases hof : ofProfile tenantId profile next = true
    · rw [OrderedMap.share, if_pos hof]
      obtain ⟨rfl, rfl⟩ := of_decide_eq_true hof
      rcases charge_new haccepted with hentry | hzero
      · exact within_of_quotaRefusal hquota hentry hlimit
      · rw [hzero]
        exact h limit hlimit
    · rw [OrderedMap.share, if_neg hof]
      exact h limit hlimit
  · refine le_trans ?_ (h limit hlimit)
    have hle := charge_le hmove (hmove.output hs) hcost
    have hsame : ofProfile tenantId profile next = ofProfile tenantId profile prior := by
      simp only [ofProfile, hmove.identity]
    refine Nat.cast_le.mpr (OrderedMap.total_set_le _ _ hmove.stored ?_)
    rw [OrderedMap.share, OrderedMap.share, hsame]
    split
    · exact hle
    · exact le_rfl

theorem after_snoc (limits : List QuotaLimit) (puts : List ModelCall) (next : ModelCall) :
    after limits (puts ++ [next]) = ((after limits puts).putInTransaction next).2 := by
  rw [after, after, List.foldl_append]
  rfl

theorem after_outputs (limits : List QuotaLimit) (puts : List ModelCall) :
    Outputs (after limits puts) := by
  induction puts using List.reverseRecOn with
  | nil => exact fun key r hr => by cases hr
  | append_singleton puts next ih =>
    rw [after_snoc]
    exact ih.put next

theorem after_limits (limits : List QuotaLimit) (puts : List ModelCall) :
    (after limits puts).limits = limits := by
  induction puts using List.reverseRecOn with
  | nil => rfl
  | append_singleton puts next ih =>
    rw [after_snoc]
    rcases putInTransaction_cases (after limits puts) next with heq | ⟨heq, -⟩
    · rw [heq, ih]
    · rw [heq]
      exact ih

/-- The run lemma. -/
theorem after_bounded {limits : List QuotaLimit} {puts : List ModelCall}
    (hcost : metric = .model_cost_minor → ∀ next ∈ puts, CostDeclared next) (tenantId : String)
    (profile : Digest) : Bounded metric tenantId profile (after limits puts) := by
  induction puts using List.reverseRecOn with
  | nil =>
    intro limit _
    simpa [used, after, create] using limit.maximum_pos.le
  | append_singleton puts next ih =>
    rw [after_snoc]
    refine (ih fun hm x hx => hcost hm x (List.mem_append_left _ hx)).put (after_outputs _ _)
      fun hm => hcost hm next (by simp)

/-- A reservation that is settled, uncertain or expired. -/
def final (status : CallStatus) : Bool :=
  status = .settled ∨ status = .uncertain ∨ status = .expired

/-- A reservation is there still, is the same reservation, and is unchanged if it was final. -/
def Keeps (s s' : MemoryModelCallReservationStore) : Prop :=
  ∀ key r, s.get key = some r → ∃ r', s'.get key = some r' ∧
    r'.toCallIdentity = r.toCallIdentity ∧ (final r.status = true → r' = r)

theorem Keeps.trans {s t u : MemoryModelCallReservationStore} (hst : Keeps s t)
    (htu : Keeps t u) : Keeps s u := by
  intro key r hr
  obtain ⟨r', hr', hid, hfinal⟩ := hst key r hr
  obtain ⟨r'', hr'', hid', hfinal'⟩ := htu key r' hr'
  refine ⟨r'', hr'', hid'.trans hid, fun h => ?_⟩
  obtain rfl := hfinal h
  exact hfinal' h

/-- **What a put does to a status**: a new reservation is accepted, and one that was there keeps
its identity and stays as it is or moves along the transitions. -/
theorem put_status (s : MemoryModelCallReservationStore) (next : ModelCall)
    (key : ModelCallRecordKey) :
    (∀ r, s.get key = none → (s.putInTransaction next).2.get key = some r →
      r.status = .accepted) ∧
    ∀ r, s.get key = some r → ∃ r', (s.putInTransaction next).2.get key = some r' ∧
      r'.toCallIdentity = r.toCallIdentity ∧
      (r' = r ∨ allowed r.status r'.status = true) := by
  rcases putInTransaction_cases s next with heq | ⟨heq, hcases⟩
  · rw [heq]
    exact ⟨fun r hnone hr => (by rw [hnone] at hr; cases hr),
      fun r hr => ⟨r, hr, rfl, .inl rfl⟩⟩
  rw [heq, get, get, OrderedMap.get_set]
  split
  · rename_i hkey
    subst hkey
    rcases hcases with ⟨hfresh, haccepted, -, -⟩ | ⟨prior, hmove⟩
    · refine ⟨fun r _ hr => ?_, fun r hr => ?_⟩
      · obtain rfl := Option.some.inj hr
        exact haccepted
      · rw [get, hr] at hfresh
        cases hfresh
    · have hstored := hmove.stored
      refine ⟨fun r hnone => ?_, fun r hr => ⟨next, rfl, ?_, .inr ?_⟩⟩
      · rw [get, hnone] at hstored
        cases hstored
      · obtain rfl : prior = r := Option.some.inj (hstored.symm.trans hr)
        exact hmove.identity.symm
      · obtain rfl : prior = r := Option.some.inj (hstored.symm.trans hr)
        exact hmove.allowed
  · exact ⟨fun r hnone hr => (by rw [hnone] at hr; cases hr),
      fun r hr => ⟨r, hr, rfl, .inl rfl⟩⟩

theorem not_allowed_of_final {status status' : CallStatus} (h : final status = true) :
    allowed status status' = false := by
  cases status <;> simp_all [final, allowed]

theorem put_keeps (s : MemoryModelCallReservationStore) (next : ModelCall) :
    Keeps s (s.putInTransaction next).2 := by
  intro key r hr
  obtain ⟨r', hr', hid, hmoved⟩ := (put_status s next key).2 r hr
  refine ⟨r', hr', hid, fun hfinal => ?_⟩
  rcases hmoved with rfl | hallowed
  · rfl
  · rw [not_allowed_of_final hfinal] at hallowed
    cases hallowed

theorem after_keeps (limits : List QuotaLimit) (before later : List ModelCall) :
    Keeps (after limits before) (after limits (before ++ later)) := by
  rw [after, after, List.foldl_append]
  exact Snapshotted.foldl_advances (R := Keeps) (fun _ _ r hr => ⟨r, hr, rfl, fun _ => rfl⟩)
    Keeps.trans put_keeps _ later

/-- A reservation that declares no maximum of costs. -/
def uncosted : CallIdentity where
  reservationId := "reservation"
  tenantId := "tenant"
  runId := "run"
  stepId := "step"
  attempt := 1
  workOrderBindingDigest := "sha256:w"
  agentDefinitionDigest := "sha256:a"
  modelSecurityProfileDigest := "sha256:p"
  modelResourceProfileDigest := "sha256:r"
  modelAdapterRegistrationDigest := "sha256:m"
  inputBytes := 1
  inputTokenUpperBound := 1
  outputTokenMaximum := 1
  outputBytesMaximum := some 1
  maximumCallCostMinor := none
  currency := none
  expiresAt := ⟨"1970-01-01T00:01:00.000Z", 60000⟩
  createdAt := ⟨"1970-01-01T00:00:00.000Z", 0⟩

/-- It is accepted, -/
def uncostedAccepted : ModelCall :=
  { uncosted with
    status := .accepted
    settlement := none
    cost_currency := rfl
    settled_iff := by decide }

/-- and settled with costs of a hundred. -/
def uncostedSettled : ModelCall :=
  { uncosted with
    status := .settled
    settlement := some
      { inputBytes := 1
        inputTokenLowerBound := 1
        outputBytes := 1
        outputTokenLowerBound := 1
        chargedTokens := 2
        chargedIoBytes := 2
        chargedCostMinor := some 100
        currency := some "EUR"
        settledAt := ⟨"1970-01-01T00:00:01.000Z", 1000⟩
        cost_currency := rfl }
    cost_currency := rfl
    settled_iff := by decide }

/-- A limit of ten for all profiles. -/
def costLimit : QuotaLimit :=
  ⟨.tenant, .model_cost_minor, "*", 10, by norm_num, 60⟩

end MemoryModelCallReservationStore

end Pactmark
