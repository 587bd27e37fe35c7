import Mathlib.Data.Rat.Cast.Order
import Pactmark.Durable.Operations
import Pactmark.Durable.Snapshots
import Pactmark.Stores.ActiveExecution

/-!
# Stores — admission quotas

`MemoryQuotaStore` of `store-memory/src/resource-reservations.ts`.  The clock is what each call
reads; the limits and the digest of a request are parameters.  Expired reservations are found when
the next request is made, and a restore copies the snapshot.

* `admissionId_inj`: the number at the end of an identity is that of its reservation.
* `reserve_cases`: a request is replayed, refused, or reserved within the limit under a new
  identity.
* `Coherent.step`, `Bounded.step`, `Keeps.step`: what every operation keeps.
* `admission_bounded`: what holds in every state, whatever was restored.
-/

namespace Pactmark

open Durable Reservation

/-! ### Requests and reservations -/

/-- What a replay key is the record key of. -/
abbrev AdmissionReplayKey := String × Principal × String × AdmissionCategory × String

/-- `admissionReplayKey`. -/
def Reservation.AdmissionRequest.admissionReplayKey (request : AdmissionRequest) :
    Option AdmissionReplayKey :=
  request.commandId.map fun commandId =>
    (request.tenantId, request.principal, commandId, request.category, request.resourceKey)

/-- The replay key of the request a reservation was made for. -/
def Reservation.Admission.admissionReplayKey (r : Admission) : Option AdmissionReplayKey :=
  r.commandId.map fun commandId =>
    (r.tenantId, r.principal, commandId, r.category, r.resourceKey)

/-- `admission:${requestDigest}:${String(this.#nextReservation)}`. -/
def admissionId (requestDigest : Digest) (nextReservation : Nat) : String :=
  "admission:" ++ requestDigest ++ ":" ++ toString nextReservation

/-- `AdmissionDecision`. -/
inductive AdmissionDecision where
  | admitted (reservation : Admission)
  | denied (code : KafErrorCode) (retryAfterSeconds : Nat)

/-- `MemoryQuotaStore`, without its limits. -/
structure MemoryQuotaStore where
  reservations : OrderedMap String Admission
  replays : OrderedMap AdmissionReplayKey String
  nextReservation : Nat

namespace MemoryQuotaStore

/-- A store nothing was reserved in. -/
def empty : MemoryQuotaStore :=
  ⟨.empty, .empty, 1⟩

variable (limits : List QuotaLimit) (digestCanonicalJson : AdmissionRequest → Digest)

/-- `#limit`. -/
def limit (category : AdmissionCategory) (resourceKey : String) : Option QuotaLimit :=
  limits.find? fun limit => limit.metric = .category category ∧
    (limit.resourceKey = resourceKey ∨ limit.resourceKey = "*")

/-- The reservations that count against a limit: those of the principal alone, if that is its
scope. -/
def counts (limit : Option QuotaLimit) (tenantId : String) (principal : Principal)
    (category : AdmissionCategory) (resourceKey : String) (r : Admission) : Bool :=
  r.state = .reserved ∧ r.tenantId = tenantId ∧
    (limit.map (·.scope) = some .principal → r.principal = principal) ∧
    r.category = category ∧ r.resourceKey = resourceKey

/-- `used`. -/
def used (s : MemoryQuotaStore) (limit : Option QuotaLimit) (tenantId : String)
    (principal : Principal) (category : AdmissionCategory) (resourceKey : String) : Nat :=
  s.reservations.total (counts limit tenantId principal category resourceKey) (·.amount)

/-! ### The operations -/

/-- What `reconcileExpired` does with a reservation. -/
def expire (now : ClockReading) (r : Admission) : Except Thrown (Option Admission) :=
  if r.state = .reserved ∧ now.reaches r.leaseExpiresAt then
    .ok (some { r with state := .expired })
  else .ok none

/-- `reconcileExpiredInTransaction`. -/
def reconcileExpired (s : MemoryQuotaStore) (now : ClockReading) :
    Except Thrown Nat × MemoryQuotaStore :=
  let (changed, reservations) := s.reservations.updateEach (expire now)
  (changed, { s with reservations })

/-- The reservation that is made for a request. -/
def create (s : MemoryQuotaStore) (request : AdmissionRequest) (now : ClockReading) :
    Except Thrown Admission := do
  let leaseExpiresAt ← toISOString (now.milliseconds.map (· + request.leaseDurationMs))
  let reservedAtServerTime ← now.instant
  if ¬ isoRepresentable leaseExpiresAt then throw schemaRefused
  return {
    id := admissionId (digestCanonicalJson request) s.nextReservation
    tenantId := request.tenantId
    principal := request.principal
    commandId := request.commandId
    category := request.category
    resourceKey := request.resourceKey
    amount := request.amount
    amount_pos := request.amount_pos
    state := .reserved
    fencingToken := 1
    reservedAtServerTime
    leaseExpiresAt
    releasedAt := none }

/-- The answer to a request whose replay key is known. -/
def replay (s : MemoryQuotaStore) (priorId : String) (request : AdmissionRequest) :
    Except Thrown AdmissionDecision :=
  match s.reservations.get priorId with
  | none => .error (conflict "admission_replay_missing")
  | some prior =>
      if prior.admissionReplayKey = request.admissionReplayKey ∧ prior.amount = request.amount then
        .ok (.admitted prior)
      else .error (conflict "admission_replay_changed")

/-- The limit that a request exceeds. -/
def exceededLimit (s : MemoryQuotaStore) (request : AdmissionRequest) : Option QuotaLimit :=
  (limit limits request.category request.resourceKey).filter fun limit =>
    limit.maximum < (s.used limit request.tenantId request.principal request.category
      request.resourceKey + request.amount : Nat)

/-- What is written for a new reservation. -/
def add (s : MemoryQuotaStore) (request : AdmissionRequest) (reservation : Admission) :
    MemoryQuotaStore where
  reservations := s.reservations.set reservation.id reservation
  nextReservation := s.nextReservation + 1
  replays := match request.admissionReplayKey with
    | some replayKey => s.replays.set replayKey reservation.id
    | none => s.replays

/-- The answer to a new request. -/
def reserveNew (s : MemoryQuotaStore) (request : AdmissionRequest) (now : ClockReading) :
    Except Thrown AdmissionDecision × MemoryQuotaStore :=
  match s.exceededLimit limits request with
  | some limit => (.ok (.denied .KAF_ADMISSION_DENIED limit.retryAfterSeconds), s)
  | none =>
      match s.create digestCanonicalJson request now with
      | .error e => (.error e, s)
      | .ok reservation =>
          if (s.reservations.get reservation.id).any fun sameId => decide (sameId ≠ reservation) then
            (.error (conflict "admission_reservation_id_collision"), s)
          else (.ok (.admitted reservation), s.add request reservation)

/-- `reserveInTransaction`. -/
def reserve (s : MemoryQuotaStore) (request : AdmissionRequest) (now : ClockReading) :
    Except Thrown AdmissionDecision × MemoryQuotaStore :=
  let s := (s.reconcileExpired now).2
  match request.admissionReplayKey.bind s.replays.get with
  | some priorId => (s.replay priorId request, s)
  | none => s.reserveNew limits digestCanonicalJson request now

/-- `release`. -/
def release (s : MemoryQuotaStore) (tenantId reservationId : String) (fencingToken : Int)
    (releasedAt : DateTimeText) : Except Thrown Unit × MemoryQuotaStore :=
  match s.reservations.get reservationId with
  | none => (.error (conflict "admission_missing"), s)
  | some prior =>
      if prior.tenantId ≠ tenantId then (.error (conflict "admission_missing"), s)
      else if (prior.fencingToken : Int) ≠ fencingToken then
        (.error (conflict "admission_fence_changed"), s)
      else
        match prior.state with
        | .released =>
            if prior.releasedAt.map (·.text) = some releasedAt.text then (.ok (), s)
            else (.error (conflict "admission_release_changed"), s)
        | .expired => (.error (conflict "admission_not_releasable"), s)
        | .reserved =>
            match releasedAt.parsed with
            | none => (.error schemaRefused, s)
            | some instant =>
                (.ok (), { s with
                  reservations := s.reservations.set reservationId
                    { prior with state := .released, releasedAt := some instant } })

end MemoryQuotaStore

/-- An operation of the store, with the reading of the clock it makes. -/
inductive QuotaCall where
  | reserve (request : AdmissionRequest) (now : ClockReading)
  | release (tenantId reservationId : String) (fencingToken : Int) (releasedAt : DateTimeText)
  | reconcileExpired (now : ClockReading)

namespace MemoryQuotaStore

variable (limits : List QuotaLimit) (digestCanonicalJson : AdmissionRequest → Digest)

/-- What an operation leaves. -/
def step (s : MemoryQuotaStore) : QuotaCall → MemoryQuotaStore
  | .reserve request now => (s.reserve limits digestCanonicalJson request now).2
  | .release tenantId reservationId fencingToken releasedAt =>
      (s.release tenantId reservationId fencingToken releasedAt).2
  | .reconcileExpired now => (s.reconcileExpired now).2

/-- What a sequence of operations, snapshots and restores leaves. -/
def after (calls : List (SnapshotCall QuotaCall)) : MemoryQuotaStore :=
  (Snapshotted.run (step limits digestCanonicalJson) false empty calls).live

/-! ### Identities -/

/-- What follows the last separator of two equal lists is equal. -/
theorem eq_of_append_cons_eq {α : Type} {separator : α} {a b x y : List α} (hx : separator ∉ x)
    (hy : separator ∉ y) (h : a ++ separator :: x = b ++ separator :: y) : x = y := by
  induction a generalizing b with
  | nil =>
    cases b with
    | nil => simpa using h
    | cons c b =>
      -- the separator would be inside `x`
      simp only [List.nil_append, List.cons_append, List.cons.injEq] at h
      exact absurd (h.2 ▸ by simp) hx
  | cons c a ih =>
    cases b with
    | nil =>
      simp only [List.nil_append, List.cons_append, List.cons.injEq] at h
      exact absurd (h.2 ▸ by simp) hy
    | cons d b =>
      simp only [List.cons_append, List.cons.injEq] at h
      exact ih h.2

theorem colon_notMem_digits (n : Nat) : ':' ∉ (toString n).toList := by
  intro h
  rw [Nat.toString_eq_repr, Nat.repr_eq_ofList_toDigits, String.toList_ofList] at h
  have := Nat.isDigit_of_mem_toDigits (by decide) (by decide) h
  revert this
  decide

/-- **The number at the end of an identity** is that of its reservation. -/
theorem admissionId_inj {d d' : Digest} {n n' : Nat} (h : admissionId d n = admissionId d' n') :
    n = n' := by
  have hlist := congrArg String.toList h
  simp only [admissionId, String.toList_append] at hlist
  have hcolon : (":" : String).toList = [':'] := rfl
  rw [hcolon] at hlist
  simp only [List.append_assoc, List.singleton_append] at hlist
  rw [← List.append_assoc, ← List.append_assoc] at hlist
  have := eq_of_append_cons_eq (colon_notMem_digits n) (colon_notMem_digits n') hlist
  rw [Nat.toString_eq_repr, Nat.toString_eq_repr, Nat.repr_eq_ofList_toDigits,
    Nat.repr_eq_ofList_toDigits, String.toList_ofList, String.toList_ofList] at this
  simpa using congrArg (Nat.ofDigitChars 10 · 0) this

/-! ### What the operations do -/

/-- What a reservation keeps from when it is made. -/
def terms (r : Admission) : Admission :=
  { r with state := .reserved, releasedAt := none }

theorem terms_eq {r r' : Admission} (h : terms r = terms r') :
    r.id = r'.id ∧ r.tenantId = r'.tenantId ∧ r.principal = r'.principal ∧
      r.category = r'.category ∧ r.resourceKey = r'.resourceKey ∧ r.amount = r'.amount ∧
      r.admissionReplayKey = r'.admissionReplayKey := by
  simp only [terms, Admission.mk.injEq] at h
  obtain ⟨hid, htenant, hprincipal, hcommand, hcategory, hresource, hamount, -⟩ := h
  refine ⟨hid, htenant, hprincipal, hcategory, hresource, hamount, ?_⟩
  simp only [Admission.admissionReplayKey, htenant, hprincipal, hcommand, hcategory, hresource]

/-- One reservation that was reserved ends: it is released or expires. -/
structure Ends (s s' : MemoryQuotaStore) : Prop where
  ended : ∃ id prior next, s.reservations.get id = some prior ∧ prior.state = .reserved ∧
    terms next = terms prior ∧ next.state ≠ .reserved ∧
    s' = { s with reservations := s.reservations.set id next }

/-- **Reconciling** ends one reservation after the other. -/
theorem reconcileExpired_induction {s : MemoryQuotaStore} {P : MemoryQuotaStore → Prop}
    (hends : ∀ s s', P s → Ends s s' → P s') (now : ClockReading) (hs : P s) :
    P (s.reconcileExpired now).2 := by
  refine OrderedMap.updateEach_induction (expire now) (P := fun m => P { s with reservations := m })
    ?_ hs
  intro m id prior next hm hprior hnext
  unfold expire at hnext
  split at hnext
  · rename_i hdue
    obtain rfl := Option.some.inj (Except.ok.inj hnext)
    exact hends _ _ hm
      ⟨id, prior, { prior with state := .expired }, hprior, hdue.1, rfl, by simp, rfl⟩
  · cases hnext

variable {limits : List QuotaLimit} {digestCanonicalJson : AdmissionRequest → Digest}
  {s s' t : MemoryQuotaStore}

theorem create_ok {request : AdmissionRequest} {now : ClockReading} {r : Admission}
    (h : s.create digestCanonicalJson request now = .ok r) :
    r.id = admissionId (digestCanonicalJson request) s.nextReservation ∧
      r.tenantId = request.tenantId ∧ r.principal = request.principal ∧
      r.category = request.category ∧ r.resourceKey = request.resourceKey ∧
      r.amount = request.amount ∧ r.state = .reserved ∧
      r.admissionReplayKey = request.admissionReplayKey := by
  obtain ⟨leaseExpiresAt, -, h⟩ := bind_eq_ok.mp h
  obtain ⟨reservedAtServerTime, -, h⟩ := bind_eq_ok.mp h
  split at h
  · cases h
  · obtain rfl := Except.ok.inj h
    exact ⟨rfl, rfl, rfl, rfl, rfl, rfl, rfl, rfl⟩

/-- **A request** is replayed, or it adds nothing, or a reservation is made within the limit. -/
theorem reserve_cases (s : MemoryQuotaStore) (request : AdmissionRequest) (now : ClockReading) :
    (∃ priorId, request.admissionReplayKey.bind (s.reconcileExpired now).2.replays.get =
        some priorId ∧
      s.reserve limits digestCanonicalJson request now =
        ((s.reconcileExpired now).2.replay priorId request, (s.reconcileExpired now).2)) ∨
    (request.admissionReplayKey.bind (s.reconcileExpired now).2.replays.get = none ∧
      ((∃ answer, (∀ r, answer ≠ .ok (.admitted r)) ∧
          s.reserve limits digestCanonicalJson request now =
            (answer, (s.reconcileExpired now).2)) ∨
        ∃ r, (s.reconcileExpired now).2.create digestCanonicalJson request now = .ok r ∧
          (s.reconcileExpired now).2.exceededLimit limits request = none ∧
          s.reserve limits digestCanonicalJson request now =
            (.ok (.admitted r), (s.reconcileExpired now).2.add request r))) := by
  unfold reserve
  dsimp only
  split
  · rename_i priorId hprior
    exact .inl ⟨priorId, hprior, rfl⟩
  · rename_i hnone
    refine .inr ⟨hnone, ?_⟩
    unfold reserveNew
    split
    · exact .inl ⟨_, fun r h => (by cases h), rfl⟩
    rename_i hlimit
    split
    · exact .inl ⟨_, fun r h => (by cases h), rfl⟩
    rename_i r hr
    split
    · exact .inl ⟨_, fun r h => (by cases h), rfl⟩
    · exact .inr ⟨r, hr, hlimit, rfl⟩

/-- A release changes nothing, or ends a reservation. -/
theorem release_cases (s : MemoryQuotaStore) (tenantId reservationId : String) (token : Int)
    (releasedAt : DateTimeText) :
    (s.release tenantId reservationId token releasedAt).2 = s ∨
      Ends s (s.release tenantId reservationId token releasedAt).2 := by
  unfold release
  split
  · exact .inl rfl
  rename_i prior hprior
  split
  · exact .inl rfl
  split
  · exact .inl rfl
  split
  · split <;> exact .inl rfl
  · exact .inl rfl
  · rename_i hreserved
    split
    · exact .inl rfl
    · rename_i instant _
      exact .inr ⟨reservationId, prior,
        { prior with state := .released, releasedAt := some instant }, hprior, hreserved, rfl,
        by simp, rfl⟩

/-! ### The maps agree -/

/-- A reservation is stored under its identity, whose number was used, and a replay key leads to
the reservation that was made for it. -/
structure Coherent (s : MemoryQuotaStore) : Prop where
  ids : ∀ id r, s.reservations.get id = some r → r.id = id ∧
    ∃ digest number, number < s.nextReservation ∧ id = admissionId digest number
  replays : ∀ key id, s.replays.get key = some id →
    ∃ r, s.reservations.get id = some r ∧ r.admissionReplayKey = some key

/-- **The next identity is new.** -/
theorem Coherent.fresh (h : Coherent s) (digest : Digest) :
    s.reservations.get (admissionId digest s.nextReservation) = none := by
  rw [← Option.not_isSome_iff_eq_none]
  intro hsome
  obtain ⟨r, hr⟩ := Option.isSome_iff_exists.mp hsome
  obtain ⟨-, d, number, hlt, hid⟩ := h.ids _ r hr
  have := admissionId_inj hid
  omega

theorem Ends.get (h : Ends s s') (id : String) :
    s'.reservations.get id = s.reservations.get id ∨
      ∃ prior next, s.reservations.get id = some prior ∧ s'.reservations.get id = some next ∧
        prior.state = .reserved ∧ terms next = terms prior ∧ next.state ≠ .reserved := by
  obtain ⟨id', prior, next, hprior, hreserved, hterms, hstate, rfl⟩ := h.ended
  dsimp only
  rw [OrderedMap.get_set]
  split
  · rename_i hid
    subst hid
    exact .inr ⟨prior, next, hprior, rfl, hreserved, hterms, hstate⟩
  · exact .inl rfl

theorem Ends.replays (h : Ends s s') :
    s'.replays = s.replays ∧ s'.nextReservation = s.nextReservation := by
  obtain ⟨-, -, -, -, -, -, -, rfl⟩ := h.ended
  exact ⟨rfl, rfl⟩

theorem Coherent.ends (hs : Coherent s) (h : Ends s s') : Coherent s' where
  ids id r hr := by
    rw [h.replays.2]
    rcases h.get id with heq | ⟨prior, next, hprior, hnext, -, hterms, -⟩
    · exact hs.ids id r (heq ▸ hr)
    · obtain rfl : next = r := Option.some.inj (hnext.symm.trans hr)
      rw [(terms_eq hterms).1]
      exact hs.ids id prior hprior
  replays key id hid := by
    rw [h.replays.1] at hid
    obtain ⟨r, hr, hkey⟩ := hs.replays key id hid
    rcases h.get id with heq | ⟨prior, next, hprior, hnext, -, hterms, -⟩
    · exact ⟨r, heq.trans hr, hkey⟩
    · obtain rfl : prior = r := Option.some.inj (hprior.symm.trans hr)
      refine ⟨next, hnext, ?_⟩
      rw [(terms_eq hterms).2.2.2.2.2.2]
      exact hkey

/-- The replay keys of a store that has made a reservation. -/
theorem add_replays {request : AdmissionRequest} {r : Admission} (key : AdmissionReplayKey) :
    (s.add request r).replays.get key =
      if request.admissionReplayKey = some key then some r.id else s.replays.get key := by
  unfold add
  cases hkey : request.admissionReplayKey with
  | none => simp
  | some k =>
    simp only [OrderedMap.get_set, Option.some.injEq]
    by_cases h : key = k
    · simp [h]
    · simp [h, Ne.symm h]

theorem Coherent.add (hs : Coherent s) {request : AdmissionRequest} {now : ClockReading}
    {r : Admission} (hr : s.create digestCanonicalJson request now = .ok r) :
    Coherent (s.add request r) := by
  obtain ⟨hid, -, -, -, -, -, -, hkey⟩ := create_ok hr
  have hfresh := hs.fresh (digestCanonicalJson request)
  rw [← hid] at hfresh
  constructor
  · intro id x hx
    simp only [MemoryQuotaStore.add, OrderedMap.get_set] at hx ⊢
    split at hx
    · rename_i heq
      obtain rfl := Option.some.inj hx
      exact ⟨heq.symm, _, s.nextReservation, Nat.lt_succ_self _, heq.trans hid⟩
    · obtain ⟨hx', d, number, hlt, heq⟩ := hs.ids id x hx
      exact ⟨hx', d, number, by omega, heq⟩
  · intro key id hreplay
    rw [add_replays] at hreplay
    simp only [MemoryQuotaStore.add, OrderedMap.get_set]
    split at hreplay
    · rename_i hrequest
      obtain rfl := Option.some.inj hreplay
      exact ⟨r, if_pos rfl, hkey.trans hrequest⟩
    · obtain ⟨x, hx, hxkey⟩ := hs.replays key id hreplay
      refine ⟨x, ?_, hxkey⟩
      rw [if_neg]
      · exact hx
      · rintro rfl
        rw [hx] at hfresh
        cases hfresh

theorem Coherent.reconcile (hs : Coherent s) (now : ClockReading) :
    Coherent (s.reconcileExpired now).2 :=
  reconcileExpired_induction (fun _ _ hs h => hs.ends h) now hs

/-! ### What the operations keep -/

/-- Reservations and replay keys stay; only the state of a reservation changes, and only while it
is reserved. -/
structure Keeps (s s' : MemoryQuotaStore) : Prop where
  reservations : ∀ id r, s.reservations.get id = some r →
    ∃ r', s'.reservations.get id = some r' ∧ terms r' = terms r ∧
      (r.state ≠ .reserved → r' = r)
  replays : ∀ key id, s.replays.get key = some id → s'.replays.get key = some id

theorem Keeps.refl (s : MemoryQuotaStore) : Keeps s s :=
  ⟨fun _ r hr => ⟨r, hr, rfl, fun _ => rfl⟩, fun _ _ h => h⟩

theorem Keeps.trans (hst : Keeps s s') (htu : Keeps s' t) : Keeps s t where
  reservations id r hr := by
    obtain ⟨r', hr', hterms, hfinal⟩ := hst.reservations id r hr
    obtain ⟨r'', hr'', hterms', hfinal'⟩ := htu.reservations id r' hr'
    refine ⟨r'', hr'', hterms'.trans hterms, fun h => ?_⟩
    obtain rfl := hfinal h
    exact hfinal' h
  replays key id h := htu.replays key id (hst.replays key id h)

theorem Ends.keeps (h : Ends s s') : Keeps s s' where
  reservations id r hr := by
    rcases h.get id with heq | ⟨prior, next, hprior, hnext, hreserved, hterms, -⟩
    · exact ⟨r, heq.trans hr, rfl, fun _ => rfl⟩
    · obtain rfl : prior = r := Option.some.inj (hprior.symm.trans hr)
      exact ⟨next, hnext, hterms, fun hr => absurd hreserved hr⟩
  replays key id hid := by rwa [h.replays.1]

theorem reconcile_keeps (s : MemoryQuotaStore) (now : ClockReading) :
    Keeps s (s.reconcileExpired now).2 :=
  reconcileExpired_induction (P := Keeps s) (fun _ _ hs h => hs.trans h.keeps) now (Keeps.refl s)

theorem add_keeps (hs : Coherent s) {request : AdmissionRequest} {now : ClockReading}
    {r : Admission} (hr : s.create digestCanonicalJson request now = .ok r)
    (hnone : request.admissionReplayKey.bind s.replays.get = none) :
    Keeps s (s.add request r) where
  reservations id x hx := by
    refine ⟨x, ?_, rfl, fun _ => rfl⟩
    refine OrderedMap.get_set_of_agree (.inl ?_) hx
    rw [(create_ok hr).1]
    exact hs.fresh _
  replays key id hid := by
    rw [add_replays]
    split
    · rename_i hkey
      rw [hkey, Option.bind_some, hid] at hnone
      cases hnone
    · exact hid

/-- **The step lemma.** -/
theorem Coherent.step (hs : Coherent s) (call : QuotaCall) :
    Coherent (s.step limits digestCanonicalJson call) ∧
      Keeps s (s.step limits digestCanonicalJson call) := by
  cases call with
  | reserve request now =>
    have hreconciled := hs.reconcile now
    have hkeeps := reconcile_keeps s now
    rcases @reserve_cases limits digestCanonicalJson s request now with
      ⟨_, -, heq⟩ | ⟨hnone, ⟨_, -, heq⟩ | ⟨r, hr, -, heq⟩⟩
    · rw [MemoryQuotaStore.step, heq]
      exact ⟨hreconciled, hkeeps⟩
    · rw [MemoryQuotaStore.step, heq]
      exact ⟨hreconciled, hkeeps⟩
    · rw [MemoryQuotaStore.step, heq]
      exact ⟨hreconciled.add hr, hkeeps.trans (add_keeps hreconciled hr hnone)⟩
  | release tenantId reservationId token releasedAt =>
    rcases release_cases s tenantId reservationId token releasedAt with heq | h
    · rw [MemoryQuotaStore.step, heq]
      exact ⟨hs, Keeps.refl s⟩
    · exact ⟨hs.ends h, h.keeps⟩
  | reconcileExpired now => exact ⟨hs.reconcile now, reconcile_keeps s now⟩

theorem coherent_empty : Coherent empty :=
  ⟨fun _ _ h => (by cases h), fun _ _ h => (by cases h)⟩

/-! ### The limits -/

/-- What is reserved is within the first matching limit. -/
def Bounded (limits : List QuotaLimit) (s : MemoryQuotaStore) : Prop :=
  ∀ category resourceKey l, limit limits category resourceKey = some l →
    ∀ tenantId principal,
      (s.used (some l) tenantId principal category resourceKey : ℚ) ≤ l.maximum

theorem Ends.used_le (h : Ends s s') (l : Option QuotaLimit) (tenantId : String)
    (principal : Principal) (category : AdmissionCategory) (resourceKey : String) :
    s'.used l tenantId principal category resourceKey ≤
      s.used l tenantId principal category resourceKey := by
  obtain ⟨id, prior, next, hprior, -, -, hstate, rfl⟩ := h.ended
  refine OrderedMap.total_set_le _ _ hprior ?_
  have hnot : counts l tenantId principal category resourceKey next = false := by
    simp [counts, hstate]
  rw [OrderedMap.share, if_neg (by rw [hnot]; decide)]
  exact Nat.zero_le _

/-- **Reconciling charges nothing.** -/
theorem reconcile_used_le (s : MemoryQuotaStore) (now : ClockReading) (l : Option QuotaLimit)
    (tenantId : String) (principal : Principal) (category : AdmissionCategory)
    (resourceKey : String) :
    (s.reconcileExpired now).2.used l tenantId principal category resourceKey ≤
      s.used l tenantId principal category resourceKey :=
  reconcileExpired_induction
    (P := fun t => t.used l tenantId principal category resourceKey ≤
      s.used l tenantId principal category resourceKey)
    (fun _ _ hs h => (h.used_le _ _ _ _ _).trans hs) now le_rfl

theorem Bounded.mono (h : Bounded limits s)
    (hle : ∀ l tenantId principal category resourceKey,
      s'.used l tenantId principal category resourceKey ≤
        s.used l tenantId principal category resourceKey) : Bounded limits s' :=
  fun category resourceKey l hl tenantId principal =>
    (Nat.cast_le.mpr (hle (some l) tenantId principal category resourceKey)).trans
      (h category resourceKey l hl tenantId principal)

/-- **A request within the limit** leaves what is reserved within every limit. -/
theorem Bounded.add (hb : Bounded limits s) (hs : Coherent s) {request : AdmissionRequest}
    {now : ClockReading} {r : Admission}
    (hr : s.create digestCanonicalJson request now = .ok r)
    (hlimit : s.exceededLimit limits request = none) : Bounded limits (s.add request r) := by
  obtain ⟨hid, htenant, hprincipal, hcategory, hresource, hamount, -, -⟩ := create_ok hr
  intro category resourceKey l hl tenantId principal
  have hfresh := hs.fresh (digestCanonicalJson request)
  rw [← hid] at hfresh
  have htotal := OrderedMap.total_set_of_fresh
    (counts (some l) tenantId principal category resourceKey) (·.amount) r hfresh
  rw [used, MemoryQuotaStore.add, htotal]
  by_cases hcounts : counts (some l) tenantId principal category resourceKey r = true
  · rw [OrderedMap.share, if_pos hcounts]
    simp only [counts, decide_eq_true_eq] at hcounts
    obtain ⟨-, ht, hp, hc, hk⟩ := hcounts
    rw [htenant] at ht
    rw [hprincipal] at hp
    rw [hcategory] at hc
    rw [hresource] at hk
    subst ht hc hk
    -- the limit is the one the request was checked against, and its scope decides whether the
    -- principal matters
    have hsame : counts (some l) request.tenantId principal request.category request.resourceKey =
        counts (some l) request.tenantId request.principal request.category
          request.resourceKey := by
      funext x
      by_cases hscope : l.scope = .principal
      · rw [hp (by simp [hscope])]
      · simp [counts, hscope]
    rw [exceededLimit, hl] at hlimit
    simp only [Option.filter, decide_eq_true_eq] at hlimit
    rw [hsame, hamount]
    split at hlimit
    · cases hlimit
    · rename_i hle
      exact not_lt.mp hle
  · rw [OrderedMap.share, if_neg hcounts]
    exact hb category resourceKey l hl tenantId principal

theorem Bounded.step (hb : Bounded limits s) (hs : Coherent s) (call : QuotaCall) :
    Bounded limits (s.step limits digestCanonicalJson call) := by
  cases call with
  | reserve request now =>
    have hreconciled : Bounded limits (s.reconcileExpired now).2 :=
      hb.mono (reconcile_used_le s now)
    rcases @reserve_cases limits digestCanonicalJson s request now with
      ⟨_, -, heq⟩ | ⟨-, ⟨_, -, heq⟩ | ⟨r, hr, hlimit, heq⟩⟩
    · rwa [MemoryQuotaStore.step, heq]
    · rwa [MemoryQuotaStore.step, heq]
    · rw [MemoryQuotaStore.step, heq]
      exact hreconciled.add (hs.reconcile now) hr hlimit
  | release tenantId reservationId token releasedAt =>
    rcases release_cases s tenantId reservationId token releasedAt with heq | h
    · rwa [MemoryQuotaStore.step, heq]
    · exact hb.mono h.used_le
  | reconcileExpired now => exact hb.mono (reconcile_used_le s now)

/-! ### Repeated requests -/

/-- A request whose replay key leads to a reservation of its amount is answered with that one. -/
theorem reserve_replayed (hs : Coherent s) {request : AdmissionRequest} {key : AdmissionReplayKey}
    {id : String} {r : Admission} (hkey : request.admissionReplayKey = some key)
    (hid : s.replays.get key = some id) (hr : s.reservations.get id = some r)
    (hamount : r.amount = request.amount) (now : ClockReading) :
    ∃ r', terms r' = terms r ∧ s.reserve limits digestCanonicalJson request now =
      (.ok (.admitted r'), (s.reconcileExpired now).2) := by
  have hkeeps := reconcile_keeps s now
  have hfound : request.admissionReplayKey.bind (s.reconcileExpired now).2.replays.get = some id := by
    rw [hkey, Option.bind_some]
    exact hkeeps.replays key id hid
  obtain ⟨r', hr', hterms, -⟩ := hkeeps.reservations id r hr
  have hreplayKey : r'.admissionReplayKey = request.admissionReplayKey := by
    obtain ⟨x, hx, hxkey⟩ := hs.replays key id hid
    obtain rfl : r = x := Option.some.inj (hr.symm.trans hx)
    rw [(terms_eq hterms).2.2.2.2.2.2, hxkey, hkey]
  have hamount' : r'.amount = request.amount := by rw [(terms_eq hterms).2.2.2.2.2.1, hamount]
  refine ⟨r', hterms, ?_⟩
  rcases @reserve_cases limits digestCanonicalJson s request now with
    ⟨priorId, hprior, heq⟩ | ⟨hnone, -⟩
  · obtain rfl : id = priorId := Option.some.inj (hfound.symm.trans hprior)
    rw [heq, replay, hr']
    simp only [hreplayKey, hamount', and_self, if_true]
  · rw [hfound] at hnone
    cases hnone

/-- A request that is admitted leaves its replay key leading to the reservation it is answered
with. -/
theorem reserve_admitted (hs : Coherent s) {request : AdmissionRequest} {now : ClockReading}
    {r : Admission}
    (h : (s.reserve limits digestCanonicalJson request now).1 = .ok (.admitted r)) :
    r.amount = request.amount ∧
      (s.reserve limits digestCanonicalJson request now).2.reservations.get r.id = some r ∧
      ∀ key, request.admissionReplayKey = some key →
        (s.reserve limits digestCanonicalJson request now).2.replays.get key = some r.id := by
  have hreconciled := hs.reconcile now
  rcases @reserve_cases limits digestCanonicalJson s request now with
    ⟨priorId, hprior, heq⟩ | ⟨-, ⟨answer, hanswer, heq⟩ | ⟨x, hx, -, heq⟩⟩
  · rw [heq] at h ⊢
    simp only [replay] at h
    split at h
    · cases h
    rename_i prior hstored
    split at h
    · rename_i hsame
      obtain rfl : prior = r := by injection h with h; injection h
      obtain ⟨hid, -⟩ := hreconciled.ids _ _ hstored
      refine ⟨hsame.2, by rw [hid]; exact hstored, fun key hkey => ?_⟩
      rw [hkey, Option.bind_some] at hprior
      rw [hid]
      exact hprior
    · cases h
  · rw [heq] at h
    exact absurd h (hanswer r)
  · rw [heq] at h ⊢
    obtain rfl : x = r := by injection h with h; injection h
    refine ⟨(create_ok hx).2.2.2.2.2.1, OrderedMap.get_set_self _ _ _, fun key hkey => ?_⟩
    rw [add_replays, if_pos hkey]

/-- **A repeated request** is answered with the reservation of the first, and only expires
others. -/
theorem reserve_again (hs : Coherent s) {request request' : AdmissionRequest} {now : ClockReading}
    {r : Admission}
    (h : (s.reserve limits digestCanonicalJson request now).1 = .ok (.admitted r))
    (ht : Coherent t) (hkeeps : Keeps (s.reserve limits digestCanonicalJson request now).2 t)
    (hcommand : request.admissionReplayKey.isSome)
    (hkey : request'.admissionReplayKey = request.admissionReplayKey)
    (hamount : request'.amount = request.amount) (now' : ClockReading) :
    ∃ r', terms r' = terms r ∧ t.reserve limits digestCanonicalJson request' now' =
      (.ok (.admitted r'), (t.reconcileExpired now').2) := by
  obtain ⟨key, hreplay⟩ := Option.isSome_iff_exists.mp hcommand
  obtain ⟨hr, hstored, hreplays⟩ := reserve_admitted hs h
  obtain ⟨x, hx, hterms, -⟩ := hkeeps.reservations _ r hstored
  have hxamount : x.amount = request'.amount := by
    rw [(terms_eq hterms).2.2.2.2.2.1, hr, hamount]
  obtain ⟨r', hterms', heq⟩ := @reserve_replayed limits digestCanonicalJson t ht request' key r.id x
    (hkey.trans hreplay) (hkeeps.replays key _ (hreplays key hreplay)) hx hxamount now'
  exact ⟨r', hterms'.trans hterms, heq⟩

/-! ### Every state -/

theorem after_coherent (calls : List (SnapshotCall QuotaCall)) :
    Coherent (after limits digestCanonicalJson calls) :=
  Snapshotted.run_invariant coherent_empty (fun _ call hs => (hs.step call).1) calls

theorem after_bounded (calls : List (SnapshotCall QuotaCall)) :
    Bounded limits (after limits digestCanonicalJson calls) := by
  refine (Snapshotted.run_invariant (P := fun s => Coherent s ∧ Bounded limits s)
    ⟨coherent_empty, ?_⟩ (fun _ call h => ⟨(h.1.step call).1, h.2.step h.1 call⟩) calls).2
  intro category resourceKey l _ tenantId principal
  simpa [used, empty] using l.maximum_pos.le

/-- A request for one, on behalf of a command. -/
def oneRequest : AdmissionRequest where
  tenantId := "tenant"
  principal := ⟨.user, "principal"⟩
  commandId := some "command"
  category := .request_start
  resourceKey := "agent"
  amount := 1
  amount_pos := Nat.one_pos
  leaseDurationMs := 1000
  leaseDuration_pos := by decide

end MemoryQuotaStore

end Pactmark
