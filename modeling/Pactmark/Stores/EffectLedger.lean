import Mathlib.Data.Countable.Basic
import Mathlib.Logic.Equiv.List
import Pactmark.Durable.OrderedMap
import Pactmark.Durable.Snapshots
import Pactmark.Runtime.Store

/-!
# Stores — the effect ledger

`MemoryEffectLedger` of `store-memory/src/effect-ledger.ts`, over all tenants and runs.  That an
authorization reservation backs one effect is not checked: it follows from the binding, which
has the effect key in it, and the index of the effect keys.

* `putEffectRecord_cases`: a record is refused, is there already, is new, or advances the one of
  the same identity.
* `Coherent.step`: the five maps agree after every call.
* `effect_ledger_integrity`: what holds in every state, whatever was rolled back.
-/

namespace Pactmark

open Durable

/-- `recordKey(tenantId, runId, effectId)`, or that of an effect key. -/
abbrev EffectIdKey := String × String × String

/-- `idKey` of an effect record. -/
def EffectIdentity.idKey (r : EffectIdentity) : EffectIdKey :=
  (r.tenantId, r.runId, r.effectId)

/-- The key of an effect record in the index of the effect keys. -/
def EffectIdentity.effectIndex (r : EffectIdentity) : EffectIdKey :=
  (r.tenantId, r.runId, r.effectKey)

/-- The key of an effect record in the index of the operation keys. -/
def EffectIdentity.operationIndex (r : EffectIdentity) : Option (String × String) :=
  r.operationKey.map (r.tenantId, ·)

/-- The key of the reservation of an effect record. -/
def EffectIdentity.reservationKey (r : EffectIdentity) : String × String :=
  (r.tenantId, r.authorizationReservationId)

/-- `MemoryEffectLedger`. -/
structure MemoryEffectLedger where
  reservations : OrderedMap (String × String) AuthorizationReservation
  reservationKeys : OrderedMap (String × String) (String × String)
  effects : OrderedMap EffectIdKey EffectRecord
  effectKeys : OrderedMap EffectIdKey EffectIdKey
  operationKeys : OrderedMap (String × String) EffectIdKey

namespace MemoryEffectLedger

/-- `new MemoryEffectLedger()`. -/
def empty : MemoryEffectLedger :=
  ⟨.empty, .empty, .empty, .empty, .empty⟩

/-- `putAuthorizationReservation`. -/
def putAuthorizationReservation (s : MemoryEffectLedger) (reservation : AuthorizationReservation) :
    Except Thrown Unit × MemoryEffectLedger :=
  let idKey := (reservation.binding.tenantId, reservation.authorizationReservationId)
  let authorizationKey := (reservation.binding.tenantId, reservation.authorizationKey)
  match s.reservations.get idKey with
  | some existing =>
      if existing = reservation then (.ok (), s)
      else (.error (conflict "authorization_reservation_changed"), s)
  | none =>
      if (s.reservationKeys.get authorizationKey).any (· ≠ idKey) then
        (.error (conflict "authorization_key_reused"), s)
      else
        (.ok (), { s with
          reservations := s.reservations.set idKey reservation
          reservationKeys := s.reservationKeys.set authorizationKey idKey })

/-- The writes at the end of `putEffectRecord`. -/
def write (s : MemoryEffectLedger) (record : EffectRecord) : MemoryEffectLedger :=
  { s with
    effects := s.effects.set record.idKey record
    effectKeys := s.effectKeys.set record.effectIndex record.idKey
    operationKeys := match record.operationIndex with
      | some operationKey => s.operationKeys.set operationKey record.idKey
      | none => s.operationKeys }

/-- `putEffectRecord`. -/
def putEffectRecord (E : Encoding) (s : MemoryEffectLedger) (record : EffectRecord) :
    Except Thrown Unit × MemoryEffectLedger :=
  if record.effectDigest ≠ E.digest (.effectIdentity record.toEffectIdentity) then
    (.error (kafReason .KAF_AUTHORIZATION_BINDING_MISMATCH "effect_digest_mismatch"), s)
  else
    match s.reservations.get record.reservationKey with
    | none => (.error (conflict "effect_authorization_reservation_missing"), s)
    | some reservation =>
        if reservation.authorizationReservationId ≠ record.authorizationReservationId ∨
            ¬ reservation.hasValidLifecycleState ∨
            record.authorizationBinding ≠ reservation.binding then
          (.error (kafReason .KAF_AUTHORIZATION_BINDING_MISMATCH
            "effect_authorization_binding_mismatch"), s)
        else if (s.effectKeys.get record.effectIndex).any (· ≠ record.idKey) then
          (.error (conflict "effect_key_reused"), s)
        else if (record.operationIndex.bind s.operationKeys.get).any (· ≠ record.idKey) then
          (.error (conflict "effect_operation_key_reused"), s)
        else
          match s.effects.get record.idKey with
          | some existing =>
              if existing = record then (.ok (), s)
              else if existing.effectDigest ≠ record.effectDigest ∨
                  ¬ isEffectTransitionAllowed existing.state.name record.state.name
                    record.strategy ∨
                  record.updatedAt < existing.updatedAt then
                (.error (conflict "effect_record_changed"), s)
              else (.ok (), s.write record)
          | none => (.ok (), s.write record)

end MemoryEffectLedger

/-- A call that changes the ledger. -/
inductive LedgerCall where
  | putAuthorizationReservation (reservation : AuthorizationReservation)
  | putEffectRecord (record : EffectRecord)

/-- What a call leaves. -/
def LedgerCall.step (E : Encoding) (s : MemoryEffectLedger) : LedgerCall → MemoryEffectLedger
  | .putAuthorizationReservation reservation => (s.putAuthorizationReservation reservation).2
  | .putEffectRecord record => (MemoryEffectLedger.putEffectRecord E s record).2

namespace MemoryEffectLedger

variable {E : Encoding} {s s' : MemoryEffectLedger} {record : EffectRecord}
  {reservation : AuthorizationReservation}

/-! ### What the operations do -/

theorem putAuthorizationReservation_cases (s : MemoryEffectLedger)
    (reservation : AuthorizationReservation) :
    (s.putAuthorizationReservation reservation).2 = s ∨
      s.reservations.get (reservation.binding.tenantId, reservation.authorizationReservationId) =
          none ∧
        ∃ keys, (s.putAuthorizationReservation reservation).2 =
          { s with
            reservations := s.reservations.set
              (reservation.binding.tenantId, reservation.authorizationReservationId) reservation
            reservationKeys := keys } := by
  unfold putAuthorizationReservation
  dsimp only
  split
  · split <;> exact .inl rfl
  · split
    · exact .inl rfl
    · exact .inr ⟨‹_›, _, rfl⟩

/-- What `putEffectRecord` has checked of a record it writes. -/
structure Admitted (E : Encoding) (s : MemoryEffectLedger) (record : EffectRecord) : Prop where
  digest : record.effectDigest = E.digest (.effectIdentity record.toEffectIdentity)
  bound : ∃ reservation, s.reservations.get record.reservationKey = some reservation ∧
    record.authorizationBinding = reservation.binding
  effectKey : ∀ id, s.effectKeys.get record.effectIndex = some id → id = record.idKey
  operationKey : ∀ o id, record.operationIndex = some o → s.operationKeys.get o = some id →
    id = record.idKey
  advance : ∀ existing, s.effects.get record.idKey = some existing →
    existing.effectDigest = record.effectDigest ∧
      isEffectTransitionAllowed existing.state.name record.state.name record.strategy = true ∧
      existing.updatedAt ≤ record.updatedAt

/-- **A record** leaves the ledger as it is, or it is admitted and written. -/
theorem putEffectRecord_cases (E : Encoding) (s : MemoryEffectLedger) (record : EffectRecord) :
    (putEffectRecord E s record).2 = s ∨
      Admitted E s record ∧ (putEffectRecord E s record).2 = s.write record := by
  unfold putEffectRecord
  split <;> rename_i hdigest
  · exact .inl rfl
  split
  · exact .inl rfl
  rename_i reservation hreservation
  split <;> rename_i hbinding
  · exact .inl rfl
  split <;> rename_i hkey
  · exact .inl rfl
  split <;> rename_i hoperation
  · exact .inl rfl
  simp only [not_or, not_not] at hdigest hbinding
  have hkey' : ∀ id, s.effectKeys.get record.effectIndex = some id → id = record.idKey := by
    intro id hid
    simpa [hid] using hkey
  have hoperation' : ∀ o id, record.operationIndex = some o →
      s.operationKeys.get o = some id → id = record.idKey := by
    intro o id ho hid
    simpa [ho, hid] using hoperation
  split
  · rename_i existing hexisting
    split
    · exact .inl rfl
    split <;> rename_i hadvance
    · exact .inl rfl
    · simp only [not_or, not_not, Nat.not_lt] at hadvance
      refine .inr ⟨⟨hdigest, ⟨reservation, hreservation, hbinding.2.2⟩, hkey', hoperation', ?_⟩,
        rfl⟩
      intro x hx
      obtain rfl : existing = x := Option.some.inj (hexisting.symm.trans hx)
      exact hadvance
  · rename_i hnone
    refine .inr ⟨⟨hdigest, ⟨reservation, hreservation, hbinding.2.2⟩, hkey', hoperation', ?_⟩,
      rfl⟩
    intro x hx
    rw [hnone] at hx
    cases hx

/-- A record that passes every check is written. -/
theorem putEffectRecord_of
    (hdigest : record.effectDigest = E.digest (.effectIdentity record.toEffectIdentity))
    (hreservation : s.reservations.get record.reservationKey = some reservation)
    (hid : reservation.authorizationReservationId = record.authorizationReservationId)
    (hlifecycle : reservation.hasValidLifecycleState = true)
    (hbinding : record.authorizationBinding = reservation.binding)
    (hkey : (s.effectKeys.get record.effectIndex).any (· ≠ record.idKey) = false)
    (hoperation : (record.operationIndex.bind s.operationKeys.get).any (· ≠ record.idKey) = false)
    (hadvance : ∀ existing, s.effects.get record.idKey = some existing →
      existing ≠ record ∧ existing.effectDigest = record.effectDigest ∧
        isEffectTransitionAllowed existing.state.name record.state.name record.strategy = true ∧
        existing.updatedAt ≤ record.updatedAt) :
    (putEffectRecord E s record).2 = s.write record := by
  unfold putEffectRecord
  rw [if_neg (not_not.mpr hdigest), hreservation]
  dsimp only
  rw [if_neg (by simp [hid, hlifecycle, hbinding]), if_neg (by simpa using hkey),
    if_neg (by simpa using hoperation)]
  cases hx : s.effects.get record.idKey with
  | none => rfl
  | some existing =>
    obtain ⟨hne, hsame, hedge, htime⟩ := hadvance existing hx
    dsimp only
    rw [if_neg hne, if_neg (by simp [hsame, hedge, htime])]

/-! ### The invariant -/

/-- The five maps agree. -/
structure Coherent (E : Encoding) (s : MemoryEffectLedger) : Prop where
  reservation : ∀ k r, s.reservations.get k = some r →
    (r.binding.tenantId, r.authorizationReservationId) = k
  effect : ∀ k x, s.effects.get k = some x → x.idKey = k ∧
    x.effectDigest = E.digest (.effectIdentity x.toEffectIdentity)
  bound : ∀ k x, s.effects.get k = some x →
    ∃ r, s.reservations.get x.reservationKey = some r ∧ x.authorizationBinding = r.binding
  effectKey : ∀ key id, s.effectKeys.get key = some id ↔
    ∃ x, s.effects.get id = some x ∧ x.effectIndex = key
  operationKey : ∀ key id, s.operationKeys.get key = some id ↔
    ∃ x, s.effects.get id = some x ∧ x.operationIndex = some key

/-- The identity of the record an admitted one advances. -/
theorem Admitted.identity (h : Admitted E s record) (hs : Coherent E s)
    (hinj : ∀ a b, E.digest (.effectIdentity a) = E.digest (.effectIdentity b) → a = b)
    {existing : EffectRecord} (hx : s.effects.get record.idKey = some existing) :
    existing.toEffectIdentity = record.toEffectIdentity := by
  refine hinj _ _ ?_
  rw [← (hs.effect _ _ hx).2, ← h.digest]
  exact (h.advance existing hx).1

theorem coherent_empty : Coherent E empty where
  reservation k r h := by cases h
  effect k x h := by cases h
  bound k x h := by cases h
  effectKey key id := ⟨nofun, fun ⟨x, hx, _⟩ => by cases hx⟩
  operationKey key id := ⟨nofun, fun ⟨x, hx, _⟩ => by cases hx⟩

theorem Coherent.putAuthorizationReservation (h : Coherent E s)
    (reservation : AuthorizationReservation) :
    Coherent E (s.putAuthorizationReservation reservation).2 := by
  rcases s.putAuthorizationReservation_cases reservation with hs | ⟨hnone, keys, hs⟩
  · rw [hs]
    exact h
  rw [hs]
  refine ⟨fun k r hr => ?_, h.effect, fun k x hx => ?_, h.effectKey, h.operationKey⟩
  · rw [OrderedMap.get_set] at hr
    split at hr
    · rename_i hk
      rw [← Option.some.inj hr, hk]
    · exact h.reservation k r hr
  · obtain ⟨r, hr, hbinding⟩ := h.bound k x hx
    refine ⟨r, ?_, hbinding⟩
    rw [OrderedMap.get_set, if_neg]
    · exact hr
    · intro hk
      rw [hk, hnone] at hr
      cases hr

theorem Coherent.write (h : Coherent E s) (ha : Admitted E s record)
    (hinj : ∀ a b, E.digest (.effectIdentity a) = E.digest (.effectIdentity b) → a = b) :
    Coherent E (s.write record) where
  reservation := h.reservation
  effect k x hx := by
    simp only [MemoryEffectLedger.write, OrderedMap.get_set] at hx
    split at hx
    · rename_i hk
      obtain rfl := Option.some.inj hx
      exact ⟨hk.symm, ha.digest⟩
    · exact h.effect k x hx
  bound k x hx := by
    simp only [MemoryEffectLedger.write, OrderedMap.get_set] at hx
    split at hx
    · obtain rfl := Option.some.inj hx
      exact ha.bound
    · exact h.bound k x hx
  effectKey key id := by
    simp only [MemoryEffectLedger.write, OrderedMap.get_set]
    by_cases hid : id = record.idKey
    · subst hid
      simp only [if_true, Option.some.injEq, exists_eq_left']
      by_cases hkey : key = record.effectIndex
      · simp [hkey]
      · simp only [hkey, if_false, h.effectKey]
        constructor
        · rintro ⟨x, hx, rfl⟩
          -- The index already pointed at the record of this identity, under its own key.
          exact absurd (by rw [ha.identity h hinj hx]) hkey
        · rintro rfl
          exact absurd rfl hkey
    · by_cases hkey : key = record.effectIndex
      · subst hkey
        simp only [if_true, Option.some.injEq, if_neg hid]
        constructor
        · rintro rfl
          exact absurd rfl hid
        · intro hx
          exact absurd (ha.effectKey id ((h.effectKey _ _).mpr hx)) hid
      · simp only [if_neg hid, if_neg hkey]
        exact h.effectKey key id
  operationKey key id := by
    have hget : (s.write record).operationKeys.get key =
        if record.operationIndex = some key then some record.idKey
        else s.operationKeys.get key := by
      unfold MemoryEffectLedger.write
      cases record.operationIndex with
      | none => simp
      | some o => simp [OrderedMap.get_set, eq_comm]
    rw [hget]
    simp only [MemoryEffectLedger.write, OrderedMap.get_set]
    by_cases hid : id = record.idKey
    · subst hid
      simp only [if_true, Option.some.injEq, exists_eq_left']
      by_cases hkey : record.operationIndex = some key
      · simp [hkey]
      · simp only [hkey, if_false, h.operationKey, iff_false]
        rintro ⟨x, hx, hxkey⟩
        exact hkey (by rw [← ha.identity h hinj hx, hxkey])
    · by_cases hkey : record.operationIndex = some key
      · simp only [hkey, if_true, Option.some.injEq, if_neg hid]
        constructor
        · rintro rfl
          exact absurd rfl hid
        · intro hx
          exact absurd (ha.operationKey key id hkey ((h.operationKey _ _).mpr hx)) hid
      · simp only [if_neg hid, if_neg hkey]
        exact h.operationKey key id

/-- **One call.** -/
theorem Coherent.step
    (hinj : ∀ a b, E.digest (.effectIdentity a) = E.digest (.effectIdentity b) → a = b)
    (s : MemoryEffectLedger) (call : LedgerCall) (h : Coherent E s) :
    Coherent E (call.step E s) := by
  cases call with
  | putAuthorizationReservation reservation => exact h.putAuthorizationReservation reservation
  | putEffectRecord record =>
    rcases putEffectRecord_cases E s record with hs | ⟨ha, hs⟩ <;>
      simp only [LedgerCall.step, hs]
    · exact h
    · exact h.write ha hinj

/-- An effect keeps its identity, its time does not go back, and its state takes an edge. -/
def Advances (s s' : MemoryEffectLedger) : Prop :=
  ∀ id x, s.effects.get id = some x → ∃ y, s'.effects.get id = some y ∧
    y.toEffectIdentity = x.toEffectIdentity ∧ x.updatedAt ≤ y.updatedAt ∧
    (y.state = x.state ∨
      isEffectTransitionAllowed x.state.name y.state.name x.strategy = true)

theorem Advances.refl (s : MemoryEffectLedger) : Advances s s :=
  fun _ x hx => ⟨x, hx, rfl, Nat.le_refl _, .inl rfl⟩

theorem Advances.step
    (hinj : ∀ a b, E.digest (.effectIdentity a) = E.digest (.effectIdentity b) → a = b)
    (h : Coherent E s) (call : LedgerCall) : Advances s (call.step E s) := by
  cases call with
  | putAuthorizationReservation reservation =>
    rcases s.putAuthorizationReservation_cases reservation with hs | ⟨-, keys, hs⟩ <;>
      simp only [LedgerCall.step, hs]
    · exact .refl s
    · exact fun _ x hx => ⟨x, hx, rfl, Nat.le_refl _, .inl rfl⟩
  | putEffectRecord record =>
    rcases putEffectRecord_cases E s record with hs | ⟨ha, hs⟩ <;>
      simp only [LedgerCall.step, hs]
    · exact .refl s
    · intro id x hx
      simp only [MemoryEffectLedger.write, OrderedMap.get_set]
      split
      · rename_i hid
        rw [hid] at hx
        have hsame := ha.identity h hinj hx
        obtain ⟨-, hedge, htime⟩ := ha.advance x hx
        refine ⟨record, rfl, hsame.symm, htime, .inr ?_⟩
        rw [show x.strategy = record.strategy from congrArg EffectIdentity.strategy hsame]
        exact hedge
      · exact ⟨x, hx, rfl, Nat.le_refl _, .inl rfl⟩

/-! ### What follows from the agreement of the maps -/

/-- An effect key belongs to one effect. -/
theorem Coherent.effectIndex_inj (h : Coherent E s) {i j : EffectIdKey} {x y : EffectRecord}
    (hx : s.effects.get i = some x) (hy : s.effects.get j = some y)
    (heq : x.effectIndex = y.effectIndex) : i = j := by
  have hi := (h.effectKey x.effectIndex i).mpr ⟨x, hx, rfl⟩
  have hj := (h.effectKey x.effectIndex j).mpr ⟨y, hy, heq.symm⟩
  exact Option.some.inj (hi.symm.trans hj)

/-- An operation key belongs to one effect. -/
theorem Coherent.operationIndex_inj (h : Coherent E s) {i j : EffectIdKey} {x y : EffectRecord}
    {key : String × String} (hx : s.effects.get i = some x) (hy : s.effects.get j = some y)
    (hkx : x.operationIndex = some key) (hky : y.operationIndex = some key) : i = j := by
  have hi := (h.operationKey key i).mpr ⟨x, hx, hkx⟩
  have hj := (h.operationKey key j).mpr ⟨y, hy, hky⟩
  exact Option.some.inj (hi.symm.trans hj)

/-- **A reservation backs one effect**: its binding has the effect key of the effect in it. -/
theorem Coherent.reservationKey_inj (h : Coherent E s) {i j : EffectIdKey} {x y : EffectRecord}
    (hx : s.effects.get i = some x) (hy : s.effects.get j = some y)
    (heq : x.reservationKey = y.reservationKey) : i = j := by
  obtain ⟨r, hr, hxr⟩ := h.bound i x hx
  obtain ⟨r', hr', hyr⟩ := h.bound j y hy
  rw [heq, hr'] at hr
  obtain rfl := Option.some.inj hr
  have hbinding : x.authorizationBinding = y.authorizationBinding := hxr.trans hyr.symm
  refine h.effectIndex_inj hx hy ?_
  have ht : x.tenantId = y.tenantId := congrArg AuthorizationBinding.tenantId hbinding
  have hrun : x.runId = y.runId := congrArg AuthorizationBinding.runId hbinding
  have hkey : x.effectKey = y.effectKey := congrArg AuthorizationBinding.effectKey hbinding
  rw [EffectIdentity.effectIndex, EffectIdentity.effectIndex, ht, hrun, hkey]

/-! ### Every run of calls -/

/-- The ledger after a sequence of calls with snapshots. -/
def after (E : Encoding) (calls : List (SnapshotCall LedgerCall)) : MemoryEffectLedger :=
  (Snapshotted.run (LedgerCall.step E) true empty calls).live

theorem after_coherent
    (hinj : ∀ a b, E.digest (.effectIdentity a) = E.digest (.effectIdentity b) → a = b)
    (calls : List (SnapshotCall LedgerCall)) : Coherent E (after E calls) :=
  Snapshotted.run_invariant coherent_empty (Coherent.step hinj) calls

theorem after_operate (calls : List (SnapshotCall LedgerCall)) (call : LedgerCall) :
    after E (calls ++ [.operate call]) = call.step E (after E calls) := by
  rw [after, Snapshotted.run_snoc]
  rfl

theorem after_snapshot (calls : List (SnapshotCall LedgerCall)) :
    after E (calls ++ [.snapshot]) = after E calls := by
  rw [after, Snapshotted.run_snoc]
  rfl

/-- **The ledger keeps its integrity**: in every state, and over every call but a restore. -/
theorem effect_ledger_integrity
    (hinj : ∀ a b, E.digest (.effectIdentity a) = E.digest (.effectIdentity b) → a = b)
    (calls : List (SnapshotCall LedgerCall)) :
    (∀ id x, (after E calls).effects.get id = some x → x.idKey = id ∧
      ∃ r, (after E calls).reservations.get x.reservationKey = some r ∧
        r.authorizationReservationId = x.authorizationReservationId ∧
        x.authorizationBinding = r.binding) ∧
    (∀ i j x y, (after E calls).effects.get i = some x → (after E calls).effects.get j = some y →
      (x.reservationKey = y.reservationKey → i = j) ∧
      (x.effectIndex = y.effectIndex → i = j) ∧
      ∀ key, x.operationIndex = some key → y.operationIndex = some key → i = j) ∧
    (∀ key id, (after E calls).effectKeys.get key = some id ↔
      ∃ x, (after E calls).effects.get id = some x ∧ x.effectIndex = key) ∧
    (∀ key id, (after E calls).operationKeys.get key = some id ↔
      ∃ x, (after E calls).effects.get id = some x ∧ x.operationIndex = some key) ∧
    (∀ pre call post, calls = pre ++ call :: post → (∀ n, call ≠ .restore n) →
      Advances (after E pre) (after E (pre ++ [call]))) ∧
    ∃ ops : List LedgerCall, ops.Sublist (Snapshotted.operations calls) ∧
      ops.foldl (LedgerCall.step E) empty = after E calls := by
  have h := after_coherent hinj calls
  refine ⟨fun id x hx => ⟨(h.effect id x hx).1, ?_⟩, fun i j x y hx hy => ⟨?_, ?_, ?_⟩,
    h.effectKey, h.operationKey, ?_, ?_⟩
  · obtain ⟨r, hr, hbinding⟩ := h.bound id x hx
    exact ⟨r, hr, congrArg Prod.snd (h.reservation _ r hr), hbinding⟩
  · exact h.reservationKey_inj hx hy
  · exact h.effectIndex_inj hx hy
  · exact fun key hkx hky => h.operationIndex_inj hx hy hkx hky
  · rintro pre call post - hcall
    cases call with
    | operate call =>
      rw [after_operate]
      exact .step hinj (after_coherent hinj pre) call
    | snapshot =>
      rw [after_snapshot]
      exact .refl _
    | restore n => exact absurd rfl (hcall n)
  · obtain ⟨ops, hops, hafter⟩ :=
      (Snapshotted.run_sublist (LedgerCall.step E) true empty calls).1
    exact ⟨ops, hops, hafter⟩

section Witness

/-- The fields of an execution definition, in order. -/
def definitionFields : ExecutionDefinition → Bool × List String
  | .agent id version digest => (true, [id, version, digest])
  | .compensation id version definition agent effect strategy tool =>
      (false, [id, version, definition, agent, effect, strategy, tool])

/-- The fields of an identity, in an order that keeps the types together. -/
def identityFields (i : EffectIdentity) :
    List String × Option String × ExecutionDefinition × EffectStrategyKind × Nat :=
  ([i.effectId, i.tenantId, i.runId, i.stepId, i.toolCallId, i.effectKey,
      i.executionDefinitionDigest, i.workOrderBindingDigest, i.toolId, i.toolVersion,
      i.toolRegistrationDigest, i.strategyRegistrationDigest, i.authorizationReservationId,
      i.argumentsDigest, i.normalizedTargetDigest],
    i.operationKey, i.executionDefinition, i.strategy, i.createdAt)

theorem definitionFields_injective : Function.Injective definitionFields := by
  intro a b h
  cases a <;> cases b <;> simp_all [definitionFields]

theorem identityFields_injective : Function.Injective identityFields := by
  intro a b h
  cases a
  cases b
  simp_all [identityFields]

instance : Countable String :=
  have : Countable Char :=
    (show Function.Injective Char.toNat from fun _ _ h => Char.toNat_inj.mp h).countable
  (show Function.Injective String.toList from fun _ _ h => String.toList_inj.mp h).countable

instance : Countable EffectStrategyKind :=
  (show Function.Injective EffectStrategyKind.ctorIdx by
    intro a b h
    cases a <;> cases b <;> first | rfl | cases h).countable

instance : Countable ExecutionDefinition :=
  definitionFields_injective.countable

instance : Countable EffectIdentity :=
  identityFields_injective.countable

/-- A digest can be different for different identities. -/
theorem exists_injective_encoding :
    ∃ E : Encoding, ∀ a b, E.digest (.effectIdentity a) = E.digest (.effectIdentity b) → a = b := by
  obtain ⟨number, hnumber⟩ := exists_injective_nat EffectIdentity
  refine ⟨⟨fun m => match m with
    | .effectIdentity i => String.ofList (List.replicate (number i) 'x')
    | _ => "", fun _ => 0⟩, fun a b h => hnumber ?_⟩
  have hlength := congrArg (fun s => s.toList.length) h
  simpa using hlength

/-- The identity of an effect that is about to be dispatched. -/
def sentMail : EffectIdentity where
  effectId := "effect"
  tenantId := "tenant"
  runId := "run"
  stepId := "step"
  toolCallId := "call"
  effectKey := "key"
  operationKey := none
  executionDefinition := .agent "agent" "1" "definition"
  executionDefinitionDigest := "definition"
  workOrderBindingDigest := "binding"
  toolId := "mail.send@1"
  toolVersion := "1"
  toolRegistrationDigest := "tool"
  strategy := .native
  strategyRegistrationDigest := "strategy"
  authorizationReservationId := "authorization"
  argumentsDigest := "arguments"
  normalizedTargetDigest := "target"
  createdAt := 0

/-- Its reservation. -/
def mailReservation : AuthorizationReservation where
  authorizationReservationId := "authorization"
  authorizationKey := "authorization-key"
  binding := sentMail.authorizationBinding
  policyRegistrationDigest := "policy"
  purposeCode := "purpose"
  purposeRegistryVersion := "1"
  grantId := "grant"
  approvalId := none
  secretRefIds := []
  state := .consumed
  createdAt := 0
  expiresAt := 60000
  consumedAt := some 0

/-- Its record when it is prepared. -/
def preparedMail (E : Encoding) : EffectRecord :=
  { sentMail with
    effectDigest := E.digest (.effectIdentity sentMail)
    updatedAt := 0
    state := .prepared }

/-- Its record when it is dispatched. -/
def dispatchedMail (E : Encoding) : EffectRecord :=
  (preparedMail E).advance 1 (.dispatched 1)

/-- The calls that prepare it. -/
def prepareCalls (E : Encoding) : List (SnapshotCall LedgerCall) :=
  [.operate (.putAuthorizationReservation mailReservation),
    .operate (.putEffectRecord (preparedMail E)), .snapshot]

/-- The calls that dispatch it and roll the dispatch back. -/
def dispatchCalls (E : Encoding) : List (SnapshotCall LedgerCall) :=
  prepareCalls E ++ [.operate (.putEffectRecord (dispatchedMail E))]

/-- The ledger with its reservation. -/
def reservedLedger : MemoryEffectLedger :=
  (empty.putAuthorizationReservation mailReservation).2

theorem after_prepareCalls (E : Encoding) :
    after E (prepareCalls E) = reservedLedger.write (preparedMail E) := by
  have hcalls : prepareCalls E =
      ([.operate (.putAuthorizationReservation mailReservation)] ++
        [.operate (.putEffectRecord (preparedMail E))]) ++ [.snapshot] := rfl
  have hreserved : after E [.operate (.putAuthorizationReservation mailReservation)] =
      reservedLedger := rfl
  have hreservation : reservedLedger.reservations.get (preparedMail E).reservationKey =
      some mailReservation := rfl
  rw [hcalls, after_snapshot, after_operate, hreserved]
  refine putEffectRecord_of rfl hreservation rfl rfl rfl rfl rfl fun existing hexisting => ?_
  cases hexisting

theorem after_dispatchCalls (E : Encoding) :
    after E (dispatchCalls E) =
      (reservedLedger.write (preparedMail E)).write (dispatchedMail E) := by
  rw [dispatchCalls, after_operate, after_prepareCalls]
  have hreservation : (reservedLedger.write (preparedMail E)).reservations.get
      (dispatchedMail E).reservationKey = some mailReservation := rfl
  refine putEffectRecord_of rfl hreservation rfl rfl rfl rfl rfl fun existing hexisting => ?_
  obtain rfl : preparedMail E = existing := Option.some.inj hexisting
  refine ⟨fun h => ?_, rfl, rfl, Nat.zero_le 1⟩
  cases congrArg EffectRecord.state h

theorem effect_ledger_integrity_mail :
    ∃ E : Encoding, Coherent E (after E (dispatchCalls E)) ∧
      Advances (after E (prepareCalls E)) (after E (dispatchCalls E)) := by
  obtain ⟨E, hinj⟩ := exists_injective_encoding
  refine ⟨E, after_coherent hinj _, ?_⟩
  exact (effect_ledger_integrity hinj (dispatchCalls E)).2.2.2.2.1 (prepareCalls E)
    (.operate (.putEffectRecord (dispatchedMail E))) [] rfl nofun

/-- A restore takes a dispatched effect back to its prepared state, and to its earlier time. -/
theorem restore_takes_back :
    ¬ ∀ (E : Encoding),
      (∀ a b, E.digest (.effectIdentity a) = E.digest (.effectIdentity b) → a = b) →
      ∀ (calls : List (SnapshotCall LedgerCall)) (call : SnapshotCall LedgerCall)
        (id : EffectIdKey) (x y : EffectRecord),
        (after E calls).effects.get id = some x →
        (after E (calls ++ [call])).effects.get id = some y →
          x.updatedAt ≤ y.updatedAt ∧
            (y.state = x.state ∨
              isEffectTransitionAllowed x.state.name y.state.name x.strategy = true) := by
  intro h
  obtain ⟨E, hinj⟩ := exists_injective_encoding
  have hdispatched : (after E (dispatchCalls E)).effects.get ("tenant", "run", "effect") =
      some (dispatchedMail E) := by
    rw [after_dispatchCalls]
    rfl
  have hrestored : after E (dispatchCalls E ++ [.restore 0]) = after E (prepareCalls E) := by
    rw [after, Snapshotted.run_snoc]
    rfl
  have hprepared : (after E (dispatchCalls E ++ [.restore 0])).effects.get
      ("tenant", "run", "effect") = some (preparedMail E) := by
    rw [hrestored, after_prepareCalls]
    rfl
  exact absurd (h E hinj _ _ _ _ _ hdispatched hprepared).1 (Nat.not_succ_le_zero 0)

end Witness

end MemoryEffectLedger

end Pactmark
