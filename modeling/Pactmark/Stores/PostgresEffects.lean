import Pactmark.Core.Reservations
import Pactmark.Durable.Archive
import Pactmark.Stores.EffectLedger

/-!
# Stores — the effect ledger in Postgres

`putAuthorizationReservation`, `putEffectRecord` and the reads of
`store-postgres/src/effect-ledger.ts`, over the rows of their two tables.  The statements of a put
lock the rows they read, and a put is one step; its inserts are checked against the unique
constraints of the tables.  A transaction is a sequence of puts that a refusal takes back as a
whole, in Postgres by a rollback and in memory by restoring a snapshot.  Transactions are made one
after the other.

* `Agrees.putAuthorizationReservation`, `Agrees.putEffectRecord`: a put is accepted by Postgres
  exactly when the memory ledger accepts it.
* `postgres_ledger_agrees`: after any transactions the two ledgers have committed the same ones and
  are read the same, and no insert ever meets a unique constraint.
-/

namespace Pactmark

open Durable

/-- A row of `pactmark_authorization_reservations`. -/
structure AuthorizationReservationRow where
  tenant_id : String
  reservation_id : String
  authorization_key : String
  reservation_json : AuthorizationReservation

/-- A row of `pactmark_effects`. -/
structure EffectRow where
  tenant_id : String
  run_id : String
  effect_id : String
  operation_key : Option String
  effect_key : String
  effect_json : EffectRecord

/-- The two tables of the ledger. -/
structure PostgresEffectLedger where
  reservations : List AuthorizationReservationRow
  effects : List EffectRow

namespace PostgresEffectLedger

/-- The values of the insert of a reservation. -/
def reservationRow (tenantId : String) (reservation : AuthorizationReservation) :
    AuthorizationReservationRow where
  tenant_id := tenantId
  reservation_id := reservation.authorizationReservationId
  authorization_key := reservation.authorizationKey
  reservation_json := reservation

/-- The values of the insert of an effect. -/
def effectRow (tenantId : String) (record : EffectRecord) : EffectRow where
  tenant_id := tenantId
  run_id := record.runId
  effect_id := record.effectId
  operation_key := record.operationKey
  effect_key := record.effectKey
  effect_json := record

/-- A unique constraint is met. -/
def uniqueViolation : Thrown :=
  .host "23505" true

/-- `INSERT INTO pactmark_authorization_reservations`. -/
def insertReservation (d : PostgresEffectLedger) (row : AuthorizationReservationRow) :
    Except Thrown PostgresEffectLedger :=
  if d.reservations.any fun r => decide (r.tenant_id = row.tenant_id ∧
      (r.reservation_id = row.reservation_id ∨ r.authorization_key = row.authorization_key)) then
    .error uniqueViolation
  else .ok { d with reservations := d.reservations ++ [row] }

/-- `INSERT INTO pactmark_effects`. -/
def insertEffect (d : PostgresEffectLedger) (row : EffectRow) :
    Except Thrown PostgresEffectLedger :=
  if d.effects.any fun r => decide (r.tenant_id = row.tenant_id ∧
      (r.run_id = row.run_id ∧ (r.effect_id = row.effect_id ∨ r.effect_key = row.effect_key) ∨
        r.operation_key.isSome ∧ r.operation_key = row.operation_key)) then
    .error uniqueViolation
  else .ok { d with effects := d.effects ++ [row] }

/-- `UPDATE pactmark_effects`: the keys of the row stay. -/
def updateEffect (d : PostgresEffectLedger) (tenantId : String) (record : EffectRecord) :
    PostgresEffectLedger :=
  { d with effects := d.effects.map fun r =>
      if r.tenant_id = tenantId ∧ r.run_id = record.runId ∧ r.effect_id = record.effectId then
        { r with effect_json := record }
      else r }

/-- `putAuthorizationReservation`. -/
def putAuthorizationReservation (d : PostgresEffectLedger) (tenantId : String)
    (reservation : AuthorizationReservation) : Except Thrown PostgresEffectLedger :=
  if reservation.binding.tenantId ≠ tenantId then
    .error (conflict "cross_tenant_authorization_reservation")
  else
    let prior := d.reservations.filter fun r => decide (r.tenant_id = tenantId ∧
      (r.reservation_id = reservation.authorizationReservationId ∨
        r.authorization_key = reservation.authorizationKey))
    match prior with
    | [] => d.insertReservation (reservationRow tenantId reservation)
    | [existing] =>
        if existing.reservation_json = reservation then .ok d
        else .error (conflict "authorization_reservation_changed")
    | _ => .error (conflict "authorization_reservation_key_split")

/-- `putEffectRecord`. -/
def putEffectRecord (E : Encoding) (d : PostgresEffectLedger) (tenantId : String)
    (record : EffectRecord) : Except Thrown PostgresEffectLedger :=
  if record.tenantId ≠ tenantId then .error (conflict "cross_tenant_effect_record")
  else if record.effectDigest ≠ E.digest (.effectIdentity record.toEffectIdentity) then
    .error (kafReason .KAF_AUTHORIZATION_BINDING_MISMATCH "effect_digest_mismatch")
  else
    match d.reservations.find? fun r => decide (r.tenant_id = tenantId ∧
        r.reservation_id = record.authorizationReservationId) with
    | none => .error (conflict "effect_authorization_reservation_missing")
    | some row =>
        let reservation := row.reservation_json
        if reservation.authorizationReservationId ≠ record.authorizationReservationId ∨
            ¬ reservation.hasValidLifecycleState ∨
            record.authorizationBinding ≠ reservation.binding then
          .error (kafReason .KAF_AUTHORIZATION_BINDING_MISMATCH
            "effect_authorization_binding_mismatch")
        else
          let prior := d.effects.filter fun r => decide (r.tenant_id = tenantId ∧
            (r.run_id = record.runId ∧
                (r.effect_id = record.effectId ∨ r.effect_key = record.effectKey) ∨
              record.operationKey.isSome ∧ r.operation_key = record.operationKey))
          match prior with
          | [] => d.insertEffect (effectRow tenantId record)
          | [row] =>
              if row.effect_id ≠ record.effectId ∨ row.run_id ≠ record.runId then
                .error (conflict "effect_key_reused")
              else
                let existing := row.effect_json
                if existing = record then .ok d
                else if existing.effectDigest ≠ record.effectDigest ∨
                    ¬ isEffectTransitionAllowed existing.state.name record.state.name
                      record.strategy ∨
                    record.updatedAt < existing.updatedAt then
                  .error (conflict "effect_record_changed")
                else .ok (d.updateEffect tenantId record)
          | _ => .error (conflict "effect_key_split")

/-- `getAuthorizationReservation`. -/
def getAuthorizationReservation (d : PostgresEffectLedger) (tenantId : String)
    (authorizationReservationId : String) : Option AuthorizationReservation :=
  (d.reservations.find? fun r => decide (r.tenant_id = tenantId ∧
    r.reservation_id = authorizationReservationId)).map (·.reservation_json)

/-- `getByEffectId`. -/
def getByEffectId (d : PostgresEffectLedger) (tenantId runId effectId : String) :
    Option EffectRecord :=
  (d.effects.find? fun r => decide (r.tenant_id = tenantId ∧ r.run_id = runId ∧
    r.effect_id = effectId)).map (·.effect_json)

/-- `getByEffectKey`. -/
def getByEffectKey (d : PostgresEffectLedger) (tenantId runId effectKey : String) :
    Option EffectRecord :=
  (d.effects.find? fun r => decide (r.tenant_id = tenantId ∧ r.run_id = runId ∧
    r.effect_key = effectKey)).map (·.effect_json)

end PostgresEffectLedger

/-- `MemoryEffectLedger.getByEffectKey`. -/
def MemoryEffectLedger.getByEffectKey (s : MemoryEffectLedger) (tenantId runId effectKey : String) :
    Option EffectRecord :=
  (s.effectKeys.get (tenantId, runId, effectKey)).bind s.effects.get

/-- A put as Postgres makes it, in the transaction of a tenant. -/
def LedgerCall.postgres (E : Encoding) (tenantId : String) (d : PostgresEffectLedger) :
    LedgerCall → Except Thrown PostgresEffectLedger
  | .putAuthorizationReservation reservation => d.putAuthorizationReservation tenantId reservation
  | .putEffectRecord record => d.putEffectRecord E tenantId record

/-- A put of the unit of work in memory, in the transaction of a tenant. -/
def LedgerCall.memory (E : Encoding) (tenantId : String) (s : MemoryEffectLedger) :
    LedgerCall → Except Thrown MemoryEffectLedger
  | .putAuthorizationReservation reservation =>
      if reservation.binding.tenantId ≠ tenantId then
        .error (conflict "cross_tenant_authorization_reservation")
      else (s.putAuthorizationReservation reservation).1.map fun _ =>
        (s.putAuthorizationReservation reservation).2
  | .putEffectRecord record =>
      if record.tenantId ≠ tenantId then .error (conflict "cross_tenant_effect_record")
      else (s.putEffectRecord E record).1.map fun _ => (s.putEffectRecord E record).2

/-- A transaction: its puts up to the first refusal, which takes all of them back. -/
def transact {L : Type} (put : L → LedgerCall → Except Thrown L) (s : L)
    (calls : List LedgerCall) : Except Thrown Unit × L :=
  match calls.foldlM put s with
  | .ok s' => (.ok (), s')
  | .error e => (.error e, s)

/-- The answers of transactions, each of a tenant, and what they leave. -/
def transactions {L : Type} (put : String → L → LedgerCall → Except Thrown L) (s : L) :
    List (String × List LedgerCall) → List (Except Thrown Unit) × L
  | [] => ([], s)
  | (tenantId, calls) :: later =>
      let (answer, s') := transact (put tenantId) s calls
      let (answers, s'') := transactions put s' later
      (answer :: answers, s'')

namespace PostgresEffectLedger

variable {E : Encoding} {s : MemoryEffectLedger} {d : PostgresEffectLedger} {tenantId : String}

/-! ### The invariant -/

/-- The keys a reservation is unique by. -/
def reservationId (r : AuthorizationReservation) : String × String :=
  (r.binding.tenantId, r.authorizationReservationId)

/-- The other one. -/
def authorizationKey (r : AuthorizationReservation) : String × String :=
  (r.binding.tenantId, r.authorizationKey)

/-- The rows have what the memory ledger has. -/
structure Agrees (E : Encoding) (s : MemoryEffectLedger) (d : PostgresEffectLedger) : Prop where
  coherent : MemoryEffectLedger.Coherent E s
  reservationRows : ∀ row ∈ d.reservations,
    row = reservationRow row.reservation_json.binding.tenantId row.reservation_json
  separated : Archive.Separated reservationId authorizationKey
    (d.reservations.map AuthorizationReservationRow.reservation_json)
  reservations : ∀ k r, s.reservations.get k = some r ↔
    (∃ row ∈ d.reservations, row.reservation_json = r) ∧ reservationId r = k
  reservationKeys : ∀ key k, s.reservationKeys.get key = some k ↔
    ∃ row ∈ d.reservations, authorizationKey row.reservation_json = key ∧
      reservationId row.reservation_json = k
  effectRows : ∀ row ∈ d.effects, row = effectRow row.effect_json.tenantId row.effect_json
  distinct : (d.effects.map fun row => row.effect_json.idKey).Nodup
  effects : ∀ k x, s.effects.get k = some x ↔
    (∃ row ∈ d.effects, row.effect_json = x) ∧ x.idKey = k

/-- Two puts that end alike. -/
inductive Alike (E : Encoding) :
    Except Thrown MemoryEffectLedger → Except Thrown PostgresEffectLedger → Prop where
  | accepted {s : MemoryEffectLedger} {d : PostgresEffectLedger} (h : Agrees E s d) :
      Alike E (.ok s) (.ok d)
  | refused (e e' : Thrown) (h : e' ≠ uniqueViolation) : Alike E (.error e) (.error e')

theorem agrees_empty : Agrees E .empty ⟨[], []⟩ where
  coherent := MemoryEffectLedger.coherent_empty
  reservationRows row h := by cases h
  separated := Archive.separated_nil
  reservations k r := by simp [MemoryEffectLedger.empty]
  reservationKeys key k := by simp [MemoryEffectLedger.empty]
  effectRows row h := by cases h
  distinct := List.nodup_nil
  effects k x := by simp [MemoryEffectLedger.empty]

/-! ### Reservations -/

/-- The rows that a put of a reservation selects. -/
theorem Agrees.selects_reservation (h : Agrees E s d) {row : AuthorizationReservationRow}
    (hrow : row ∈ d.reservations) (reservation : AuthorizationReservation) :
    (row.tenant_id = reservation.binding.tenantId ∧
        (row.reservation_id = reservation.authorizationReservationId ∨
          row.authorization_key = reservation.authorizationKey)) ↔
      Archive.Clash reservationId authorizationKey row.reservation_json reservation := by
  rw [h.reservationRows row hrow]
  simp only [reservationRow, Archive.Clash, reservationId, authorizationKey, Prod.mk.injEq]
  tauto

/-- The memory ledger refuses a reservation that clashes with another one. -/
theorem Agrees.memory_refuses (h : Agrees E s d) {row : AuthorizationReservationRow}
    (hrow : row ∈ d.reservations) {reservation : AuthorizationReservation}
    (hclash : Archive.Clash reservationId authorizationKey row.reservation_json reservation)
    (hne : row.reservation_json ≠ reservation) :
    ∃ e, (s.putAuthorizationReservation reservation).1 = .error e := by
  have hsep := h.separated
  unfold MemoryEffectLedger.putAuthorizationReservation
  dsimp only
  cases hget : s.reservations.get (reservation.binding.tenantId,
      reservation.authorizationReservationId) with
  | some existing =>
      obtain ⟨⟨other, hother, rfl⟩, hid⟩ := (h.reservations _ _).mp hget
      dsimp only
      rw [if_neg]
      · exact ⟨_, rfl⟩
      · intro heq
        refine hne (Eq.trans ?_ heq)
        exact hsep.eq (List.mem_map_of_mem hrow) (List.mem_map_of_mem hother) (heq ▸ hclash)
  | none =>
      have hid : reservationId row.reservation_json ≠ reservationId reservation := by
        intro hid
        have := (h.reservations (reservationId reservation) _).mpr ⟨⟨row, hrow, rfl⟩, hid⟩
        exact absurd (hget.symm.trans this) (by rintro ⟨⟩)
      have hkey := (h.reservationKeys (authorizationKey reservation) _).mpr
        ⟨row, hrow, hclash.resolve_left hid, rfl⟩
      rw [authorizationKey] at hkey
      dsimp only
      have hany : (some (reservationId row.reservation_json)).any
          (· ≠ (reservation.binding.tenantId, reservation.authorizationReservationId)) = true :=
        decide_eq_true hid
      rw [hkey, if_pos hany]
      exact ⟨_, rfl⟩

/-- A reservation that clashes with none is kept by both. -/
theorem Agrees.insertReservation (h : Agrees E s d) {reservation : AuthorizationReservation}
    (hnone : ∀ row ∈ d.reservations,
      ¬ Archive.Clash reservationId authorizationKey row.reservation_json reservation) :
    ∃ s' d', s.putAuthorizationReservation reservation = (.ok (), s') ∧
      d.insertReservation (reservationRow reservation.binding.tenantId reservation) = .ok d' ∧
      Agrees E s' d' := by
  have hget : s.reservations.get (reservation.binding.tenantId,
      reservation.authorizationReservationId) = none := by
    cases hget : s.reservations.get (reservation.binding.tenantId,
        reservation.authorizationReservationId) with
    | none => rfl
    | some existing =>
        obtain ⟨⟨row, hrow, rfl⟩, hid⟩ := (h.reservations _ _).mp hget
        exact absurd (.inl hid) (hnone row hrow)
  have hkey : s.reservationKeys.get (reservation.binding.tenantId,
      reservation.authorizationKey) = none := by
    cases hkey : s.reservationKeys.get (reservation.binding.tenantId,
        reservation.authorizationKey) with
    | none => rfl
    | some k =>
        obtain ⟨row, hrow, hkey, -⟩ := (h.reservationKeys _ _).mp hkey
        exact absurd (.inr hkey) (hnone row hrow)
  have hput : s.putAuthorizationReservation reservation = (.ok (), { s with
      reservations := s.reservations.set (reservationId reservation) reservation
      reservationKeys := s.reservationKeys.set (authorizationKey reservation)
        (reservationId reservation) }) := by
    unfold MemoryEffectLedger.putAuthorizationReservation
    simp only [hget, hkey]
    rfl
  refine ⟨_, { d with reservations := d.reservations ++
    [reservationRow reservation.binding.tenantId reservation] }, hput, ?_, ?_⟩
  · unfold PostgresEffectLedger.insertReservation
    rw [if_neg]
    rw [List.any_eq_true]
    rintro ⟨row, hrow, hselected⟩
    exact hnone row hrow ((h.selects_reservation hrow reservation).mp (of_decide_eq_true hselected))
  · have hcoherent := h.coherent.putAuthorizationReservation reservation
    rw [hput] at hcoherent
    refine ⟨hcoherent, ?_, ?_, ?_, ?_, h.effectRows, h.distinct, h.effects⟩
    · intro row hrow
      rcases List.mem_append.mp hrow with hrow | hrow
      · exact h.reservationRows row hrow
      · rw [List.mem_singleton.mp hrow]
        rfl
    · rw [List.map_append]
      refine List.pairwise_append.mpr ⟨h.separated, List.pairwise_singleton _ _, ?_⟩
      intro r hr r' hr'
      obtain ⟨row, hrow, rfl⟩ := List.mem_map.mp hr
      rw [List.map_singleton, List.mem_singleton] at hr'
      rw [hr']
      exact hnone row hrow
    · intro k r
      simp only [OrderedMap.get_set, List.mem_append, List.mem_singleton]
      by_cases hk : k = reservationId reservation
      · rw [if_pos hk]
        constructor
        · rintro ⟨⟩
          exact ⟨⟨_, .inr rfl, rfl⟩, hk.symm⟩
        · rintro ⟨⟨row, hrow | rfl, rfl⟩, hid⟩
          · exact absurd (.inl (hid.trans hk)) (hnone row hrow)
          · rfl
      · rw [if_neg hk, h.reservations]
        refine and_congr_left fun hid => ⟨?_, ?_⟩
        · rintro ⟨row, hrow, hr⟩
          exact ⟨row, .inl hrow, hr⟩
        · rintro ⟨row, hrow | rfl, hr⟩
          · exact ⟨row, hrow, hr⟩
          · exact absurd (hid.symm.trans (congrArg reservationId hr.symm)) hk
    · intro key k
      simp only [OrderedMap.get_set, List.mem_append, List.mem_singleton]
      by_cases hkey : key = authorizationKey reservation
      · rw [if_pos hkey]
        constructor
        · rintro ⟨⟩
          exact ⟨_, .inr rfl, hkey.symm, rfl⟩
        · rintro ⟨row, hrow | rfl, hr, hk⟩
          · exact absurd (.inr (hr.trans hkey)) (hnone row hrow)
          · exact congrArg some hk
      · rw [if_neg hkey, h.reservationKeys]
        constructor
        · rintro ⟨row, hrow, hr⟩
          exact ⟨row, .inl hrow, hr⟩
        · rintro ⟨row, hrow | rfl, hr, hk⟩
          · exact ⟨row, hrow, hr, hk⟩
          · exact absurd hr.symm hkey

/-- **A reservation** is kept by both or refused by both. -/
theorem Agrees.putAuthorizationReservation (h : Agrees E s d)
    (reservation : AuthorizationReservation) :
    Alike E (LedgerCall.memory E tenantId s (.putAuthorizationReservation reservation))
      (d.putAuthorizationReservation tenantId reservation) := by
  unfold PostgresEffectLedger.putAuthorizationReservation
  dsimp only [LedgerCall.memory]
  by_cases htenant : reservation.binding.tenantId ≠ tenantId
  · rw [if_pos htenant, if_pos htenant]
    exact .refused _ _ (by rintro ⟨⟩)
  rw [if_neg htenant, if_neg htenant]
  rw [not_not] at htenant
  subst htenant
  have hmem : ∀ row, row ∈ d.reservations.filter (fun r => decide
        (r.tenant_id = reservation.binding.tenantId ∧
          (r.reservation_id = reservation.authorizationReservationId ∨
            r.authorization_key = reservation.authorizationKey))) ↔
      row ∈ d.reservations ∧
        Archive.Clash reservationId authorizationKey row.reservation_json reservation := by
    intro row
    rw [List.mem_filter, decide_eq_true_eq]
    exact and_congr_right fun hrow => h.selects_reservation hrow reservation
  have hpairs : (d.reservations.filter (fun r => decide
      (r.tenant_id = reservation.binding.tenantId ∧
        (r.reservation_id = reservation.authorizationReservationId ∨
          r.authorization_key = reservation.authorizationKey)))).Pairwise fun a b =>
      ¬ Archive.Clash reservationId authorizationKey a.reservation_json b.reservation_json :=
    (List.pairwise_map.mp h.separated).sublist List.filter_sublist
  generalize d.reservations.filter _ = prior at hmem hpairs ⊢
  cases prior with
  | nil =>
      obtain ⟨s', d', hput, hinsert, hagrees⟩ :=
        Agrees.insertReservation h fun row hrow hclash =>
          absurd ((hmem row).mpr ⟨hrow, hclash⟩) (List.not_mem_nil)
      rw [hput]
      dsimp only
      rw [hinsert]
      exact .accepted hagrees
  | cons existing rest =>
      obtain ⟨hexisting, hclash⟩ := (hmem existing).mp List.mem_cons_self
      cases rest with
      | nil =>
          dsimp only
          by_cases hsame : existing.reservation_json = reservation
          · have hget := (h.reservations (reservationId reservation) reservation).mpr
              ⟨⟨existing, hexisting, hsame⟩, rfl⟩
            rw [reservationId] at hget
            have hput : s.putAuthorizationReservation reservation = (.ok (), s) := by
              unfold MemoryEffectLedger.putAuthorizationReservation
              simp only [hget, if_true]
            rw [hput, if_pos hsame]
            exact .accepted h
          · obtain ⟨e, he⟩ := h.memory_refuses hexisting hclash hsame
            rw [he, if_neg hsame]
            exact .refused _ _ (by rintro ⟨⟩)
      | cons other rest =>
          obtain ⟨hother, hclash'⟩ :=
            (hmem other).mp (List.mem_cons_of_mem _ List.mem_cons_self)
          have hapart : ¬ Archive.Clash reservationId authorizationKey existing.reservation_json
              other.reservation_json :=
            (List.pairwise_cons.mp hpairs).1 other List.mem_cons_self
          -- Of two rows that clash with the reservation one is another reservation.
          have hne : ∃ e, (s.putAuthorizationReservation reservation).1 = .error e := by
            by_cases hsame : existing.reservation_json = reservation
            · refine h.memory_refuses hother hclash' fun hsame' => hapart ?_
              rw [hsame, hsame']
              exact Archive.clash_self reservation
            · exact h.memory_refuses hexisting hclash hsame
          obtain ⟨e, he⟩ := hne
          dsimp only
          rw [he]
          exact .refused _ _ (by rintro ⟨⟩)

/-! ### Effects -/

/-- One effect has a key of the other. -/
def Touches (x y : EffectIdentity) : Prop :=
  x.idKey = y.idKey ∨ x.effectIndex = y.effectIndex ∨
    x.operationIndex.isSome ∧ x.operationIndex = y.operationIndex

/-- The rows that a put of a record selects, which its insert is checked against. -/
theorem Agrees.selects_effect (h : Agrees E s d) {row : EffectRow} (hrow : row ∈ d.effects)
    (record : EffectRecord) :
    (row.tenant_id = record.tenantId ∧
        (row.run_id = record.runId ∧
            (row.effect_id = record.effectId ∨ row.effect_key = record.effectKey) ∨
          record.operationKey.isSome ∧ row.operation_key = record.operationKey)) ↔
      Touches row.effect_json.toEffectIdentity record.toEffectIdentity := by
  rw [h.effectRows row hrow]
  cases hkey : record.operationKey with
  | none =>
      cases hkey' : row.effect_json.operationKey <;>
        simp [effectRow, Touches, EffectIdentity.idKey, EffectIdentity.effectIndex,
          EffectIdentity.operationIndex, hkey, hkey'] <;> tauto
  | some key =>
      cases hkey' : row.effect_json.operationKey <;>
        simp [effectRow, Touches, EffectIdentity.idKey, EffectIdentity.effectIndex,
          EffectIdentity.operationIndex, hkey, hkey'] <;> tauto

/-- The reservation that a put of a record reads. -/
theorem Agrees.findReservation (h : Agrees E s d) (id : String) :
    (d.reservations.find? fun r => decide (r.tenant_id = tenantId ∧ r.reservation_id = id)).map
        AuthorizationReservationRow.reservation_json =
      s.reservations.get (tenantId, id) := by
  have hselects : ∀ row ∈ d.reservations,
      decide (row.tenant_id = tenantId ∧ row.reservation_id = id) = true ↔
        reservationId row.reservation_json = (tenantId, id) := by
    intro row hrow
    rw [decide_eq_true_eq, h.reservationRows row hrow]
    simp [reservationRow, reservationId]
  refine Option.ext fun r => ?_
  rw [h.reservations, Option.map_eq_some_iff]
  constructor
  · rintro ⟨row, hfind, rfl⟩
    have hrow := List.mem_of_find?_eq_some hfind
    have hselected := List.find?_some hfind
    exact ⟨⟨row, hrow, rfl⟩, (hselects row hrow).mp hselected⟩
  · rintro ⟨⟨row, hrow, rfl⟩, hid⟩
    cases hfind : d.reservations.find? fun r =>
        decide (r.tenant_id = tenantId ∧ r.reservation_id = id) with
    | none => exact absurd ((hselects row hrow).mpr hid) (List.find?_eq_none.mp hfind row hrow)
    | some other =>
        have hother := List.mem_of_find?_eq_some hfind
        have hselected := List.find?_some hfind
        refine ⟨other, rfl, ?_⟩
        refine h.separated.eq (List.mem_map_of_mem hother) (List.mem_map_of_mem hrow) (.inl ?_)
        exact ((hselects other hother).mp hselected).trans hid.symm

/-- An index that gives a record, if any. -/
theorem any_ne_eq_false {id : EffectIdKey} {found : Option EffectIdKey} :
    found.any (· ≠ id) = false ↔ ∀ other, found = some other → other = id := by
  cases found <;> simp

/-- The memory ledger has no other effect with a key of the record exactly when there is none. -/
theorem Agrees.apart (h : Agrees E s d) (record : EffectRecord) :
    ((s.effectKeys.get record.effectIndex).any (· ≠ record.idKey) = false ∧
        (record.operationIndex.bind s.operationKeys.get).any (· ≠ record.idKey) = false) ↔
      ∀ row ∈ d.effects, Touches row.effect_json.toEffectIdentity record.toEffectIdentity →
        row.effect_json.idKey = record.idKey := by
  have hget : ∀ row ∈ d.effects, s.effects.get row.effect_json.idKey = some row.effect_json :=
    fun row hrow => (h.effects _ _).mpr ⟨⟨row, hrow, rfl⟩, rfl⟩
  rw [any_ne_eq_false, any_ne_eq_false]
  constructor
  · rintro ⟨hkey, hoperation⟩ row hrow (hid | hindex | ⟨hsome, hindex⟩)
    · exact hid
    · exact hkey _ ((h.coherent.effectKey _ _).mpr ⟨_, hget row hrow, hindex⟩)
    · obtain ⟨key, hsome⟩ := Option.isSome_iff_exists.mp hsome
      refine hoperation _ ?_
      rw [← hindex, hsome]
      exact (h.coherent.operationKey _ _).mpr ⟨_, hget row hrow, hsome⟩
  · refine fun hall => ⟨fun id hid => ?_, fun id hid => ?_⟩
    · obtain ⟨x, hx, hindex⟩ := (h.coherent.effectKey _ _).mp hid
      obtain ⟨⟨row, hrow, rfl⟩, rfl⟩ := (h.effects _ _).mp hx
      exact hall row hrow (.inr (.inl hindex))
    · obtain ⟨key, hsome, hid⟩ := Option.bind_eq_some_iff.mp hid
      obtain ⟨x, hx, hindex⟩ := (h.coherent.operationKey _ _).mp hid
      obtain ⟨⟨row, hrow, rfl⟩, rfl⟩ := (h.effects _ _).mp hx
      refine hall row hrow (.inr (.inr ⟨?_, hindex.trans hsome.symm⟩))
      rw [hindex]
      rfl

/-- The memory ledger refuses a record that has a key of another effect. -/
theorem Agrees.memory_refuses_effect (h : Agrees E s d) {record : EffectRecord} {L : Type}
    {next : Except Thrown Unit × L} {l : L}
    (hapart : ¬ ∀ row ∈ d.effects,
      Touches row.effect_json.toEffectIdentity record.toEffectIdentity →
        row.effect_json.idKey = record.idKey) :
    ∃ e, (if (s.effectKeys.get record.effectIndex).any (· ≠ record.idKey) then
        (.error (conflict "effect_key_reused"), l)
      else if (record.operationIndex.bind s.operationKeys.get).any (· ≠ record.idKey) then
        (.error (conflict "effect_operation_key_reused"), l)
      else next).1 = .error e := by
  by_cases hkey : (s.effectKeys.get record.effectIndex).any (· ≠ record.idKey) = true
  · rw [if_pos hkey]
    exact ⟨_, rfl⟩
  by_cases hoperation :
      (record.operationIndex.bind s.operationKeys.get).any (· ≠ record.idKey) = true
  · rw [if_neg hkey, if_pos hoperation]
    exact ⟨_, rfl⟩
  · refine absurd ((h.apart record).mp ⟨?_, ?_⟩) hapart
    · exact Bool.eq_false_iff.mpr hkey
    · exact Bool.eq_false_iff.mpr hoperation

/-- The rows that a put of a record selects have different identities. -/
theorem Agrees.selected_effects (h : Agrees E s d) (record : EffectRecord) :
    (∀ row, row ∈ d.effects.filter (fun r => decide (r.tenant_id = record.tenantId ∧
          (r.run_id = record.runId ∧
              (r.effect_id = record.effectId ∨ r.effect_key = record.effectKey) ∨
            record.operationKey.isSome ∧ r.operation_key = record.operationKey))) ↔
        row ∈ d.effects ∧ Touches row.effect_json.toEffectIdentity record.toEffectIdentity) ∧
      (d.effects.filter (fun r => decide (r.tenant_id = record.tenantId ∧
          (r.run_id = record.runId ∧
              (r.effect_id = record.effectId ∨ r.effect_key = record.effectKey) ∨
            record.operationKey.isSome ∧ r.operation_key = record.operationKey)))).Pairwise
        fun a b => a.effect_json.idKey ≠ b.effect_json.idKey := by
  refine ⟨fun row => ?_, (List.pairwise_map.mp h.distinct).sublist List.filter_sublist⟩
  rw [List.mem_filter, decide_eq_true_eq]
  exact and_congr_right fun hrow => h.selects_effect hrow record

/-- A record that no effect touches is inserted by both. -/
theorem Agrees.insertEffect (h : Agrees E s d) {record : EffectRecord}
    (hcoherent : MemoryEffectLedger.Coherent E (s.write record))
    (hnone : ∀ row ∈ d.effects,
      ¬ Touches row.effect_json.toEffectIdentity record.toEffectIdentity) :
    ∃ d', d.insertEffect (effectRow record.tenantId record) = .ok d' ∧
      Agrees E (s.write record) d' := by
  refine ⟨{ d with effects := d.effects ++ [effectRow record.tenantId record] }, ?_, ?_⟩
  · unfold PostgresEffectLedger.insertEffect
    rw [if_neg]
    rw [List.any_eq_true]
    rintro ⟨row, hrow, hselected⟩
    have hselected := of_decide_eq_true hselected
    refine hnone row hrow ((h.selects_effect hrow record).mp ?_)
    refine ⟨hselected.1, hselected.2.imp id fun hoperation => ⟨?_, hoperation.2⟩⟩
    rw [show record.operationKey = _ from hoperation.2.symm]
    exact hoperation.1
  · refine ⟨hcoherent, h.reservationRows, h.separated, h.reservations, h.reservationKeys, ?_, ?_,
      ?_⟩
    · intro row hrow
      rcases List.mem_append.mp hrow with hrow | hrow
      · exact h.effectRows row hrow
      · rw [List.mem_singleton.mp hrow]
        rfl
    · rw [List.map_append, List.nodup_append]
      refine ⟨h.distinct, List.nodup_singleton _, fun id hid id' hid' heq => ?_⟩
      obtain ⟨row, hrow, rfl⟩ := List.mem_map.mp hid
      rw [List.map_singleton, List.mem_singleton] at hid'
      exact hnone row hrow (.inl (heq.trans hid'))
    · intro k x
      simp only [MemoryEffectLedger.write, OrderedMap.get_set, List.mem_append,
        List.mem_singleton]
      by_cases hk : k = record.idKey
      · rw [if_pos hk]
        constructor
        · rintro ⟨⟩
          exact ⟨⟨_, .inr rfl, rfl⟩, hk.symm⟩
        · rintro ⟨⟨row, hrow | rfl, rfl⟩, hid⟩
          · exact absurd (.inl (hid.trans hk)) (hnone row hrow)
          · rfl
      · rw [if_neg hk, h.effects]
        refine and_congr_left fun hid => ⟨?_, ?_⟩
        · rintro ⟨row, hrow, hx⟩
          exact ⟨row, .inl hrow, hx⟩
        · rintro ⟨row, hrow | rfl, hx⟩
          · exact ⟨row, hrow, hx⟩
          · exact absurd (hid.symm.trans (congrArg (fun x => x.idKey) hx.symm)) hk

/-- A record that advances an effect updates its row. -/
theorem Agrees.updateEffect (h : Agrees E s d) {record : EffectRecord}
    (hcoherent : MemoryEffectLedger.Coherent E (s.write record))
    {existing : EffectRow} (hexisting : existing ∈ d.effects)
    (hsame : existing.effect_json.toEffectIdentity = record.toEffectIdentity) :
    Agrees E (s.write record) (d.updateEffect record.tenantId record) := by
  have hselects : ∀ row ∈ d.effects, (row.tenant_id = record.tenantId ∧
      row.run_id = record.runId ∧ row.effect_id = record.effectId) ↔
        row.effect_json.idKey = record.idKey := by
    intro row hrow
    rw [h.effectRows row hrow]
    simp [effectRow, EffectIdentity.idKey]
  have hone : ∀ row ∈ d.effects, row.effect_json.idKey = record.idKey → row = existing :=
    fun row hrow hid => List.inj_on_of_nodup_map h.distinct hrow hexisting
      (hid.trans (congrArg EffectIdentity.idKey hsame).symm)
  have hupdated : { existing with effect_json := record } = effectRow record.tenantId record := by
    have hrow := h.effectRows existing hexisting
    rw [hrow]
    simp only [effectRow, hsame]
  have hmap : (d.updateEffect record.tenantId record).effects = d.effects.map fun row =>
      if row.effect_json.idKey = record.idKey then effectRow record.tenantId record else row := by
    refine List.map_congr_left fun row hrow => ?_
    simp only [hselects row hrow]
    split
    · rename_i hid
      rw [hone row hrow hid, hupdated]
    · rfl
  refine ⟨hcoherent, h.reservationRows, h.separated, h.reservations, h.reservationKeys, ?_, ?_, ?_⟩
  · rw [hmap]
    intro row hrow
    obtain ⟨old, hold, rfl⟩ := List.mem_map.mp hrow
    split
    · rfl
    · exact h.effectRows old hold
  · have hids : ((d.updateEffect record.tenantId record).effects.map
        fun row => row.effect_json.idKey) = d.effects.map fun row => row.effect_json.idKey := by
      rw [hmap, List.map_map]
      refine List.map_congr_left fun row hrow => ?_
      dsimp only [Function.comp]
      split
      · rename_i hid
        exact hid.symm
      · rfl
    rw [hids]
    exact h.distinct
  · rw [hmap]
    intro k x
    simp only [MemoryEffectLedger.write, OrderedMap.get_set, List.mem_map]
    by_cases hk : k = record.idKey
    · rw [if_pos hk]
      constructor
      · rintro ⟨⟩
        refine ⟨⟨_, ⟨existing, hexisting, if_pos (congrArg EffectIdentity.idKey hsame)⟩, rfl⟩,
          hk.symm⟩
      · rintro ⟨⟨row, ⟨old, hold, rfl⟩, rfl⟩, hid⟩
        split at hid
        · rename_i hold
          rw [if_pos hold]
          rfl
        · exact absurd (hid.trans hk) ‹_›
    · rw [if_neg hk, h.effects]
      refine and_congr_left fun hid => ⟨?_, ?_⟩
      · rintro ⟨row, hrow, rfl⟩
        exact ⟨row, ⟨row, hrow, if_neg fun hrec => hk (hid.symm.trans hrec)⟩, rfl⟩
      · rintro ⟨row, ⟨old, hold, rfl⟩, rfl⟩
        split at hid
        · exact absurd hid.symm hk
        · rename_i hne
          exact ⟨old, hold, by rw [if_neg hne]⟩

/-- **A record** is kept by both or refused by both. -/
theorem Agrees.putEffectRecord
    (hinj : ∀ a b, E.digest (.effectIdentity a) = E.digest (.effectIdentity b) → a = b)
    (h : Agrees E s d) (record : EffectRecord) :
    Alike E (LedgerCall.memory E tenantId s (.putEffectRecord record))
      (d.putEffectRecord E tenantId record) := by
  have hcoherent := h.coherent.step hinj s (.putEffectRecord record)
  unfold PostgresEffectLedger.putEffectRecord
  dsimp only [LedgerCall.memory]
  by_cases htenant : record.tenantId ≠ tenantId
  · rw [if_pos htenant, if_pos htenant]
    exact .refused _ _ (by rintro ⟨⟩)
  rw [if_neg htenant, if_neg htenant]
  rw [not_not] at htenant
  subst htenant
  dsimp only [LedgerCall.step] at hcoherent
  unfold MemoryEffectLedger.putEffectRecord at hcoherent ⊢
  by_cases hdigest : record.effectDigest ≠ E.digest (.effectIdentity record.toEffectIdentity)
  · rw [if_pos hdigest, if_pos hdigest]
    exact .refused _ _ (by rintro ⟨⟩)
  rw [if_neg hdigest] at hcoherent ⊢
  rw [if_neg hdigest]
  have hreservation : _ = s.reservations.get record.reservationKey :=
    h.findReservation record.authorizationReservationId
  cases hfind : d.reservations.find? fun r => decide (r.tenant_id = record.tenantId ∧
      r.reservation_id = record.authorizationReservationId) with
  | none =>
      rw [hfind] at hreservation
      rw [← hreservation]
      exact .refused _ _ (by rintro ⟨⟩)
  | some row =>
      rw [hfind] at hreservation
      rw [← hreservation] at hcoherent ⊢
      dsimp only [Option.map_some] at hcoherent ⊢
      by_cases hbinding : row.reservation_json.authorizationReservationId ≠
          record.authorizationReservationId ∨ ¬ row.reservation_json.hasValidLifecycleState ∨
            record.authorizationBinding ≠ row.reservation_json.binding
      · rw [if_pos hbinding, if_pos hbinding]
        exact .refused _ _ (by rintro ⟨⟩)
      rw [if_neg hbinding] at hcoherent ⊢
      rw [if_neg hbinding]
      obtain ⟨hmem, hpairs⟩ := h.selected_effects record
      by_cases hapart : ∀ row ∈ d.effects,
          Touches row.effect_json.toEffectIdentity record.toEffectIdentity →
            row.effect_json.idKey = record.idKey
      · obtain ⟨hkey, hoperation⟩ := (h.apart record).mpr hapart
        rw [if_neg (Bool.eq_false_iff.mp hkey), if_neg (Bool.eq_false_iff.mp hoperation)]
          at hcoherent ⊢
        generalize d.effects.filter _ = prior at hmem hpairs ⊢
        cases prior with
        | nil =>
            have hnone : ∀ row ∈ d.effects,
                ¬ Touches row.effect_json.toEffectIdentity record.toEffectIdentity :=
              fun row hrow htouches => absurd ((hmem row).mpr ⟨hrow, htouches⟩) List.not_mem_nil
            have hget : s.effects.get record.idKey = none := by
              cases hget : s.effects.get record.idKey with
              | none => rfl
              | some existing =>
                  obtain ⟨⟨row, hrow, rfl⟩, hid⟩ := (h.effects _ _).mp hget
                  exact absurd (.inl hid) (hnone row hrow)
            rw [hget] at hcoherent ⊢
            obtain ⟨d', hinsert, hagrees⟩ := h.insertEffect hcoherent hnone
            dsimp only
            rw [hinsert]
            exact .accepted hagrees
        | cons existing rest =>
            obtain ⟨hexisting, htouches⟩ := (hmem existing).mp List.mem_cons_self
            have hid := hapart existing hexisting htouches
            cases rest with
            | cons other rest =>
                obtain ⟨hother, htouches'⟩ :=
                  (hmem other).mp (List.mem_cons_of_mem _ List.mem_cons_self)
                refine absurd (hid.trans (hapart other hother htouches').symm) ?_
                exact (List.pairwise_cons.mp hpairs).1 other List.mem_cons_self
            | nil =>
                have hget : s.effects.get record.idKey = some existing.effect_json :=
                  (h.effects _ _).mpr ⟨⟨existing, hexisting, rfl⟩, hid⟩
                have hkeys : ¬ (existing.effect_id ≠ record.effectId ∨
                    existing.run_id ≠ record.runId) := by
                  rw [h.effectRows existing hexisting]
                  simp only [EffectIdentity.idKey, Prod.mk.injEq] at hid
                  simp [effectRow, hid.2.1, hid.2.2]
                rw [hget] at hcoherent ⊢
                dsimp only at hcoherent ⊢
                rw [if_neg hkeys]
                by_cases hsame : existing.effect_json = record
                · rw [if_pos hsame, if_pos hsame]
                  exact .accepted h
                rw [if_neg hsame] at hcoherent ⊢
                rw [if_neg hsame]
                by_cases hchanged : existing.effect_json.effectDigest ≠ record.effectDigest ∨
                    ¬ isEffectTransitionAllowed existing.effect_json.state.name record.state.name
                      record.strategy ∨
                    record.updatedAt < existing.effect_json.updatedAt
                · rw [if_pos hchanged, if_pos hchanged]
                  exact .refused _ _ (by rintro ⟨⟩)
                · rw [if_neg hchanged] at hcoherent ⊢
                  rw [if_neg hchanged]
                  rw [not_not] at hdigest
                  simp only [not_or, not_not] at hchanged
                  refine .accepted (h.updateEffect hcoherent hexisting (hinj _ _ ?_))
                  rw [← (h.coherent.effect _ _ hget).2, ← hdigest]
                  exact hchanged.1
      · obtain ⟨e, he⟩ := h.memory_refuses_effect hapart
        push Not at hapart
        obtain ⟨other, hother, htouches, hne⟩ := hapart
        have hselected := (hmem other).mpr ⟨hother, htouches⟩
        rw [he]
        generalize d.effects.filter _ = prior at hmem hselected ⊢
        cases prior with
        | nil => cases hselected
        | cons existing rest =>
            cases rest with
            | nil =>
                obtain rfl := List.mem_singleton.mp hselected
                have hkeys : other.effect_id ≠ record.effectId ∨ other.run_id ≠ record.runId := by
                  have htenant := ((h.selects_effect hother record).mpr htouches).1
                  rw [h.effectRows other hother] at htenant ⊢
                  by_contra hkeys
                  simp only [effectRow, not_or, not_not] at hkeys htenant
                  exact hne (by simp [EffectIdentity.idKey, htenant, hkeys.1, hkeys.2])
                dsimp only
                rw [if_pos hkeys]
                exact .refused _ _ (by rintro ⟨⟩)
            | cons _ _ => exact .refused _ _ (by rintro ⟨⟩)

/-- **A put** is accepted by both or refused by both. -/
theorem Agrees.put
    (hinj : ∀ a b, E.digest (.effectIdentity a) = E.digest (.effectIdentity b) → a = b)
    (h : Agrees E s d) (call : LedgerCall) :
    Alike E (call.memory E tenantId s) (call.postgres E tenantId d) := by
  cases call with
  | putAuthorizationReservation reservation => exact h.putAuthorizationReservation reservation
  | putEffectRecord record => exact h.putEffectRecord hinj record

/-! ### Transactions -/

/-- **A transaction** is committed by both or rolled back by both. -/
theorem Agrees.puts
    (hinj : ∀ a b, E.digest (.effectIdentity a) = E.digest (.effectIdentity b) → a = b)
    (h : Agrees E s d) (calls : List LedgerCall) :
    Alike E (calls.foldlM (fun s call => call.memory E tenantId s) s)
      (calls.foldlM (fun d call => call.postgres E tenantId d) d) := by
  induction calls generalizing s d with
  | nil => exact .accepted h
  | cons call calls ih =>
      have hput : Alike E (call.memory E tenantId s) (call.postgres E tenantId d) :=
        h.put hinj call
      rw [List.foldlM_cons, List.foldlM_cons]
      generalize call.memory E tenantId s = m at hput ⊢
      generalize call.postgres E tenantId d = p at hput ⊢
      cases hput with
      | accepted h' => exact ih h'
      | refused e e' hne => exact .refused e e' hne

/-- Answers of the two ledgers to one transaction. -/
def SameAnswer (memory postgres : Except Thrown Unit) : Prop :=
  (memory = .ok () ↔ postgres = .ok ()) ∧ postgres ≠ .error uniqueViolation

theorem Agrees.transact
    (hinj : ∀ a b, E.digest (.effectIdentity a) = E.digest (.effectIdentity b) → a = b)
    (h : Agrees E s d) (calls : List LedgerCall) :
    SameAnswer (Pactmark.transact (fun s call => call.memory E tenantId s) s calls).1
        (Pactmark.transact (fun d call => call.postgres E tenantId d) d calls).1 ∧
      Agrees E (Pactmark.transact (fun s call => call.memory E tenantId s) s calls).2
        (Pactmark.transact (fun d call => call.postgres E tenantId d) d calls).2 := by
  have hputs : Alike E (calls.foldlM (fun s call => call.memory E tenantId s) s)
      (calls.foldlM (fun d call => call.postgres E tenantId d) d) := h.puts hinj calls
  unfold Pactmark.transact
  generalize calls.foldlM (fun s call => call.memory E tenantId s) s = m at hputs ⊢
  generalize calls.foldlM (fun d call => call.postgres E tenantId d) d = p at hputs ⊢
  cases hputs with
  | accepted h' => exact ⟨⟨Iff.rfl, by rintro ⟨⟩⟩, h'⟩
  | refused e e' hne =>
      refine ⟨⟨iff_of_false (by rintro ⟨⟩) (by rintro ⟨⟩), fun heq => hne ?_⟩, h⟩
      exact Except.error.inj heq

theorem Agrees.transactions
    (hinj : ∀ a b, E.digest (.effectIdentity a) = E.digest (.effectIdentity b) → a = b)
    (h : Agrees E s d) (ts : List (String × List LedgerCall)) :
    List.Forall₂ SameAnswer
        (Pactmark.transactions (fun tenantId s call => call.memory E tenantId s) s ts).1
        (Pactmark.transactions (fun tenantId d call => call.postgres E tenantId d) d ts).1 ∧
      Agrees E (Pactmark.transactions (fun tenantId s call => call.memory E tenantId s) s ts).2
        (Pactmark.transactions (fun tenantId d call => call.postgres E tenantId d) d ts).2 := by
  induction ts generalizing s d with
  | nil => exact ⟨.nil, h⟩
  | cons t ts ih =>
      obtain ⟨tenantId, calls⟩ := t
      obtain ⟨hanswer, h'⟩ := @Agrees.transact _ _ _ tenantId hinj h calls
      obtain ⟨hanswers, h''⟩ := ih h'
      exact ⟨.cons hanswer hanswers, h''⟩

/-! ### Reads -/

/-- A read of an effect finds the one that is selected. -/
theorem Agrees.findEffect (h : Agrees E s d) {p : EffectRow → Bool} {x : EffectRecord}
    (hone : ∀ row ∈ d.effects, ∀ other ∈ d.effects, p row → p other →
      row.effect_json.idKey = other.effect_json.idKey) :
    (d.effects.find? p).map EffectRow.effect_json = some x ↔
      ∃ row ∈ d.effects, p row = true ∧ row.effect_json = x := by
  rw [Option.map_eq_some_iff]
  refine exists_congr fun row => ?_
  rw [Archive.find?_eq_some_iff fun a ha b hb hpa hpb =>
    List.inj_on_of_nodup_map h.distinct ha hb (hone a ha b hb hpa hpb), and_assoc]

theorem Agrees.getByEffectId (h : Agrees E s d) (tenantId runId effectId : String) :
    d.getByEffectId tenantId runId effectId = s.effects.get (tenantId, runId, effectId) := by
  have hselects : ∀ row ∈ d.effects, decide (row.tenant_id = tenantId ∧ row.run_id = runId ∧
      row.effect_id = effectId) = true ↔
        row.effect_json.idKey = (tenantId, runId, effectId) := by
    intro row hrow
    rw [decide_eq_true_eq, h.effectRows row hrow]
    simp [effectRow, EffectIdentity.idKey]
  refine Option.ext fun x => ?_
  rw [PostgresEffectLedger.getByEffectId, h.findEffect, h.effects]
  · constructor
    · rintro ⟨row, hrow, hp, rfl⟩
      exact ⟨⟨row, hrow, rfl⟩, (hselects row hrow).mp hp⟩
    · rintro ⟨⟨row, hrow, rfl⟩, hid⟩
      exact ⟨row, hrow, (hselects row hrow).mpr hid, rfl⟩
  · intro row hrow other hother hp hp'
    exact ((hselects row hrow).mp hp).trans ((hselects other hother).mp hp').symm

theorem Agrees.getByEffectKey (h : Agrees E s d) (tenantId runId effectKey : String) :
    d.getByEffectKey tenantId runId effectKey = s.getByEffectKey tenantId runId effectKey := by
  have hselects : ∀ row ∈ d.effects, decide (row.tenant_id = tenantId ∧ row.run_id = runId ∧
      row.effect_key = effectKey) = true ↔
        row.effect_json.effectIndex = (tenantId, runId, effectKey) := by
    intro row hrow
    rw [decide_eq_true_eq, h.effectRows row hrow]
    simp [effectRow, EffectIdentity.effectIndex]
  have hget : ∀ row ∈ d.effects, s.effects.get row.effect_json.idKey = some row.effect_json :=
    fun row hrow => (h.effects _ _).mpr ⟨⟨row, hrow, rfl⟩, rfl⟩
  refine Option.ext fun x => ?_
  rw [PostgresEffectLedger.getByEffectKey, h.findEffect, MemoryEffectLedger.getByEffectKey,
    Option.bind_eq_some_iff]
  · constructor
    · rintro ⟨row, hrow, hp, rfl⟩
      exact ⟨_, (h.coherent.effectKey _ _).mpr ⟨_, hget row hrow, (hselects row hrow).mp hp⟩,
        hget row hrow⟩
    · rintro ⟨id, hid, hx⟩
      obtain ⟨y, hy, hindex⟩ := (h.coherent.effectKey _ _).mp hid
      obtain rfl := Option.some.inj (hx.symm.trans hy)
      obtain ⟨⟨row, hrow, rfl⟩, -⟩ := (h.effects _ _).mp hx
      exact ⟨row, hrow, (hselects row hrow).mpr hindex, rfl⟩
  · intro row hrow other hother hp hp'
    exact h.coherent.effectIndex_inj (hget row hrow) (hget other hother)
      (((hselects row hrow).mp hp).trans ((hselects other hother).mp hp').symm)

/-- The two ledgers are read the same. -/
structure SameReads (s : MemoryEffectLedger) (d : PostgresEffectLedger) : Prop where
  getAuthorizationReservation : ∀ tenantId id,
    d.getAuthorizationReservation tenantId id = s.reservations.get (tenantId, id)
  getByEffectId : ∀ tenantId runId effectId,
    d.getByEffectId tenantId runId effectId = s.effects.get (tenantId, runId, effectId)
  getByEffectKey : ∀ tenantId runId effectKey,
    d.getByEffectKey tenantId runId effectKey = s.getByEffectKey tenantId runId effectKey

theorem Agrees.reads (h : Agrees E s d) : SameReads s d where
  getAuthorizationReservation _ id := h.findReservation id
  getByEffectId := h.getByEffectId
  getByEffectKey := h.getByEffectKey

/-- **The two ledgers agree**: whatever transactions they are given, they commit the same ones and
are read the same, and Postgres never meets a unique constraint. -/
theorem postgres_ledger_agrees (E : Encoding)
    (hinj : ∀ a b, E.digest (.effectIdentity a) = E.digest (.effectIdentity b) → a = b)
    (ts : List (String × List LedgerCall)) :
    List.Forall₂ SameAnswer
        (Pactmark.transactions (fun tenantId s call => call.memory E tenantId s) .empty ts).1
        (Pactmark.transactions (fun tenantId d call => call.postgres E tenantId d) ⟨[], []⟩ ts).1 ∧
      SameReads
        (Pactmark.transactions (fun tenantId s call => call.memory E tenantId s) .empty ts).2
        (Pactmark.transactions (fun tenantId d call => call.postgres E tenantId d) ⟨[], []⟩ ts).2 :=
  (agrees_empty.transactions hinj ts).imp id Agrees.reads

section Witness

/-- An effect is prepared in one transaction, and dispatched in the next one. -/
def mailTransactions (E : Encoding) : List (String × List LedgerCall) :=
  [("tenant", [.putAuthorizationReservation MemoryEffectLedger.mailReservation,
      .putEffectRecord (MemoryEffectLedger.preparedMail E)]),
    ("tenant", [.putEffectRecord (MemoryEffectLedger.dispatchedMail E)])]

theorem postgres_ledger_agrees_mail :
    ∃ E : Encoding, List.Forall₂ SameAnswer
        (Pactmark.transactions (fun tenantId s call => call.memory E tenantId s) .empty
          (mailTransactions E)).1
        (Pactmark.transactions (fun tenantId d call => call.postgres E tenantId d) ⟨[], []⟩
          (mailTransactions E)).1 ∧
      SameReads
        (Pactmark.transactions (fun tenantId s call => call.memory E tenantId s) .empty
          (mailTransactions E)).2
        (Pactmark.transactions (fun tenantId d call => call.postgres E tenantId d) ⟨[], []⟩
          (mailTransactions E)).2 := by
  obtain ⟨E, hinj⟩ := MemoryEffectLedger.exists_injective_encoding
  exact ⟨E, postgres_ledger_agrees E hinj (mailTransactions E)⟩

end Witness

end PostgresEffectLedger

end Pactmark
