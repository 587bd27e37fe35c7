import Pactmark.Core.Capability
import Pactmark.Core.Run
import Pactmark.Core.Values
import Pactmark.Durable.Archive
import Pactmark.Durable.Operations
import Pactmark.Durable.OrderedMap

/-!
# Stores — immutable records

The evidence, verification and pattern records of `store-memory/src/evidence-record-stores.ts` and
`store-postgres/src/evidence-record-stores.ts`.  The three stores of either file differ in the
fields they read (`RecordKind`).  A record of a memory store is put in one step; in Postgres a put
is an insert and, when a row was in its way, a select, and the statements of any number of calls
interleave.

* `MemoryRecordStore.put_filed`: a memory store is an archive by record key and by digest.
* `Shared.linearized`: whatever the interleaving, the calls on Postgres are answered as by a
  memory store that gets the records in the order of the inserts, and both read the same.
-/

namespace Pactmark

open Durable

namespace ImmutableRecords

/-! ### The guard -/

/-- What a `StorageSecurityProfile` allows. -/
structure StorageSecurityProfile where
  allowedTenants : List String
  allowedPurposes : List String
  allowedDataClasses : List DataClass

/-- `matches`. -/
def allowedBy (allowed : List String) (value : String) : Bool :=
  allowed.contains "*" || allowed.contains value

namespace StorageSecurityProfile

variable (profile : StorageSecurityProfile)

/-- `reject`. -/
def reject (reason : String) : Except Thrown Unit :=
  .error (kafReason .KAF_STORAGE_SECURITY_PROFILE reason)

/-- `assertTenantAllowed`. -/
def assertTenantAllowed (tenantId : String) : Except Thrown Unit :=
  if trim tenantId = "" ∨ ¬ allowedBy profile.allowedTenants tenantId then reject "tenant"
  else .ok ()

/-- `assertRoutingAllowed`. -/
def assertRoutingAllowed (tenantId : String) (dataClass : DataClass) : Except Thrown Unit := do
  profile.assertTenantAllowed tenantId
  if dataClass = .highly_restricted then reject "data_class"
  if ¬ profile.allowedDataClasses.contains dataClass then reject "data_class"

/-- `assertWriteAllowed` of the memory stores. -/
def memoryWriteAllowed (tenantId purposeCode : String) (dataClass : DataClass) :
    Except Thrown Unit := do
  profile.assertRoutingAllowed tenantId dataClass
  if ¬ allowedBy profile.allowedPurposes purposeCode then reject "purpose"

/-- `assertWriteAllowed` of the Postgres stores, which refuses a blank purpose. -/
def postgresWriteAllowed (tenantId purposeCode : String) (dataClass : DataClass) :
    Except Thrown Unit := do
  profile.assertRoutingAllowed tenantId dataClass
  if trim purposeCode = "" ∨ ¬ allowedBy profile.allowedPurposes purposeCode then reject "purpose"

end StorageSecurityProfile

/-! ### The records -/

/-- What a store reads of its records, and the reasons it refuses them with. -/
structure RecordKind (V K : Type) where
  tenantId : V → String
  purposeCode : V → String
  dataClass : V → DataClass
  id : V → K
  route : K → List String
  digest : V → Digest
  materialDigest : V → Digest
  canonicalDigest : V → Digest
  digestInvalid : String
  changed : String
  bindingChanged : String
  rowChanged : String
  digestRouteChanged : String

/-- The fields of an evidence record that its digest covers. -/
structure EvidenceMaterial (M : Type) where
  tenantId : String
  evidenceRecordId : String
  permissionPurposeCode : String
  permissionDataClass : DataClass
  others : M
  deriving DecidableEq

/-- `EvidenceRecord`. -/
structure EvidenceRecord (M : Type) extends EvidenceMaterial M where
  evidenceDigest : Digest
  deriving DecidableEq

/-- `MemoryEvidenceRecordStore` and `PostgresEvidenceRecordStore`. -/
def evidenceRecords {M : Type} (digestMaterial : EvidenceMaterial M → Digest)
    (digestCanonicalJson : EvidenceRecord M → Digest) : RecordKind (EvidenceRecord M) String where
  tenantId record := record.tenantId
  purposeCode record := record.permissionPurposeCode
  dataClass record := record.permissionDataClass
  id record := record.evidenceRecordId
  route evidenceRecordId := [evidenceRecordId]
  digest record := record.evidenceDigest
  materialDigest record := digestMaterial record.toEvidenceMaterial
  canonicalDigest := digestCanonicalJson
  digestInvalid := "evidence_digest_invalid"
  changed := "immutable_evidence_record_changed"
  bindingChanged := "evidence_record_binding_changed"
  rowChanged := "evidence_record_changed"
  digestRouteChanged := "evidence_digest_route_changed"

/-- The fields of a verification result that its digest covers. -/
structure VerificationMaterial (M : Type) where
  verificationId : String
  others : M
  deriving DecidableEq

/-- `VerificationRecord`, with the digest of its result. -/
structure VerificationRecord (M : Type) where
  tenantId : String
  runId : String
  purposeCode : String
  dataClass : DataClass
  verification : VerificationMaterial M
  verificationDigest : Digest
  deriving DecidableEq

/-- `MemoryVerificationRecordStore` and `PostgresVerificationRecordStore`. -/
def verificationRecords {M : Type} (digestMaterial : VerificationMaterial M → Digest)
    (digestCanonicalJson : VerificationRecord M → Digest) :
    RecordKind (VerificationRecord M) (String × String) where
  tenantId record := record.tenantId
  purposeCode record := record.purposeCode
  dataClass record := record.dataClass
  id record := (record.runId, record.verification.verificationId)
  route k := [k.1, k.2]
  digest record := record.verificationDigest
  materialDigest record := digestMaterial record.verification
  canonicalDigest := digestCanonicalJson
  digestInvalid := "verification_digest_invalid"
  changed := "immutable_verification_record_changed"
  bindingChanged := "verification_record_binding_changed"
  rowChanged := "verification_record_changed"
  digestRouteChanged := "verification_digest_route_changed"

/-- The fields of a pattern manifest that its digest covers. -/
structure PatternMaterial (M : Type) where
  patternId : String
  version : String
  others : M
  deriving DecidableEq

/-- `PatternRecord`, with the digest of its manifest. -/
structure PatternRecord (M : Type) where
  tenantId : String
  purposeCode : String
  dataClass : DataClass
  pattern : PatternMaterial M
  patternDigest : Digest
  deriving DecidableEq

/-- `MemoryPatternRecordStore` and `PostgresPatternRecordStore`. -/
def patternRecords {M : Type} (digestMaterial : PatternMaterial M → Digest)
    (digestCanonicalJson : PatternRecord M → Digest) :
    RecordKind (PatternRecord M) (String × String) where
  tenantId record := record.tenantId
  purposeCode record := record.purposeCode
  dataClass record := record.dataClass
  id record := (record.pattern.patternId, record.pattern.version)
  route k := [k.1, k.2]
  digest record := record.patternDigest
  materialDigest record := digestMaterial record.pattern
  canonicalDigest := digestCanonicalJson
  digestInvalid := "pattern_digest_invalid"
  changed := "immutable_pattern_record_changed"
  bindingChanged := "pattern_record_binding_changed"
  rowChanged := "pattern_record_changed"
  digestRouteChanged := "pattern_digest_route_changed"

variable {V K : Type} [DecidableEq V] [DecidableEq K]

/-- `recordKey(record.tenantId, ..)`, and the columns of the primary key. -/
def RecordKind.recordKey (kind : RecordKind V K) (record : V) : String × K :=
  (kind.tenantId record, kind.id record)

/-- `recordKey(tenantId, digest)`, and the columns of the unique constraint. -/
def RecordKind.digestKey (kind : RecordKind V K) (record : V) : String × Digest :=
  (kind.tenantId record, kind.digest record)

/-- `assertEvidenceDigest`, `assertVerificationDigest` and `assertPatternDigest`. -/
def RecordKind.assertDigest (kind : RecordKind V K) (record : V) : Except Thrown Unit :=
  if kind.digest record ≠ kind.materialDigest record then .error (conflict kind.digestInvalid)
  else .ok ()

/-! ### The memory stores -/

/-- The maps of a memory store. -/
structure MemoryRecordStore (V K : Type) where
  records : OrderedMap (String × K) V
  digests : OrderedMap (String × Digest) (String × K)

namespace MemoryRecordStore

omit [DecidableEq V] [DecidableEq K] in
/-- A store without records. -/
def empty : MemoryRecordStore V K :=
  ⟨.empty, .empty⟩

/-- The function `putImmutable`. -/
def putRecord (s : MemoryRecordStore V K) (key : String × K) (digestKey : String × Digest)
    (record : V) : Except Thrown Unit × MemoryRecordStore V K :=
  match s.records.get key with
  | some existing =>
      if existing = record then (.ok (), s)
      else (.error (conflict "immutable_evidence_record_changed"), s)
  | none =>
      if (s.digests.get digestKey).any (· ≠ key) then
        (.error (conflict "evidence_digest_route_changed"), s)
      else (.ok (), ⟨s.records.set key record, s.digests.set digestKey key⟩)

/-- The method `putImmutable`. -/
def putImmutable (profile : StorageSecurityProfile) (kind : RecordKind V K)
    (s : MemoryRecordStore V K) (record : V) : Except Thrown Unit × MemoryRecordStore V K :=
  match profile.memoryWriteAllowed (kind.tenantId record) (kind.purposeCode record)
      (kind.dataClass record) with
  | .error e => (.error e, s)
  | .ok () =>
      match kind.assertDigest record with
      | .error e => (.error e, s)
      | .ok () => s.putRecord (kind.recordKey record) (kind.digestKey record) record

/-- `get`. -/
def get (profile : StorageSecurityProfile) (s : MemoryRecordStore V K) (tenantId : String)
    (id : K) : Except Thrown (Option V) := do
  profile.assertTenantAllowed tenantId
  return s.records.get (tenantId, id)

/-- `getByDigest`. -/
def getByDigest (profile : StorageSecurityProfile) (s : MemoryRecordStore V K) (tenantId : String)
    (digest : Digest) : Except Thrown (Option V) := do
  profile.assertTenantAllowed tenantId
  return (s.digests.get (tenantId, digest)).bind s.records.get

end MemoryRecordStore

/-! ### The Postgres stores -/

/-- A row: the unique columns, the digest of the record, and the record. -/
structure ImmutableRecordRow (V K : Type) where
  key : String × K
  digest_key : String × Digest
  canonical_digest : Digest
  record_json : V

/-- The row of a record. -/
def RecordKind.row (kind : RecordKind V K) (record : V) : ImmutableRecordRow V K where
  key := kind.recordKey record
  digest_key := kind.digestKey record
  canonical_digest := kind.canonicalDigest record
  record_json := record

/-- The rows of a table, in the order of their inserts. -/
abbrev RecordTable (V K : Type) :=
  List (ImmutableRecordRow V K)

namespace RecordTable

/-- `INSERT .. ON CONFLICT DO NOTHING`, with its `rowCount`. -/
def insert (table : RecordTable V K) (row : ImmutableRecordRow V K) : Nat × RecordTable V K :=
  if table.any fun r => decide (r.key = row.key ∨ r.digest_key = row.digest_key) then (0, table)
  else (1, table ++ [row])

/-- `SELECT .. WHERE` the primary key. -/
def selectKey (table : RecordTable V K) (key : String × K) : Option (ImmutableRecordRow V K) :=
  table.find? fun r => decide (r.key = key)

omit [DecidableEq V] [DecidableEq K] in
/-- `SELECT .. WHERE` the digest. -/
def selectDigest (table : RecordTable V K) (digestKey : String × Digest) :
    Option (ImmutableRecordRow V K) :=
  table.find? fun r => decide (r.digest_key = digestKey)

end RecordTable

/-- `assertNonempty`, of every part of a route. -/
def validateRoute (parts : List String) : Except Thrown Unit :=
  if parts.any fun part => decide (trim part = "") then .error (kafError .KAF_SCHEMA_INVALID)
  else .ok ()

/-- `parseEvidenceRow`, `parseVerificationRow` and `parsePatternRow`. -/
def RecordKind.parseRow (kind : RecordKind V K) (row : ImmutableRecordRow V K) (tenantId : String)
    (id : Option K) : Except Thrown V :=
  let record := row.record_json
  if kind.tenantId record ≠ tenantId ∨ ¬ id.all (· = kind.id record) then
    .error (conflict kind.bindingChanged)
  else
    match kind.assertDigest record with
    | .error e => .error e
    | .ok () =>
        if kind.canonicalDigest record ≠ row.canonical_digest then
          .error (conflict kind.rowChanged)
        else .ok record

namespace PostgresRecordStore

variable (profile : StorageSecurityProfile) (kind : RecordKind V K)

/-- `get`. -/
def get (table : RecordTable V K) (tenantId : String) (id : K) : Except Thrown (Option V) := do
  validateRoute (tenantId :: kind.route id)
  profile.assertTenantAllowed tenantId
  match table.selectKey (tenantId, id) with
  | none => return none
  | some row => return some (← kind.parseRow row tenantId (some id))

/-- `getByDigest`. -/
def getByDigest (table : RecordTable V K) (tenantId : String) (digest : Digest) :
    Except Thrown (Option V) := do
  validateRoute [tenantId, digest]
  profile.assertTenantAllowed tenantId
  match table.selectDigest (tenantId, digest) with
  | none => return none
  | some row =>
      let record ← kind.parseRow row tenantId none
      if kind.digest record ≠ digest then .error (conflict kind.digestRouteChanged)
      else return some record

/-- What `putImmutable` checks before its first statement. -/
def check (record : V) : Except Thrown Unit := do
  profile.postgresWriteAllowed (kind.tenantId record) (kind.purposeCode record)
    (kind.dataClass record)
  kind.assertDigest record

end PostgresRecordStore

/-- Where a call of `putImmutable` is: before its insert, before its select, or done. -/
inductive PutPhase where
  | inserting
  | selecting
  | answered (answer : Except Thrown Unit)

/-- A call of `putImmutable`. -/
structure PutCall (V : Type) where
  record : V
  phase : PutPhase

/-- The table and the calls on it, and the calls that have made their insert, in order. -/
structure Shared (V K : Type) where
  table : RecordTable V K
  calls : List (PutCall V)
  inserted : List Nat

/-- A call is made, or makes its next statement. -/
inductive PutEvent (V : Type) where
  | call (record : V)
  | statement (i : Nat)

namespace Shared

omit [DecidableEq V] [DecidableEq K] in
/-- An empty table. -/
def start : Shared V K :=
  ⟨[], [], []⟩

variable (profile : StorageSecurityProfile) (kind : RecordKind V K)

/-- `insertImmutable`, from one statement to the next. -/
def step (s : Shared V K) : PutEvent V → Shared V K
  | .call record =>
      let phase : PutPhase :=
        match PostgresRecordStore.check profile kind record with
        | .ok () => .inserting
        | .error e => .answered (.error e)
      { s with calls := s.calls ++ [⟨record, phase⟩] }
  | .statement i =>
      match s.calls[i]? with
      | none => s
      | some c =>
          match c.phase with
          | .inserting =>
              let (rowCount, table) := s.table.insert (kind.row c.record)
              { table
                calls := s.calls.set i
                  { c with phase := if rowCount = 1 then .answered (.ok ()) else .selecting }
                inserted := s.inserted ++ [i] }
          | .selecting =>
              let answer : Except Thrown Unit :=
                if (s.table.selectKey (kind.recordKey c.record)).any
                    (·.canonical_digest = kind.canonicalDigest c.record) then .ok ()
                else .error (conflict kind.changed)
              { s with calls := s.calls.set i { c with phase := .answered answer } }
          | .answered _ => s

/-- What a sequence of events leaves. -/
def run (events : List (PutEvent V)) : Shared V K :=
  events.foldl (step profile kind) start

end Shared

/-! ### A memory store is an archive -/

section Archive

variable {kind : RecordKind V K} {profile : StorageSecurityProfile}

/-- `Archive.file`, by the two keys of a record. -/
abbrev RecordKind.file (kind : RecordKind V K) (l : List V) (record : V) : List V :=
  Archive.file kind.recordKey kind.digestKey l record

/-- The maps of a memory store are those of the records of an archive. -/
structure Filed (kind : RecordKind V K) (s : MemoryRecordStore V K) (l : List V) : Prop where
  separated : Archive.Separated kind.recordKey kind.digestKey l
  records : ∀ k v, s.records.get k = some v ↔ v ∈ l ∧ kind.recordKey v = k
  digests : ∀ d k, s.digests.get d = some k ↔
    ∃ v ∈ l, kind.digestKey v = d ∧ kind.recordKey v = k

omit [DecidableEq V] in
theorem filed_empty : Filed kind MemoryRecordStore.empty [] where
  separated := Archive.separated_nil
  records k v := by simp [MemoryRecordStore.empty]
  digests d k := by simp [MemoryRecordStore.empty]

/-- **A put** is accepted exactly when the archive keeps the record. -/
theorem Filed.putRecord {s : MemoryRecordStore V K} {l : List V} (h : Filed kind s l) (record : V) :
    ((s.putRecord (kind.recordKey record) (kind.digestKey record) record).1 = .ok () ↔
        record ∈ kind.file l record) ∧
      Filed kind (s.putRecord (kind.recordKey record) (kind.digestKey record) record).2
        (kind.file l record) := by
  unfold MemoryRecordStore.putRecord
  cases hget : s.records.get (kind.recordKey record) with
  | some existing =>
      obtain ⟨hmem, hkey⟩ := (h.records _ _).mp hget
      have hclash : ∃ w ∈ l, Archive.Clash kind.recordKey kind.digestKey w record :=
        ⟨existing, hmem, .inl hkey⟩
      have hfile : kind.file l record = l := if_pos hclash
      rw [hfile]
      dsimp only
      split
      · rename_i heq
        exact ⟨iff_of_true rfl (heq ▸ hmem), h⟩
      · rename_i hne
        refine ⟨iff_of_false (by rintro ⟨⟩) fun hrecord => hne ?_, h⟩
        exact h.separated.eq hmem hrecord (.inl hkey)
  | none =>
      have hfresh : ∀ w ∈ l, kind.recordKey w ≠ kind.recordKey record := by
        intro w hw hkey
        have := (h.records _ _).mpr ⟨hw, hkey⟩
        rw [hget] at this
        cases this
      dsimp only
      cases hdigest : s.digests.get (kind.digestKey record) with
      | some other =>
          obtain ⟨w, hw, hwd, hwk⟩ := (h.digests _ _).mp hdigest
          have hne : other ≠ kind.recordKey record := hwk ▸ hfresh w hw
          have hfile : kind.file l record = l := if_pos ⟨w, hw, .inr hwd⟩
          rw [hfile, Option.any_some, if_pos (by simpa using hne)]
          exact ⟨iff_of_false (by rintro ⟨⟩) fun hrecord => hfresh record hrecord rfl, h⟩
      | none =>
          have hnone : ¬ ∃ w ∈ l, Archive.Clash kind.recordKey kind.digestKey w record := by
            rintro ⟨w, hw, hkey | hwd⟩
            · exact hfresh w hw hkey
            · have := (h.digests _ _).mpr ⟨w, hw, hwd, rfl⟩
              rw [hdigest] at this
              cases this
          have hfile : kind.file l record = l ++ [record] := if_neg hnone
          have hseparated := h.separated.file record
          rw [show Archive.file kind.recordKey kind.digestKey l record = l ++ [record] from hfile]
            at hseparated
          rw [hfile, Option.any_none, if_neg (by simp)]
          refine ⟨iff_of_true rfl (by simp), hseparated, fun k v => ?_, fun d k => ?_⟩
          · rw [OrderedMap.get_set, List.mem_append, List.mem_singleton]
            by_cases hk : k = kind.recordKey record
            · subst hk
              simp only [if_true, Option.some.injEq]
              constructor
              · rintro rfl
                exact ⟨.inr rfl, rfl⟩
              · rintro ⟨hv | rfl, hkey⟩
                · exact absurd hkey (hfresh v hv)
                · rfl
            · rw [if_neg hk, h.records]
              constructor
              · rintro ⟨hv, hkey⟩
                exact ⟨.inl hv, hkey⟩
              · rintro ⟨hv | rfl, hkey⟩
                · exact ⟨hv, hkey⟩
                · exact absurd hkey.symm hk
          · rw [OrderedMap.get_set]
            by_cases hd : d = kind.digestKey record
            · subst hd
              simp only [if_true, Option.some.injEq]
              constructor
              · rintro rfl
                exact ⟨record, by simp, rfl, rfl⟩
              · rintro ⟨v, hv, hvd, rfl⟩
                rcases List.mem_append.mp hv with hv | hv
                · exact absurd ⟨v, hv, .inr hvd⟩ hnone
                · rw [List.mem_singleton.mp hv]
            · rw [if_neg hd, h.digests]
              constructor
              · rintro ⟨v, hv, hvd, hvk⟩
                exact ⟨v, List.mem_append_left _ hv, hvd, hvk⟩
              · rintro ⟨v, hv, hvd, hvk⟩
                rcases List.mem_append.mp hv with hv | hv
                · exact ⟨v, hv, hvd, hvk⟩
                · rw [List.mem_singleton.mp hv] at hvd
                  exact absurd hvd.symm hd

/-- A record that passes the checks of Postgres passes those of memory. -/
theorem putImmutable_of_check {record : V}
    (hcheck : PostgresRecordStore.check profile kind record = .ok ()) (s : MemoryRecordStore V K) :
    s.putImmutable profile kind record =
      s.putRecord (kind.recordKey record) (kind.digestKey record) record := by
  obtain ⟨⟨⟩, hguard, hdigest⟩ := bind_eq_ok.mp hcheck
  obtain ⟨⟨⟩, hrouting, hpurpose⟩ := bind_eq_ok.mp hguard
  have hmemory : profile.memoryWriteAllowed (kind.tenantId record) (kind.purposeCode record)
      (kind.dataClass record) = .ok () := by
    refine bind_eq_ok.mpr ⟨(), hrouting, ?_⟩
    by_cases hpurposes : allowedBy profile.allowedPurposes (kind.purposeCode record) = true
    · rw [if_neg (by simpa using hpurposes)]
      rfl
    · rw [if_pos (.inr hpurposes)] at hpurpose
      cases hpurpose
  unfold MemoryRecordStore.putImmutable
  rw [hmemory, hdigest]

variable (kind profile) in
/-- What a memory store holds after puts of the records, in order. -/
def memoryAfter (records : List V) : MemoryRecordStore V K :=
  records.foldl (fun s record => (s.putImmutable profile kind record).2) .empty

theorem filed_memoryAfter {records : List V}
    (hcheck : ∀ v ∈ records, PostgresRecordStore.check profile kind v = .ok ()) :
    Filed kind (memoryAfter kind profile records) (records.foldl kind.file []) := by
  induction records using List.reverseRecOn with
  | nil => exact filed_empty
  | append_singleton records record ih =>
      have hfiled := ih fun v hv => hcheck v (List.mem_append_left _ hv)
      have hrecord := hcheck record (List.mem_append_right _ List.mem_cons_self)
      rw [memoryAfter, List.foldl_append, List.foldl_append, List.foldl_cons, List.foldl_nil,
        List.foldl_cons, List.foldl_nil, putImmutable_of_check hrecord]
      exact (hfiled.putRecord record).2

/-! ### The rows of a table -/

omit [DecidableEq V] in
/-- The insert of a record files it. -/
theorem insert_rows (l : List V) (record : V) :
    RecordTable.insert (l.map kind.row) (kind.row record) =
      (if ∃ w ∈ l, Archive.Clash kind.recordKey kind.digestKey w record then 0 else 1,
        (kind.file l record).map kind.row) := by
  have hany : ((l.map kind.row).any fun r => decide (r.key = (kind.row record).key ∨
      r.digest_key = (kind.row record).digest_key)) = true ↔
        ∃ w ∈ l, Archive.Clash kind.recordKey kind.digestKey w record := by
    rw [List.any_map, List.any_eq_true]
    exact exists_congr fun w => and_congr_right fun _ => decide_eq_true_iff
  unfold RecordTable.insert RecordKind.file Archive.file
  by_cases hclash : ∃ w ∈ l, Archive.Clash kind.recordKey kind.digestKey w record
  · rw [if_pos (hany.mpr hclash), if_pos hclash, if_pos hclash]
  · rw [if_neg fun h => hclash (hany.mp h), if_neg hclash, if_neg hclash, List.map_append]
    rfl

omit [DecidableEq V] in
/-- The row of a key, in the table of an archive. -/
theorem selectKey_rows {s : MemoryRecordStore V K} {l : List V} (h : Filed kind s l)
    (key : String × K) :
    RecordTable.selectKey (l.map kind.row) key = (s.records.get key).map kind.row := by
  unfold RecordTable.selectKey
  rw [List.find?_map]
  congr 1
  ext record
  rw [h.records, Archive.find?_eq_some_iff]
  · exact and_congr_right fun _ => decide_eq_true_iff
  · intro a ha b hb hka hkb
    refine h.separated.eq ha hb (.inl ?_)
    rw [Function.comp, decide_eq_true_eq] at hka hkb
    exact hka.trans hkb.symm

omit [DecidableEq V] in
theorem selectDigest_rows {s : MemoryRecordStore V K} {l : List V} (h : Filed kind s l)
    (digestKey : String × Digest) :
    RecordTable.selectDigest (l.map kind.row) digestKey =
      ((s.digests.get digestKey).bind s.records.get).map kind.row := by
  unfold RecordTable.selectDigest
  rw [List.find?_map]
  congr 1
  ext record
  rw [Archive.find?_eq_some_iff, Option.bind_eq_some_iff]
  · simp only [Function.comp, decide_eq_true_eq, h.digests, h.records]
    constructor
    · rintro ⟨hmem, hd⟩
      exact ⟨_, ⟨record, hmem, hd, rfl⟩, hmem, rfl⟩
    · rintro ⟨k, ⟨w, hw, hwd, hwk⟩, hmem, hk⟩
      obtain rfl := h.separated.eq hw hmem (.inl (hwk.trans hk.symm))
      exact ⟨hmem, hwd⟩
  · intro a ha b hb hda hdb
    refine h.separated.eq ha hb (.inr ?_)
    rw [Function.comp, decide_eq_true_eq] at hda hdb
    exact hda.trans hdb.symm

omit [DecidableEq V] in
/-- A row that was written by an insert is read without a conflict. -/
theorem parseRow_row {record : V} (hdigest : kind.assertDigest record = .ok ()) (id : Option K)
    (hid : ∀ k ∈ id, k = kind.id record) :
    kind.parseRow (kind.row record) (kind.tenantId record) id = .ok record := by
  have hall : id.all (· = kind.id record) = true := by
    cases id with
    | none => rfl
    | some k => simp [hid k rfl]
  unfold RecordKind.parseRow
  dsimp only [RecordKind.row]
  rw [if_neg (by simp [hall]), hdigest]
  exact if_neg (not_not.mpr rfl)

omit [DecidableEq V] in
/-- **`get`** of either store is the same, on a route that is not blank. -/
theorem get_rows {s : MemoryRecordStore V K} {l : List V} (h : Filed kind s l)
    (hdigest : ∀ v ∈ l, kind.assertDigest v = .ok ()) {tenantId : String} {id : K}
    (hroute : validateRoute (tenantId :: kind.route id) = .ok ()) :
    PostgresRecordStore.get profile kind (l.map kind.row) tenantId id =
      s.get profile tenantId id := by
  unfold PostgresRecordStore.get MemoryRecordStore.get
  rw [hroute]
  cases profile.assertTenantAllowed tenantId with
  | error e => rfl
  | ok u =>
      simp only [selectKey_rows h]
      cases hget : s.records.get (tenantId, id) with
      | none => rfl
      | some record =>
          obtain ⟨hmem, hkey⟩ := (h.records _ _).mp hget
          obtain ⟨rfl, rfl⟩ := Prod.mk.inj hkey
          have hparse := parseRow_row (hdigest record hmem) (some (kind.id record)) (by simp)
          simp only [Option.map_some]
          show (do
            let v ← kind.parseRow (kind.row record) (kind.tenantId record) (some (kind.id record))
            return some v : Except Thrown (Option V)) = _
          rw [hparse]
          rfl

omit [DecidableEq V] in
theorem getByDigest_rows {s : MemoryRecordStore V K} {l : List V} (h : Filed kind s l)
    (hdigest : ∀ v ∈ l, kind.assertDigest v = .ok ()) {tenantId : String} {digest : Digest}
    (hroute : validateRoute [tenantId, digest] = .ok ()) :
    PostgresRecordStore.getByDigest profile kind (l.map kind.row) tenantId digest =
      s.getByDigest profile tenantId digest := by
  unfold PostgresRecordStore.getByDigest MemoryRecordStore.getByDigest
  rw [hroute]
  cases profile.assertTenantAllowed tenantId with
  | error e => rfl
  | ok u =>
      simp only [selectDigest_rows h]
      cases hget : (s.digests.get (tenantId, digest)).bind s.records.get with
      | none => rfl
      | some record =>
          obtain ⟨k, hk, hrecord⟩ := Option.bind_eq_some_iff.mp hget
          obtain ⟨hmem, hkey⟩ := (h.records _ _).mp hrecord
          obtain ⟨w, hw, hwd, hwk⟩ := (h.digests _ _).mp hk
          obtain rfl := h.separated.eq hw hmem (.inl (hwk.trans hkey.symm))
          obtain ⟨rfl, rfl⟩ := Prod.mk.inj hwd
          have hparse := parseRow_row (hdigest w hmem) none (by simp)
          simp only [Option.map_some]
          show (do
            let v ← kind.parseRow (kind.row w) (kind.tenantId w) none
            if kind.digest v ≠ kind.digest w then .error (conflict kind.digestRouteChanged)
            else return some v : Except Thrown (Option V)) = _
          rw [hparse]
          show (if kind.digest w ≠ kind.digest w then _ else _) = _
          rw [if_neg (not_not.mpr rfl)]
          rfl

end Archive

/-! ### Every interleaving -/

namespace Shared

variable {kind : RecordKind V K} {profile : StorageSecurityProfile} {s : Shared V K}

omit [DecidableEq V] [DecidableEq K] in
/-- The records of some of the calls. -/
def recordsOf (s : Shared V K) (calls : List Nat) : List V :=
  calls.filterMap fun i => (s.calls[i]?).map PutCall.record

omit [DecidableEq V] [DecidableEq K] in
/-- The records of the calls that have made their insert, in the order of the inserts. -/
def order (s : Shared V K) : List V :=
  s.recordsOf s.inserted

/-- What is kept of the records that were inserted. -/
def kept (kind : RecordKind V K) (s : Shared V K) : List V :=
  s.order.foldl kind.file []

/-- What holds of a call in a phase. -/
inductive Stage (profile : StorageSecurityProfile) (kind : RecordKind V K) (s : Shared V K)
    (i : Nat) (record : V) : PutPhase → Prop
  | inserting (hcheck : PostgresRecordStore.check profile kind record = .ok ())
      (hnot : i ∉ s.inserted) : Stage profile kind s i record .inserting
  | selecting (hcheck : PostgresRecordStore.check profile kind record = .ok ())
      (hdone : i ∈ s.inserted) : Stage profile kind s i record .selecting
  | refused (e : Thrown) (hcheck : PostgresRecordStore.check profile kind record = .error e)
      (hnot : i ∉ s.inserted) : Stage profile kind s i record (.answered (.error e))
  | answered (answer : Except Thrown Unit)
      (hcheck : PostgresRecordStore.check profile kind record = .ok ())
      (hdone : i ∈ s.inserted)
      (hanswer : answer = .ok () ∨ answer = .error (conflict kind.changed))
      (hkept : answer = .ok () ↔ record ∈ kept kind s) :
      Stage profile kind s i record (.answered answer)

/-- The table has the records that are kept, and every call is where its answer says. -/
structure Inv (profile : StorageSecurityProfile) (kind : RecordKind V K) (s : Shared V K) :
    Prop where
  table : s.table = (kept kind s).map kind.row
  asked : ∀ i ∈ s.inserted, i < s.calls.length
  once : s.inserted.Nodup
  stage : ∀ i c, s.calls[i]? = some c → Stage profile kind s i c.record c.phase

omit [DecidableEq V] in
theorem inv_start : Inv profile kind start where
  table := rfl
  asked := by simp [start]
  once := List.nodup_nil
  stage := by simp [start]

omit [DecidableEq V] [DecidableEq K] in
/-- A call among the inserted ones has its record in the order. -/
theorem mem_order {i : Nat} {c : PutCall V} (hi : i ∈ s.inserted) (hc : s.calls[i]? = some c) :
    c.record ∈ s.order :=
  List.mem_filterMap.mpr ⟨i, hi, by rw [hc]; rfl⟩

omit [DecidableEq V] [DecidableEq K] in
/-- The order is the same while the calls keep their records. -/
theorem order_congr {s' : Shared V K} (hinserted : s'.inserted = s.inserted)
    (hcalls : ∀ i ∈ s.inserted, (s'.calls[i]?).map PutCall.record =
      (s.calls[i]?).map PutCall.record) : s'.order = s.order := by
  unfold order recordsOf
  rw [hinserted]
  exact List.filterMap_congr hcalls

omit [DecidableEq V] [DecidableEq K] in
theorem record_set {calls : List (PutCall V)} {i : Nat} {c : PutCall V} (hc : calls[i]? = some c)
    (phase : PutPhase) (j : Nat) :
    ((calls.set i { c with phase })[j]?).map PutCall.record =
      (calls[j]?).map PutCall.record := by
  rw [List.getElem?_set]
  split
  · rename_i hij
    rw [← hij, if_pos (List.getElem?_eq_some_iff.mp hc).1, hc]
    rfl
  · rfl

omit [DecidableEq V] [DecidableEq K] in
/-- A call among those of which one has moved on. -/
theorem of_set {calls : List (PutCall V)} {i j : Nat} {c c' : PutCall V}
    (h : (calls.set i c)[j]? = some c') : (j = i ∧ c' = c) ∨ (j ≠ i ∧ calls[j]? = some c') := by
  rw [List.getElem?_set] at h
  by_cases hij : i = j
  · rw [if_pos hij] at h
    split at h
    · exact .inl ⟨hij.symm, (Option.some.inj h).symm⟩
    · cases h
  · rw [if_neg hij] at h
    exact .inr ⟨Ne.symm hij, h⟩

omit [DecidableEq V] in
/-- What a call has been answered stays right when more is inserted. -/
theorem Stage.later {s' : Shared V K} {i : Nat} {record : V} {phase : PutPhase}
    (h : Stage profile kind s i record phase) (hrecord : i ∈ s.inserted → record ∈ s.order)
    (hinserted : i ∈ s'.inserted ↔ i ∈ s.inserted) {more : List V}
    (horder : s'.order = s.order ++ more) : Stage profile kind s' i record phase := by
  cases h with
  | inserting hcheck hnot => exact .inserting hcheck (mt hinserted.mp hnot)
  | selecting hcheck hdone => exact .selecting hcheck (hinserted.mpr hdone)
  | refused e hcheck hnot => exact .refused e hcheck (mt hinserted.mp hnot)
  | answered answer hcheck hdone hanswer hkept =>
      refine .answered answer hcheck (hinserted.mpr hdone) hanswer (hkept.trans ?_)
      unfold kept
      rw [horder]
      exact (Archive.mem_of_offered more (hrecord hdone)).symm

omit [DecidableEq V] in
theorem Inv.call (h : Inv profile kind s) (record : V) :
    Inv profile kind (step profile kind s (.call record)) := by
  have hlength : ∀ i ∈ s.inserted, (step profile kind s (.call record)).calls[i]? = s.calls[i]? :=
    fun i hi => List.getElem?_append_left (h.asked i hi)
  have horder : (step profile kind s (.call record)).order = s.order :=
    order_congr rfl fun i hi => by rw [hlength i hi]
  have hnot : s.calls.length ∉ s.inserted := fun hi => absurd (h.asked _ hi) (lt_irrefl _)
  refine ⟨?_, fun i hi => ?_, h.once, fun i c hc => ?_⟩
  · rw [kept, horder]
    exact h.table
  · exact (h.asked i hi).trans_le (by simp [step])
  · simp only [step, List.getElem?_append] at hc
    split at hc
    · rename_i hi
      exact (h.stage i c hc).later (fun hdone => mem_order hdone hc) Iff.rfl
        (horder.trans (List.append_nil _).symm)
    · rename_i hi
      rw [List.getElem?_singleton] at hc
      split at hc
      · rename_i hzero
        obtain rfl : i = s.calls.length := by omega
        obtain rfl := Option.some.inj hc
        dsimp only
        cases hcheck : PostgresRecordStore.check profile kind record with
        | ok u => exact .inserting hcheck hnot
        | error e => exact .refused e hcheck hnot
      · cases hc

omit [DecidableEq V] in
/-- What the select of a call finds is its record, if that is kept. -/
theorem Inv.selects (h : Inv profile kind s) (hinj : Function.Injective kind.canonicalDigest)
    (c : PutCall V) :
    ((s.table.selectKey (kind.recordKey c.record)).any
        (·.canonical_digest = kind.canonicalDigest c.record)) = true ↔
      c.record ∈ kept kind s := by
  have hseparated : Archive.Separated kind.recordKey kind.digestKey (kept kind s) :=
    Archive.separated_nil.foldl s.order
  have hone : ∀ a ∈ kept kind s, ∀ b ∈ kept kind s,
      decide (kind.recordKey a = kind.recordKey c.record) →
      decide (kind.recordKey b = kind.recordKey c.record) → a = b := by
    intro a ha b hb hka hkb
    rw [decide_eq_true_eq] at hka hkb
    exact hseparated.eq ha hb (.inl (hka.trans hkb.symm))
  rw [h.table, RecordTable.selectKey, List.find?_map]
  show (((kept kind s).find? fun a => decide (kind.recordKey a = kind.recordKey c.record)).map
    kind.row).any _ = true ↔ _
  cases hfind : (kept kind s).find? fun a =>
      decide (kind.recordKey a = kind.recordKey c.record) with
  | none =>
      refine iff_of_false (by simp) fun hmem => ?_
      have := List.find?_eq_none.mp hfind c.record hmem
      simp at this
  | some existing =>
      obtain ⟨hmem, hkey⟩ := (Archive.find?_eq_some_iff hone).mp hfind
      rw [Option.map_some, Option.any_some, decide_eq_true_eq]
      constructor
      · intro hdigest
        exact hinj hdigest ▸ hmem
      · intro hrecord
        rw [hone _ hmem _ hrecord hkey (by simp)]
        rfl

omit [DecidableEq V] in
theorem Inv.statement (h : Inv profile kind s) (hinj : Function.Injective kind.canonicalDigest)
    (i : Nat) : Inv profile kind (step profile kind s (.statement i)) := by
  cases hc : s.calls[i]? with
  | none =>
      simp only [step, hc]
      exact h
  | some c =>
      obtain ⟨record, phase⟩ := c
      have hlt := (List.getElem?_eq_some_iff.mp hc).1
      have hstage := h.stage i _ hc
      cases phase with
      | answered answer =>
          simp only [step, hc]
          exact h
      | selecting =>
          cases hstage with
          | selecting hcheck hdone =>
              simp only [step, hc]
              have horder (phase : PutPhase) :
                  order { s with calls := s.calls.set i ⟨record, phase⟩ } = s.order :=
                order_congr rfl fun j _ => record_set hc phase j
              have hanswer := h.selects hinj ⟨record, .selecting⟩
              refine ⟨?_, fun j hj => ?_, h.once, fun j c' hc' => ?_⟩
              · rw [kept, horder]
                exact h.table
              · rw [List.length_set]
                exact h.asked j hj
              · rcases of_set hc' with ⟨rfl, rfl⟩ | ⟨-, hc'⟩
                · refine .answered _ hcheck hdone ?_ ?_
                  · split
                    · exact .inl rfl
                    · exact .inr rfl
                  · rw [kept, horder]
                    refine Iff.trans ?_ hanswer
                    split
                    · exact iff_of_true rfl ‹_›
                    · exact iff_of_false (by rintro ⟨⟩) ‹_›
                · exact (h.stage j c' hc').later (fun hdone => mem_order hdone hc') Iff.rfl
                    ((horder _).trans (List.append_nil _).symm)
      | inserting =>
          cases hstage with
          | inserting hcheck hnot =>
              simp only [step, hc]
              rw [h.table, insert_rows]
              dsimp only
              generalize hphase : (if (if ∃ w ∈ kept kind s,
                  Archive.Clash kind.recordKey kind.digestKey w record then 0 else 1) = 1 then
                PutPhase.answered (.ok ()) else .selecting) = phase
              set s' : Shared V K :=
                { table := (kind.file (kept kind s) record).map kind.row
                  calls := s.calls.set i ⟨record, phase⟩
                  inserted := s.inserted ++ [i] } with hs'
              have hset : ∀ j, ((s'.calls[j]?).map PutCall.record) =
                  (s.calls[j]?).map PutCall.record := fun j => record_set hc phase j
              have horder : s'.order = s.order ++ [record] := by
                unfold order recordsOf
                rw [show s'.inserted = s.inserted ++ [i] from rfl, List.filterMap_append]
                congr 1
                · exact List.filterMap_congr fun j _ => hset j
                · rw [List.filterMap_cons, hset i, hc]
                  rfl
              have hkept : kept kind s' = kind.file (kept kind s) record := by
                rw [kept, horder, List.foldl_append]
                rfl
              refine ⟨?_, fun j hj => ?_, ?_, fun j c' hc' => ?_⟩
              · rw [hkept]
              · rw [show s'.calls = s.calls.set i ⟨record, phase⟩ from rfl, List.length_set]
                rcases List.mem_append.mp hj with hj | hj
                · exact h.asked j hj
                · rw [List.mem_singleton.mp hj]
                  exact hlt
              · exact List.nodup_append.mpr ⟨h.once, List.nodup_singleton i, fun a ha b hb =>
                  List.mem_singleton.mp hb ▸ fun heq => hnot (heq ▸ ha)⟩
              · rcases of_set hc' with ⟨rfl, rfl⟩ | ⟨hij, hc'⟩
                · have hdone : j ∈ s'.inserted := List.mem_append_right _ List.mem_cons_self
                  dsimp only
                  by_cases hclash : ∃ w ∈ kept kind s,
                      Archive.Clash kind.recordKey kind.digestKey w record
                  · rw [if_pos hclash, if_neg (by decide)] at hphase
                    rw [← hphase]
                    exact .selecting hcheck hdone
                  · rw [if_neg hclash, if_pos rfl] at hphase
                    rw [← hphase]
                    refine .answered _ hcheck hdone (.inl rfl) (iff_of_true rfl ?_)
                    rw [hkept, RecordKind.file, Archive.file, if_neg hclash]
                    exact List.mem_append_right _ List.mem_cons_self
                · refine (h.stage j c' hc').later (fun hdone => mem_order hdone hc') ?_ horder
                  rw [show s'.inserted = s.inserted ++ [i] from rfl, List.mem_append,
                    List.mem_singleton]
                  exact or_iff_left hij

omit [DecidableEq V] in
theorem inv_run (hinj : Function.Injective kind.canonicalDigest) (events : List (PutEvent V)) :
    Inv profile kind (run profile kind events) := by
  induction events using List.reverseRecOn with
  | nil => exact inv_start
  | append_singleton events event ih =>
      rw [run, List.foldl_append]
      cases event with
      | call record => exact Inv.call ih record
      | statement i => exact Inv.statement ih hinj i

/-- **The calls on a table are those on a memory store** that gets the records in the order of the
inserts: it answers every put as Postgres does, and is read as the table is. -/
structure Linearized (profile : StorageSecurityProfile) (kind : RecordKind V K) (s : Shared V K) :
    Prop where
  once : s.inserted.Nodup
  asked : ∀ i ∈ s.inserted, i < s.calls.length
  answers : ∀ before i later c answer, s.inserted = before ++ i :: later → s.calls[i]? = some c →
    c.phase = .answered answer →
      (answer = .ok () ∨ answer = .error (conflict kind.changed)) ∧
        (answer = .ok () ↔ ((memoryAfter kind profile (s.recordsOf before)).putImmutable profile
          kind c.record).1 = .ok ())
  refused : ∀ i c answer, s.calls[i]? = some c → c.phase = .answered answer → i ∉ s.inserted →
    PostgresRecordStore.check profile kind c.record = answer ∧ answer ≠ .ok ()
  get : ∀ tenantId id, validateRoute (tenantId :: kind.route id) = .ok () →
    PostgresRecordStore.get profile kind s.table tenantId id =
      (memoryAfter kind profile s.order).get profile tenantId id
  getByDigest : ∀ tenantId digest, validateRoute [tenantId, digest] = .ok () →
    PostgresRecordStore.getByDigest profile kind s.table tenantId digest =
      (memoryAfter kind profile s.order).getByDigest profile tenantId digest

omit [DecidableEq V] in
/-- Every record that was inserted has passed the checks. -/
theorem Inv.checked (h : Inv profile kind s) {is : List Nat} (his : is ⊆ s.inserted) :
    ∀ v ∈ s.recordsOf is, PostgresRecordStore.check profile kind v = .ok () := by
  intro v hv
  obtain ⟨i, hi, hrecord⟩ := List.mem_filterMap.mp hv
  obtain ⟨c, hc, rfl⟩ := Option.map_eq_some_iff.mp hrecord
  have hstage := h.stage i c hc
  have hdone := his hi
  generalize c.phase = phase at hstage
  cases hstage with
  | inserting hcheck hnot => exact absurd hdone hnot
  | selecting hcheck _ => exact hcheck
  | refused e hcheck hnot => exact absurd hdone hnot
  | answered answer hcheck _ _ _ => exact hcheck

omit [DecidableEq V] in
theorem Inv.digests (h : Inv profile kind s) :
    ∀ v ∈ kept kind s, kind.assertDigest v = .ok () := by
  intro v hv
  have hsub : ∀ (l offered : List V), ∀ w ∈ offered.foldl kind.file l, w ∈ l ∨ w ∈ offered := by
    intro l offered
    induction offered generalizing l with
    | nil => exact fun w hw => .inl hw
    | cons u offered ih =>
        intro w hw
        rcases ih _ w hw with hw | hw
        · unfold RecordKind.file Archive.file at hw
          split at hw
          · exact .inl hw
          · rcases List.mem_append.mp hw with hw | hw
            · exact .inl hw
            · exact .inr (List.mem_singleton.mp hw ▸ List.mem_cons_self)
        · exact .inr (List.mem_cons_of_mem _ hw)
  have hcheck := h.checked (List.Subset.refl _) v ((hsub [] s.order v hv).resolve_left (by simp))
  obtain ⟨⟨⟩, -, hdigest⟩ := bind_eq_ok.mp hcheck
  exact hdigest

theorem Inv.in_order (h : Inv profile kind s) : Linearized profile kind s where
  once := h.once
  asked := h.asked
  answers before i later c answer hinserted hc hanswer := by
    have hdone : i ∈ s.inserted := hinserted ▸ List.mem_append_right _ List.mem_cons_self
    have hstage := h.stage i c hc
    rw [hanswer] at hstage
    cases hstage with
    | refused e hcheck hnot => exact absurd hdone hnot
    | answered _ hcheck _ hone hkept =>
        refine ⟨hone, hkept.trans ?_⟩
        have horder : s.order = (s.recordsOf before ++ [c.record]) ++ s.recordsOf later := by
          unfold order recordsOf
          rw [hinserted, List.filterMap_append, List.filterMap_cons, hc]
          simp
        have hfiled : Filed kind (memoryAfter kind profile (s.recordsOf before))
            ((s.recordsOf before).foldl kind.file []) := filed_memoryAfter
          (h.checked (hinserted ▸ List.subset_append_left before (i :: later)))
        rw [putImmutable_of_check hcheck, (hfiled.putRecord c.record).1, kept, horder]
        refine (Archive.mem_of_offered (s.recordsOf later) (by simp)).trans ?_
        rw [List.foldl_append]
        rfl
  refused i c answer hc hanswer hnot := by
    have hstage := h.stage i c hc
    rw [hanswer] at hstage
    cases hstage with
    | refused e hcheck _ => exact ⟨hcheck, by rintro ⟨⟩⟩
    | answered _ _ hdone _ _ => exact absurd hdone hnot
  get tenantId id hroute := by
    rw [h.table]
    exact get_rows (filed_memoryAfter (h.checked (List.Subset.refl _))) h.digests hroute
  getByDigest tenantId digest hroute := by
    rw [h.table]
    exact getByDigest_rows (filed_memoryAfter (h.checked (List.Subset.refl _))) h.digests hroute

omit [DecidableEq V] in
/-- No event takes an insert back. -/
theorem inserted_prefix (events later : List (PutEvent V)) :
    (run profile kind events).inserted <+: (run profile kind (events ++ later)).inserted := by
  induction later using List.reverseRecOn with
  | nil => rw [List.append_nil]
  | append_singleton later event ih =>
      refine ih.trans ?_
      have hlast : run profile kind (events ++ (later ++ [event])) =
          step profile kind (run profile kind (events ++ later)) event := by
        rw [← List.append_assoc]
        exact List.foldl_concat ..
      rw [hlast]
      cases event with
      | call record => exact List.prefix_rfl
      | statement i =>
          simp only [step]
          split
          · exact List.prefix_rfl
          · split
            · exact List.prefix_append _ [i]
            · exact List.prefix_rfl
            · exact List.prefix_rfl

/-- **Whatever the interleaving** of the statements of any number of calls, Postgres answers and
is read as a memory store that gets the records in the order of the inserts; and that order has
the calls that were answered before the ones that were made later. -/
theorem linearized (profile : StorageSecurityProfile) (kind : RecordKind V K)
    (hinj : Function.Injective kind.canonicalDigest) (events later : List (PutEvent V)) :
    Linearized profile kind (run profile kind events) ∧
      (run profile kind events).inserted <+: (run profile kind (events ++ later)).inserted :=
  ⟨(inv_run hinj events).in_order, inserted_prefix events later⟩

section Witness

/-- A digest can be different for different records. -/
theorem exists_injective_digest :
    ∃ digest : EvidenceRecord Unit → Digest, Function.Injective digest := by
  have hchar : Countable Char :=
    (show Function.Injective Char.toNat from fun _ _ h => Char.toNat_inj.mp h).countable
  have hstring : Countable String :=
    (show Function.Injective String.toList from fun _ _ h => String.toList_inj.mp h).countable
  have hfields : Function.Injective fun r : EvidenceRecord Unit =>
      (r.tenantId, r.evidenceRecordId, r.permissionPurposeCode, r.permissionDataClass.ctorIdx,
        r.evidenceDigest) := by
    rintro ⟨⟨_, _, _, c, _⟩, _⟩ ⟨⟨_, _, _, c', _⟩, _⟩ h
    simp only [Prod.mk.injEq] at h
    obtain ⟨rfl, rfl, rfl, hclass, rfl⟩ := h
    obtain rfl : c = c' := by
      revert hclass
      cases c <;> cases c' <;> decide
    rfl
  obtain ⟨number, hnumber⟩ := have := hfields.countable; exists_injective_nat (EvidenceRecord Unit)
  refine ⟨fun r => String.ofList (List.replicate (number r) 'x'), fun a b h => hnumber ?_⟩
  have hlength := congrArg (fun s => s.toList.length) h
  simpa using hlength

/-- An evidence record. -/
def evidence : EvidenceRecord Unit :=
  ⟨⟨"tenant", "evidence", "support", .internal, ()⟩, "d"⟩

/-- Two calls put the record at once: one inserts it, and the other finds it. -/
def twoPuts : List (PutEvent (EvidenceRecord Unit)) :=
  [.call evidence, .call evidence, .statement 1, .statement 0, .statement 0]

theorem linearized_evidence :
    ∃ digest : EvidenceRecord Unit → Digest,
      Linearized ⟨["*"], ["support"], [.internal]⟩ (evidenceRecords (fun _ => "d") digest)
          (run ⟨["*"], ["support"], [.internal]⟩ (evidenceRecords (fun _ => "d") digest) twoPuts) ∧
        (run ⟨["*"], ["support"], [.internal]⟩ (evidenceRecords (fun _ => "d") digest)
            twoPuts).inserted <+:
          (run ⟨["*"], ["support"], [.internal]⟩ (evidenceRecords (fun _ => "d") digest)
            (twoPuts ++ [])).inserted := by
  obtain ⟨digest, hdigest⟩ := exists_injective_digest
  exact ⟨digest, linearized _ _ hdigest twoPuts []⟩

end Witness

end Shared

end ImmutableRecords

end Pactmark
