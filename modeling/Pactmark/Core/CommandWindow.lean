import Pactmark.Core.Serialization
import Pactmark.Core.Values

/-!
# Core — the window of a command

`commandIdTimestamp` and `validateCommandIdWindow` of `core/src/commands.ts`, and
`#assertCommandWindow` and `#recordCommand` of `runtime/src/runtime.ts`, which use them with the
same horizon.  Instants are milliseconds of the epoch and may be negative here.

* `validateCommandIdWindow_valid`: the window of an identity is counted from the timestamp inside
  it, up to the skew behind it and short of the horizon after it.
* `recordCommand_ok`: a record expires the horizon after the clock of the server.
* `recordCommand_outlives_window_iff`: hence a record outlives the window of its identity exactly
  when the timestamp was not in the future.
-/

namespace Pactmark

open JsString (lit)

/-! ### The timestamp of an identity -/

/-- `[0-9a-f]` -/
def isLowerHex (unit : Nat) : Bool :=
  isDigit unit || (97 ≤ unit && unit ≤ 102)

/-- `COMMAND_ID_PATTERN.exec(commandId)?.[1]`: `/^kafcmd_([0-9]{13})_([0-9a-f]{32})$/u`. -/
def matchCommandId (commandId : String) : Option JsString :=
  let source := lit commandId
  let digits := (source.drop 7).take 13
  let suffix := source.drop 21
  if source.take 7 = lit "kafcmd_" ∧ digits.length = 13 ∧ digits.all isDigit ∧
      (source.drop 20).head? = some 95 ∧ suffix.length = 32 ∧ suffix.all isLowerHex then
    some digits
  else none

/-- `commandIdTimestamp`. -/
def commandIdTimestamp (commandId : String) : Option Int :=
  match matchCommandId commandId with
  | none => none
  | some digits =>
      let value : Int := digitsValue digits
      if value ≤ 9007199254740991 then some value else none

/-! ### The window -/

/-- `commandMaximumFutureSkewMs` and `commandIdempotencyHorizonMs` of the configuration. -/
structure CommandWindow where
  maximumFutureSkewMs : Int := 300000
  idempotencyHorizonMs : Int := 86400000
  deriving DecidableEq, Repr

/-- `code` of a `CommandIdWindowResult` that is not valid. -/
inductive CommandIdWindowCode where
  | KAF_COMMAND_ID_MALFORMED
  | KAF_COMMAND_ID_FUTURE_SKEW
  | KAF_COMMAND_IDEMPOTENCY_EXPIRED
  deriving DecidableEq, Repr

/-- `result.code`. -/
def CommandIdWindowCode.text : CommandIdWindowCode → String
  | .KAF_COMMAND_ID_MALFORMED => "KAF_COMMAND_ID_MALFORMED"
  | .KAF_COMMAND_ID_FUTURE_SKEW => "KAF_COMMAND_ID_FUTURE_SKEW"
  | .KAF_COMMAND_IDEMPOTENCY_EXPIRED => "KAF_COMMAND_IDEMPOTENCY_EXPIRED"

/-- `CommandIdWindowResult`. -/
inductive CommandIdWindowResult where
  | valid (timestamp : Int)
  | invalid (code : CommandIdWindowCode)
  deriving DecidableEq, Repr

/-- `validateCommandIdWindow`. -/
def validateCommandIdWindow (commandId : String) (now : Int) (options : CommandWindow) :
    CommandIdWindowResult :=
  match commandIdTimestamp commandId with
  | none => .invalid .KAF_COMMAND_ID_MALFORMED
  | some timestamp =>
      if timestamp > now + options.maximumFutureSkewMs then .invalid .KAF_COMMAND_ID_FUTURE_SKEW
      else if timestamp + options.idempotencyHorizonMs ≤ now then
        .invalid .KAF_COMMAND_IDEMPOTENCY_EXPIRED
      else .valid timestamp

/-- `#assertCommandWindow`, with the clock at `now`. -/
def assertCommandWindow (options : CommandWindow) (now : Int) (commandId : String) :
    Except Thrown Unit :=
  match validateCommandIdWindow commandId now options with
  | .valid _ => .ok ()
  | .invalid .KAF_COMMAND_IDEMPOTENCY_EXPIRED =>
      .error (kafReason .KAF_COMMAND_IDEMPOTENCY_EXPIRED "KAF_COMMAND_IDEMPOTENCY_EXPIRED")
  | .invalid code => .error (kafReason .KAF_HTTP_IDEMPOTENCY_CONFLICT code.text)

/-! ### The record of a command -/

/-- `CommandScopeSchema`; tenant, principal and scopes are their documents. -/
structure CommandScope where
  issuerId : String
  tenant : JsonValue
  principal : JsonValue
  operation : String
  normalizedResourceScope : List JsonValue
  commandId : String

/-- `status` of a `CommandRecord`. -/
inductive CommandStatus where
  | in_progress
  | committed
  deriving DecidableEq, Repr

/-- `CommandRecordSchema`; `responseReference` is the reference of the kind `response`. -/
structure CommittedCommandRecord where
  scope : CommandScope
  requestDigest : Digest
  status : CommandStatus
  responseReference : Option String
  safeResponseDigest : Option Digest
  firstSeenAt : Int
  committedAt : Option Int
  detailRetentionExpiresAt : Int
  idempotencyExpiresAt : Int

/-- The instants `toISOString` prints with a year of four digits, which is what the schema of an
instant reads back. -/
def isoRepresentable (instant : Int) : Bool :=
  -62167219200000 ≤ instant ∧ instant ≤ 253402300799999

/-- The record `#recordCommand` puts, with the clock at `now`; `safeResponseDigest` is the digest of
the result. -/
def recordCommand (options : CommandWindow) (now : Int) (scope : CommandScope)
    (requestDigest safeResponseDigest : Digest) : Except Thrown CommittedCommandRecord :=
  let expiresAt := now + options.idempotencyHorizonMs
  if ¬ isoRepresentable expiresAt then .error (.host "RangeError" true)
  else .ok
    { scope
      requestDigest
      status := .committed
      responseReference := some safeResponseDigest
      safeResponseDigest := some safeResponseDigest
      firstSeenAt := now
      committedAt := some now
      detailRetentionExpiresAt := expiresAt
      idempotencyExpiresAt := expiresAt }

/-! ### The window and the record -/

variable {options : CommandWindow} {commandId : String} {now timestamp : Int}

/-- **The window**: from the skew before the timestamp on, and short of the horizon after it. -/
theorem validateCommandIdWindow_valid :
    validateCommandIdWindow commandId now options = .valid timestamp ↔
      commandIdTimestamp commandId = some timestamp ∧
        timestamp ≤ now + options.maximumFutureSkewMs ∧
        now < timestamp + options.idempotencyHorizonMs := by
  unfold validateCommandIdWindow
  cases commandIdTimestamp commandId with
  | none => simp
  | some ts =>
    simp only [Option.some.injEq]
    split <;> rename_i hskew
    · simp only [reduceCtorEq, false_iff, not_and]
      rintro rfl h
      omega
    split <;> rename_i hhorizon
    · simp only [reduceCtorEq, false_iff, not_and]
      rintro rfl _
      omega
    · simp only [CommandIdWindowResult.valid.injEq]
      constructor
      · rintro rfl
        omega
      · exact fun h => h.1

/-- The runtime admits the commands whose identity is in its window. -/
theorem assertCommandWindow_ok :
    assertCommandWindow options now commandId = .ok () ↔
      ∃ ts, validateCommandIdWindow commandId now options = .valid ts := by
  unfold assertCommandWindow
  cases h : validateCommandIdWindow commandId now options with
  | valid ts => simp
  | invalid code => cases code <;> simp

/-- **The record**: it expires the horizon after the clock of the server. -/
theorem recordCommand_ok {scope : CommandScope} {requestDigest safeResponseDigest : Digest}
    {record : CommittedCommandRecord}
    (h : recordCommand options now scope requestDigest safeResponseDigest = .ok record) :
    record.idempotencyExpiresAt = now + options.idempotencyHorizonMs := by
  simp only [recordCommand] at h
  split at h
  · cases h
  · cases h
    rfl

/-- **A record outlives the window of its identity** exactly when the timestamp of the identity
was not later than the clock the record was committed at. -/
theorem recordCommand_outlives_window_iff {scope : CommandScope}
    {requestDigest safeResponseDigest : Digest} {record : CommittedCommandRecord}
    (hvalid : validateCommandIdWindow commandId now options = .valid timestamp)
    (hrecord : recordCommand options now scope requestDigest safeResponseDigest = .ok record) :
    (∀ later, now ≤ later → assertCommandWindow options later commandId = .ok () →
        later < record.idempotencyExpiresAt) ↔
      timestamp ≤ now := by
  obtain ⟨hts, hskew, hhorizon⟩ := validateCommandIdWindow_valid.mp hvalid
  rw [recordCommand_ok hrecord]
  constructor
  · intro houtlives
    by_contra hfuture
    -- The record is gone at its expiry, and a window counted from the future is still open then.
    have hopen : ∀ later, now ≤ later → later < timestamp + options.idempotencyHorizonMs →
        later < now + options.idempotencyHorizonMs := by
      intro later hlater hshort
      refine houtlives later hlater (assertCommandWindow_ok.mpr ⟨timestamp, ?_⟩)
      exact validateCommandIdWindow_valid.mpr ⟨hts, by omega, hshort⟩
    by_cases hpositive : 0 ≤ options.idempotencyHorizonMs
    · have := hopen (now + options.idempotencyHorizonMs) (by omega) (by omega)
      omega
    · have := hopen now le_rfl hhorizon
      omega
  · intro hpast later _ hadmitted
    obtain ⟨ts, hts'⟩ := assertCommandWindow_ok.mp hadmitted
    obtain ⟨hts', -, hshort⟩ := validateCommandIdWindow_valid.mp hts'
    obtain rfl : timestamp = ts := Option.some.inj (hts.symm.trans hts')
    omega

section Witness

/-- The scope of a command that starts a run. -/
def startScope : CommandScope where
  issuerId := "issuer"
  tenant := .object [("id", .string "tenant")]
  principal := .object [("id", .string "principal")]
  operation := "run.start"
  normalizedResourceScope := []
  commandId := "kafcmd_1785758400000_00000000000000000000000000000000"

/-- The record of a command whose identity was made when it was committed. -/
theorem recordCommand_outlives_window_now :
    ∃ record : CommittedCommandRecord,
      recordCommand {} 1785758400000 startScope "request" "response" = .ok record ∧
      ∀ later, 1785758400000 ≤ later →
        assertCommandWindow {} later "kafcmd_1785758400000_00000000000000000000000000000000" =
          .ok () → later < record.idempotencyExpiresAt :=
  ⟨_, rfl, (recordCommand_outlives_window_iff (by decide) rfl).mpr
    le_rfl⟩

/-- An identity of a client whose clock is five minutes ahead is admitted, and is admitted again
when the record of its command has expired. -/
theorem recordCommand_expires_in_window :
    ¬ ∀ (options : CommandWindow) (commandId : String) (now timestamp : Int)
      (scope : CommandScope) (requestDigest safeResponseDigest : Digest)
      (record : CommittedCommandRecord),
      validateCommandIdWindow commandId now options = .valid timestamp →
      recordCommand options now scope requestDigest safeResponseDigest = .ok record →
      ∀ later, now < later → assertCommandWindow options later commandId = .ok () →
        later < record.idempotencyExpiresAt := by
  intro h
  have := h {} "kafcmd_1785758400000_00000000000000000000000000000000" 1785758100000
    1785758400000 startScope "request" "response" _ (by decide) rfl 1785844500000 (by decide)
    (by decide)
  exact absurd this (by decide)

end Witness

end Pactmark
