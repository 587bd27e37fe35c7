import Pactmark.Core.Schemas
import Pactmark.Durable.Operations
import Pactmark.Policy.Scopes
import Pactmark.Runtime.CommandCalls

/-!
# Http — the command routes

The POST routes of `createAgentFetchHandler` of `http/src/handler.ts` that command a run, the facade
of `createRuntime` and `createLocalRuntime` of `agent/src/runtime.ts`, and what the kernel checks of
a command before it looks at the run.  The body of a request is the value that was read; who may
call what is not looked at here.

* `handle_ok`: what the handler passes to the runtime.
* `kernel_accepts`: the kernel accepts the payload and the scope of a call that names one decision.
* `delivered_iff`: the calls that reach the kernel intact.
-/

namespace Pactmark.Http

open Durable CommandReplay

/-! ### The schemas of the bodies -/

/-- Which numbers the schemas take, and `z.iso.datetime({ offset: true })`. -/
structure NumberChecks where
  positiveInteger : String → Bool
  nonnegative : String → Bool
  dateTime : String → Bool

/-- `z.string().min(minimum).max(maximum)`. -/
def sized (minimum maximum : Nat) : Schema :=
  .string fun s => minimum ≤ codeUnits s ∧ codeUnits s ≤ maximum

/-- `z.string().min(1)`. -/
def nonempty : Schema :=
  .string fun s => s ≠ ""

/-- `DecisionApprovalSubmissionSchema`. -/
def DecisionApprovalSubmissionSchema : Schema :=
  .strictObject
    [⟨"decision", false, .literal "approve"⟩, ⟨"decisionId", false, .trimmed 256⟩,
      ⟨"challengeProof", false, sized 16 4096⟩]

/-- `DecisionRejectionSubmissionSchema`. -/
def DecisionRejectionSubmissionSchema : Schema :=
  .strictObject
    [⟨"decision", false, .literal "reject"⟩, ⟨"decisionId", false, .trimmed 256⟩,
      ⟨"challengeProof", false, sized 16 4096⟩,
      ⟨"reasonCode", false, .string AgentRuntime.reasonCodeFormat⟩]

/-- The first option of `EffectReconciliationResolutionSchema`. -/
def recoveredAcknowledgement : Schema :=
  .strictObject
    [⟨"schemaVersion", false, .literal "1"⟩, ⟨"kind", false, .literal "recovered_acknowledgement"⟩]

/-- The second option of `EffectReconciliationResolutionSchema`. -/
def abandonUncertain : Schema :=
  .strictObject
    [⟨"schemaVersion", false, .literal "1"⟩, ⟨"kind", false, .literal "abandon_uncertain"⟩,
      ⟨"reason", false, nonempty⟩, ⟨"evidenceRefs", false, .array nonempty⟩,
      ⟨"effectMayHaveOccurred", false, .literalTrue⟩]

/-- `EffectReconciliationResolutionSchema`; the options differ in their kind. -/
def EffectReconciliationResolutionSchema : Schema := fun value =>
  (recoveredAcknowledgement value).orElse fun _ => abandonUncertain value

variable (N : NumberChecks)

/-- `monetaryCeiling` of `WorkBudgetSchema`. -/
def monetaryCeiling : Schema :=
  .strictObject
    [⟨"amount", false, .number N.nonnegative⟩,
      ⟨"currency", false, .string fun s => s.toList.length = 3 ∧
        s.toList.all fun c => 65 ≤ c.toNat ∧ c.toNat ≤ 90⟩,
      ⟨"maximumPriceBoundVersion", false, .trimmed 128⟩,
      ⟨"maximumPriceBoundExpiresAt", false, .string N.dateTime⟩]

/-- `WorkBudgetSchema`. -/
def WorkBudgetSchema : Schema :=
  .strictObject <|
    (["maxTurns", "maxModelCalls", "maxToolCalls", "maxActiveExecutionMs"].map fun key =>
      ⟨key, false, .number N.positiveInteger⟩) ++
    (["maxModelInputBytesPerCall", "maxModelInputTokensPerCall", "maxModelOutputTokensPerCall",
      "maxStreamedOutputBytesPerCall", "maxStreamedOutputEventsPerCall",
      "maxToolResultContextBytesPerCall", "maxContextSnapshotBytes", "maxRunModelInputBytes",
      "maxRunModelOutputBytes", "maxRunModelInputTokens", "maxRunModelOutputTokens",
      "maxRunToolResultContextBytes"].map fun key => ⟨key, true, .number N.positiveInteger⟩) ++
    [⟨"monetaryCeiling", true, monetaryCeiling N⟩]

/-- `RuntimeCompensationRequestSchema`. -/
def RuntimeCompensationRequestSchema : Schema :=
  .strictObject
    [⟨"schemaVersion", false, .literal "1"⟩, ⟨"reason", false, .trimmed 512⟩,
      ⟨"budget", false, WorkBudgetSchema N⟩]

/-- `RunCancellationRequestSchema`. -/
def RunCancellationRequestSchema : Schema :=
  .strictObject [⟨"reason", false, .string AgentRuntime.reasonCodeFormat⟩]

/-- A member of a value that is an object. -/
def property (key : String) : JsonValue → Option JsonValue
  | .object members => Schema.lookup key members
  | _ => none

/-- A member that is a string. -/
def stringProperty (key : String) (value : JsonValue) : Option String :=
  match property key value with
  | some (.string s) => some s
  | _ => none

/-! ### Commands -/

/-- `CommandContextSchema`. -/
def parseCommandContext (command : CommandInput) : Option CommandInput :=
  match matchCommandId command.commandId, boundedText 256 command.operation,
    command.normalizedResourceScope.mapM Policy.parseScope with
  | some _, some operation, some normalizedResourceScope =>
      if 256 < normalizedResourceScope.length then none
      else some { command with operation, normalizedResourceScope }
  | _, _, _ => none

/-- `HttpFailure`, or an error that is not of the handler itself. -/
inductive HttpFailure where
  | failure (status : Nat) (code : String)
  | schema
  | notCanonical
  deriving DecidableEq, Repr

/-- What `digestCanonicalJson` answers; none when the value has no canonical text. -/
abbrev Digests := JsonValue → Option Digest

variable (digest : Digests)

/-- `commandFor`. -/
def commandFor (idempotencyKey : Option String) (operation : String) (payload : JsonValue)
    (scope : List String) : Except HttpFailure CommandInput :=
  match idempotencyKey with
  | none => .error (.failure 400 "KAF_COMMAND_ID_MALFORMED")
  | some commandId =>
    if (matchCommandId commandId).isNone then .error (.failure 400 "KAF_COMMAND_ID_MALFORMED")
    else
      match digest payload with
      | none => .error .notCanonical
      | some requestDigest =>
        match parseCommandContext
          { commandId
            operation
            normalizedResourceScope := scope.map fun value =>
              ⟨.opaqueValue, value, "pactmark.http-route@1"⟩
            requestDigest } with
        | none => .error .schema
        | some command => .ok command

/-- `assertEmptyCommandBody`. -/
def assertEmptyCommandBody : JsonValue → Except HttpFailure Unit
  | .object [] => .ok ()
  | _ => .error (.failure 400 "KAF_HTTP_COMMAND_BODY_INVALID")

/-- `parseWire`. -/
def parseWire (schema : Schema) (value : JsonValue) : Except HttpFailure JsonValue :=
  match schema value with
  | none => .error .schema
  | some parsed => .ok parsed

/-! ### Paths -/

/-- The value of a hexadecimal digit. -/
def hexDigitValue (c : Char) : Option Nat :=
  hexValue c.toNat

/-- The bytes of a text with percent escapes. -/
def percentBytes : List Char → Option (List UInt8)
  | [] => some []
  | '%' :: high :: low :: rest => do
      let high ← hexDigitValue high
      let low ← hexDigitValue low
      let bytes ← percentBytes rest
      return .ofNat (16 * high + low) :: bytes
  | '%' :: _ => none
  | c :: rest => do
      let bytes ← percentBytes rest
      return (String.singleton c).toUTF8.toList ++ bytes

/-- `decodeURIComponent`; none when it throws. -/
def decodeURIComponent (value : String) : Option String :=
  if '%' ∈ value.toList then
    (percentBytes value.toList).bind fun bytes => String.fromUTF8? ⟨bytes.toArray⟩
  else some value

/-- `[A-Za-z0-9]` -/
def isAlphanumeric (c : Char) : Bool :=
  (48 ≤ c.toNat ∧ c.toNat ≤ 57) ∨ (65 ≤ c.toNat ∧ c.toNat ≤ 90) ∨ (97 ≤ c.toNat ∧ c.toNat ≤ 122)

/-- `/^[A-Za-z0-9][A-Za-z0-9._:-]{0,255}$/` -/
def identifierFormat (value : String) : Bool :=
  match value.toList with
  | [] => false
  | c :: cs => isAlphanumeric c ∧ cs.length ≤ 255 ∧
      cs.all fun c => isAlphanumeric c ∨ c = '.' ∨ c = '_' ∨ c = ':' ∨ c = '-'

/-- `safeIdentifier`. -/
def safeIdentifier (value : String) : Except HttpFailure String :=
  match decodeURIComponent value with
  | none => .error (.failure 400 "KAF_HTTP_ROUTE_INVALID")
  | some decoded =>
      if identifierFormat decoded then .ok decoded
      else .error (.failure 400 "KAF_HTTP_ROUTE_INVALID")

/-- A command route, with the segments of its path as they stand there. -/
inductive CommandRoute where
  | resume (runId : String)
  | inputs (runId requestId : String)
  | challenge (runId decisionId : String)
  | decision (runId decisionId : String)
  | reconcile (runId effectId : String)
  | compensate (runId effectId : String)
  | cancel (runId : String)
  deriving DecidableEq, Repr

/-- The route of a path; a segment is not empty. -/
def route (path : String) : Option CommandRoute :=
  let segments := (path.toList.splitOn '/').map String.ofList
  if segments.drop 1 |>.any (· = "") then none
  else
    match segments with
    | ["", "v1", "runs", runId, "resume"] => some (.resume runId)
    | ["", "v1", "runs", runId, "inputs", requestId] => some (.inputs runId requestId)
    | ["", "v1", "runs", runId, "decisions", decisionId, "challenge"] =>
        some (.challenge runId decisionId)
    | ["", "v1", "runs", runId, "decisions", decisionId] => some (.decision runId decisionId)
    | ["", "v1", "runs", runId, "effects", effectId, "reconcile"] =>
        some (.reconcile runId effectId)
    | ["", "v1", "runs", runId, "effects", effectId, "compensate"] =>
        some (.compensate runId effectId)
    | ["", "v1", "runs", runId, "cancel"] => some (.cancel runId)
    | _ => none

/-! ### The handler -/

/-- A call of a method of the runtime; `cancel` takes its reason as a JSON value. -/
inductive RuntimeCall where
  | resume (runId : String)
  | submitInput (runId requestId : String) (value : JsonValue)
  | issueDecisionChallenge (runId decisionId : String)
  | approve (runId : String) (decision : JsonValue)
  | reject (runId : String) (decision : JsonValue)
  | reconcileEffect (runId effectId : String) (resolution : JsonValue)
  | requestCompensation (runId effectId : String) (request : JsonValue)
  | cancel (runId : String) (reason : JsonValue)

/-- A POST request. -/
structure CommandRequest where
  path : String
  idempotencyKey : Option String
  body : JsonValue

/-- `{ runId }`. -/
def runPayload (runId : String) : JsonValue :=
  .object [("runId", .string runId)]

/-- `{ runId, reason }`. -/
def cancelPayload (runId reason : String) : JsonValue :=
  .object [("runId", .string runId), ("reason", .string reason)]

/-- The command routes of the handler: the method that is called, and its command. -/
def handle (request : CommandRequest) : Except HttpFailure (RuntimeCall × CommandInput) :=
  match route request.path with
  | none => .error (.failure 404 "KAF_HTTP_NOT_FOUND")
  | some (.resume runId) => do
      let runId ← safeIdentifier runId
      assertEmptyCommandBody request.body
      let command ← commandFor digest request.idempotencyKey "run.resume" (runPayload runId) [runId]
      return (.resume runId, command)
  | some (.inputs runId requestId) => do
      let runId ← safeIdentifier runId
      let requestId ← safeIdentifier requestId
      let command ← commandFor digest request.idempotencyKey "run.submit_input" request.body
        [runId, requestId]
      return (.submitInput runId requestId request.body, command)
  | some (.challenge runId decisionId) => do
      let runId ← safeIdentifier runId
      let decisionId ← safeIdentifier decisionId
      assertEmptyCommandBody request.body
      let command ← commandFor digest request.idempotencyKey "run.issue_decision_challenge"
        (.object []) [runId, decisionId]
      return (.issueDecisionChallenge runId decisionId, command)
  | some (.decision runId decisionId) => do
      let runId ← safeIdentifier runId
      let decisionId ← safeIdentifier decisionId
      match stringProperty "decision" request.body with
      | some "approve" => do
          let decision ← parseWire DecisionApprovalSubmissionSchema request.body
          let command ← commandFor digest request.idempotencyKey "run.approve" decision
            [runId, decisionId]
          return (.approve runId decision, command)
      | some "reject" => do
          let decision ← parseWire DecisionRejectionSubmissionSchema request.body
          let command ← commandFor digest request.idempotencyKey "run.reject" decision
            [runId, decisionId]
          return (.reject runId decision, command)
      | _ => .error (.failure 400 "KAF_HTTP_DECISION_INVALID")
  | some (.reconcile runId effectId) => do
      let runId ← safeIdentifier runId
      let effectId ← safeIdentifier effectId
      let resolution ← parseWire EffectReconciliationResolutionSchema request.body
      let command ← commandFor digest request.idempotencyKey "run.reconcile_effect" resolution
        [runId, effectId]
      return (.reconcileEffect runId effectId resolution, command)
  | some (.compensate runId effectId) => do
      let runId ← safeIdentifier runId
      let effectId ← safeIdentifier effectId
      let compensation ← parseWire (RuntimeCompensationRequestSchema N) request.body
      let command ← commandFor digest request.idempotencyKey "run.request_compensation"
        compensation [runId, effectId]
      return (.requestCompensation runId effectId compensation, command)
  | some (.cancel runId) => do
      let runId ← safeIdentifier runId
      let cancellation ← parseWire RunCancellationRequestSchema request.body
      match stringProperty "reason" cancellation with
      | none => .error .schema
      | some reason => do
          let command ← commandFor digest request.idempotencyKey "run.cancel"
            (cancelPayload runId reason) [runId]
          return (.cancel runId (.string reason), command)

/-! ### The facade -/

/-- `cancellationReason`. -/
def cancellationReason (value : JsonValue) : Except Thrown String :=
  match stringProperty "reason" value with
  | some reason => .ok reason
  | none =>
      .error <| .kaf
        { code := .KAF_SCHEMA_INVALID
          details := { others := [("path", "reason"), ("issue", "required_string")] } }

/-- The facade: `cancel` with a command unwraps its reason, every other method is passed on. -/
def facade : RuntimeCall → Except Thrown RuntimeCall
  | .cancel runId reason => do
      let reason ← cancellationReason reason
      return .cancel runId (.string reason)
  | call => .ok call

/-! ### The kernel -/

/-- `#assertCommand`. -/
def assertCommand (command : CommandInput) (operation : String) (payload : JsonValue) :
    Except Thrown Unit :=
  AgentRuntime.throwIf
    (command.operation ≠ operation ∨ some command.requestDigest ≠ digest payload)
    (kafError .KAF_HTTP_IDEMPOTENCY_CONFLICT)

/-- A schema of the kernel. -/
def parsed (schema : Schema) (value : JsonValue) : Except Thrown JsonValue :=
  match schema value with
  | none => .error (.host "ZodError" true)
  | some value => .ok value

/-- What the kernel checks of a decision. -/
def decisionChecks (schema : Schema) (operation runId : String) (decision : JsonValue)
    (command : CommandInput) : Except Thrown Unit := do
  let decision ← parsed schema decision
  assertCommand digest command operation decision
  AgentRuntime.assertCommandResourceScope command
    [runId, (stringProperty "decisionId" decision).getD ""]

/-- What the kernel checks of a call and its command, besides the window. -/
def checks (command : CommandInput) : RuntimeCall → Except Thrown Unit
  | .resume runId => assertCommand digest command "run.resume" (runPayload runId)
  | .submitInput runId requestId value => do
      assertCommand digest command "run.submit_input" value
      AgentRuntime.assertCommandResourceScope command [runId, requestId]
  | .issueDecisionChallenge runId decisionId => do
      assertCommand digest command "run.issue_decision_challenge" (.object [])
      AgentRuntime.assertCommandResourceScope command [runId, decisionId]
  | .approve runId decision =>
      decisionChecks digest DecisionApprovalSubmissionSchema "run.approve" runId decision command
  | .reject runId decision =>
      decisionChecks digest DecisionRejectionSubmissionSchema "run.reject" runId decision command
  | .reconcileEffect runId effectId resolution => do
      let resolution ← parsed EffectReconciliationResolutionSchema resolution
      assertCommand digest command "run.reconcile_effect" resolution
      AgentRuntime.assertCommandResourceScope command [runId, effectId]
  | .requestCompensation runId effectId request => do
      let request ← parsed (RuntimeCompensationRequestSchema N) request
      assertCommand digest command "run.request_compensation" request
      AgentRuntime.assertCommandResourceScope command [runId, effectId]
  | .cancel runId reason =>
      match reason with
      | .string reasonCode => do
          AgentRuntime.throwIf (¬ AgentRuntime.reasonCodeFormat reasonCode) <| .kaf
            { code := .KAF_SCHEMA_INVALID
              details := { others := [("path", "reasonCode"), ("issue", "invalid_format")] } }
          assertCommand digest command "run.cancel" (cancelPayload runId reasonCode)
      | _ => .error (.host "ZodError" true)

/-- The kernel up to what it knows of the run, with the clock at `now`. -/
def kernel (options : CommandWindow) (now : Int) (command : CommandInput) (call : RuntimeCall) :
    Except Thrown Unit :=
  match parseCommandContext command with
  | none => .error (.host "ZodError" true)
  | some command => do
      checks N digest command call
      assertCommandWindow options now command.commandId

/-! ### What the schemas have parsed -/

theorem approval_stable : DecisionApprovalSubmissionSchema.Stable :=
  Schema.strictObject_stable (by simp) (by
    simp only [List.forall_mem_cons, List.not_mem_nil, false_imp_iff, implies_true, and_true]
    exact ⟨Schema.literal_stable _, Schema.trimmed_stable _, Schema.string_stable _⟩)

theorem rejection_stable : DecisionRejectionSubmissionSchema.Stable :=
  Schema.strictObject_stable (by simp) (by
    simp only [List.forall_mem_cons, List.not_mem_nil, false_imp_iff, implies_true, and_true]
    exact ⟨Schema.literal_stable _, Schema.trimmed_stable _, Schema.string_stable _,
      Schema.string_stable _⟩)

theorem recoveredAcknowledgement_stable : recoveredAcknowledgement.Stable :=
  Schema.strictObject_stable (by simp) (by
    simp only [List.forall_mem_cons, List.not_mem_nil, false_imp_iff, implies_true, and_true]
    exact ⟨Schema.literal_stable _, Schema.literal_stable _⟩)

theorem abandonUncertain_stable : abandonUncertain.Stable :=
  Schema.strictObject_stable (by simp) (by
    simp only [List.forall_mem_cons, List.not_mem_nil, false_imp_iff, implies_true, and_true]
    exact ⟨Schema.literal_stable _, Schema.literal_stable _, Schema.string_stable _,
      Schema.array_stable (Schema.string_stable _), Schema.literalTrue_stable⟩)

/-- What a strict object has parsed is an object with the field. -/
theorem property_parsed {fields : List SchemaField} {v parsed : JsonValue}
    (hnodup : (fields.map SchemaField.key).Nodup)
    (h : Schema.strictObject fields v = some parsed) {field : SchemaField}
    (hfield : field ∈ fields) :
    property field.key parsed = (property field.key v).bind field.schema := by
  cases v with
  | object members =>
    simp only [Schema.strictObject] at h
    split at h
    · obtain ⟨kept, hkept, rfl⟩ := Option.map_eq_some_iff.mp h
      exact Schema.lookup_parsed hnodup hkept hfield
    · cases h
  | _ => cases h

/-- What a strict object has parsed has the fields that are required. -/
theorem property_required {fields : List SchemaField} {v parsed : JsonValue}
    (h : Schema.strictObject fields v = some parsed) {field : SchemaField}
    (hfield : field ∈ fields) (hrequired : field.optional = false) :
    ∃ value kept, property field.key v = some value ∧ field.schema value = some kept := by
  cases v with
  | object members =>
    simp only [Schema.strictObject] at h
    split at h
    · obtain ⟨fieldsKept, hkept, rfl⟩ := Option.map_eq_some_iff.mp h
      exact Schema.lookup_required hkept hfield hrequired
    · cases h
  | _ => cases h

/-- The kind of a resolution decides its option. -/
theorem resolution_stable : EffectReconciliationResolutionSchema.Stable := by
  intro v parsed h
  unfold EffectReconciliationResolutionSchema at h ⊢
  cases hfirst : recoveredAcknowledgement v with
  | some first =>
    rw [hfirst] at h
    obtain rfl := Option.some.inj h
    simp [recoveredAcknowledgement_stable v first hfirst]
  | none =>
    rw [hfirst] at h
    have hsecond : abandonUncertain v = some parsed := h
    have hother : recoveredAcknowledgement parsed = none := by
      cases hrecovered : recoveredAcknowledgement parsed with
      | none => rfl
      | some recovered =>
        -- its kind would be both
        obtain ⟨k, _, hk, hrecoveredKind⟩ := property_required hrecovered
          (List.mem_cons_of_mem _ List.mem_cons_self) rfl
        obtain ⟨k', w, hk', habandonedKind⟩ := property_required hsecond
          (List.mem_cons_of_mem _ List.mem_cons_self) rfl
        have hkind := property_parsed (by simp) hsecond
          (List.mem_cons_of_mem _ List.mem_cons_self)
        rw [hk', Option.bind_some, habandonedKind] at hkind
        obtain rfl := (Schema.literal_eq_some hrecoveredKind).1
        obtain rfl := (Schema.literal_eq_some habandonedKind).2
        exact absurd (Option.some.inj (hk.symm.trans hkind)) (by simp)
    rw [hother]
    exact abandonUncertain_stable v parsed hsecond

theorem monetaryCeiling_stable : (monetaryCeiling N).Stable :=
  Schema.strictObject_stable (by simp) (by
    simp only [List.forall_mem_cons, List.not_mem_nil, false_imp_iff, implies_true, and_true]
    exact ⟨Schema.number_stable _, Schema.string_stable _, Schema.trimmed_stable _,
      Schema.string_stable _⟩)

theorem workBudget_stable : (WorkBudgetSchema N).Stable := by
  refine Schema.strictObject_stable (by simp) ?_
  simp only [List.forall_mem_append, List.forall_mem_map, List.forall_mem_cons, List.not_mem_nil,
    false_imp_iff, implies_true, and_true]
  exact ⟨⟨by simp [Schema.number_stable], by simp [Schema.number_stable]⟩, monetaryCeiling_stable N⟩

theorem compensation_stable : (RuntimeCompensationRequestSchema N).Stable :=
  Schema.strictObject_stable (by simp) (by
    simp only [List.forall_mem_cons, List.not_mem_nil, false_imp_iff, implies_true, and_true]
    exact ⟨Schema.literal_stable _, Schema.trimmed_stable _, workBudget_stable N⟩)

/-! ### Commands and identifiers -/

/-- A text of the format of an identifier is parsed as it is. -/
theorem boundedText_identifier {value : String} (h : identifierFormat value = true) :
    boundedText 2048 value = some value := by
  have hchars : value.toList ≠ [] ∧ value.toList.length ≤ 256 ∧
      ∀ c ∈ value.toList, isWhiteSpace c = false ∧ c.toNat < 0x10000 := by
    unfold identifierFormat at h
    split at h
    · cases h
    · rename_i c cs heq
      simp only [decide_eq_true_eq] at h
      obtain ⟨hfirst, hlength, hrest⟩ := h
      have hplain : ∀ c : Char, c.toNat < 128 → 33 ≤ c.toNat →
          isWhiteSpace c = false ∧ c.toNat < 0x10000 := by
        intro c hlt hge
        have hno : c.toNat ∉ [9, 10, 11, 12, 13, 32, 0xa0, 0x1680, 0x2028, 0x2029, 0x202f, 0x205f,
            0x3000, 0xfeff] := by
          simp only [List.mem_cons, List.not_mem_nil, not_or, not_false_eq_true, and_true]
          omega
        refine ⟨?_, by omega⟩
        rw [isWhiteSpace, decide_eq_false_iff_not, not_or]
        exact ⟨hno, by omega⟩
      have halpha : ∀ c : Char, isAlphanumeric c = true → c.toNat < 128 ∧ 33 ≤ c.toNat := by
        intro c hc
        simp only [isAlphanumeric, decide_eq_true_eq, Bool.decide_or, Bool.or_eq_true] at hc
        omega
      rw [heq]
      refine ⟨by simp, Nat.lt_succ_of_le hlength, ?_⟩
      rintro d (_ | ⟨_, hd⟩)
      · exact hplain c (halpha c hfirst).1 (halpha c hfirst).2
      · have hd' := List.all_eq_true.mp hrest d hd
        simp only [decide_eq_true_eq] at hd'
        rcases hd' with hd' | rfl | rfl | rfl | rfl
        · exact hplain d (halpha d hd').1 (halpha d hd').2
        all_goals exact hplain _ (by decide) (by decide)
  obtain ⟨hne, hlength, hchars⟩ := hchars
  have hdrop : value.toList.dropWhile isWhiteSpace = value.toList := by
    rw [List.dropWhile_eq_self_iff]
    intro hl
    simp [(hchars _ (List.getElem_mem hl)).1]
  have hrdrop : value.toList.rdropWhile isWhiteSpace = value.toList := by
    rw [List.rdropWhile_eq_self_iff]
    intro hl
    simp [(hchars _ (List.getLast_mem hl)).1]
  have htrim : trim value = value := by
    rw [trim, hdrop, hrdrop, String.ofList_toList]
  have hunits : codeUnits value = value.toList.length := by
    unfold codeUnits
    have hmap : (value.toList.map fun c => if c.toNat < 0x10000 then 1 else 2) =
        value.toList.map fun _ => 1 :=
      List.map_congr_left fun c hc => if_pos (hchars c hc).2
    rw [hmap]
    simp
  have hpos : 0 < value.toList.length := List.length_pos_iff.mpr hne
  rw [boundedText, htrim, hunits, if_pos ⟨by omega, by omega⟩]

theorem safeIdentifier_ok {raw value : String} (h : safeIdentifier raw = .ok value) :
    decodeURIComponent raw = some value ∧ boundedText 2048 value = some value := by
  unfold safeIdentifier at h
  split at h
  · cases h
  rename_i decoded hdecoded
  split at h
  · rename_i hformat
    obtain rfl := Except.ok.inj h
    exact ⟨hdecoded, boundedText_identifier hformat⟩
  · cases h

/-- **The command of a route**: its operation, the digest of its payload, and the scope of its
identifiers; the kernel parses it to itself. -/
theorem commandFor_ok {idempotencyKey : Option String} {operation : String} {payload : JsonValue}
    {scope : List String} {command : CommandInput}
    (hoperation : boundedText 256 operation = some operation) (hfew : scope.length ≤ 2)
    (hscope : ∀ value ∈ scope, boundedText 2048 value = some value)
    (h : commandFor digest idempotencyKey operation payload scope = .ok command) :
    command.operation = operation ∧ digest payload = some command.requestDigest ∧
      command.normalizedResourceScope.map (·.value) = scope ∧
      parseCommandContext command = some command := by
  unfold commandFor at h
  split at h
  · cases h
  rename_i commandId
  split at h
  · cases h
  rename_i hid
  split at h
  · cases h
  rename_i requestDigest hdigest
  have hscopes : (scope.map fun value =>
      (⟨.opaqueValue, value, "pactmark.http-route@1"⟩ : ResourceScope)).mapM Policy.parseScope =
        some (scope.map fun value => ⟨.opaqueValue, value, "pactmark.http-route@1"⟩) := by
    have hversion : boundedText 64 "pactmark.http-route@1" = some "pactmark.http-route@1" := by
      decide +kernel
    clear h hfew
    induction scope with
    | nil => rfl
    | cons value scope ih =>
      obtain ⟨hvalue, hrest⟩ := List.forall_mem_cons.mp hscope
      simp [List.mapM_cons, Policy.parseScope, hvalue, hversion, ih hrest]
  obtain ⟨digits, hdigits⟩ := Option.ne_none_iff_exists'.mp
    (show matchCommandId commandId ≠ none by simpa using hid)
  have hparse : parseCommandContext
      ⟨commandId, operation, scope.map fun value =>
        ⟨.opaqueValue, value, "pactmark.http-route@1"⟩, requestDigest⟩ =
      some ⟨commandId, operation, scope.map fun value =>
        ⟨.opaqueValue, value, "pactmark.http-route@1"⟩, requestDigest⟩ := by
    simp only [parseCommandContext, hdigits, hoperation, hscopes, List.length_map]
    rw [if_neg (by omega)]
  rw [hparse] at h
  obtain rfl := Except.ok.inj h
  exact ⟨rfl, hdigest, by simp [Function.comp_def], hparse⟩

/-! ### What reaches the kernel -/

/-- The id in a decision that has been parsed is the trimmed one of the body. -/
theorem decisionId_parsed {rest : List SchemaField} {first : SchemaField} {v decision : JsonValue}
    (hnodup : ((first :: ⟨"decisionId", false, .trimmed 256⟩ :: rest).map SchemaField.key).Nodup)
    (h : Schema.strictObject (first :: ⟨"decisionId", false, .trimmed 256⟩ :: rest) v =
      some decision) :
    ∃ raw id, stringProperty "decisionId" v = some raw ∧ boundedText 256 raw = some id ∧
      stringProperty "decisionId" decision = some id := by
  have hfield : (⟨"decisionId", false, .trimmed 256⟩ : SchemaField) ∈
      first :: ⟨"decisionId", false, .trimmed 256⟩ :: rest :=
    List.mem_cons_of_mem _ List.mem_cons_self
  obtain ⟨value, kept, hvalue, hkept⟩ := property_required h hfield rfl
  have hparsed := property_parsed hnodup h hfield
  dsimp only at hvalue hkept hparsed
  rw [hvalue, Option.bind_some, hkept] at hparsed
  cases value with
  | string raw =>
    rw [Schema.trimmed] at hkept
    obtain ⟨id, hid, rfl⟩ := Option.map_eq_some_iff.mp hkept
    exact ⟨raw, id, by simp [stringProperty, hvalue], hid, by simp [stringProperty, hparsed]⟩
  | _ => cases hkept

/-- The request is none to cancel, and a decision is that of its path. -/
def Delivered (request : CommandRequest) : Prop :=
  match route request.path with
  | some (.cancel _) => False
  | some (.decision _ decisionId) =>
      (stringProperty "decisionId" request.body).bind (boundedText 256) =
        decodeURIComponent decisionId
  | _ => True

variable {N digest} {options : CommandWindow} {now : Int}

theorem throwIf_ok {condition : Prop} [Decidable condition] {error : Thrown} :
    AgentRuntime.throwIf condition error = .ok () ↔ ¬ condition := by
  unfold AgentRuntime.throwIf
  split <;> simp_all

theorem assertCommand_ok {command : CommandInput} {operation : String} {payload : JsonValue} :
    assertCommand digest command operation payload = .ok () ↔
      command.operation = operation ∧ digest payload = some command.requestDigest := by
  rw [assertCommand, throwIf_ok, not_or, not_not, not_not, @eq_comm _ (digest payload)]

theorem assertCommandResourceScope_ok {command : CommandInput} {expected : List String} :
    AgentRuntime.assertCommandResourceScope command expected = .ok () ↔
      command.normalizedResourceScope.map (·.value) = expected := by
  rw [AgentRuntime.assertCommandResourceScope, throwIf_ok, not_not]

/-- The kernel accepts what it checks, in the window. -/
theorem kernel_ok {command : CommandInput} {call : RuntimeCall}
    (hparse : parseCommandContext command = some command)
    (hwindow : assertCommandWindow options now command.commandId = .ok ()) :
    kernel N digest options now command call = .ok () ↔ checks N digest command call = .ok () := by
  simp only [kernel, hparse]
  cases checks N digest command call with
  | error e => simp [bind, Except.bind]
  | ok u => simp [bind, Except.bind, hwindow]

/-- What the handler has parsed the kernel parses to itself. -/
theorem parsed_parsed {schema : Schema} (hs : schema.Stable) {raw value : JsonValue}
    (h : parseWire schema raw = .ok value) : parsed schema value = .ok value := by
  unfold parseWire at h
  split at h
  · cases h
  · rename_i kept hkept
    obtain rfl := Except.ok.inj h
    rw [parsed, hs _ _ hkept]

/-- A decision reaches the kernel when it is that of its path. -/
theorem decision_delivered {schema : Schema} {operation runId decisionId : String}
    {body decision : JsonValue} {command : CommandInput} {call : RuntimeCall}
    (hs : schema.Stable)
    (hid : ∀ {decision}, schema body = some decision →
      ∃ raw id, stringProperty "decisionId" body = some raw ∧ boundedText 256 raw = some id ∧
        stringProperty "decisionId" decision = some id)
    (hparsed : parseWire schema body = .ok decision)
    (hcommand : command.operation = operation ∧ digest decision = some command.requestDigest ∧
      command.normalizedResourceScope.map (·.value) = [runId, decisionId] ∧
      parseCommandContext command = some command)
    (hwindow : assertCommandWindow options now command.commandId = .ok ())
    (hfacade : facade call = .ok call)
    (hchecks : checks N digest command call =
      decisionChecks digest schema operation runId decision command) :
    (∃ call', facade call = .ok call' ∧ kernel N digest options now command call' = .ok ()) ↔
      (stringProperty "decisionId" body).bind (boundedText 256) = some decisionId := by
  obtain ⟨hoperation, hdigest, hscope, hparse⟩ := hcommand
  obtain ⟨raw, id, hraw, hbounded, hkept⟩ := hid (by
    unfold parseWire at hparsed
    split at hparsed
    · cases hparsed
    · rename_i kept hkept
      rw [hkept, Except.ok.inj hparsed])
  have hassert : assertCommand digest command operation decision = .ok () :=
    assertCommand_ok.mpr ⟨hoperation, hdigest⟩
  rw [hfacade, hraw, Option.bind_some, hbounded]
  simp only [Except.ok.injEq, exists_eq_left', kernel_ok hparse hwindow, hchecks, decisionChecks,
    parsed_parsed hs hparsed, hassert, hkept, bind, Except.bind, Option.getD_some,
    assertCommandResourceScope_ok, hscope, List.cons.injEq, true_and, and_true, Option.some.injEq]
  exact eq_comm

/-- **Which requests reach the kernel intact**: of those the handler passes on, all but those that
cancel, and those that decide another decision than that of their path. -/
theorem delivered_iff {request : CommandRequest} {call : RuntimeCall} {command : CommandInput}
    (h : handle N digest request = .ok (call, command))
    (hwindow : assertCommandWindow options now command.commandId = .ok ()) :
    (∃ call', facade call = .ok call' ∧ kernel N digest options now command call' = .ok ()) ↔
      Delivered request := by
  have hoperations : ∀ operation ∈ ["run.resume", "run.submit_input",
      "run.issue_decision_challenge", "run.approve", "run.reject", "run.reconcile_effect",
      "run.request_compensation", "run.cancel"],
      boundedText 256 operation = some operation := by decide +kernel
  have two : ∀ {run other : String}, boundedText 2048 run = some run →
      boundedText 2048 other = some other →
      ∀ value ∈ [run, other], boundedText 2048 value = some value := by
    intro run other hrun hother
    simp [hrun, hother]
  unfold handle at h
  unfold Delivered
  split at h
  · cases h
  · rename_i raw hroute
    obtain ⟨runId, hrun, h⟩ := bind_eq_ok.mp h
    obtain ⟨u, -, h⟩ := bind_eq_ok.mp h
    obtain ⟨kept, hcommand, h⟩ := bind_eq_ok.mp h
    obtain ⟨rfl, rfl⟩ := Prod.mk.inj (Except.ok.inj h)
    obtain ⟨hoperation, hdigest, -, hparse⟩ := commandFor_ok digest (hoperations _ (by simp))
      (by simp) (by simpa using (safeIdentifier_ok hrun).2) hcommand
    rw [hroute]
    simp [facade, kernel_ok hparse hwindow, checks, assertCommand_ok, hoperation, hdigest]
  · rename_i rawRun rawRequest hroute
    obtain ⟨runId, hrun, h⟩ := bind_eq_ok.mp h
    obtain ⟨requestId, hrequest, h⟩ := bind_eq_ok.mp h
    obtain ⟨kept, hcommand, h⟩ := bind_eq_ok.mp h
    obtain ⟨rfl, rfl⟩ := Prod.mk.inj (Except.ok.inj h)
    obtain ⟨hoperation, hdigest, hscope, hparse⟩ := commandFor_ok digest (hoperations _ (by simp))
      (by simp) (two (safeIdentifier_ok hrun).2 (safeIdentifier_ok hrequest).2) hcommand
    rw [hroute]
    have hcommand : assertCommand digest kept "run.submit_input" request.body = .ok () :=
      assertCommand_ok.mpr ⟨hoperation, hdigest⟩
    have hscope := assertCommandResourceScope_ok.mpr hscope
    simp [facade, kernel_ok hparse hwindow, checks, hcommand, hscope, bind, Except.bind]
  · rename_i rawRun rawDecision hroute
    obtain ⟨runId, hrun, h⟩ := bind_eq_ok.mp h
    obtain ⟨decisionId, hdecision, h⟩ := bind_eq_ok.mp h
    obtain ⟨u, -, h⟩ := bind_eq_ok.mp h
    obtain ⟨kept, hcommand, h⟩ := bind_eq_ok.mp h
    obtain ⟨rfl, rfl⟩ := Prod.mk.inj (Except.ok.inj h)
    obtain ⟨hoperation, hdigest, hscope, hparse⟩ := commandFor_ok digest (hoperations _ (by simp))
      (by simp) (two (safeIdentifier_ok hrun).2 (safeIdentifier_ok hdecision).2) hcommand
    rw [hroute]
    have hcommand : assertCommand digest kept "run.issue_decision_challenge" (.object []) =
        .ok () := assertCommand_ok.mpr ⟨hoperation, hdigest⟩
    have hscope := assertCommandResourceScope_ok.mpr hscope
    simp [facade, kernel_ok hparse hwindow, checks, hcommand, hscope, bind, Except.bind]
  · rename_i rawRun rawDecision hroute
    obtain ⟨runId, hrun, h⟩ := bind_eq_ok.mp h
    obtain ⟨decisionId, hdecision, h⟩ := bind_eq_ok.mp h
    obtain ⟨hdecoded, hbounded⟩ := safeIdentifier_ok hdecision
    have hids := two (safeIdentifier_ok hrun).2 hbounded
    rw [hroute]
    dsimp only
    rw [hdecoded]
    split at h
    · obtain ⟨decision, hparsed, h⟩ := bind_eq_ok.mp h
      obtain ⟨kept, hcommand, h⟩ := bind_eq_ok.mp h
      obtain ⟨rfl, rfl⟩ := Prod.mk.inj (Except.ok.inj h)
      have hcommand' := commandFor_ok digest (hoperations _ (by simp)) (by simp) hids hcommand
      exact decision_delivered approval_stable (decisionId_parsed (by simp)) hparsed hcommand'
        hwindow rfl rfl
    · obtain ⟨decision, hparsed, h⟩ := bind_eq_ok.mp h
      obtain ⟨kept, hcommand, h⟩ := bind_eq_ok.mp h
      obtain ⟨rfl, rfl⟩ := Prod.mk.inj (Except.ok.inj h)
      have hcommand' := commandFor_ok digest (hoperations _ (by simp)) (by simp) hids hcommand
      exact decision_delivered rejection_stable (decisionId_parsed (by simp)) hparsed hcommand'
        hwindow rfl rfl
    · cases h
  · rename_i rawRun rawEffect hroute
    obtain ⟨runId, hrun, h⟩ := bind_eq_ok.mp h
    obtain ⟨effectId, heffect, h⟩ := bind_eq_ok.mp h
    obtain ⟨resolution, hresolution, h⟩ := bind_eq_ok.mp h
    obtain ⟨kept, hcommand, h⟩ := bind_eq_ok.mp h
    obtain ⟨rfl, rfl⟩ := Prod.mk.inj (Except.ok.inj h)
    obtain ⟨hoperation, hdigest, hscope, hparse⟩ := commandFor_ok digest (hoperations _ (by simp))
      (by simp) (two (safeIdentifier_ok hrun).2 (safeIdentifier_ok heffect).2) hcommand
    rw [hroute]
    have hparsed := parsed_parsed resolution_stable hresolution
    have hcommand : assertCommand digest kept "run.reconcile_effect" resolution = .ok () :=
      assertCommand_ok.mpr ⟨hoperation, hdigest⟩
    have hscope := assertCommandResourceScope_ok.mpr hscope
    simp [facade, kernel_ok hparse hwindow, checks, hparsed, hcommand, hscope, bind, Except.bind]
  · rename_i rawRun rawEffect hroute
    obtain ⟨runId, hrun, h⟩ := bind_eq_ok.mp h
    obtain ⟨effectId, heffect, h⟩ := bind_eq_ok.mp h
    obtain ⟨compensation, hcompensation, h⟩ := bind_eq_ok.mp h
    obtain ⟨kept, hcommand, h⟩ := bind_eq_ok.mp h
    obtain ⟨rfl, rfl⟩ := Prod.mk.inj (Except.ok.inj h)
    obtain ⟨hoperation, hdigest, hscope, hparse⟩ := commandFor_ok digest (hoperations _ (by simp))
      (by simp) (two (safeIdentifier_ok hrun).2 (safeIdentifier_ok heffect).2) hcommand
    rw [hroute]
    have hparsed := parsed_parsed (compensation_stable N) hcompensation
    have hcommand : assertCommand digest kept "run.request_compensation" compensation = .ok () :=
      assertCommand_ok.mpr ⟨hoperation, hdigest⟩
    have hscope := assertCommandResourceScope_ok.mpr hscope
    simp [facade, kernel_ok hparse hwindow, checks, hparsed, hcommand, hscope, bind, Except.bind]
  · -- the reason is a string, which the facade does not take
    rename_i rawRun hroute
    obtain ⟨runId, hrun, h⟩ := bind_eq_ok.mp h
    obtain ⟨cancellation, -, h⟩ := bind_eq_ok.mp h
    rw [hroute]
    split at h
    · cases h
    · obtain ⟨kept, -, h⟩ := bind_eq_ok.mp h
      obtain ⟨rfl, rfl⟩ := Prod.mk.inj (Except.ok.inj h)
      simp [facade, cancellationReason, stringProperty, property, bind, Except.bind]

/-! ### A request to cancel -/

/-- The reason is one the kernel would take. -/
def cancelRequest : CommandRequest where
  path := "/v1/runs/run/cancel"
  idempotencyKey := some "kafcmd_1785758400000_00000000000000000000000000000000"
  body := .object [("reason", .string "user_requested")]

/-- A request to resume the same run. -/
def resumeRequest : CommandRequest :=
  { cancelRequest with path := "/v1/runs/run/resume", body := .object [] }

/-- The command of a route of the run. -/
def runCommand (operation : String) : CommandInput where
  commandId := "kafcmd_1785758400000_00000000000000000000000000000000"
  operation := operation
  normalizedResourceScope := [⟨.opaqueValue, "run", "pactmark.http-route@1"⟩]
  requestDigest := "request"

/-- The texts of the two requests. -/
theorem request_texts :
    (identifierFormat "run" = true ∧ ¬ '%' ∈ "run".toList) ∧
    ((matchCommandId "kafcmd_1785758400000_00000000000000000000000000000000").isSome = true ∧
      validateCommandIdWindow "kafcmd_1785758400000_00000000000000000000000000000000"
        1785758400000 {} = .valid 1785758400000 ∧
      Policy.parseScope ⟨.opaqueValue, "run", "pactmark.http-route@1"⟩ =
        some ⟨.opaqueValue, "run", "pactmark.http-route@1"⟩) ∧
    (route resumeRequest.path = some (.resume "run") ∧
      boundedText 256 "run.resume" = some "run.resume") ∧
    route cancelRequest.path = some (.cancel "run") ∧
      boundedText 256 "run.cancel" = some "run.cancel" ∧
      AgentRuntime.reasonCodeFormat "user_requested" = true := by
  decide +kernel

theorem safeIdentifier_run : safeIdentifier "run" = .ok "run" := by
  obtain ⟨hformat, hplain⟩ := request_texts.1
  simp only [safeIdentifier, decodeURIComponent, if_neg hplain, hformat, if_true]

/-- The command that the handler makes. -/
theorem commandFor_run {operation : String} {payload : JsonValue}
    (hoperation : boundedText 256 operation = some operation) :
    commandFor (fun _ => some "request") cancelRequest.idempotencyKey operation payload ["run"] =
      .ok (runCommand operation) := by
  obtain ⟨hid, -, hscope⟩ := request_texts.2.1
  obtain ⟨digits, hdigits⟩ := Option.isSome_iff_exists.mp hid
  simp [commandFor, cancelRequest, parseCommandContext, hdigits, hoperation, hscope, runCommand]

theorem handle_resume (N : NumberChecks) :
    handle N (fun _ => some "request") resumeRequest =
      .ok (.resume "run", runCommand "run.resume") := by
  obtain ⟨hroute, hoperation⟩ := request_texts.2.2.1
  have hcommand : commandFor (fun _ => some "request") resumeRequest.idempotencyKey "run.resume"
      (runPayload "run") ["run"] = .ok (runCommand "run.resume") :=
    commandFor_run hoperation
  have hbody : assertEmptyCommandBody resumeRequest.body = .ok () := rfl
  simp only [handle, hroute, safeIdentifier_run, hbody, hcommand, bind, Except.bind, pure,
    Except.pure]

theorem handle_cancel (N : NumberChecks) :
    handle N (fun _ => some "request") cancelRequest =
      .ok (.cancel "run" (.string "user_requested"), runCommand "run.cancel") := by
  obtain ⟨hroute, hoperation, hformat⟩ := request_texts.2.2.2
  have hbody : parseWire RunCancellationRequestSchema cancelRequest.body =
      .ok cancelRequest.body := by
    simp [parseWire, RunCancellationRequestSchema, cancelRequest, Schema.strictObject,
      Schema.parseFields, Schema.lookup, Schema.string, hformat]
  have hreason : stringProperty "reason" cancelRequest.body = some "user_requested" := by
    simp [stringProperty, property, cancelRequest, Schema.lookup]
  have hcommand : commandFor (fun _ => some "request") cancelRequest.idempotencyKey "run.cancel"
      (cancelPayload "run" "user_requested") ["run"] = .ok (runCommand "run.cancel") :=
    commandFor_run hoperation
  simp only [handle, hroute, safeIdentifier_run, hbody, hreason, hcommand, bind, Except.bind, pure,
    Except.pure]

/-- The numbers are of no concern here. -/
def anyNumbers : NumberChecks :=
  ⟨fun _ => true, fun _ => true, fun _ => true⟩

/-- The identity is of the instant of the clock. -/
theorem runCommand_window (operation : String) :
    assertCommandWindow {} 1785758400000 (runCommand operation).commandId = .ok () := by
  obtain ⟨-, hvalid, -⟩ := request_texts.2.1
  simp only [assertCommandWindow, runCommand, hvalid]

theorem delivered_resume :
    ∃ call', facade (.resume "run") = .ok call' ∧
      kernel anyNumbers (fun _ => some "request") {} 1785758400000 (runCommand "run.resume") call' =
        .ok () :=
  (delivered_iff (handle_resume anyNumbers) (runCommand_window _)).mpr (by
    rw [Delivered, request_texts.2.2.1.1]
    trivial)

/-- A request to cancel that the handler takes, the facade refuses. -/
theorem cancel_not_delivered :
    ¬ ∀ (N : NumberChecks) (digest : Digests) (options : CommandWindow) (now : Int)
      (request : CommandRequest) (call : RuntimeCall) (command : CommandInput),
      handle N digest request = .ok (call, command) →
        assertCommandWindow options now command.commandId = .ok () →
          ∃ call', facade call = .ok call' ∧
            kernel N digest options now command call' = .ok () := by
  intro h
  obtain ⟨call', hfacade, -⟩ := h anyNumbers _ {} 1785758400000 _ _ _ (handle_cancel anyNumbers)
    (runCommand_window _)
  simp [facade, cancellationReason, stringProperty, property, bind, Except.bind] at hfacade

end Pactmark.Http
