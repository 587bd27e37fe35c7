import Mathlib.Data.List.Infix
import Pactmark.Core.Digests
import Pactmark.Core.Positions
import Pactmark.Durable.Operations

/-!
# Evidence — building a record

`buildEvidenceRecord`, `exportEvidenceJson` and `verifyEvidenceDigest` of
`evidence/src/records.ts`, and `verifyVerificationExceptionDigest` of `evidence/src/exceptions.ts`.
What is digested as a whole is a JSON object, and its fields are read from it; a digest is kept
beside the object it is of.  A schema is the decision whether it accepts a value; that of an
approval also trims it.  `Date.parse` has no value for a text that is no date.

`KAF_…` are the errors the functions throw themselves.
-/

namespace Pactmark

open JsString (ofString)

namespace Records

variable {Num : Type}

/-! ### Objects -/

/-- `v.name`. -/
def prop (v : Json Num) (name : String) : Json Num :=
  (v.child (.member (ofString name))).getD .null

/-- The units of a string. -/
def text : Json Num → JsString
  | .string s => s
  | _ => []

/-- The entries of an array of strings. -/
def texts : Json Num → List JsString
  | .array items => items.map text
  | _ => []

/-- An object literal of strings. -/
def object (fields : List (String × JsString)) : Json Num :=
  .record (fields.map fun field => (field.1, .string field.2))

/-- `ArtifactSchema`: `artifactDigest`, and the rest of the artifact. -/
structure Artifact (Num : Type) where
  artifactDigest : JsString
  material : JsonDocument Num

namespace Artifact

variable (a : Artifact Num)

def artifactId : JsString := text (prop a.material.1 "artifactId")
def tenantId : JsString := text (prop a.material.1 "tenantId")
def producingRunId : JsString := text (prop a.material.1 "producingRunId")
def producingStepId : JsString := text (prop a.material.1 "producingStepId")
def provenance : Json Num := prop a.material.1 "provenance"

end Artifact

/-- `ApprovalSchema`. -/
structure Approval (Num : Type) where
  json : Json Num

namespace Approval

variable (a : Approval Num)

def id : JsString := text (prop a.json "id")
def binding : Json Num := prop a.json "binding"
def createdAt : JsString := text (prop a.json "createdAt")
def expiresAt : JsString := text (prop a.json "expiresAt")

end Approval

/-- `VerifierReferenceIdentity`. -/
structure VerifierReferenceIdentity where
  id : JsString
  version : JsString
  verifierRegistrationDigest : JsString
  rubricVersion : JsString
  rubricDigest : JsString
  deriving DecidableEq

/-- `VerificationResultSchema`: `verificationDigest`, and the rest of the result. -/
structure VerificationResult (Num : Type) where
  verificationDigest : JsString
  material : Json Num

namespace VerificationResult

variable (v : VerificationResult Num)

def verificationId : JsString := text (prop v.material "verificationId")
def status : JsString := text (prop v.material "status")
def method : JsString := text (prop v.material "method")
def artifactDigest : JsString := text (prop v.material "artifactDigest")
def verifierId : JsString := text (prop v.material "verifierId")
def verifierVersion : JsString := text (prop v.material "verifierVersion")
def verifierRegistrationDigest : JsString := text (prop v.material "verifierRegistrationDigest")
def rubricVersion : JsString := text (prop v.material "rubricVersion")
def rubricDigest : JsString := text (prop v.material "rubricDigest")

/-- The reference the result is of. -/
def reference : VerifierReferenceIdentity :=
  ⟨v.verifierId, v.verifierVersion, v.verifierRegistrationDigest, v.rubricVersion, v.rubricDigest⟩

/-- The result is of a verifier with this id, or this registration digest. -/
def isOf (requiredVerifierId : JsString) : Bool :=
  v.verifierId = requiredVerifierId || v.verifierRegistrationDigest = requiredVerifierId

end VerificationResult

/-- `VerificationExceptionSchema`: `exceptionDigest`, and the rest of the exception. -/
structure VerificationException (Num : Type) where
  exceptionDigest : JsString
  material : Json Num

namespace VerificationException

variable (x : VerificationException Num)

def exceptionId : JsString := text (prop x.material "exceptionId")
def tenantId : JsString := text (prop x.material "tenantId")
def runId : JsString := text (prop x.material "runId")
def artifactDigest : JsString := text (prop x.material "artifactDigest")
def verifierId : JsString := text (prop x.material "verifierId")
def verifierRegistrationDigest : JsString := text (prop x.material "verifierRegistrationDigest")
def rubricVersion : JsString := text (prop x.material "rubricVersion")
def rubricDigest : JsString := text (prop x.material "rubricDigest")
def reviewerRole : JsString := text (prop (prop x.material "reviewer") "role")
def reason : JsString := text (prop x.material "reason")
def compensatingControls : Json Num := prop x.material "compensatingControls"
def issuedAt : JsString := text (prop x.material "issuedAt")
def expiresAt : JsString := text (prop x.material "expiresAt")

/-- The exception is of a verifier with this id, or this registration digest. -/
def isOf (requiredVerifierId : JsString) : Bool :=
  x.verifierId = requiredVerifierId || x.verifierRegistrationDigest = requiredVerifierId

/-- The lookup of the reference an exception is of. -/
def names (reference : VerifierReferenceIdentity) : Bool :=
  reference.id = x.verifierId &&
    reference.verifierRegistrationDigest = x.verifierRegistrationDigest &&
    reference.rubricVersion = x.rubricVersion && reference.rubricDigest = x.rubricDigest

end VerificationException

/-- `payload` of a `VerificationExceptionRecorded` event. -/
structure ExceptionPayload where
  stepId : JsString
  exceptionId : JsString
  exceptionDigest : JsString
  verifierId : JsString
  verifierRegistrationDigest : JsString
  artifactDigest : JsString
  rubricVersion : JsString
  rubricDigest : JsString
  reviewerRole : JsString
  expiresAt : JsString
  reason : JsString
  compensatingControls : List JsString

/-- `eventType` and `payload` of the events the function looks at. -/
inductive Payload where
  | RunAccepted (workOrderBindingDigest : JsString) (requiredVerifierIds : List JsString)
  | ArtifactProduced (stepId artifactId artifactDigest : JsString)
  | ApprovalRecorded (stepId decisionId approvalId : JsString)
  | VerificationRecorded (stepId verificationId verifierId status verificationDigest : JsString)
  | VerificationExceptionRecorded (payload : ExceptionPayload)
  | other

/-- `RunEventSchema`. -/
structure RunEvent (Num : Type) where
  eventId : JsString
  sequence : Nat
  tenantId : JsString
  runId : JsString
  executionDefinition : Json Num
  executionDefinitionDigest : JsString
  payload : Payload

/-- The members of a record that are no material. -/
def reserved : List JsString :=
  [ofString "artifactRefs", ofString "eventRefs", ofString "approvalRefs",
    ofString "verificationRefs", ofString "verificationExceptionRefs", ofString "evidenceDigest"]

/-- `EvidenceMaterial`. -/
structure EvidenceMaterial (Num : Type) where
  members : List (JsString × Json Num)
  distinct : (Json.object members).Distinct
  names : ∀ m ∈ members, m.1 ∉ reserved

namespace EvidenceMaterial

variable (m : EvidenceMaterial Num)

def json : Json Num := .object m.members
def tenantId : JsString := text (prop m.json "tenantId")
def runId : JsString := text (prop m.json "runId")
def executionDefinition : Json Num := prop m.json "executionDefinition"
def executionDefinitionDigest : JsString := text (prop m.json "executionDefinitionDigest")
def workOrderBindingDigest : JsString := text (prop m.json "workOrderBindingDigest")
def supports : List JsString := texts (prop m.json "supports")
def doesNotProve : List JsString := texts (prop m.json "doesNotProve")
def riskClass : JsString := text (prop (prop m.json "context") "riskClass")
def purposeCode : JsString := text (prop (prop m.json "permission") "purposeCode")
def purposeRegistryVersion : JsString :=
  text (prop (prop m.json "permission") "purposeRegistryVersion")
def createdAt : JsString := text (prop m.json "createdAt")

end EvidenceMaterial

/-- `BuildEvidenceInput`, with an empty list for one that is absent. -/
structure BuildEvidenceInput (Num : Type) where
  material : EvidenceMaterial Num
  artifacts : List (Artifact Num)
  events : List (RunEvent Num)
  approvals : List (Approval Num)
  verifications : List (VerificationResult Num)
  verificationExceptions : List (VerificationException Num)
  verifierReferences : List VerifierReferenceIdentity

/-- `EvidenceRecord`. -/
structure EvidenceRecord (Num : Type) where
  material : EvidenceMaterial Num
  artifactRefs : List (Json Num)
  eventRefs : List (Json Num)
  approvalRefs : List (Json Num)
  verificationRefs : List (Json Num)
  verificationExceptionRefs : List (Json Num)
  evidenceDigest : JsString

namespace EvidenceRecord

/-- `recordWithoutDigest`. -/
def materialJson (r : EvidenceRecord Num) : Json Num :=
  .object (r.material.members ++
    [(ofString "artifactRefs", .array r.artifactRefs),
      (ofString "eventRefs", .array r.eventRefs),
      (ofString "approvalRefs", .array r.approvalRefs),
      (ofString "verificationRefs", .array r.verificationRefs),
      (ofString "verificationExceptionRefs", .array r.verificationExceptionRefs)])

/-- The record as an object. -/
def json (r : EvidenceRecord Num) : Json Num :=
  .object (r.material.members ++
    [(ofString "artifactRefs", .array r.artifactRefs),
      (ofString "eventRefs", .array r.eventRefs),
      (ofString "approvalRefs", .array r.approvalRefs),
      (ofString "verificationRefs", .array r.verificationRefs),
      (ofString "verificationExceptionRefs", .array r.verificationExceptionRefs)] ++
    [(ofString "evidenceDigest", .string r.evidenceDigest)])

end EvidenceRecord

/-- What is outside the package: the digests and the numbers, the dates and the schemas.  The
schema of a record does not look at the order of the members of an object. -/
structure Environment (Num : Type) extends Hashing Num where
  integer : Nat → Num
  dateParse : JsString → Option Int
  acceptsArtifact : Artifact Num → Bool
  acceptsEvent : RunEvent Num → Bool
  parseApproval : Approval Num → Option (Approval Num)
  acceptsVerification : VerificationResult Num → Bool
  acceptsException : VerificationException Num → Bool
  acceptsRecord : Json Num → Bool
  acceptsRecord_same : ∀ v w : Json Num, v.Distinct → w.Distinct → Json.Same num v w →
    acceptsRecord v = acceptsRecord w

/-- What `buildEvidenceRecord` throws: what a schema throws, what canonical JSON throws, or one
of its own. -/
inductive EvidenceError where
  | schema
  | canonical (e : CanonicalJsonError)
  | KAF_EVIDENCE_INVALID_REFERENCE
  | KAF_VERIFICATION_REQUIRED

/-- `if (!condition) throw new TypeError("KAF_EVIDENCE_INVALID_REFERENCE")`. -/
def require (condition : Prop) [Decidable condition] : Except EvidenceError Unit :=
  if condition then .ok () else .error .KAF_EVIDENCE_INVALID_REFERENCE

/-- `Schema.parse`, of a schema that keeps what it accepts. -/
def parse {α : Type} (accepts : α → Bool) (value : α) : Except EvidenceError α :=
  if accepts value then .ok value else .error .schema

section Build

variable (E : Environment Num)

/-- `digestCanonicalJson`. -/
def digestCanonicalJson (v : Json Num) : Except EvidenceError JsString :=
  match E.toHashing.digestCanonicalJson v with
  | .ok digest => .ok (ofString digest)
  | .error e => .error (.canonical e)

/-- `Date.parse(left) > Date.parse(right)`. -/
def dateAfter (left right : JsString) : Bool :=
  match E.dateParse left, E.dateParse right with
  | some l, some r => r < l
  | _, _ => false

/-- `Date.parse(left) <= Date.parse(right)`. -/
def dateNotAfter (left right : JsString) : Bool :=
  match E.dateParse left, E.dateParse right with
  | some l, some r => l ≤ r
  | _, _ => false

/-- `verifierKey`. -/
def verifierKey (reference : VerifierReferenceIdentity) : Except EvidenceError JsString :=
  match canonicalJsonStringify E.num (.array [.string reference.id, .string reference.version,
    .string reference.verifierRegistrationDigest, .string reference.rubricVersion,
    .string reference.rubricDigest]) with
  | .ok s => .ok s
  | .error e => .error (.canonical e)

variable (m : EvidenceMaterial Num)

/-- What each event is checked for. -/
def checkEvent (event : RunEvent Num) : Except EvidenceError Unit := do
  require (event.tenantId = m.tenantId ∧ event.runId = m.runId ∧
    event.executionDefinitionDigest = m.executionDefinitionDigest)
  let digest ← digestCanonicalJson E event.executionDefinition
  require (digest = m.executionDefinitionDigest)
  match event.payload with
  | .RunAccepted workOrderBindingDigest _ =>
      require (workOrderBindingDigest = m.workOrderBindingDigest)
  | _ => return ()

/-- The event is the production of the artifact. -/
def producesArtifact (artifact : Artifact Num) (event : RunEvent Num) : Bool :=
  event.eventId = text (prop artifact.provenance "producingEventId") &&
    match event.payload with
    | .ArtifactProduced stepId artifactId artifactDigest =>
        stepId = artifact.producingStepId && artifactId = artifact.artifactId &&
          artifactDigest = artifact.artifactDigest
    | _ => false

/-- What each artifact is checked for. -/
def checkArtifact (events : List (RunEvent Num)) (artifact : Artifact Num) :
    Except EvidenceError Unit := do
  require (artifact.tenantId = m.tenantId ∧ artifact.producingRunId = m.runId)
  let digest ← digestCanonicalJson E artifact.material.1
  require (artifact.artifactDigest = digest)
  let definition ← digestCanonicalJson E (prop artifact.provenance "executionDefinition")
  require (definition = m.executionDefinitionDigest)
  require (text (prop artifact.provenance "executionDefinitionDigest") =
      m.executionDefinitionDigest ∧
    text (prop artifact.provenance "workOrderBindingDigest") = m.workOrderBindingDigest ∧
    events.any (producesArtifact artifact))

/-- The event is the recording of the approval. -/
def recordsApproval (approval : Approval Num) (event : RunEvent Num) : Bool :=
  match event.payload with
  | .ApprovalRecorded stepId decisionId approvalId =>
      stepId = text (prop approval.binding "stepId") && approvalId = approval.id &&
        decisionId = text (prop approval.binding "decisionId")
  | _ => false

/-- What each approval is checked for. -/
def checkApproval (events : List (RunEvent Num)) (approval : Approval Num) :
    Except EvidenceError Unit := do
  require (text (prop (prop approval.binding "tenant") "id") = m.tenantId ∧
    text (prop approval.binding "runId") = m.runId ∧
    text (prop (prop approval.binding "purpose") "code") = m.purposeCode ∧
    text (prop (prop approval.binding "purpose") "registryVersion") = m.purposeRegistryVersion ∧
    ¬ dateAfter E approval.createdAt m.createdAt ∧
    ¬ dateNotAfter E approval.expiresAt m.createdAt)
  let definition ← digestCanonicalJson E (prop approval.binding "executionDefinition")
  require (definition = m.executionDefinitionDigest)
  require (text (prop approval.binding "executionDefinitionDigest") =
      m.executionDefinitionDigest ∧
    text (prop approval.binding "workOrderBindingDigest") = m.workOrderBindingDigest ∧
    events.any (recordsApproval approval))

/-- The event is the recording of the verification. -/
def recordsVerification (artifact : Artifact Num) (verification : VerificationResult Num)
    (event : RunEvent Num) : Bool :=
  match event.payload with
  | .VerificationRecorded stepId verificationId verifierId status verificationDigest =>
      stepId = artifact.producingStepId && verificationId = verification.verificationId &&
        verifierId = verification.verifierId && status = verification.status &&
        verificationDigest = verification.verificationDigest
  | _ => false

/-- What each verification is checked for, and the key it uses. -/
def checkVerification (artifacts : List (Artifact Num)) (events : List (RunEvent Num))
    (verifierKeys : List JsString) (verification : VerificationResult Num) :
    Except EvidenceError JsString := do
  let verifiedArtifact := artifacts.find? fun a => a.artifactDigest = verification.artifactDigest
  let key ← verifierKey E verification.reference
  match verifiedArtifact with
  | none => .error .KAF_EVIDENCE_INVALID_REFERENCE
  | some artifact => do
      let digest ← digestCanonicalJson E verification.material
      require (verification.verificationDigest = digest)
      require (key ∈ verifierKeys ∧ events.any (recordsVerification artifact verification))
      return key

/-- `verifyVerificationExceptionDigest`. -/
def verifyVerificationExceptionDigest (value : VerificationException Num) :
    Except EvidenceError Bool := do
  let exception ← parse E.acceptsException value
  let digest ← digestCanonicalJson E exception.material
  return exception.exceptionDigest = digest

/-- The event is the recording of the exception. -/
def recordsException (exception : VerificationException Num) (artifact : Artifact Num)
    (event : RunEvent Num) : Except EvidenceError Bool :=
  match event.payload with
  | .VerificationExceptionRecorded p =>
      if p.stepId = artifact.producingStepId ∧ p.exceptionId = exception.exceptionId ∧
        p.exceptionDigest = exception.exceptionDigest ∧ p.verifierId = exception.verifierId ∧
        p.verifierRegistrationDigest = exception.verifierRegistrationDigest ∧
        p.artifactDigest = exception.artifactDigest ∧
        p.rubricVersion = exception.rubricVersion ∧ p.rubricDigest = exception.rubricDigest ∧
        p.reviewerRole = exception.reviewerRole ∧ p.expiresAt = exception.expiresAt ∧
        p.reason = exception.reason then do
          let recorded ← digestCanonicalJson E (.array (p.compensatingControls.map .string))
          let excepted ← digestCanonicalJson E exception.compensatingControls
          return recorded = excepted
      else .ok false
  | _ => .ok false

/-- The key of the reference of an exception, if it has one. -/
def referenceKey (verifierReference : Option VerifierReferenceIdentity) :
    Except EvidenceError (Option JsString) :=
  match verifierReference with
  | none => .ok none
  | some reference => some <$> verifierKey E reference

/-- What each exception is checked for, and the key it uses. -/
def checkException (artifacts : List (Artifact Num)) (events : List (RunEvent Num))
    (verifications : List (VerificationResult Num))
    (verifierReferences : List VerifierReferenceIdentity) (exception : VerificationException Num) :
    Except EvidenceError JsString := do
  let exceptedArtifact := artifacts.find? fun a => a.artifactDigest = exception.artifactDigest
  let verifierReference := verifierReferences.find? exception.names
  let key ← referenceKey E verifierReference
  require (exception.tenantId = m.tenantId ∧ exception.runId = m.runId)
  match exceptedArtifact with
  | none => .error .KAF_EVIDENCE_INVALID_REFERENCE
  | some artifact => do
      let verified ← verifyVerificationExceptionDigest E exception
      require (verified = true ∧ ¬ dateAfter E exception.issuedAt m.createdAt ∧
        ¬ dateNotAfter E exception.expiresAt m.createdAt ∧
        ¬ (verifications.any fun v => v.artifactDigest = exception.artifactDigest &&
          v.verifierId = exception.verifierId &&
          v.verifierRegistrationDigest = exception.verifierRegistrationDigest) ∧
        m.supports.any (fun support => decide (exception.exceptionId <:+: support)) ∧
        m.doesNotProve.any (fun limit => decide (exception.exceptionId <:+: limit)))
      match key with
      | none => .error .KAF_EVIDENCE_INVALID_REFERENCE
      | some key => do
          let recorded ← events.anyM (recordsException E exception artifact)
          require (recorded = true)
          return key

/-- `requiredVerifierIds` of a `RunAccepted` event. -/
def RunEvent.requiredVerifierIds (event : RunEvent Num) : Option (List JsString) :=
  match event.payload with
  | .RunAccepted _ requiredVerifierIds => some requiredVerifierIds
  | _ => none

/-- `accepted.payload.requiredVerifierIds`, of the one `RunAccepted` event. -/
def acceptedVerifierIds (events : List (RunEvent Num)) : Except EvidenceError (List JsString) :=
  match events.filterMap RunEvent.requiredVerifierIds with
  | [requiredVerifierIds] => .ok requiredVerifierIds
  | _ => .error .KAF_EVIDENCE_INVALID_REFERENCE

/-- What each required verifier is checked for. -/
def checkRequired (verifications : List (VerificationResult Num))
    (verificationExceptions : List (VerificationException Num)) (requiredVerifierId : JsString) :
    Except EvidenceError Unit :=
  let failed := verifications.any fun v => v.status = ofString "fail" && v.isOf requiredVerifierId
  let passed := verifications.any fun v => v.status = ofString "pass" && v.isOf requiredVerifierId
  let excepted := verificationExceptions.any fun x => x.isOf requiredVerifierId
  if failed || (!passed && !excepted) then .error .KAF_VERIFICATION_REQUIRED else .ok ()

/-- The check of a run with a high risk. -/
def checkRisk (verifications : List (VerificationResult Num)) : Except EvidenceError Unit :=
  let highRisk := m.riskClass = ofString "high" ∨ m.riskClass = ofString "critical"
  if highRisk ∧ ¬ (verifications.any fun v => v.status = ofString "pass" &&
      (v.method = ofString "deterministic" || v.method = ofString "human")) then
    .error .KAF_VERIFICATION_REQUIRED
  else .ok ()

/-- `left.name` against `right.name`, by code units. -/
def byText (name : String) (left right : Json Num) : Bool :=
  keyLE (text (prop left name)) (text (prop right name))

def artifactRef (a : Artifact Num) : Json Num :=
  object [("artifactId", a.artifactId), ("artifactDigest", a.artifactDigest)]

def eventRef (event : JsString × Nat) : Json Num :=
  .object [(ofString "eventId", .string event.1),
    (ofString "sequence", .number (E.integer event.2))]

def approvalRef (approval : Approval Num) : Except EvidenceError (Json Num) := do
  let approvalDigest ← digestCanonicalJson E approval.binding
  return object [("approvalId", approval.id), ("approvalDigest", approvalDigest)]

def verificationRef (v : VerificationResult Num) : Json Num :=
  object [("verificationId", v.verificationId), ("verificationDigest", v.verificationDigest),
    ("status", v.status), ("artifactDigest", v.artifactDigest), ("verifierId", v.verifierId),
    ("verifierVersion", v.verifierVersion),
    ("verifierRegistrationDigest", v.verifierRegistrationDigest), ("method", v.method),
    ("rubricVersion", v.rubricVersion), ("rubricDigest", v.rubricDigest)]

def exceptionRef (x : VerificationException Num) : Json Num :=
  object [("exceptionId", x.exceptionId), ("exceptionDigest", x.exceptionDigest),
    ("verifierId", x.verifierId), ("verifierRegistrationDigest", x.verifierRegistrationDigest),
    ("artifactDigest", x.artifactDigest), ("rubricVersion", x.rubricVersion),
    ("rubricDigest", x.rubricDigest)]

/-- `recordWithoutDigest` of `buildEvidenceRecord`, from the references of the approvals. -/
def recordWithoutDigest (artifacts : List (Artifact Num)) (events : List (RunEvent Num))
    (approvalRefs : List (Json Num)) (verifications : List (VerificationResult Num))
    (verificationExceptions : List (VerificationException Num)) : EvidenceRecord Num where
  material := m
  artifactRefs := (artifacts.map artifactRef).mergeSort (byText "artifactId")
  eventRefs := ((events.map fun e => (e.eventId, e.sequence)).mergeSort
    fun left right => decide (left.2 ≤ right.2)).map (eventRef E)
  approvalRefs := approvalRefs.mergeSort (byText "approvalId")
  verificationRefs := (verifications.map verificationRef).mergeSort (byText "verificationId")
  verificationExceptionRefs :=
    (verificationExceptions.map exceptionRef).mergeSort (byText "exceptionId")
  evidenceDigest := []

/-- The record at the end of `buildEvidenceRecord`. -/
def completeRecord (artifacts : List (Artifact Num)) (events : List (RunEvent Num))
    (approvals : List (Approval Num)) (verifications : List (VerificationResult Num))
    (verificationExceptions : List (VerificationException Num)) :
    Except EvidenceError (EvidenceRecord Num) := do
  let approvalRefs ← approvals.mapM (approvalRef E)
  let record :=
    recordWithoutDigest E m artifacts events approvalRefs verifications verificationExceptions
  let evidenceDigest ← digestCanonicalJson E record.materialJson
  parse (E.acceptsRecord ·.json) { record with evidenceDigest }

/-- `ApprovalSchema.parse`. -/
def parseApproval (approval : Approval Num) : Except EvidenceError (Approval Num) :=
  match E.parseApproval approval with
  | some approval => .ok approval
  | none => .error .schema

/-- `buildEvidenceRecord`. -/
def buildEvidenceRecord (input : BuildEvidenceInput Num) :
    Except EvidenceError (EvidenceRecord Num) := do
  require (input.events.length ≠ 0)
  let artifacts ← input.artifacts.mapM (parse E.acceptsArtifact)
  let events ← input.events.mapM (parse E.acceptsEvent)
  let approvals ← input.approvals.mapM (parseApproval E)
  let verifications ← input.verifications.mapM (parse E.acceptsVerification)
  let verificationExceptions ← input.verificationExceptions.mapM (parse E.acceptsException)
  require ((artifacts.map (·.artifactId)).Nodup ∧ (approvals.map (·.id)).Nodup ∧
    (verifications.map (·.verificationId)).Nodup ∧
    (verificationExceptions.map (·.exceptionId)).Nodup)
  require ((events.map (·.eventId)).Nodup ∧ (events.map (·.sequence)).Nodup)
  events.forM (checkEvent E input.material)
  let definition ← digestCanonicalJson E input.material.executionDefinition
  require (definition = input.material.executionDefinitionDigest)
  artifacts.forM (checkArtifact E input.material events)
  approvals.forM (checkApproval E input.material events)
  let verifierKeys ← input.verifierReferences.mapM (verifierKey E)
  require verifierKeys.Nodup
  let verificationKeys ← verifications.mapM (checkVerification E artifacts events verifierKeys)
  let exceptionKeys ← verificationExceptions.mapM (checkException E input.material artifacts
    events verifications input.verifierReferences)
  -- `usedVerifierKeys` against `verifierKeys`
  require ((verificationKeys ++ exceptionKeys).dedup.length = verifierKeys.length)
  let requiredVerifierIds ← acceptedVerifierIds events
  requiredVerifierIds.forM (checkRequired verifications verificationExceptions)
  checkRisk input.material verifications
  completeRecord E input.material artifacts events approvals verifications verificationExceptions

/-- `exportEvidenceJson`. -/
def exportEvidenceJson (record : EvidenceRecord Num) : Except EvidenceError JsString := do
  let record ← parse (E.acceptsRecord ·.json) record
  match canonicalJsonStringify E.num record.json with
  | .ok s => .ok (s ++ [10])
  | .error e => .error (.canonical e)

/-- `verifyEvidenceDigest`. -/
def verifyEvidenceDigest (record : EvidenceRecord Num) : Except EvidenceError Bool := do
  let record ← parse (E.acceptsRecord ·.json) record
  let digest ← digestCanonicalJson E record.materialJson
  return record.evidenceDigest = digest

end Build

end Records

end Pactmark
