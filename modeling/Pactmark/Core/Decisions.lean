import Pactmark.Core.Capability

/-!
# Core — human decisions

`core/src/decision.ts`, for the store of decisions and the policy: a gate asks for a decision, a
challenge is what a person answers, an approval is the answer, and it is claimed once.
-/

namespace Pactmark

/-- `ProposedEffectBindingSchema`. -/
structure ProposedEffectBinding where
  tenantId : String
  principal : Principal
  runId : String
  stepId : String
  decisionId : String
  workOrderBindingDigest : Digest
  executionDefinition : ExecutionDefinition
  executionDefinitionDigest : Digest
  toolId : String
  toolVersion : String
  toolRegistrationDigest : Digest
  argumentsDigest : Digest
  targetDigest : Digest
  contentDigest : Option Digest
  previewDigest : Digest
  purpose : Purpose
  policyRegistrationDigest : Digest
  deriving DecidableEq, Repr

/-- `canonicalJsonStringify([tenantId, runId, id])`. -/
abbrev DecisionKey := String × String × String

/-- `gateKey` of what a binding is about. -/
def ProposedEffectBinding.gateKey (b : ProposedEffectBinding) : DecisionKey :=
  (b.tenantId, b.runId, b.decisionId)

namespace Decision

/-- `DecisionGateSchema`. -/
structure Gate where
  decisionId : String
  tenantId : String
  runId : String
  requestingEventId : String
  binding : ProposedEffectBinding
  decisionGateDigest : Digest
  requiredAuthenticationStrength : AuthenticationStrength
  createdAt : IsoInstant
  deriving DecidableEq, Repr

/-- `gateKey` of a gate. -/
def Gate.gateKey (g : Gate) : DecisionKey :=
  (g.tenantId, g.runId, g.decisionId)

/-- `DecisionSubmissionChallengeSchema`. -/
structure SubmissionChallenge where
  id : String
  issuerId : String
  proofDigest : Digest
  binding : ProposedEffectBinding
  requiredAuthenticationStrength : AuthenticationStrength
  issuedAt : IsoInstant
  expiresAt : IsoInstant
  consumingCommandId : Option String
  consumedAt : Option IsoInstant
  deriving DecidableEq, Repr

/-- `challengeKey` of a challenge. -/
def SubmissionChallenge.challengeKey (x : SubmissionChallenge) : DecisionKey :=
  (x.binding.tenantId, x.binding.runId, x.id)

/-- A challenge that a command has consumed. -/
def SubmissionChallenge.consumed (x : SubmissionChallenge) (commandId : String)
    (consumedAt : IsoInstant) : SubmissionChallenge :=
  { x with consumingCommandId := some commandId, consumedAt := some consumedAt }

/-- `ApprovalSchema`. -/
structure Approval where
  id : String
  id_parsed : boundedText 256 id = some id
  issuerId : String
  challengeId : String
  challengeProofDigest : Digest
  binding : ProposedEffectBinding
  approvedBy : Principal
  authenticationStrength : AuthenticationStrength
  createdAt : IsoInstant
  expiresAt : IsoInstant
  deriving DecidableEq

/-- The key of an approval. -/
def Approval.approvalKey (a : Approval) : String × String :=
  (a.binding.tenantId, a.id)

/-- `ApprovalUseClaimSchema`. -/
structure ApprovalUseClaim where
  approvalId : String
  authorizationKey : String
  claimedAt : IsoInstant
  deriving DecidableEq, Repr

/-- `DecisionRejectionSchema`. -/
structure Rejection where
  decisionId : String
  tenantId : String
  runId : String
  challengeId : String
  binding : ProposedEffectBinding
  rejectedBy : Principal
  authenticationStrength : AuthenticationStrength
  reasonCode : String
  rejectedAt : IsoInstant
  deriving DecidableEq, Repr

/-- `gateKey` of a rejection. -/
def Rejection.gateKey (r : Rejection) : DecisionKey :=
  (r.tenantId, r.runId, r.decisionId)

end Decision

end Pactmark
