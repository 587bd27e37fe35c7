import Pactmark.Durable.Solo
import Pactmark.Runtime.Commands

/-!
# Runtime — serving a run

How a run is served when one program has it at a time: `execute` is called, its loop makes turn
after turn, any of this may be cut short by a crash, and commands come in between.  A `Service`
is the store of the run with the execution that is in its loop, if there is one.

`Serves` is one such step.  `allow` is what the collaborators may answer, `fault` how the
storage may fail, and `starts` which stores an `execute` is called on.

The second part is a host for concrete runs: a work order of an agent, its accepted store, and
collaborators that always give the same answers.
-/

namespace Pactmark

open Durable

/-- The store of a run, and the loop of the `execute` that is serving it. -/
structure Service where
  store : Store
  running : Option (Session × LoopState)

/-- The commands on a run other than `resume`. -/
inductive Commanded (K : Config) (runId : String) : Runtime Unit → Prop where
  | submitInput (requestId : String) (value : JsonValue) (command : CommandContext) :
      Commanded K runId (submitInput K runId requestId value command)
  | issueDecisionChallenge (decisionId : String) (command : CommandContext) :
      Commanded K runId (issueDecisionChallenge K runId decisionId command)
  | approve (decisionId : String) (proofDigest : Digest) (command : CommandContext) :
      Commanded K runId (approve K runId decisionId proofDigest command)
  | reject (decisionId : String) (proofDigest : Digest) (reasonCode : String)
      (command : CommandContext) :
      Commanded K runId (reject K runId decisionId proofDigest reasonCode command)
  | reconcileEffect (effectId : String) (resolution : Resolution) (command : CommandContext) :
      Commanded K runId (reconcileEffect K runId effectId resolution command)
  | cancel (reasonCode : String) (command : CommandContext) :
      Commanded K runId (cancel K runId reasonCode command)

/-- The programs that lead to the loop: `execute`, and `resume` through it. -/
inductive Entering (K : Config) (runId : String) : Runtime Started → Prop where
  | execute : Entering K runId (execute K runId)
  | resume (command : CommandContext) : Entering K runId (resume K runId command)

section Serves

variable (K : Config) (runId : String) (allow : (q : Query) → Answer q → Prop)
  (fault : Thrown → Prop) (starts : Store → Prop)

/-- One step of serving a run. -/
inductive Serves : Service → Service → Prop where
  | enter {p : Runtime Started} {s s' : Store} {S : Session} {l : LoopState}
      (hp : Entering K runId p) (hs : starts s)
      (h : p.Ran allow fault s s' (some (.ok (.entered S l)))) :
      Serves ⟨s, none⟩ ⟨s', some (S, l)⟩
  | miss {p : Runtime Started} {s s' : Store} {r : Option (Except Thrown Started)}
      (hp : Entering K runId p) (hs : starts s) (h : p.Ran allow fault s s' r) :
      Serves ⟨s, none⟩ ⟨s', none⟩
  | turn {s s' : Store} {S : Session} {l l' : LoopState}
      (h : (executeTurn K S l).Ran allow fault s s' (some (.ok (.next l')))) :
      Serves ⟨s, some (S, l)⟩ ⟨s', some (S, l')⟩
  | leave {s s' : Store} {S : Session} {l : LoopState} {r : Option (Except Thrown TurnOutcome)}
      (h : (executeTurn K S l).Ran allow fault s s' r) :
      Serves ⟨s, some (S, l)⟩ ⟨s', none⟩
  | command {p : Runtime Unit} {s s' : Store} {r : Option (Except Thrown Unit)}
      (hp : Commanded K runId p) (h : p.Ran allow fault s s' r) :
      Serves ⟨s, none⟩ ⟨s', none⟩

/-- Reached from a store nothing is serving. -/
def Served (s₀ : Store) (v : Service) : Prop :=
  Relation.ReflTransGen (Serves K runId allow fault starts) ⟨s₀, none⟩ v

end Serves

/-! ### A host -/

/-- Collaborators that always answer the same. -/
structure Host where
  aborted : Bool := false
  now : Instant := 0
  renewed : Except Thrown Unit := .ok ()
  heartbeat : Option Thrown := none
  model : RunProjection → Except Thrown ModelAnswer := fun _ => .ok (.emission (.final .null))
  classified : Option BoundaryErrorClassification := none
  tool : Option ToolRegistration := none
  toolResult : Except Thrown JsonValue := .ok .null
  policy : PolicyDecision := .deny
  maximumAttempts : Nat := 1
  credential : Except Thrown Bool := .ok true
  adapter : Except Thrown AdapterAnswer := .ok ⟨.emission (.final .null), 1⟩
  compensation : Option CompensationRunDefinition := none

namespace Host

def claims : Claims where
  tenantId := "tenant"
  actorId := "worker"
  systemWorker := true
  runScope := none
  decisionRoles := []
  authenticationStrength := .multi_factor
  authenticatedAt := 0

def definition : AgentDefinition where
  agentDefinitionDigest := "agent"
  toolRegistrationDigests := ["tool"]
  policyRegistrationDigest := "policy"
  modelAdapterRegistrationDigest := "adapter"
  modelSecurityProfileDigest := "security"
  modelResourceProfileDigest := "resource"

def lease : RunLease := ⟨"lease", 1⟩

def security : ModelSecurityProfile where
  modelSecurityProfileDigest := "security"
  credentialSlot := "slot"
  endpointOrigin := "origin"
  allowedTenants := ["tenant"]
  allowedPurposes := ["purpose"]
  allowedDataClasses := [.internal]

def resource : ModelResourceProfile where
  modelResourceProfileDigest := "resource"
  maxInputBytesPerCall := 100
  maxInputTokensPerCall := 100
  maxOutputTokensPerCall := 100
  maxStreamedOutputBytesPerCall := 100
  priceCurrency := none
  priceTableExpiresAt := none

def registration : ModelAdapterRegistration where
  modelAdapterRegistrationDigest := "adapter"
  modelSecurityProfileDigest := "security"
  modelResourceProfileDigest := "resource"
  credentialSlot := "slot"
  endpointOrigin := "origin"

/-- A protector's answer is the digest of what it binds. -/
def digest : DigestMaterial → Digest
  | .event _ _ sequence _ => "sha256:" ++ toString sequence
  | _ => "digest"

/-- The host's answers. -/
def answers (h : Host) : (q : Query) → Answer q
  | .now | .activeExecutionStoreNow | .contextStoreNow | .inputStoreNow => h.now
  | .monotonicMilliseconds => (0 : Nat)
  | .generateId kind => kind
  | .aborted => h.aborted
  | .isKilled .. | .hasVerifier _ | .uncertainLocalModelCall _ => false
  | .verifyAuthority => .ok claims
  | .renewLease _ => h.renewed
  | .sleep _ | .releaseLease _ => .ok ()
  | .unprotect _ | .putArtifact _ | .validateModelCallContext .. => .ok ()
  | .admitCommand .. => .ok ()
  | .acquireLease => .ok (some lease)
  | .heartbeat _ => h.heartbeat
  | .resolveAgent _ => .ok (some definition)
  | .resolveCompensation _ => .ok h.compensation
  | .resolveTool _ => h.tool
  | .resolveStrategy _ => none
  | .resolveToolCall _ input => .ok input
  | .executeTool .. => h.toolResult
  | .validateOutput _ result => .ok result
  | .evaluatePolicy .. => .ok (some h.policy)
  | .previewDecision .. => .ok ⟨none, "preview"⟩
  | .classifyToolError .. | .classifyModelError _ | .classifyAdapterError _ => h.classified
  | .previewEffect .. => .error .abort
  | .operationKey .. => .ok "operation"
  | .authorize _ => .error .abort
  | .lookup .. => .ok none
  | .dispatch .. => .error .abort
  | .protect aad => .ok (digest aad)
  | .invokeModel run _ => h.model run
  | .resolveSecurity _ => some security
  | .resolveResource _ => some resource
  | .resolveAdapter _ => some registration
  | .estimateInputTokens .. => .ok (some 1)
  | .issueCredential _ => h.credential
  | .invokeAdapter .. => h.adapter
  | .modelSettlement .. => ⟨0, 0, h.now⟩
  | .verify .. => .ok none
  | .buildEvidence .. => .ok none
  | .maximumAttempts _ => some h.maximumAttempts
  | .backoffMilliseconds .. => some 0
  | .maximumChargeMilliseconds _ => some 1
  | .retryJitter => true
  | .validateInput schema value => .ok (schema, value)
  | .issueChallenge .. => .error .abort
  | .verifyChallenge .. => .error .abort
  | .createApproval _ => .error .abort

/-- The host gives no other answers. -/
def Answers (h : Host) (q : Query) (a : Answer q) : Prop := a = h.answers q

theorem answers_self (h : Host) (q : Query) : h.Answers q (h.answers q) := rfl

/-- A runtime without the optional services but context checkpoints and retries. -/
def config : Config where
  encoding := ⟨digest, fun _ => 1⟩
  effectServices := false
  effectResultProtector := false
  contextCheckpointEnabled := true
  activeExecutionServices := false
  activeExecutionDomainMatches := false
  productionModelServices := false
  productionModelBoundaryReady := false
  requiresProductionModelBoundary := false
  compensationServices := false
  decisionStore := false
  decisionPreviewer := false
  decisionChallengeIssuer := false
  typedInput := false
  retryPolicy := true
  backgroundWakeup := false

/-- A work order with a budget. -/
def workOrder (budget : WorkBudget) : WorkOrder where
  id := "order"
  tenantId := "tenant"
  workOrderBindingDigest := "binding"
  executionDefinition := .agent "agent" "1" "agent"
  executionDefinitionDigest := "definition"
  goal := "goal"
  input := .null
  purposeCode := "purpose"
  purposeRegistryVersion := "1"
  dataClass := .internal
  decisionOwner := .principal "owner"
  requestedCapabilities := []
  budget := budget

/-- The event that accepts the work order. -/
def accepted : RunEvent where
  eventId := "event-0"
  runId := "run"
  tenantId := "tenant"
  sequence := 1
  occurredAt := 0
  correlationId := "run"
  dataClass := .internal
  executionDefinition := .agent "agent" "1" "agent"
  executionDefinitionDigest := "definition"
  payload := .RunAccepted "order" "binding" []

/-- The store of a run that has just been accepted. -/
def store (budget : WorkBudget) : Store where
  workOrder := workOrder budget
  truth :=
    { events := [accepted]
      projection := (createRunProjection (accepted.run "order" "binding")).fold accepted
      effects := fun _ => none
      effectKeys := fun _ => none
      operationKeys := fun _ => none
      authorizations := fun _ => none
      authorizationKeys := fun _ => none
      results := fun _ => none
      resultDigests := fun _ => none
      snapshots := []
      submissions := fun _ => none
      gates := fun _ => none
      approvals := fun _ => none }
  grants := fun _ => none
  grantClaims := []
  approvalClaims := fun _ => none
  approvalAuthorizationKeys := fun _ => none
  challenges := fun _ => none
  activeChallenges := fun _ => none
  rejections := fun _ => none
  activeExecutions := []
  modelCalls := []
  commands := fun _ => none

/-- Up to `n` turns of the loop of `execute` on the host. -/
def turns (K : Config) (h : Host) : Nat → Session → LoopState → Store → Store
  | 0, _, _, s => s
  | n + 1, S, l, s =>
      match (executeTurn K S l).eval h.answers s with
      | (.ok (.next l'), s') => turns K h n S l' s'
      | (_, s') => s'

/-- `execute` on the host, with at most `n` turns of its loop. -/
def executes (K : Config) (h : Host) (n : Nat) (s : Store) : Store :=
  match (execute K "run").eval h.answers s with
  | (.ok (.entered S l), s') => turns K h n S l s'
  | (_, s') => s'

/-- The store of a run whose worker was lost during its first model call. -/
def interrupted (budget : WorkBudget) : Store :=
  ({ heartbeat := some (.host "lost" true) } : Host).executes config 1 (store budget)

end Host

section Hosted

variable {K : Config} {allow : (q : Query) → Answer q → Prop} {fault : Thrown → Prop}
  {starts : Store → Prop} {h : Host}

theorem served_turns (ha : ∀ q, allow q (h.answers q)) (n : Nat) (S : Session) (l : LoopState)
    (s : Store) :
    Relation.ReflTransGen (Serves K "run" allow fault starts) ⟨s, some (S, l)⟩
      ⟨h.turns K n S l s, none⟩ := by
  induction n generalizing l s with
  | zero => exact .single (.leave (.stopped _ s))
  | succ n ih =>
      have hran : (executeTurn K S l).Ran allow fault s _ _ := Prog.ran_eval ha _ s
      simp only [Host.turns]
      split
      next l' s' he =>
        rw [he] at hran
        exact .head (.turn hran) (ih l' s')
      next r s' he =>
        rw [he] at hran
        exact .single (.leave hran)

/-- A hosted execution is one of those the service may make. -/
theorem served_executes (ha : ∀ q, allow q (h.answers q)) (n : Nat) {s : Store}
    (hs : starts s) :
    Relation.ReflTransGen (Serves K "run" allow fault starts) ⟨s, none⟩
      ⟨h.executes K n s, none⟩ := by
  have hran : (execute K "run").Ran allow fault s _ _ := Prog.ran_eval ha _ s
  simp only [Host.executes]
  split
  next S l s' he =>
    rw [he] at hran
    exact .head (.enter .execute hs hran) (served_turns ha n S l s')
  next r s' he =>
    rw [he] at hran
    exact .single (.miss .execute hs hran)

end Hosted

end Pactmark
