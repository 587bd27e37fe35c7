import Pactmark.Protocol.Knowledge

/-!
# Protocol — the calm programs

A program of the kernel is calm when it puts no `dispatch` and its transactions leave the truth
of the run alone.  Most of what `execute` does between two commits is calm.  `Calm` is a class,
so that the calm parts of a larger program are found by instance resolution; the instances
follow the definitions of the kernel.
-/

namespace Pactmark

open Durable

/-- The boolean is `false`. -/
class IsFalse (b : Bool) : Prop where
  eq : b = false

instance : IsFalse false := ⟨rfl⟩

/-- The program dispatches nothing and leaves the truth of the run alone. -/
class Calm {α : Type} (p : Runtime α) : Prop where
  confined : p.Confined (fun q => q.isDispatch = false) (fun f => Tx.Aside f)

section Combinators

variable {α β : Type}

instance (a : α) : Calm (.pure a) := ⟨trivial⟩
instance (a : α) : Calm (Pure.pure a) := ⟨trivial⟩
instance (e : Thrown) : Calm (.throw e : Runtime α) := ⟨trivial⟩

instance (p : Runtime α) (f : α → Runtime β) [hp : Calm p] [hf : ∀ a, Calm (f a)] :
    Calm (p.bind f) :=
  ⟨hp.confined.bind fun a => (hf a).confined⟩

theorem calm_bind {p : Runtime α} {f : α → Runtime β} (hp : Calm p) (hf : ∀ a, Calm (f a)) :
    Calm (p >>= f) :=
  ⟨hp.confined.bind fun a => (hf a).confined⟩

instance (p : Runtime α) (f : α → Runtime β) [hp : Calm p] [hf : ∀ a, Calm (f a)] :
    Calm (p >>= f) :=
  calm_bind hp hf

instance (p : Runtime α) (f : α → β) [hp : Calm p] : Calm (f <$> p) :=
  ⟨hp.confined.bind fun _ => trivial⟩

instance (p : Runtime α) (h : Thrown → Runtime α) [hp : Calm p] [hh : ∀ e, Calm (h e)] :
    Calm (p.tryCatch h) :=
  ⟨hp.confined.tryCatch fun e => (hh e).confined⟩

instance (p : Runtime α) [hp : Calm p] : Calm p.attempt := ⟨hp.confined.attempt⟩

instance (c : Prop) [Decidable c] (p q : Runtime α) [hp : Calm p] [hq : Calm q] :
    Calm (if c then p else q) := by
  split
  · exact hp
  · exact hq

instance calm_ofExcept (r : Except Thrown α) : Calm (.ofExcept r) := by
  cases r <;> exact ⟨trivial⟩

instance (bad : Prop) [Decidable bad] (e : Thrown) : Calm (.throwIf bad e) := by
  unfold Prog.throwIf
  infer_instance

instance (f : Store → α) : Calm (.read f) := ⟨fun _ => trivial⟩

instance (q : Query) (decode : Answer q → α) [h : IsFalse q.isDispatch] :
    Calm (consult q decode) :=
  ⟨h.eq, fun _ => trivial⟩

instance (q : Query) (decode : Answer q → Except Thrown α) [h : IsFalse q.isDispatch] :
    Calm (invoke q decode) :=
  ⟨h.eq, fun a => (calm_ofExcept (decode a)).confined⟩

theorem calm_commit {f : Tx} (h : Tx.Aside f) : Calm (.commit f) :=
  ⟨h, fun r => (calm_ofExcept r).confined⟩

end Combinators

/-! ### The kernel -/

section Kernel

variable (K : Config) {α : Type}

instance (r : ActiveExecutionReservation) (maximum : Nat) (now : Instant) :
    Calm (.commit (putActiveExecutionReservation r maximum now)) :=
  calm_commit (putActiveExecutionReservation_aside r maximum now)

instance (r : ModelCallReservation) : Calm (.commit (putModelCallReservation r)) :=
  calm_commit (putModelCallReservation_aside r)

instance (approvalId key : String) (now : Instant) :
    Calm (.commit (claimApproval approvalId key now)) :=
  calm_commit (claimApproval_aside approvalId key now)

instance (value : JsonValue) (limit : Option Nat) (category : String) :
    Calm (assertJsonByteLimit value limit category) := by
  unfold assertJsonByteLimit
  split <;> infer_instance

instance (deadline : Option Instant) : Calm (deadlineElapsed deadline) := by
  unfold deadlineElapsed
  split <;> infer_instance

instance (wo : WorkOrder) (d : BoundaryDispatch) (u : Usage) : Calm (assertBoundary wo d u) := by
  unfold assertBoundary
  infer_instance

instance (wo : WorkOrder) (runId : String) (n : Nat) (payload : EventPayload)
    (eventId : Option String) : Calm (event K wo runId n payload eventId) := by
  unfold event
  infer_instance

instance (wo : WorkOrder) (e : RunEvent) (k : Checkpoint) :
    Calm (createContextSnapshot K wo e k) := by
  unfold createContextSnapshot
  split
  · split <;> infer_instance
  · infer_instance

instance (lease : RunLease) : Calm (renew lease) := by
  unfold renew
  infer_instance

instance (wo : WorkOrder) (e : RunEvent) (k : Option Checkpoint) : Calm (snapshotOf K wo e k) := by
  unfold snapshotOf
  split <;> infer_instance

instance (wo : WorkOrder) (p : RunProjection) (sn : ContextSnapshot) (k : Checkpoint) :
    Calm (assertContextCheckpointSuffix wo p sn k) := by
  unfold assertContextCheckpointSuffix
  infer_instance

instance (wo : WorkOrder) (p : RunProjection) (sn : ContextSnapshot) :
    Calm (openContextSnapshot K wo p sn) := by
  unfold openContextSnapshot
  refine calm_bind inferInstance fun _ => calm_bind inferInstance fun _ =>
    calm_bind inferInstance fun _ => ?_
  infer_instance

instance (wo : WorkOrder) (p : RunProjection) : Calm (loadContextCheckpoint K wo p) := by
  unfold loadContextCheckpoint
  split
  · refine calm_bind inferInstance fun _ => calm_bind inferInstance fun latest => ?_
    cases latest <;> infer_instance
  · infer_instance

instance (e : Thrown) : Calm (throwBoundaryError e : Runtime α) := by
  unfold throwBoundaryError
  split <;> infer_instance

instance (lease : RunLease) (outcome : Except Thrown α) : Calm (endHeartbeat lease outcome) := by
  unfold endHeartbeat
  refine calm_bind inferInstance fun failure => ?_
  cases failure with
  | some e => infer_instance
  | none => cases outcome <;> infer_instance

instance (lease : RunLease) (operation : Runtime α) [Calm operation] :
    Calm (withLeaseHeartbeat lease operation) := by
  unfold withLeaseHeartbeat
  infer_instance

instance (operation : Runtime α) [Calm operation] :
    Calm (captureBoundaryInvocation operation) := by
  unfold captureBoundaryInvocation
  infer_instance

instance (wo : WorkOrder) (lease : RunLease) (r : ActiveExecutionReservation) :
    Calm (transitionActiveExecution wo lease r) := by
  unfold transitionActiveExecution
  infer_instance

instance (wo : WorkOrder) (lease : RunLease) (r : ActiveExecutionReservation) :
    Calm (settleActiveExecution wo lease r) := by
  unfold settleActiveExecution
  infer_instance

instance (wo : WorkOrder) (lease : RunLease) (r : ActiveExecutionReservation) :
    Calm (closeUncertain wo lease r) := by
  unfold closeUncertain
  infer_instance

instance (wo : WorkOrder) (runId : String) (lease : RunLease) (key : ActiveExecutionKey) :
    Calm (reserveActiveExecution K wo runId lease key) := by
  unfold reserveActiveExecution
  refine calm_bind inferInstance fun _ => calm_bind inferInstance fun configured => ?_
  split <;> infer_instance

instance (wo : WorkOrder) (runId : String) (lease : RunLease) (key : ActiveExecutionKey)
    (callback : Runtime α) (again : Bool) [Calm callback] :
    Calm (withActiveExecution K wo runId lease key callback again) := by
  unfold withActiveExecution
  split
  · refine calm_bind inferInstance fun _ => calm_bind inferInstance fun prior => ?_
    cases prior <;> infer_instance
  · infer_instance

instance (e : Thrown) : Calm (classifyModelBoundaryError e) := by
  unfold classifyModelBoundaryError
  split <;> infer_instance

instance (e : Thrown) (r : ToolRegistration) : Calm (classifyToolBoundaryError e r) := by
  unfold classifyToolBoundaryError
  split <;> infer_instance

end Kernel

/-! ### Effects -/

section Effects

variable (K : Config)

instance (wo : WorkOrder) (r : EffectRecord) (x : EffectExecution) (t : Instant) :
    Calm (protectEffectResult K wo r x t) := by
  unfold protectEffectResult
  infer_instance

instance (r : EffectRecord) : Calm (getAcknowledgedResult K r) := by
  unfold getAcknowledgedResult
  refine calm_bind inferInstance fun _ => calm_bind inferInstance fun stored => ?_
  cases stored <;> infer_instance

instance (x : EffectExecution) (r : ToolRegistration) (key : String) (op : Option String)
    (target : Digest) : Calm (validateEffectExecution K x r key op target) := by
  unfold validateEffectExecution
  infer_instance

instance (s : EffectStrategy) (r : ToolRegistration) (v : JsonValue) (c : EffectDispatchContext)
    (target : Digest) : Calm (validateEffectPreview s r v c target) := by
  unfold validateEffectPreview
  infer_instance

instance (i : EffectPlan) : Calm (authorizeEffect i) := by
  unfold authorizeEffect
  infer_instance

instance (s : EffectStrategy) (i : EffectInput) (key : String) :
    Calm (effectOperationKey s i key) := by
  unfold effectOperationKey
  split <;> infer_instance

instance (r : Option EffectRecord) : Calm (effectIdFor r) := by
  unfold effectIdFor
  split <;> infer_instance

instance (wo : WorkOrder) (p : RunProjection) (policy : Digest) (r : ToolRegistration)
    (step : String) (arguments target : Digest) :
    Calm (approvedToolCall K wo p policy r step arguments target) := by
  unfold approvedToolCall
  split
  · refine calm_bind inferInstance fun events => ?_
    split
    · infer_instance
    · split
      · refine calm_bind inferInstance fun _ => calm_bind inferInstance fun gate =>
          calm_bind inferInstance fun approval => ?_
        split <;> infer_instance
      · infer_instance
  · infer_instance

instance (wo : WorkOrder) (runId : String) (lease : RunLease) (a : Approval) (step call : String)
    (arguments target : Digest) :
    Calm (claimReadApproval K wo runId lease a step call arguments target) := by
  unfold claimReadApproval
  infer_instance

end Effects

/-! ### Models -/

section Models

variable (K : Config) {α : Type}

instance (p : RunProjection) (input : JsonValue) : Calm (driveModel p input) := by
  unfold driveModel
  infer_instance

instance (i : ModelCallInput) (r : ModelResourceProfile) (m : DigestMaterial) (n : Nat) :
    Calm (inputTokenUpperBound i r m n) := by
  unfold inputTokenUpperBound
  refine calm_bind inferInstance fun estimate => ?_
  split <;> infer_instance

instance (lease : RunLease) (r : ModelCallReservation) :
    Calm (transitionModelReservation lease r) := by
  unfold transitionModelReservation
  infer_instance

instance (i : ModelCallInput) : Calm (prepareProductionCall K i) := by
  unfold prepareProductionCall
  refine calm_bind inferInstance fun security => calm_bind inferInstance fun resource =>
    calm_bind inferInstance fun registration => ?_
  split <;> infer_instance

instance (c : ProductionCall) : Calm (authorizeProductionCall c) := by
  unfold authorizeProductionCall
  refine calm_bind inferInstance fun issued => ?_
  cases issued <;> infer_instance

instance (lease : RunLease) (c : ProductionCall) : Calm (driveAdapter lease c) := by
  unfold driveAdapter
  infer_instance

instance (e : Thrown) : Calm (adapterRetryClassification e) := by
  unfold adapterRetryClassification
  infer_instance

instance (lease : RunLease) (c : ProductionCall) (e : Thrown) :
    Calm (adapterFailed lease c e : Runtime α) := by
  unfold adapterFailed
  infer_instance

end Models

/-! ### Execute -/

section Execute

variable (K : Config)

instance (S : Session) (l : LoopState) : Calm (boundaryUsage S l) := by
  unfold boundaryUsage
  infer_instance

instance (S : Session) (l : LoopState) (d : BoundaryDispatch) :
    Calm (assertLoopBoundary S l d) := by
  unfold assertLoopBoundary
  infer_instance

instance (wo : WorkOrder) (runId : String) (lease : RunLease) (step verifier : String)
    (a : Artifact) : Calm (runVerifier K wo runId lease step verifier a) := by
  unfold runVerifier
  infer_instance

instance (wo : WorkOrder) (p : RunProjection) (lease : RunLease) (step : String) (a : Artifact)
    (vs : List VerificationResult) : Calm (runEvidence K wo p lease step a vs) := by
  unfold runEvidence
  infer_instance

instance (wo : WorkOrder) (p : RunProjection) (history : List RunEvent) (step q : String)
    (schema : Digest) : Calm (openSubmittedInput K wo p history step q schema) := by
  unfold openSubmittedInput
  split
  · refine calm_bind inferInstance fun _ => calm_bind inferInstance fun _ =>
      calm_bind inferInstance fun record => ?_
    cases record <;> infer_instance
  · infer_instance

instance (S : Session) (p : RunProjection) (k : Checkpoint) :
    Calm (loadSubmittedInput K S p k) := by
  unfold loadSubmittedInput
  split
  · split <;> infer_instance
  · infer_instance

instance (S : Session) (l : LoopState) : Calm (inputPhase K S l) := by
  unfold inputPhase
  split
  · split <;> infer_instance
  · infer_instance

instance (S : Session) (l : LoopState) (step : String) (b : RetryBoundary) (n : Nat)
    (t : Instant) : Calm (awaitBackoff K S l step b n t) := by
  unfold awaitBackoff
  infer_instance

instance (r : ToolRegistration) (d : Digest) (n : Nat) : Calm (evaluateHostToolCall r d n) := by
  unfold evaluateHostToolCall
  refine calm_bind inferInstance fun answer => ?_
  cases answer <;> infer_instance

instance (S : Session) (l : LoopState) (c : ToolCall) (target : Digest) (a : Option Approval) :
    Calm (claimApprovedRead K S l c target a) := by
  cases a <;> simp only [claimApprovedRead] <;> infer_instance

instance (lease : RunLease) : Calm (release lease) := by
  unfold release
  infer_instance

instance (operation runId : String) : Calm (verifyAuthority operation runId) := by
  unfold verifyAuthority
  refine calm_bind inferInstance fun verification => ?_
  cases verification <;> infer_instance

instance (claims : Claims) (p : RunProjection) : Calm (assertAuthorityWorkOrderScope claims p) := by
  unfold assertAuthorityWorkOrderScope
  infer_instance

instance (runId : String) : Calm (getRun runId) := by
  unfold getRun
  infer_instance

instance (step : Option String) : Calm (currentStepOr step) := by
  unfold currentStepOr
  split <;> infer_instance

instance (claims : Claims) (wo : WorkOrder) (d : AgentDefinition) (lease : RunLease)
    (p : RunProjection) (history : List RunEvent) (k : Option Checkpoint) :
    Calm (firstTurn claims wo d lease p history k) := by
  unfold firstTurn
  infer_instance

instance (wo : WorkOrder) (p : RunProjection) : Calm (startingCheckpoint K wo p) := by
  unfold startingCheckpoint
  infer_instance

instance : Calm acquire := by
  unfold acquire
  refine calm_bind inferInstance fun lease => ?_
  cases lease <;> infer_instance

instance (wo : WorkOrder) : Calm (compensationKilled wo) := by
  unfold compensationKilled
  split <;> infer_instance

instance (d : CompensationRunDefinition) : Calm (compensationTool d) := by
  unfold compensationTool
  refine calm_bind inferInstance fun registration => ?_
  split <;> infer_instance

instance (wo : WorkOrder) : Calm (compensationDefinition K wo) := by
  unfold compensationDefinition
  refine calm_bind inferInstance fun _ => calm_bind inferInstance fun definition =>
    calm_bind inferInstance fun killed => calm_bind inferInstance fun _ => ?_
  split <;> infer_instance

end Execute

end Pactmark
