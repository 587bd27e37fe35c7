import Pactmark.Agent.Alone
import Pactmark.Protocol.EffectSteps

/-!
# Agent — the programs that leave the budgets alone

Three events count against a budget: `PlanningStarted`, `ModelCallStarted` and
`ToolCallRequested`.  A program is `Within` when it appends none of them, and writes no
checkpoint that leads to one without a check of its own.  `Within` is a class, as `Calm` is, so
that what a pass of the loop does between two budgeted events is found by instance resolution.
-/

namespace Pactmark

open Durable

/-- The event counts against a budget. -/
@[reducible] def EventPayload.budgeted : EventPayload → Bool
  | .PlanningStarted .. | .ModelCallStarted .. | .ToolCallRequested .. => true
  | _ => false

/-- The checkpoint leads to a budgeted event by what it says. -/
@[reducible] def Checkpoint.counted (k : Checkpoint) : Bool :=
  match k.phase, k.attempt, k.resumePhase with
  | .model, _, _ | .model_inflight, _, _ | .tool_request, _, _ => true
  | .scheduled_backoff, _, some .model => true
  | .turn, some _, _ => true
  | _, _, _ => false

/-- There is such a checkpoint. -/
@[reducible] def countedCheckpoint : Option Checkpoint → Bool
  | none => false
  | some k => k.counted

/-- What a program that leaves the budgets alone does to the run. -/
structure Grew (s s' : Store) : Prop where
  workOrder : s'.workOrder = s.workOrder
  events : ∃ es, s'.truth.events = s.truth.events ++ es ∧
    ∀ e ∈ es, e.payload.budgeted = false
  snapshots : ∀ x ∈ s'.truth.snapshots, x ∈ s.truth.snapshots ∨ x.checkpoint.counted = false ∧
    ∃ e ∈ s'.truth.events, e.sequence = x.sequence
  stream : Stream s.workOrder s.truth.events s.truth.projection →
    Stream s'.workOrder s'.truth.events s'.truth.projection

theorem Grew.refl (s : Store) : Grew s s :=
  ⟨rfl, ⟨[], by simp⟩, fun _ => .inl, id⟩

theorem Grew.trans {s₁ s₂ s₃ : Store} (h : Grew s₁ s₂) (h' : Grew s₂ s₃) : Grew s₁ s₃ where
  workOrder := h'.workOrder.trans h.workOrder
  events := by
    obtain ⟨es, hes, ho⟩ := h.events
    obtain ⟨es', hes', ho'⟩ := h'.events
    refine ⟨es ++ es', by rw [hes', hes, List.append_assoc], fun e he => ?_⟩
    rcases List.mem_append.mp he with he | he
    · exact ho e he
    · exact ho' e he
  snapshots x hx := by
    obtain ⟨es', hes', -⟩ := h'.events
    rcases h'.snapshots x hx with hx | hx
    · rcases h.snapshots x hx with hx | ⟨hc, e, he, hseq⟩
      · exact .inl hx
      · exact .inr ⟨hc, e, by rw [hes']; exact List.mem_append_left _ he, hseq⟩
    · exact .inr hx
  stream := h'.stream ∘ h.stream

theorem SameRun.grew {s s' : Store} (h : SameRun s s') : Grew s s' where
  workOrder := h.workOrder
  events := ⟨[], by simp [h.truth]⟩
  snapshots x hx := .inl (h.truth ▸ hx)
  stream hst := by rw [h.truth, h.workOrder]; exact hst

theorem Adds.grew {payload : EventPayload} {k : Option Checkpoint} {s s' : Store}
    (h : Adds payload k s s') (hp : payload.budgeted = false) (hk : countedCheckpoint k = false) :
    Grew s s' where
  workOrder := h.workOrder
  events := by
    rcases h.events with heq | ⟨e, he, -, heq⟩
    · exact ⟨[], by simp [heq]⟩
    · exact ⟨[e], heq, fun e' he' => by rw [List.mem_singleton.mp he', he, hp]⟩
  snapshots x hx := by
    rcases h.snapshots with heq | ⟨y, hy, ⟨e, he, -, hseq⟩, heq⟩
    · exact .inl (heq ▸ hx)
    · rw [heq] at hx
      rcases List.mem_append.mp hx with hx | hx
      · exact .inl hx
      · rw [List.mem_singleton.mp hx]
        subst hy
        exact .inr ⟨hk, e, he, hseq⟩
  stream := h.stream

/-- Whatever its collaborators answer and however the storage fails, the program leaves the
budgets alone. -/
class Within {α : Type} (p : Runtime α) : Prop where
  solo : ∀ s, p.solo (fun _ _ => True) (fun _ => True) (Grew s) (fun _ => Grew s) (fun _ => Grew s) s

section Combinators

variable {α β : Type}

theorem Within.from {p : Runtime α} (h : Within p) {s s₁ : Store} (hs : Grew s s₁) :
    p.solo (fun _ _ => True) (fun _ => True) (Grew s) (fun _ => Grew s) (fun _ => Grew s) s₁ :=
  ((h.solo s₁).weaken (fun _ _ => id) (fun _ => id) fun _ => hs.trans).mono
    (fun _ _ => hs.trans) fun _ _ => hs.trans

instance within_calm (p : Runtime α) [Calm p] : Within p :=
  ⟨fun _ => solo_calm p (fun _ => SameRun.grew) (fun _ _ => SameRun.grew) fun _ _ =>
    SameRun.grew⟩

theorem within_bind {p : Runtime α} {f : α → Runtime β} (hp : Within p)
    (hf : ∀ a, Within (f a)) : Within (p >>= f) :=
  ⟨fun s => Prog.solo_bind ((hp.solo s).mono (fun a _ h => (hf a).from h) fun _ _ => id)⟩

instance (priority := high) (p : Runtime α) (f : α → Runtime β) [hp : Within p]
    [hf : ∀ a, Within (f a)] : Within (p >>= f) :=
  within_bind hp hf

instance (priority := high) (p : Runtime α) (f : α → Runtime β) [hp : Within p]
    [hf : ∀ a, Within (f a)] : Within (p.bind f) :=
  within_bind hp hf

instance (priority := high) (p : Runtime α) (f : α → β) [hp : Within p] : Within (f <$> p) :=
  within_bind hp fun _ => inferInstanceAs (Within (Prog.pure _))

instance (priority := high) (p : Runtime α) (c : Thrown → Runtime α) [hp : Within p]
    [hc : ∀ e, Within (c e)] : Within (p.tryCatch c) :=
  ⟨fun s => Prog.solo_tryCatch ((hp.solo s).mono (fun _ _ => id) fun e _ h => (hc e).from h)⟩

instance (priority := high) (p : Runtime α) [hp : Within p] : Within p.attempt :=
  ⟨fun s => Prog.solo_attempt (hp.solo s)⟩

instance (priority := high) (c : Prop) [Decidable c] (p q : Runtime α) [hp : Within p]
    [hq : Within q] : Within (if c then p else q) := by
  split
  · exact hp
  · exact hq

instance (priority := high) within_invoke (q : Query) (decode : Answer q → Except Thrown α) :
    Within (invoke q decode) :=
  ⟨fun s => solo_invoke (fun _ => Grew.refl s) fun _ => Grew.refl s⟩

end Combinators

/-! ### The kernel -/

/-- The transaction leaves the stream, its projection and the snapshots alone. -/
class IsBeside (f : Tx) : Prop where
  beside : f.Beside

instance : IsBeside .skip := ⟨Tx.Aside.beside skip_aside⟩
instance (f g : Tx) [hf : IsBeside f] [hg : IsBeside g] : IsBeside (f.andThen g) :=
  ⟨Tx.Beside.andThen hf.beside hg.beside⟩
instance (E : Encoding) (r : EffectRecord) : IsBeside (putEffectRecord E r) :=
  ⟨putEffectRecord_beside E r⟩
instance (g : DecisionGate) : IsBeside (putDecisionGate g) := ⟨putDecisionGate_beside g⟩
instance (r : ProtectedEffectResult) : IsBeside (putProtectedEffectResult r) :=
  ⟨putProtectedEffectResult_beside r⟩
instance (r : AuthorizationReservation) : IsBeside (putAuthorizationReservation r) :=
  ⟨putAuthorizationReservation_beside r⟩
instance (r : ModelCallReservation) : IsBeside (putModelCallReservation r) :=
  ⟨Tx.Aside.beside (putModelCallReservation_aside r)⟩

section Kernel

variable (K : Config) (wo : WorkOrder) (p : RunProjection) (lease : RunLease)

instance (payload : EventPayload) (given : Option String) (commit : Tx) (k : Option Checkpoint)
    [hb : IsBeside commit] [hp : IsFalse payload.budgeted] [hk : IsFalse (countedCheckpoint k)] :
    Within (append K wo p lease payload given commit k) :=
  ⟨fun s => solo_append hb.beside (fun _ _ _ _ _ hadds _ =>
    ⟨hadds.grew hp.eq hk.eq, hadds.grew hp.eq hk.eq⟩) fun _ => Grew.refl s⟩

instance (step : String) (code : KafErrorCode) (details : ErrorDetails) :
    Within (fail K wo p lease step code details) := by
  unfold fail
  infer_instance

instance {α : Type} (callback : Runtime α) [Within callback] :
    Within (withLeaseHeartbeat lease callback) := by
  unfold withLeaseHeartbeat
  infer_instance

instance (runId : String) (key : ActiveExecutionKey) {α : Type} (callback : Runtime α)
    [Within callback] (again : Bool) :
    Within (withActiveExecution K wo runId lease key callback again) := by
  unfold withActiveExecution
  split
  · refine within_bind inferInstance fun _ => within_bind inferInstance fun prior => ?_
    cases prior <;> infer_instance
  · infer_instance

/-! ### Effects -/

instance (r : EffectRecord) (step : String) (x : EffectExecution) (k : Option Checkpoint)
    [IsFalse (countedCheckpoint k)] : Within (acknowledgeEffect K wo p lease r step x k) := by
  unfold acknowledgeEffect
  infer_instance

instance (r : EffectRecord) (step code : String) (t : Instant) :
    Within (recordUncertain K wo p lease r step code t) := by
  unfold recordUncertain
  infer_instance

instance (r : EffectRecord) (step : String) :
    Within (suspendForReconciliation K wo p lease r step) := by
  unfold suspendForReconciliation
  infer_instance

instance (r : EffectRecord) (step : String) :
    Within (recordNeedsReconciliation K wo p lease r step) := by
  unfold recordNeedsReconciliation
  split <;> infer_instance

instance (r : EffectRecord) (step code : String) :
    Within (parkUncertain K wo p lease r step code) := by
  unfold parkUncertain
  split <;> infer_instance

instance (r : EffectRecord) (step code : String) :
    Within (parkEffectForReconciliation K wo p lease r step code) := by
  unfold parkEffectForReconciliation
  infer_instance

instance (step : String) : Within (suspendResultUnavailable K wo p lease step) := by
  unfold suspendResultUnavailable
  infer_instance

instance (step id : String) (digest : Digest) :
    Within (recoverAcknowledged K wo p lease step id digest) := by
  unfold recoverAcknowledged
  refine within_bind inferInstance fun record => ?_
  split
  · split <;> infer_instance
  · infer_instance

instance (step id : String) (code : Option String) :
    Within (recoverDispatched K wo p lease step id code) := by
  unfold recoverDispatched
  split
  · refine within_bind inferInstance fun record => ?_
    cases record <;> infer_instance
  · infer_instance

instance (history : List RunEvent) :
    Within (recoverInterruptedEffect K wo p lease history) := by
  unfold recoverInterruptedEffect
  split <;> infer_instance

variable (i : EffectPlan) (r : EffectRecord)

instance : Within (dispatchEffect i) := by
  unfold dispatchEffect
  split <;> infer_instance

instance (attempt : Nat) : Within (attemptDispatch K i attempt) := by
  unfold attemptDispatch
  infer_instance

instance (e : Thrown) : Within (dispatchFailed K i p r e) := by
  unfold dispatchFailed
  infer_instance

instance (code : String) : Within (parkEffect K i r code) := by
  unfold parkEffect
  infer_instance

instance (digest : Digest) : Within (resumeAcknowledged K i r digest) := by
  unfold resumeAcknowledged
  refine within_bind inferInstance fun recovered => ?_
  split <;> infer_instance

instance (operationKey : String) : Within (lookupEffect K i operationKey) := by
  unfold lookupEffect
  infer_instance

section Checkpointed

variable [IsFalse (countedCheckpoint i.checkpoint)]

instance (attempt : Nat) : Within (callDispatch K i p r attempt) := by
  unfold callDispatch
  refine within_bind inferInstance fun outcome => ?_
  cases outcome <;> infer_instance

instance : Within (dispatchPrepared K i p r) := by
  unfold dispatchPrepared
  infer_instance

instance (operationKey : String) (x : EffectExecution) :
    Within (recoverApplied K i r operationKey x) := by
  unfold recoverApplied
  infer_instance

instance : Within (dispatchAgain K i r) := by
  unfold dispatchAgain
  infer_instance

instance : Within (resumeDispatched K i r) := by
  unfold resumeDispatched
  split
  · infer_instance
  · infer_instance
  · infer_instance
  · refine within_bind inferInstance fun lookup => ?_
    cases lookup <;> infer_instance

instance (authorization consumed : AuthorizationReservation) (t : Instant) :
    IsBeside (prepareCommit K authorization consumed r t) :=
  ⟨prepareCommit_beside authorization consumed r t⟩

instance : Within (prepareEffect K i) := by
  unfold prepareEffect
  infer_instance

instance : Within (resumeEffect K i r) := by
  unfold resumeEffect
  split <;> infer_instance

end Checkpointed

instance (i : EffectInput) [h : IsFalse (countedCheckpoint i.checkpoint)] :
    Within (executeWriteEffect K i) := by
  unfold executeWriteEffect
  refine within_bind inferInstance fun _ => within_bind inferInstance fun strategy => ?_
  split
  · infer_instance
  · rename_i strategy' _
    have plan : ∀ id key, IsFalse (countedCheckpoint (i.plan K strategy' id key).checkpoint) :=
      fun _ _ => h
    refine within_bind inferInstance fun record => ?_
    refine within_bind inferInstance fun _ => within_bind inferInstance fun id => ?_
    refine within_bind inferInstance fun _ => within_bind inferInstance fun _ => ?_
    refine within_bind inferInstance fun key => within_bind inferInstance fun _ => ?_
    have := plan id key
    cases record <;> infer_instance

/-! ### Finalization -/

instance (step : String) (output : JsonValue) (a : Artifact) (started : Bool)
    (vs : List VerificationResult) :
    IsFalse (countedCheckpoint (some (verificationCheckpoint step output a started vs))) := ⟨rfl⟩

instance (step : String) (output : JsonValue) (k : Option Checkpoint) :
    Within (finalizeArtifact K wo p lease step output k) := by
  unfold finalizeArtifact
  split <;> infer_instance

instance (step : String) (output : JsonValue) (a : Artifact) (k : Option Checkpoint) :
    Within (startVerification K wo p lease step output a k) := by
  unfold startVerification
  infer_instance

instance (step : String) (output : JsonValue) (a : Artifact) (ids : List String)
    (vs : List VerificationResult) : Within (verifyAll K wo lease step output a ids p vs) := by
  induction ids generalizing p vs with
  | nil => exact inferInstanceAs (Within (Prog.pure _))
  | cons id rest ih =>
      rw [verifyAll]
      split
      · exact ih p vs
      · refine within_bind inferInstance fun registered => ?_
        split
        · refine within_bind inferInstance fun v => within_bind inferInstance fun next => ?_
          split
          · exact ih next _
          · infer_instance
        · infer_instance

instance (step : String) (output : JsonValue) (k : Option Checkpoint) :
    Within (finalize K wo p lease step output k) := by
  unfold finalize
  refine within_bind inferInstance fun _ => within_bind inferInstance fun _ => ?_
  refine within_bind inferInstance fun _ => within_bind inferInstance fun verified => ?_
  cases verified <;> infer_instance

/-! ### The end of an execution -/

instance (e : Thrown) :
    Within (terminalizeExecutionFailure K wo lease e) := by
  unfold terminalizeExecutionFailure
  split
  · infer_instance
  · refine within_bind inferInstance fun latest => ?_
    split <;> infer_instance

instance (actor : String) : Within (cancelExecution K wo lease actor) := by
  unfold cancelExecution
  infer_instance

instance (actor : String) (e : Thrown) : Within (executionFailed K wo lease actor e) := by
  unfold executionFailed
  infer_instance

instance (history : List RunEvent) : Within (parkWithoutCheckpoint K wo p lease history) := by
  unfold parkWithoutCheckpoint
  infer_instance

end Kernel

/-! ### What the loop goes on with -/

/-- The loop goes on with its counters, and with a checkpoint that leads to no budgeted event by
what it says. -/
structure Continued (l l' : LoopState) : Prop where
  turns : l'.turns = l.turns
  modelCalls : l'.modelCalls = l.modelCalls
  toolCalls : l'.toolCalls = l.toolCalls
  byRegistration : l'.toolCallsByRegistration = l.toolCallsByRegistration
  uncounted : countedCheckpoint l'.checkpoint = false

theorem Continued.of_projection {l l' : LoopState} {q : RunProjection}
    (h : Continued { l with projection := q } l') : Continued l l' :=
  ⟨h.turns, h.modelCalls, h.toolCalls, h.byRegistration, h.uncounted⟩

/-- Where the program goes on with the loop, it goes on with its counters. -/
class Hands (l : LoopState) (p : Runtime TurnOutcome) : Prop where
  returns : p.Returns fun out => ∀ l', out = .next l' → Continued l l'

section Hands

variable {α : Type} {l : LoopState}

theorem hands_bind {p : Runtime α} {f : α → Runtime TurnOutcome} (hf : ∀ a, Hands l (f a)) :
    Hands l (p >>= f) :=
  ⟨(Prog.returns_true p).bind fun a _ => (hf a).returns⟩

instance (p : Runtime α) (f : α → Runtime TurnOutcome) [hf : ∀ a, Hands l (f a)] :
    Hands l (p >>= f) :=
  hands_bind hf

instance (status : ExecutionStatus) : Hands l (Pure.pure (.done status)) :=
  ⟨fun _ h => by cases h⟩

instance (e : Thrown) : Hands l (.throw e) := ⟨trivial⟩

instance (e : Thrown) : Hands l (throwBoundaryError e) := by
  unfold throwBoundaryError
  split <;> infer_instance

instance (c : Prop) [Decidable c] (p q : Runtime TurnOutcome) [hp : Hands l p] [hq : Hands l q] :
    Hands l (if c then p else q) := by
  split
  · exact hp
  · exact hq

end Hands

section Loop

variable (K : Config) (S : Session) (l : LoopState) (c : ToolCall)

instance (p : RunProjection) (step : String) (target : ResumeTarget) (reason : String) :
    Within (park K S p step target reason) := by
  unfold park
  infer_instance

instance (p : RunProjection) (step : String) (target : ResumeTarget) (reason : String) :
    Hands l (park K S p step target reason) := by
  unfold park
  infer_instance

instance (p : RunProjection) (step : String) (code : KafErrorCode) (details : ErrorDetails) :
    Within (failTurn K S p step code details) := by
  unfold failTurn
  infer_instance

instance (p : RunProjection) (step : String) (code : KafErrorCode) (details : ErrorDetails) :
    Hands l (failTurn K S p step code details) := by
  unfold failTurn
  infer_instance

instance (m : JsonValue) (a : Option Nat) :
    IsFalse (countedCheckpoint (some (toolCheckpoint .tool c m a))) := ⟨rfl⟩

instance (result : JsonValue) : Within (completeToolCall K S l c result) := by
  unfold completeToolCall
  infer_instance

instance (result : JsonValue) : Hands l (completeToolCall K S l c result) := by
  unfold completeToolCall
  refine hands_bind fun _ => hands_bind fun p => ⟨fun l' h => ?_⟩
  cases h
  exact ⟨rfl, rfl, rfl, rfl, rfl⟩

/-! ### Retries of a tool call -/

variable (wo : WorkOrder) (p : RunProjection) (lease : RunLease)

instance (k : Checkpoint) (a : Nat) (x : BoundaryErrorClassification) (n d : Nat) :
    IsFalse (countedCheckpoint (some (k.scheduled .tool a x n d))) := ⟨rfl⟩

instance (step key : String) (a : Nat) (x : BoundaryErrorClassification) (k : Checkpoint) :
    Within (scheduleAttempt K wo p lease step .tool key a x k) := by
  unfold scheduleAttempt
  refine within_bind inferInstance fun _ => within_bind inferInstance fun _ => ?_
  refine within_bind inferInstance fun delay => ?_
  cases delay <;> infer_instance

instance (step key : String) (a : Nat) (x : BoundaryErrorClassification) (k : Checkpoint) :
    Within (scheduleRetry K wo p lease step .tool key a x k) := by
  unfold scheduleRetry
  split
  · infer_instance
  · refine within_bind inferInstance fun maximum => ?_
    cases maximum <;> infer_instance

/-- The checkpoint of a scheduled retry is the one it was given, scheduled. -/
theorem returns_scheduleRetry (boundary : RetryBoundary) (step key : String) (a : Nat)
    (x : BoundaryErrorClassification) (k : Checkpoint) :
    (scheduleRetry K wo p lease step boundary key a x k).Returns fun out =>
      ∀ q k', out = some (q, k') → ∃ n d, k' = k.scheduled boundary a x n d := by
  have none_ : (Prog.pure none : Runtime (Option (RunProjection × Checkpoint))).Returns fun out =>
      ∀ q k', out = some (q, k') → ∃ n d, k' = k.scheduled boundary a x n d :=
    fun _ _ h => by cases h
  unfold scheduleRetry
  split
  · exact none_
  · refine (Prog.returns_true _).bind fun maximum _ => ?_
    cases maximum with
    | none => trivial
    | some maximum =>
        refine (Prog.returns_true _).bind fun _ _ => ?_
        split
        · exact none_
        · unfold scheduleAttempt
          refine (Prog.returns_true _).bind fun _ _ => (Prog.returns_true _).bind fun _ _ => ?_
          refine (Prog.returns_true _).bind fun delay _ => ?_
          cases delay with
          | none => trivial
          | some delay =>
              refine (Prog.returns_true _).bind fun _ _ => (Prog.returns_true _).bind fun _ _ => ?_
              dsimp only
              split
              · exact none_
              · refine (Prog.returns_true _).bind fun _ _ => ?_
                rintro q k' ⟨⟩
                exact ⟨_, _, rfl⟩

instance (a : Nat) (e : Thrown) : Within (readFailed K S l c a e) := by
  unfold readFailed
  split
  · infer_instance
  · refine within_bind inferInstance fun x => ?_
    split
    · infer_instance
    · refine within_bind inferInstance fun scheduled => ?_
      rcases scheduled with _ | ⟨q, k⟩ <;> infer_instance

instance (a : Nat) (e : Thrown) : Hands l (readFailed K S l c a e) := by
  unfold readFailed
  split
  · infer_instance
  · rename_i boundaryError _
    refine hands_bind fun x => ?_
    split
    · infer_instance
    · refine ⟨(returns_scheduleRetry ..).bind fun scheduled hs => ?_⟩
      rcases scheduled with _ | ⟨q, k⟩
      · have refused : Hands l (if x = .uncertain then
              park K S l.projection c.stepId .running "tool_call_outcome_uncertain"
            else .throw (normalizeBoundaryFailure .tool boundaryError x)) := inferInstance
        exact refused.returns
      · rintro l' ⟨⟩
        obtain ⟨n, d, rfl⟩ := hs q k rfl
        exact ⟨rfl, rfl, rfl, rfl, rfl⟩

/-! ### Tool calls -/

instance (target : Digest) (a : Option Approval) : Within (readTool K S l c target a) := by
  unfold readTool
  refine within_bind inferInstance fun _ => ?_
  split
  · infer_instance
  · refine within_bind inferInstance fun outcome => ?_
    cases outcome <;> infer_instance

instance (target : Digest) (a : Option Approval) : Hands l (readTool K S l c target a) := by
  unfold readTool
  refine hands_bind fun _ => ?_
  split
  · infer_instance
  · refine hands_bind fun outcome => ?_
    cases outcome <;> infer_instance

instance (target : Digest) (a : Option Approval) : Within (writeTool K S l c target a) := by
  unfold writeTool
  refine within_bind inferInstance fun outcome => ?_
  cases outcome <;> infer_instance

instance (target : Digest) (a : Option Approval) : Hands l (writeTool K S l c target a) := by
  unfold writeTool
  refine hands_bind fun outcome => ?_
  cases outcome with
  | parked q => infer_instance
  | acknowledged q result =>
      have completed : Hands { l with projection := q }
        (completeToolCall K S { l with projection := q } c result) := inferInstance
      exact ⟨completed.returns.mono fun out h l' hout => (h l' hout).of_projection⟩

instance (target : Digest) (a : Option Approval) : Within (executeToolCall K S l c target a) := by
  unfold executeToolCall
  infer_instance

instance (target : Digest) (a : Option Approval) : Hands l (executeToolCall K S l c target a) := by
  unfold executeToolCall
  infer_instance

instance (target : Digest) (owner : String) : Within (requestApproval K S l c target owner) := by
  unfold requestApproval
  infer_instance

instance (target : Digest) (owner : String) : Hands l (requestApproval K S l c target owner) := by
  unfold requestApproval
  infer_instance

instance (target : Digest) : Within (seekApproval K S l c target) := by
  unfold seekApproval
  split
  · infer_instance
  · split <;> infer_instance

instance (target : Digest) : Hands l (seekApproval K S l c target) := by
  unfold seekApproval
  split
  · infer_instance
  · split <;> infer_instance

instance : Within (decideToolCall K S l c) := by
  unfold decideToolCall
  refine within_bind inferInstance fun decision => ?_
  cases decision with
  | deny | allow_with_grant => infer_instance
  | require_approval target =>
      refine within_bind inferInstance fun approval => ?_
      cases approval <;> infer_instance

instance : Hands l (decideToolCall K S l c) := by
  unfold decideToolCall
  refine hands_bind fun decision => ?_
  cases decision with
  | deny | allow_with_grant => infer_instance
  | require_approval target =>
      refine hands_bind fun approval => ?_
      cases approval <;> infer_instance

/-! ### The other phases -/

instance (step : String) (schema : Digest) (prompt : String) :
    Within (requestInput K S l step schema prompt) := by
  unfold requestInput
  infer_instance

instance (step : String) (schema : Digest) (prompt : String) :
    Hands l (requestInput K S l step schema prompt) := by
  unfold requestInput
  infer_instance

instance (step : String) (value : JsonValue) : Within (finalPhase K S l step value) := by
  unfold finalPhase
  infer_instance

instance (step : String) (value : JsonValue) : Hands l (finalPhase K S l step value) := by
  unfold finalPhase
  infer_instance

instance (k : Checkpoint) : Within (resumeFinal K S l k) := by
  unfold resumeFinal
  split <;> infer_instance

instance (k : Checkpoint) : Hands l (resumeFinal K S l k) := by
  unfold resumeFinal
  split <;> infer_instance

end Loop

end Pactmark
