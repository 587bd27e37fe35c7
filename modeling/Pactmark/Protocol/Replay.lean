import Pactmark.Core.CommandWindow
import Pactmark.Durable.Log
import Pactmark.Durable.Operations
import Pactmark.Protocol.Stream

/-!
# Protocol — the replay of a run

`rebuildRunProjection`: the projection of a run is the replay of its events by `reduceRunEvent`,
which parses the projection, the event and the next projection.  What the types are wider than
the schemas for is what the parses refuse: empty names, malformed digests, a decision that
resumes elsewhere than its schema has it.

* `parsedReduce_ok`: an event is accepted when it parses and is `Foldable`.
* `rebuildRunProjection_safe`: what every accepted sequence of events keeps, from a created
  projection on, and what every step of it does.
-/

namespace Pactmark

open Durable
open JsString (lit)

/-! ### The schemas -/

/-- `[0-9a-f]{n}$` -/
def matchLowerHex : Nat → JsString → Bool
  | 0, source => source.isEmpty
  | _ + 1, [] => false
  | n + 1, unit :: source => isLowerHex unit && matchLowerHex n source

/-- `DigestSchema`: `/^sha256:[0-9a-f]{64}$/`. -/
def digestParses (digest : Digest) : Bool :=
  match lit digest with
  | 115 :: 104 :: 97 :: 50 :: 53 :: 54 :: 58 :: source => matchLowerHex 64 source
  | _ => false

/-- The fields of a payload that are `z.string().min(1)`. -/
def EventPayload.names : EventPayload → List String
  | .RunAccepted workOrderId _ requiredVerifierIds => workOrderId :: requiredVerifierIds
  | .PlanningStarted stepId => [stepId]
  | .ModelCallStarted stepId modelCallReservationId _ => [stepId, modelCallReservationId]
  | .ModelCallCompleted stepId modelCallReservationId _ finishReason =>
      [stepId, modelCallReservationId, finishReason]
  | .ExecutionStarted stepId toolCallId => stepId :: toolCallId.toList
  | .ToolCallRequested stepId toolCallId _ _ => [stepId, toolCallId]
  | .ToolCallCompleted stepId toolCallId _ => [stepId, toolCallId]
  | .RetryScheduled stepId _ boundaryKey _ _ _ _ _ => [stepId, boundaryKey]
  | .RetryResumed stepId _ boundaryKey _ => [stepId, boundaryKey]
  | .InputRequested stepId requestId _ safePrompt => [stepId, requestId, safePrompt]
  | .InputSubmitted stepId requestId inputSubmissionRecordId _ _ =>
      [stepId, requestId, inputSubmissionRecordId]
  | .ApprovalRequested stepId decisionId _ _ => [stepId, decisionId]
  | .ApprovalRecorded stepId decisionId approvalId _ => [stepId, decisionId, approvalId]
  | .ApprovalRejected stepId decisionId _ reasonCode => [stepId, decisionId, reasonCode]
  | .EffectPrepared stepId effectId _ effectKey _ => [stepId, effectId, effectKey]
  | .EffectDispatched stepId effectId _ => [stepId, effectId]
  | .EffectAcknowledged stepId effectId _ acknowledgement =>
      [stepId, effectId, acknowledgement.acknowledgementId, acknowledgement.effectKey] ++
        acknowledgement.operationKey.toList
  | .EffectUncertain stepId effectId uncertaintyCode => [stepId, effectId, uncertaintyCode]
  | .EffectNeedsReconciliation stepId effectId => [stepId, effectId]
  | .EffectReconciliationRecorded stepId effectId _ commandId => [stepId, effectId, commandId]
  | .EffectAbandoned stepId effectId reason => [stepId, effectId, reason]
  | .CompensationRequested stepId originalRunId _ compensationRunId =>
      [stepId, originalRunId, compensationRunId]
  | .EffectCompensated stepId _ _ _ => [stepId]
  | .ArtifactProduced stepId artifactId _ => [stepId, artifactId]
  | .VerificationStarted stepId _ => [stepId]
  | .VerificationRecorded stepId verificationId verifierId _ _ =>
      [stepId, verificationId, verifierId]
  | .VerificationExceptionRecorded stepId exceptionId verifierId =>
      [stepId, exceptionId, verifierId]
  | .RunSuspended stepId _ reasonCode effectId => stepId :: reasonCode :: effectId.toList
  | .RunCompleted stepId evidenceRecordId _ => [stepId, evidenceRecordId]
  | .RunFailed stepId _ _ => stepId.toList
  | .RunCancelled stepId reasonCode actorId => reasonCode :: actorId :: stepId.toList

/-- The fields of a payload that are a `DigestSchema`. -/
def EventPayload.digests : EventPayload → List Digest
  | .RunAccepted _ workOrderBindingDigest _ => [workOrderBindingDigest]
  | .ModelCallStarted _ _ requestDigest => [requestDigest]
  | .ModelCallCompleted _ _ responseDigest _ => [responseDigest]
  | .ToolCallRequested _ _ toolRegistrationDigest argumentsDigest =>
      [toolRegistrationDigest, argumentsDigest]
  | .ToolCallCompleted _ _ resultDigest => [resultDigest]
  | .InputRequested _ _ inputSchemaDigest _ => [inputSchemaDigest]
  | .InputSubmitted _ _ _ inputSchemaDigest valueDigest => [inputSchemaDigest, valueDigest]
  | .ApprovalRequested _ _ decisionGateDigest proposedEffectDigest =>
      [decisionGateDigest, proposedEffectDigest]
  | .EffectPrepared _ _ effectDigest _ _ => [effectDigest]
  | .EffectAcknowledged _ _ resultDigest acknowledgement =>
      [resultDigest, acknowledgement.toolRegistrationDigest,
        acknowledgement.strategyRegistrationDigest, acknowledgement.normalizedTargetDigest,
        acknowledgement.resultSchemaDigest, acknowledgement.resultDigest,
        acknowledgement.proofDigest]
  | .CompensationRequested _ _ originalEffectDigest _ => [originalEffectDigest]
  | .EffectCompensated _ originalEffectDigest compensationEffectDigest acknowledgementDigest =>
      [originalEffectDigest, compensationEffectDigest, acknowledgementDigest]
  | .ArtifactProduced _ _ artifactDigest => [artifactDigest]
  | .VerificationStarted _ artifactDigest => [artifactDigest]
  | .VerificationRecorded _ _ _ _ verificationDigest => [verificationDigest]
  | .RunCompleted _ _ outputDigest => [outputDigest]
  | _ => []

/-- The fields of a payload whose enumeration or range is narrower than their type. -/
def EventPayload.inRange : EventPayload → Bool
  | .RetryScheduled _ _ _ attempt nextAttempt classification _ _ =>
      0 < attempt ∧ 0 < nextAttempt ∧ classification ∈ [.timed_out, .retryable, .uncertain]
  | .RetryResumed _ _ _ attempt => 0 < attempt
  | .EffectDispatched _ _ attempt => 0 < attempt
  | .ApprovalRecorded _ _ _ resumeTarget => resumeTarget ∈ [.planning, .running]
  | .ApprovalRejected _ _ nextStatus _ => nextStatus ∈ [.planning, .failed, .cancelled]
  | _ => true

/-- `RunEventSchema.safeParse(event).success`. -/
def RunEvent.parses (event : RunEvent) : Bool :=
  ([event.eventId, event.runId, event.tenantId, event.correlationId] ++ event.payload.names).all
      (· ≠ "") ∧
    (event.executionDefinitionDigest :: event.payload.digests).all digestParses ∧
    0 < event.sequence ∧ event.sequence ≤ 9007199254740991 ∧ event.payload.inRange

/-- The fields of a projection that are `z.string().min(1)`. -/
def RunProjection.names (projection : RunProjection) : List String :=
  [projection.runId, projection.tenantId, projection.workOrderId, projection.correlationId] ++
    projection.lastEventId.toList ++ projection.currentStepId.toList ++
    projection.waitingRequestId.toList ++ projection.waitingDecisionId.toList ++
    projection.activeEffectId.toList ++ projection.artifactIds ++ projection.verificationIds ++
    projection.requiredVerifierIds ++ projection.passedVerifierIds ++
    projection.verificationExceptionIds

/-- `RunProjectionSchema.safeParse(projection).success`. -/
def RunProjection.parses (projection : RunProjection) : Bool :=
  projection.names.all (· ≠ "") ∧
    [projection.workOrderBindingDigest, projection.executionDefinitionDigest].all digestParses ∧
    projection.lastSequence ≤ 9007199254740991

/-- `RunProjectionSchema.parse`. -/
def parseRunProjection (projection : RunProjection) : Except Thrown RunProjection :=
  if projection.parses then .ok projection else .error (.host "ZodError" true)

/-- `RunEventSchema.parse`. -/
def parseRunEvent (event : RunEvent) : Except Thrown RunEvent :=
  if event.parses then .ok event else .error (.host "ZodError" true)

/-- `reduceRunEvent` with its parses. -/
def parsedReduce (previous : RunProjection) (input : RunEvent) : Except Thrown RunProjection := do
  let projection ← parseRunProjection previous
  let event ← parseRunEvent input
  let next ← reduceRunEvent projection event
  parseRunProjection next

/-- `rebuildRunProjection`. -/
def rebuildRunProjection (initial : RunProjection) (events : List RunEvent) :
    Except Thrown RunProjection :=
  replay parsedReduce initial events

theorem parseRunProjection_ok {p q : RunProjection} :
    parseRunProjection p = .ok q ↔ p.parses = true ∧ q = p := by
  unfold parseRunProjection
  split <;> rename_i h
  · simp only [Except.ok.injEq, h, true_and, eq_comm]
  · simp [h]

theorem parseRunEvent_ok {e f : RunEvent} :
    parseRunEvent e = .ok f ↔ e.parses = true ∧ f = e := by
  unfold parseRunEvent
  split <;> rename_i h
  · simp only [Except.ok.injEq, h, true_and, eq_comm]
  · simp [h]

/-- An accepted event parses and is `Foldable`. -/
theorem parsedReduce_ok {p q : RunProjection} {e : RunEvent} :
    parsedReduce p e = .ok q ↔
      p.parses = true ∧ e.parses = true ∧ Foldable p e ∧ (p.fold e).parses = true ∧
        q = p.fold e := by
  unfold parsedReduce
  constructor
  · intro h
    obtain ⟨p', hp, h⟩ := bind_eq_ok.mp h
    obtain ⟨e', he, h⟩ := bind_eq_ok.mp h
    obtain ⟨q', hr, h⟩ := bind_eq_ok.mp h
    obtain ⟨hp, rfl⟩ := parseRunProjection_ok.mp hp
    obtain ⟨he, rfl⟩ := parseRunEvent_ok.mp he
    obtain ⟨hf, rfl⟩ := reduceRunEvent_ok.mp hr
    obtain ⟨hq, rfl⟩ := parseRunProjection_ok.mp h
    exact ⟨hp, he, hf, hq, rfl⟩
  · rintro ⟨hp, he, hf, hq, rfl⟩
    simp only [bind, Except.bind, parseRunProjection_ok.mpr ⟨hp, rfl⟩,
      parseRunEvent_ok.mpr ⟨he, rfl⟩, reduceRunEvent_ok.mpr ⟨hf, rfl⟩]
    exact parseRunProjection_ok.mpr ⟨hq, rfl⟩

theorem mem_addId {ids : List String} {id x : String} (h : x ∈ addId ids id) :
    x ∈ ids ∨ x = id := by
  unfold addId at h
  split at h
  · exact .inl h
  · simpa using h

/-- The names a payload puts into a projection are its own. -/
theorem apply_names {base : RunProjection} {payload : EventPayload} {x : String}
    (h : x ∈ (base.apply payload).names) : x ∈ base.names ∨ x ∈ payload.names := by
  simp only [RunProjection.names, List.mem_append] at h ⊢
  cases payload with
  | RunAccepted | InputRequested | InputSubmitted | ApprovalRequested | ApprovalRecorded
  | ApprovalRejected | RunSuspended | EffectPrepared | EffectAcknowledged | EffectAbandoned
  | ArtifactProduced =>
    simp only [RunProjection.apply, EventPayload.names, Option.toList_some, Option.toList_none,
      List.mem_cons, List.not_mem_nil, or_false] at h ⊢
    grind
  | VerificationRecorded stepId verificationId verifierId status digest =>
    simp only [RunProjection.apply, EventPayload.names, List.mem_append, List.mem_cons,
      List.not_mem_nil, or_false] at h ⊢
    split at h
    · have := @mem_addId base.passedVerifierIds verifierId x
      grind
    · grind
  | VerificationExceptionRecorded stepId exceptionId verifierId =>
    simp only [RunProjection.apply, EventPayload.names, List.mem_cons,
      List.not_mem_nil, or_false] at h ⊢
    have := @mem_addId base.verificationExceptionIds verifierId x
    grind
  | _ => exact .inl h

theorem currentStep_names {payload : EventPayload} {stepId : String}
    (h : payload.currentStep = some stepId) : stepId ∈ payload.names := by
  cases payload <;> simp_all [EventPayload.currentStep, EventPayload.names]

/-- The names in a projection come from the projection before it and from the event. -/
theorem fold_names {p : RunProjection} {e : RunEvent} {x : String} (h : x ∈ (p.fold e).names) :
    x ∈ p.names ∨ x = e.eventId ∨ x ∈ e.payload.names := by
  rcases apply_names h with h | h
  · simp only [RunProjection.names, List.mem_append, Option.toList_some, List.mem_singleton,
      Option.mem_toList, Option.or_eq_some_iff] at h ⊢
    have hstep := @currentStep_names e.payload x
    grind
  · exact .inr (.inr h)

/-- **The next projection parses**, if the projection and the event do. -/
theorem fold_parses {p : RunProjection} {e : RunEvent} (hp : p.parses = true)
    (he : e.parses = true) : (p.fold e).parses = true := by
  simp only [RunProjection.parses, RunEvent.parses, decide_eq_true_eq, List.all_eq_true,
    List.mem_append] at hp he ⊢
  obtain ⟨hnames, hdigests, -⟩ := hp
  obtain ⟨henames, -, -, hsequence, -⟩ := he
  refine ⟨fun x hx => ?_, by simpa using hdigests, by simpa using hsequence⟩
  rcases fold_names hx with hx | rfl | hx
  · exact hnames x hx
  · exact henames _ (.inl (List.mem_cons_self ..))
  · exact henames x (.inr hx)

/-- Events that parse are rebuilt as they are reduced. -/
theorem rebuildRunProjection_of {p q : RunProjection} {events : List RunEvent}
    (hp : p.parses = true) (he : events.all RunEvent.parses = true)
    (h : replay reduceRunEvent p events = .ok q) : rebuildRunProjection p events = .ok q := by
  induction events generalizing p with
  | nil => exact h
  | cons e events ih =>
    simp only [List.all_cons, Bool.and_eq_true] at he
    simp only [rebuildRunProjection, replay, List.foldlM_cons] at h ⊢
    cases hr : reduceRunEvent p e with
    | error x => rw [hr] at h; cases h
    | ok next =>
      rw [hr] at h
      obtain ⟨hf, rfl⟩ := reduceRunEvent_ok.mp hr
      have hnext := fold_parses hp he.1
      rw [parsedReduce_ok.mpr ⟨hp, he.1, hf, hnext, rfl⟩]
      exact ih hnext he.2 h

theorem RunEvent.parses.inRange {e : RunEvent} (h : e.parses = true) :
    e.payload.inRange = true := by
  simp only [RunEvent.parses, decide_eq_true_eq] at h
  exact h.2.2.2.2

/-! ### The status an event leads to -/

/-- The one event that leads to a status, for the statuses that have one. -/
def soleEvent : RunStatus → Option RunEventType
  | .accepted => some .RunAccepted
  | .waiting_for_input => some .InputRequested
  | .waiting_for_approval => some .ApprovalRequested
  | .suspended => some .RunSuspended
  | .verifying => some .VerificationStarted
  | .completed => some .RunCompleted
  | _ => none

theorem nextStatusFor_soleEvent {payload : EventPayload} {status : RunStatus}
    {eventType : RunEventType} (hrange : payload.inRange = true)
    (hnext : nextStatusFor payload = some status) (hsole : soleEvent status = some eventType) :
    payload.eventType = eventType := by
  cases payload with
  | ApprovalRecorded stepId decisionId approvalId resumeTarget =>
    cases resumeTarget <;>
      simp_all [nextStatusFor, EventPayload.inRange, ResumeTarget.status] <;>
      subst hnext <;> simp [soleEvent] at hsole
  | ApprovalRejected stepId decisionId nextStatus reasonCode =>
    cases nextStatus <;> simp_all [nextStatusFor, EventPayload.inRange] <;>
      subst hnext <;> simp [soleEvent] at hsole
  | _ =>
    simp only [nextStatusFor, Option.some.injEq, reduceCtorEq] at hnext <;>
      subst hnext <;> simp_all [soleEvent, EventPayload.eventType]

theorem nextStatusFor_ne_created {payload : EventPayload} (hrange : payload.inRange = true) :
    nextStatusFor payload ≠ some .created := by
  intro hnext
  cases payload with
  | ApprovalRecorded stepId decisionId approvalId resumeTarget =>
    cases resumeTarget <;> simp [nextStatusFor, ResumeTarget.status] at hnext
  | ApprovalRejected stepId decisionId nextStatus reasonCode =>
    simp only [nextStatusFor, Option.some.injEq] at hnext
    subst hnext
    simp [EventPayload.inRange] at hrange
  | _ => simp [nextStatusFor] at hnext

/-- What an accepted event does to the status: it keeps it, or it leads to a next one. -/
theorem Foldable.status_cases {p : RunProjection} {e : RunEvent} (h : Foldable p e) :
    (nextStatusFor e.payload = none ∧ (p.fold e).status = p.status ∧
        e.eventType ∈ STATE_PRESERVING_EVENTS p.status) ∨
      (nextStatusFor e.payload = some (p.fold e).status ∧
        (p.fold e).status ∈ RUN_TRANSITIONS p.status) := by
  have hs := h.status
  unfold StatusAllowed at hs
  rw [fold_status]
  cases hn : nextStatusFor e.payload with
  | none =>
    rw [hn] at hs
    exact .inl ⟨rfl, rfl, hs⟩
  | some next =>
    rw [hn] at hs
    exact .inr ⟨rfl, hs⟩

/-! ### Every accepted sequence -/

/-- The events a compensation run has none of. -/
def modelAndInputEvents : List RunEventType :=
  [.PlanningStarted, .ModelCallStarted, .ModelCallCompleted, .InputRequested, .InputSubmitted]

/-- What the accepted events keep. -/
structure Safe (run : Run) (events : List RunEvent) (p : RunProjection) : Prop where
  count : p.lastSequence = events.length
  bound : p.toRun = { run with status := p.status, updatedAt := p.updatedAt }
  born : events ≠ [] → p.status ≠ .created
  required : ∀ e ∈ events, ∀ workOrderId digest requiredVerifierIds,
    e.payload = .RunAccepted workOrderId digest requiredVerifierIds →
      p.requiredVerifierIds = requiredVerifierIds
  passed : p.passedVerifierIds.Nodup
  excepted : p.verificationExceptionIds.Nodup
  verified : p.status = .completed → ∀ id ∈ p.requiredVerifierIds,
    id ∈ p.passedVerifierIds ∨ id ∈ p.verificationExceptionIds
  compensation : run.executionDefinition.isCompensation = true →
    p.status ≠ .planning ∧ p.status ≠ .waiting_for_input ∧
      ∀ e ∈ events, e.eventType ∉ modelAndInputEvents
  requested : ∀ e ∈ events, e.eventType = .CompensationRequested →
    run.executionDefinition.isCompensation = true

/-- What an accepted event does. -/
structure SafeStep (p : RunProjection) (e : RunEvent) (q : RunProjection) : Prop where
  alive : p.status ∉ [.completed, .failed, .cancelled]
  status : q.status = p.status ∨ q.status ∈ RUN_TRANSITIONS p.status
  required : e.eventType ≠ .RunAccepted → q.requiredVerifierIds = p.requiredVerifierIds
  passed : p.passedVerifierIds <+: q.passedVerifierIds
  excepted : p.verificationExceptionIds <+: q.verificationExceptionIds

theorem addId_prefix (ids : List String) (id : String) : ids <+: addId ids id := by
  unfold addId
  split
  · exact List.prefix_rfl
  · exact List.prefix_append _ _

theorem addId_nodup {ids : List String} (h : ids.Nodup) (id : String) : (addId ids id).Nodup := by
  unfold addId
  split <;> rename_i hid
  · exact h
  · rw [← List.concat_eq_append]
    exact h.concat hid

section Step

variable {p q : RunProjection} {e : RunEvent}

theorem fold_requiredVerifierIds (h : e.eventType ≠ .RunAccepted) :
    (p.fold e).requiredVerifierIds = p.requiredVerifierIds := by
  unfold RunProjection.fold
  unfold RunEvent.eventType at h
  cases hp : e.payload <;> first | rfl | exact absurd (by rw [hp]; rfl) h

theorem fold_passedVerifierIds :
    (p.fold e).passedVerifierIds = p.passedVerifierIds ∨
      ∃ stepId verificationId verifierId digest,
        e.payload = .VerificationRecorded stepId verificationId verifierId .pass digest ∧
          (p.fold e).passedVerifierIds = addId p.passedVerifierIds verifierId := by
  unfold RunProjection.fold
  cases hp : e.payload with
  | VerificationRecorded stepId verificationId verifierId status digest =>
    cases status with
    | pass => exact .inr ⟨stepId, verificationId, verifierId, digest, rfl, rfl⟩
    | fail | needs_review => exact .inl rfl
  | _ => exact .inl rfl

theorem fold_verificationExceptionIds :
    (p.fold e).verificationExceptionIds = p.verificationExceptionIds ∨
      ∃ stepId exceptionId verifierId,
        e.payload = .VerificationExceptionRecorded stepId exceptionId verifierId ∧
          (p.fold e).verificationExceptionIds = addId p.verificationExceptionIds verifierId := by
  unfold RunProjection.fold
  cases hp : e.payload with
  | VerificationExceptionRecorded stepId exceptionId verifierId =>
    exact .inr ⟨stepId, exceptionId, verifierId, rfl, rfl⟩
  | _ => exact .inl rfl

theorem fold_toRun :
    (p.fold e).toRun =
      { p.toRun with status := (p.fold e).status, updatedAt := e.occurredAt } := by
  unfold RunProjection.fold
  cases e.payload <;> rfl

theorem Foldable.step (h : Foldable p e) : SafeStep p e (p.fold e) where
  alive := by
    have halive := h.alive
    cases hp : p.status <;> simp_all [RunStatus.terminal]
  status := by
    rcases h.status_cases with ⟨-, hs, -⟩ | ⟨-, hs⟩
    · exact .inl hs
    · exact .inr hs
  required := fold_requiredVerifierIds
  passed := by
    rcases fold_passedVerifierIds (p := p) (e := e) with hs | ⟨_, _, _, _, -, hs⟩
    · exact hs ▸ List.prefix_rfl
    · rw [hs]; exact addId_prefix _ _
  excepted := by
    rcases fold_verificationExceptionIds (p := p) (e := e) with hs | ⟨_, _, _, -, hs⟩
    · exact hs ▸ List.prefix_rfl
    · rw [hs]; exact addId_prefix _ _

end Step

/-! ### The run -/

section Run

variable {run : Run} {events pre post : List RunEvent} {p q : RunProjection} {e : RunEvent}

theorem Safe.initial (hcreated : run.status = .created) :
    Safe run [] (createRunProjection run) where
  count := rfl
  bound := rfl
  born h := absurd rfl h
  required e he := by cases he
  passed := List.nodup_nil
  excepted := List.nodup_nil
  verified h := by cases hcreated.symm.trans h
  compensation _ := by simp [createRunProjection, hcreated]
  requested e he := by cases he

/-- `RunAccepted` comes first. -/
theorem Safe.accepted_first (h : Safe run events p) (hf : Foldable p e)
    (ha : e.eventType = .RunAccepted) : events = [] := by
  by_contra hne
  have hborn := h.born hne
  have hs := hf.status
  unfold RunEvent.eventType at ha
  cases hp : e.payload <;> rw [hp] at ha hs <;> try cases ha
  simp only [StatusAllowed, nextStatusFor] at hs
  cases hstatus : p.status <;> rw [hstatus] at hs hborn <;> simp [RUN_TRANSITIONS] at hs hborn

/-- **One accepted event.** -/
theorem Safe.snoc (h : Safe run events p) (hf : Foldable p e)
    (hrange : e.payload.inRange = true) : Safe run (events ++ [e]) (p.fold e) where
  count := by simp [hf.sequence, h.count]
  bound := by
    rw [fold_toRun, h.bound]
  born _ := by
    rcases hf.status_cases with ⟨-, hs, hmem⟩ | ⟨hn, -⟩
    · rw [hs]
      intro hc
      rw [hc] at hmem
      cases hmem
    · intro hc
      exact nextStatusFor_ne_created hrange (hc ▸ hn)
  required x hx := by
    intro workOrderId digest ids hpayload
    by_cases ha : e.eventType = .RunAccepted
    · obtain rfl := h.accepted_first hf ha
      obtain rfl : x = e := by simpa using hx
      simp [RunProjection.fold, RunProjection.apply, hpayload]
    · rw [fold_requiredVerifierIds ha]
      rcases List.mem_append.mp hx with hx | hx
      · exact h.required x hx workOrderId digest ids hpayload
      · obtain rfl : x = e := by simpa using hx
        exact absurd (by rw [RunEvent.eventType, hpayload]; rfl) ha
  passed := by
    rcases fold_passedVerifierIds (p := p) (e := e) with hs | ⟨_, _, _, _, -, hs⟩
    · rw [hs]; exact h.passed
    · rw [hs]; exact addId_nodup h.passed _
  excepted := by
    rcases fold_verificationExceptionIds (p := p) (e := e) with hs | ⟨_, _, _, -, hs⟩
    · rw [hs]; exact h.excepted
    · rw [hs]; exact addId_nodup h.excepted _
  verified hc := by
    have hcompleted : e.eventType = .RunCompleted := by
      rcases hf.status_cases with ⟨-, hs, hmem⟩ | ⟨hn, -⟩
      · rw [← hs, hc] at hmem
        cases hmem
      · exact nextStatusFor_soleEvent hrange (hc ▸ hn) rfl
    have hall := hf.verified hcompleted
    have hkeep : (p.fold e).requiredVerifierIds = p.requiredVerifierIds :=
      fold_requiredVerifierIds (by rw [hcompleted]; rintro ⟨⟩)
    intro id hid
    rw [hkeep] at hid
    have := List.all_eq_true.mp hall id hid
    exact (of_decide_eq_true this).imp (hf.step.passed.subset ·) (hf.step.excepted.subset ·)
  compensation hkind := by
    have hdefinition : p.executionDefinition.isCompensation = true := by
      rw [h.bound]
      exact hkind
    obtain ⟨hplanning, hinput, hevents⟩ := h.compensation hkind
    obtain ⟨hnot, hnext⟩ := hf.kind.1 hdefinition
    refine ⟨?_, ?_, ?_⟩
    · rcases hf.status_cases with ⟨-, hs, -⟩ | ⟨hn, -⟩
      · rwa [hs]
      · exact fun hc => hnext (hc ▸ hn)
    · rcases hf.status_cases with ⟨-, hs, -⟩ | ⟨hn, -⟩
      · rwa [hs]
      · intro hc
        have := nextStatusFor_soleEvent hrange (hc ▸ hn) rfl
        rw [this] at hnot
        simp at hnot
    · intro x hx
      rcases List.mem_append.mp hx with hx | hx
      · exact hevents x hx
      · obtain rfl : x = e := by simpa using hx
        exact hnot
  requested x hx hrequested := by
    rcases List.mem_append.mp hx with hx | hx
    · exact h.requested x hx hrequested
    · obtain rfl : x = e := by simpa using hx
      have := hf.kind.2 hrequested
      rw [h.bound] at this
      exact this

theorem rebuild_safe (hcreated : run.status = .created)
    (h : rebuildRunProjection (createRunProjection run) events = .ok p) : Safe run events p :=
  replay_induction (Safe.initial hcreated)
    (fun _ hs hx => by
      obtain ⟨-, he, hf, -, rfl⟩ := parsedReduce_ok.mp hx
      exact hs.snoc hf (RunEvent.parses.inRange he)) h

/-- **The reducer is safe over whole runs**: what holds after every accepted sequence of events,
and what the event at any place of it did. -/
theorem rebuildRunProjection_safe (hcreated : run.status = .created)
    (h : rebuildRunProjection (createRunProjection run) events = .ok p) :
    Safe run events p ∧
      ∀ pre e post, events = pre ++ e :: post → ∃ a b,
        rebuildRunProjection (createRunProjection run) pre = .ok a ∧
        rebuildRunProjection (createRunProjection run) (pre ++ [e]) = .ok b ∧
        Safe run pre a ∧ SafeStep a e b := by
  refine ⟨rebuild_safe hcreated h, ?_⟩
  rintro pre e post rfl
  obtain ⟨a, b, ha, hx, hb, -⟩ := replay_split h
  obtain ⟨-, -, hf, -, rfl⟩ := parsedReduce_ok.mp hx
  exact ⟨a, _, ha, hb, rebuild_safe hcreated ha, hf.step⟩

end Run

section Witness

/-- A digest of the right form. -/
def someDigest : Digest :=
  "sha256:0000000000000000000000000000000000000000000000000000000000000000"

/-- A run that was just created. -/
def createdRun : Run where
  runId := "run"
  tenantId := "tenant"
  workOrderId := "order"
  workOrderBindingDigest := someDigest
  executionDefinition := .agent "agent" "1" someDigest
  executionDefinitionDigest := someDigest
  status := .created
  createdAt := 0
  updatedAt := 0
  dataClass := .internal
  correlationId := "run"

/-- The `n`th event of `createdRun`. -/
def nthEvent (n : Nat) (payload : EventPayload) : RunEvent where
  eventId := "event-" ++ String.ofList (List.replicate n 'i')
  runId := "run"
  tenantId := "tenant"
  sequence := n
  occurredAt := n
  correlationId := "run"
  dataClass := .internal
  executionDefinition := .agent "agent" "1" someDigest
  executionDefinitionDigest := someDigest
  payload

theorem someDigest_parses : digestParses someDigest = true := by decide

/-- The events of the payloads, numbered from one. -/
def eventsOf (payloads : List EventPayload) : List RunEvent :=
  payloads.mapIdx fun i payload => nthEvent (i + 1) payload

/-- A payload whose names are not empty and whose digests are `someDigest`. -/
structure EventPayload.Plain (payload : EventPayload) : Prop where
  names : ∀ name ∈ payload.names, name ≠ ""
  digests : ∀ digest ∈ payload.digests, digest = someDigest
  inRange : payload.inRange = true

instance (payload : EventPayload) : Decidable payload.Plain :=
  decidable_of_iff ((∀ name ∈ payload.names, name ≠ "") ∧
      (∀ digest ∈ payload.digests, digest = someDigest) ∧ payload.inRange = true)
    ⟨fun ⟨hnames, hdigests, hrange⟩ => ⟨hnames, hdigests, hrange⟩,
      fun ⟨hnames, hdigests, hrange⟩ => ⟨hnames, hdigests, hrange⟩⟩

theorem nthEvent_parses {n : Nat} {payload : EventPayload} (hn : 0 < n) (hle : n ≤ 100)
    (h : payload.Plain) : (nthEvent n payload).parses = true := by
  have hid : "event-" ++ String.ofList (List.replicate n 'i') ≠ "" := by simp
  have hnames : payload.names.all (· ≠ "") = true := by simpa using h.names
  have hformat : payload.digests.all digestParses = true :=
    List.all_eq_true.mpr fun d hd => h.digests d hd ▸ someDigest_parses
  simp only [RunEvent.parses, nthEvent, List.all_append, List.all_cons, List.all_nil, hnames,
    hformat, someDigest_parses, h.inRange]
  simp [hid, hn]
  omega

theorem eventsOf_parse {payloads : List EventPayload} (hle : payloads.length ≤ 100)
    (h : ∀ payload ∈ payloads, payload.Plain) :
    (eventsOf payloads).all RunEvent.parses = true := by
  rw [List.all_eq_true]
  intro e he
  obtain ⟨i, hi, rfl⟩ := List.mem_mapIdx.mp he
  exact nthEvent_parses (Nat.succ_pos i) (by omega) (h _ (List.getElem_mem hi))

theorem createdRun_parses : (createRunProjection createdRun).parses = true := by
  simp [RunProjection.parses, RunProjection.names, createRunProjection, createdRun,
    someDigest_parses]

/-- A run of plain payloads is rebuilt as it is reduced. -/
theorem rebuild_eventsOf {payloads : List EventPayload} {p : RunProjection}
    (hle : payloads.length ≤ 100) (h : ∀ payload ∈ payloads, payload.Plain)
    (hp : replay reduceRunEvent (createRunProjection createdRun) (eventsOf payloads) = .ok p) :
    rebuildRunProjection (createRunProjection createdRun) (eventsOf payloads) = .ok p :=
  rebuildRunProjection_of createdRun_parses (eventsOf_parse hle h) hp

/-- A run that verifies its artifact and completes. -/
def verifiedRun : List EventPayload :=
  [.RunAccepted "order" someDigest ["verifier"],
    .ExecutionStarted "step" none,
    .VerificationStarted "step" someDigest,
    .VerificationRecorded "step" "verification" "verifier" .pass someDigest,
    .RunCompleted "step" "evidence" someDigest]

theorem rebuildRunProjection_safe_verified :
    ∃ p, rebuildRunProjection (createRunProjection createdRun) (eventsOf verifiedRun) = .ok p ∧
      Safe createdRun (eventsOf verifiedRun) p := by
  have hplain : ∀ payload ∈ verifiedRun, payload.Plain := by decide
  have h := rebuild_eventsOf (by decide) hplain rfl
  exact ⟨_, h, (rebuildRunProjection_safe rfl h).1⟩

end Witness

end Pactmark
