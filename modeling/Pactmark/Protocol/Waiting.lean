import Pactmark.Protocol.Replay

/-!
# Protocol — what a run waits for

The reducer checks the target of an answer, not what it answers: `waitingDecisionId` and
`waitingRequestId` are written by the requests and cleared by the answers, wherever the table of
transitions lets them through.

* `fold_waitingDecisionId`, `fold_waitingRequestId`: what an event writes into the two fields.
* `rebuildRunProjection_waits`: in every accepted sequence the two fields hold the last request
  that no answer followed, and a waiting status is that of the request that came last.
-/

namespace Pactmark

open Durable

/-! ### The two fields -/

/-- What an event writes into `waitingDecisionId`. -/
def writesDecision (e : RunEvent) : Option (Option String) :=
  match e.payload with
  | .ApprovalRequested _ decisionId _ _ => some (some decisionId)
  | .ApprovalRecorded .. | .ApprovalRejected .. => some none
  | _ => none

/-- What an event writes into `waitingRequestId`. -/
def writesRequest (e : RunEvent) : Option (Option String) :=
  match e.payload with
  | .InputRequested _ requestId _ _ => some (some requestId)
  | .InputSubmitted .. => some none
  | _ => none

variable {run : Run} {events : List RunEvent} {p : RunProjection} {e : RunEvent}

theorem fold_waitingDecisionId :
    (p.fold e).waitingDecisionId = (writesDecision e).getD p.waitingDecisionId := by
  unfold RunProjection.fold writesDecision
  cases e.payload <;> rfl

theorem fold_waitingRequestId :
    (p.fold e).waitingRequestId = (writesRequest e).getD p.waitingRequestId := by
  unfold RunProjection.fold writesRequest
  cases e.payload <;> rfl

/-! ### Every accepted sequence -/

/-- What a run waits for after the events. -/
structure Waits (events : List RunEvent) (p : RunProjection) : Prop where
  decision : ∀ decisionId,
    p.waitingDecisionId = some decisionId ↔ LastWrite writesDecision events decisionId
  request : ∀ requestId,
    p.waitingRequestId = some requestId ↔ LastWrite writesRequest events requestId
  approval : p.status = .waiting_for_approval →
    ∃ pre e decisionId, events = pre ++ [e] ∧ writesDecision e = some (some decisionId) ∧
      p.waitingDecisionId = some decisionId
  input : p.status = .waiting_for_input →
    ∃ pre e requestId, events = pre ++ [e] ∧ writesRequest e = some (some requestId) ∧
      p.waitingRequestId = some requestId

/-- What an accepted event does to a run that may be waiting. -/
structure WaitStep (p : RunProjection) (e : RunEvent) (q : RunProjection) : Prop where
  decided : e.eventType ∈ [.ApprovalRecorded, .ApprovalRejected] →
    q.status ∈ RUN_TRANSITIONS p.status ∧ q.waitingDecisionId = none
  submitted : e.eventType = .InputSubmitted →
    q.status = .planning ∧ .planning ∈ RUN_TRANSITIONS p.status ∧ q.waitingRequestId = none
  /-- The reducer compares neither the decision nor the request that an answer names. -/
  blind : ∀ payload : EventPayload, payload.eventType = e.payload.eventType →
    nextStatusFor payload = nextStatusFor e.payload →
      ∃ q', reduceRunEvent p { e with payload } = .ok q'
  approval : p.status = .waiting_for_approval →
    q.status ∈ [.running, .planning, .failed, .cancelled] ∧
      e.eventType ∈ [.ApprovalRecorded, .ApprovalRejected, .InputSubmitted, .ExecutionStarted,
        .PlanningStarted, .RunFailed, .RunCancelled]
  input : p.status = .waiting_for_input →
    q.status ∈ [.planning, .failed, .cancelled] ∧
      e.eventType ∈ [.InputSubmitted, .ApprovalRecorded, .ApprovalRejected, .PlanningStarted,
        .RunFailed, .RunCancelled]

theorem Foldable.congr_payload (h : Foldable p e) {payload : EventPayload}
    (htype : payload.eventType = e.payload.eventType)
    (hnext : nextStatusFor payload = nextStatusFor e.payload) :
    Foldable p { e with payload } := by
  obtain ⟨alive, hrun, tenant, definitionDigest, definition, sequence, kind, status, verified⟩ := h
  refine ⟨alive, hrun, tenant, definitionDigest, definition, sequence, ?_, ?_, ?_⟩
  · simpa only [KindAllowed, htype, hnext] using kind
  · simpa only [StatusAllowed, htype, hnext] using status
  · simpa only [RunEvent.eventType, htype] using verified

/-- The events that lead to a status a waiting run may be left for. -/
theorem eventType_of_leaving {payload : EventPayload} {status : RunStatus}
    (hnext : nextStatusFor payload = some status)
    (hmem : status ∈ [.running, .planning, .failed, .cancelled]) :
    payload.eventType ∈ [.ApprovalRecorded, .ApprovalRejected, .InputSubmitted,
      .ExecutionStarted, .PlanningStarted, .RunFailed, .RunCancelled] := by
  cases payload <;> simp only [nextStatusFor, Option.some.injEq, reduceCtorEq] at hnext <;>
    subst hnext <;> simp_all [EventPayload.eventType]

theorem eventType_ne_executionStarted {payload : EventPayload} {status : RunStatus}
    (hnext : nextStatusFor payload = some status) (hne : status ≠ .running) :
    payload.eventType ≠ .ExecutionStarted := by
  intro h
  cases payload <;> simp [EventPayload.eventType] at h
  exact hne (Option.some.inj hnext).symm

theorem Foldable.waitStep (h : Foldable p e) : WaitStep p e (p.fold e) where
  decided hanswer := by
    -- an answer is no event that preserves the state, and its target decides whether it is one
    refine ⟨?_, ?_⟩
    · rcases h.status_cases with ⟨hn, -, -⟩ | ⟨-, hs⟩
      · unfold RunEvent.eventType at hanswer
        cases hp : e.payload <;> rw [hp] at hn hanswer <;>
          simp [nextStatusFor, EventPayload.eventType] at hn hanswer
      · exact hs
    · rw [fold_waitingDecisionId]
      unfold RunEvent.eventType at hanswer
      unfold writesDecision
      cases hp : e.payload <;> rw [hp] at hanswer <;> simp [EventPayload.eventType] at hanswer <;>
        rfl
  submitted hanswer := by
    unfold RunEvent.eventType at hanswer
    cases hp : e.payload <;> rw [hp] at hanswer <;> simp [EventPayload.eventType] at hanswer
    have hs := h.status
    rw [StatusAllowed, hp] at hs
    refine ⟨by rw [fold_status, hp]; rfl, hs, ?_⟩
    rw [fold_waitingRequestId, writesRequest, hp]
    rfl
  blind payload htype hnext :=
    ⟨_, reduceRunEvent_ok.mpr ⟨h.congr_payload htype hnext, rfl⟩⟩
  approval hwaits := by
    rcases h.status_cases with ⟨-, -, hmem⟩ | ⟨hn, hs⟩
    · rw [hwaits] at hmem
      cases hmem
    · rw [hwaits] at hs
      exact ⟨hs, eventType_of_leaving hn hs⟩
  input hwaits := by
    rcases h.status_cases with ⟨-, -, hmem⟩ | ⟨hn, hs⟩
    · rw [hwaits] at hmem
      cases hmem
    · rw [hwaits] at hs
      refine ⟨hs, ?_⟩
      -- no edge leads to running from here, so that no execution starts
      have hmem := eventType_of_leaving hn (List.mem_cons_of_mem _ hs)
      have hne := eventType_ne_executionStarted hn (by
        rintro heq
        rw [heq] at hs
        simp [RUN_TRANSITIONS] at hs)
      simp only [List.mem_cons, List.not_mem_nil, or_false] at hmem ⊢
      unfold RunEvent.eventType
      tauto

/-- **One accepted event.** -/
theorem Waits.snoc (h : Waits events p) (hf : Foldable p e) (hrange : e.payload.inRange = true) :
    Waits (events ++ [e]) (p.fold e) where
  decision decisionId := by
    rw [fold_waitingDecisionId, lastWrite_snoc, ← h.decision]
    cases writesDecision e <;> simp
  request requestId := by
    rw [fold_waitingRequestId, lastWrite_snoc, ← h.request]
    cases writesRequest e <;> simp
  approval hwaits := by
    have htype : e.payload.eventType = .ApprovalRequested := by
      rcases hf.status_cases with ⟨-, hs, hmem⟩ | ⟨hn, -⟩
      · rw [← hs, hwaits] at hmem
        cases hmem
      · exact nextStatusFor_soleEvent hrange (hwaits ▸ hn) rfl
    rw [fold_waitingDecisionId]
    cases hp : e.payload <;> rw [hp] at htype <;> simp [EventPayload.eventType] at htype
    rename_i stepId decisionId _ _
    have hw : writesDecision e = some (some decisionId) := by rw [writesDecision, hp]
    exact ⟨events, e, decisionId, rfl, hw, by rw [hw]; rfl⟩
  input hwaits := by
    have htype : e.payload.eventType = .InputRequested := by
      rcases hf.status_cases with ⟨-, hs, hmem⟩ | ⟨hn, -⟩
      · rw [← hs, hwaits] at hmem
        cases hmem
      · exact nextStatusFor_soleEvent hrange (hwaits ▸ hn) rfl
    rw [fold_waitingRequestId]
    cases hp : e.payload <;> rw [hp] at htype <;> simp [EventPayload.eventType] at htype
    rename_i stepId requestId _ _
    have hw : writesRequest e = some (some requestId) := by rw [writesRequest, hp]
    exact ⟨events, e, requestId, rfl, hw, by rw [hw]; rfl⟩

theorem rebuild_waits (hcreated : run.status = .created)
    (h : rebuildRunProjection (createRunProjection run) events = .ok p) : Waits events p := by
  refine replay_induction ⟨fun d => ?_, fun r => ?_, fun hs => ?_, fun hs => ?_⟩
    (fun _ hs hx => by
      obtain ⟨-, he, hf, -, rfl⟩ := parsedReduce_ok.mp hx
      exact hs.snoc hf (RunEvent.parses.inRange he)) h
  · exact ⟨nofun, fun hd => absurd hd lastWrite_nil⟩
  · exact ⟨nofun, fun hr => absurd hr lastWrite_nil⟩
  · cases hcreated.symm.trans hs
  · cases hcreated.symm.trans hs

/-- **What a run waits for**: after every accepted sequence of events, and at any place of it. -/
theorem rebuildRunProjection_waits (hcreated : run.status = .created)
    (h : rebuildRunProjection (createRunProjection run) events = .ok p) :
    Waits events p ∧
      ∀ pre e post, events = pre ++ e :: post → ∃ a b,
        rebuildRunProjection (createRunProjection run) pre = .ok a ∧
        rebuildRunProjection (createRunProjection run) (pre ++ [e]) = .ok b ∧
        Waits pre a ∧ WaitStep a e b := by
  refine ⟨rebuild_waits hcreated h, ?_⟩
  rintro pre e post rfl
  obtain ⟨a, b, ha, hx, hb, -⟩ := replay_split h
  obtain ⟨-, -, hf, -, rfl⟩ := parsedReduce_ok.mp hx
  exact ⟨a, _, ha, hb, rebuild_waits hcreated ha, hf.waitStep⟩

section Witness

/-- A run that is waiting for an approval when it fails. -/
def failedWaiting : List EventPayload :=
  [.RunAccepted "order" someDigest [],
    .ApprovalRequested "step" "decision" someDigest someDigest,
    .RunFailed none .KAF_POLICY_DENIED {}]

theorem failedWaiting_plain : ∀ payload ∈ failedWaiting, payload.Plain := by
  decide

/-- A run that records an approval it has not asked for, while it executes. -/
def unaskedApproval : List EventPayload :=
  [.RunAccepted "order" someDigest [],
    .ExecutionStarted "step" none,
    .ApprovalRecorded "step" "decision" "approval" .planning]

theorem unaskedApproval_plain : ∀ payload ∈ unaskedApproval, payload.Plain := by
  decide

/-- A run that executes while it is waiting for an approval. -/
def unansweredExecution : List EventPayload :=
  [.RunAccepted "order" someDigest [],
    .ApprovalRequested "step" "decision" someDigest someDigest,
    .ExecutionStarted "step" none]

theorem unansweredExecution_plain : ∀ payload ∈ unansweredExecution, payload.Plain := by
  decide

theorem rebuildRunProjection_waits_failed :
    ∃ p, rebuildRunProjection (createRunProjection createdRun) (eventsOf failedWaiting) = .ok p ∧
      Waits (eventsOf failedWaiting) p := by
  have h := rebuild_eventsOf (by decide) failedWaiting_plain rfl
  exact ⟨_, h, (rebuildRunProjection_waits rfl h).1⟩

/-- The decision a run waits for outlives its waiting, an approval is accepted that none waits
for, and a waiting run goes on without an answer. -/
theorem waiting_not_answered_exactly :
    (¬ ∀ (run : Run) (events : List RunEvent) (p : RunProjection), run.status = .created →
      rebuildRunProjection (createRunProjection run) events = .ok p →
        (p.waitingDecisionId ≠ none ↔ p.status = .waiting_for_approval)) ∧
    (¬ ∀ (run : Run) (events : List RunEvent) (e : RunEvent) (a b : RunProjection),
      run.status = .created →
      rebuildRunProjection (createRunProjection run) events = .ok a →
      rebuildRunProjection (createRunProjection run) (events ++ [e]) = .ok b →
        e.eventType ∈ [.ApprovalRecorded, .ApprovalRejected] →
          a.status = .waiting_for_approval) ∧
    (¬ ∀ (run : Run) (events : List RunEvent) (e : RunEvent) (a b : RunProjection),
      run.status = .created →
      rebuildRunProjection (createRunProjection run) events = .ok a →
      rebuildRunProjection (createRunProjection run) (events ++ [e]) = .ok b →
        a.status = .waiting_for_approval → b.status ≠ a.status →
          e.eventType ∈ [.ApprovalRecorded, .ApprovalRejected, .RunFailed, .RunCancelled]) := by
  refine ⟨fun h => ?_, fun h => ?_, fun h => ?_⟩
  · have hp := rebuild_eventsOf (by decide) failedWaiting_plain rfl
    exact absurd ((h createdRun _ _ rfl hp).mp nofun) nofun
  · have hb := rebuild_eventsOf (by decide) unaskedApproval_plain rfl
    have ha := rebuild_eventsOf (by decide)
      (fun x hx => unaskedApproval_plain x (List.mem_of_mem_take (i := 2) hx)) rfl
    exact absurd (h createdRun _ (nthEvent 3 _) _ _ rfl ha hb (by decide)) nofun
  · have hb := rebuild_eventsOf (by decide) unansweredExecution_plain rfl
    have ha := rebuild_eventsOf (by decide)
      (fun x hx => unansweredExecution_plain x (List.mem_of_mem_take (i := 2) hx)) rfl
    exact absurd (h createdRun _ (nthEvent 3 _) _ _ rfl ha hb rfl nofun) (by decide)

end Witness

end Pactmark
