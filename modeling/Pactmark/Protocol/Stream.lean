import Pactmark.Runtime.Commands

/-!
# Protocol — the event stream

What one transaction does to the truth of a run, operation by operation, and the invariant of
the stream itself.

* `reduceRunEvent_ok`: the reducer accepts an event exactly when it is `Foldable`, and the next
  projection is then `RunProjection.fold`.
* `appendRunEvent_ok`: an event is appended to the end of the stream, or it is there already.
* `Tx.Aside`: the operations that leave the truth of the run alone.
* `Stream`: the projection counts the events, they are numbered from one, their identities are
  distinct, and everything is bound to the work order.  `Stream.push` is its step lemma.
-/

namespace Pactmark

open Durable

/-! ### The reducer -/

/-- `assertKindAllowed` passes. -/
def KindAllowed (compensation : Bool) (payload : EventPayload) : Prop :=
  (compensation = true → payload.eventType ∉ [.PlanningStarted, .ModelCallStarted,
    .ModelCallCompleted, .InputRequested, .InputSubmitted] ∧
      nextStatusFor payload ≠ some .planning) ∧
    (payload.eventType = .CompensationRequested → compensation = true)

/-- The status of the run admits the event. -/
def StatusAllowed (status : RunStatus) (payload : EventPayload) : Prop :=
  match nextStatusFor payload with
  | none => payload.eventType ∈ STATE_PRESERVING_EVENTS status
  | some next => next ∈ RUN_TRANSITIONS status

instance (status : RunStatus) (payload : EventPayload) :
    Decidable (StatusAllowed status payload) := by
  unfold StatusAllowed
  split <;> infer_instance

/-- Every check of `reduceRunEvent` passes. -/
structure Foldable (p : RunProjection) (e : RunEvent) : Prop where
  alive : p.status.terminal = false
  run : e.runId = p.runId
  tenant : e.tenantId = p.tenantId
  definitionDigest : e.executionDefinitionDigest = p.executionDefinitionDigest
  definition : e.executionDefinition = p.executionDefinition
  sequence : e.sequence = p.lastSequence + 1
  kind : KindAllowed p.executionDefinition.isCompensation e.payload
  status : StatusAllowed p.status e.payload
  verified : e.eventType = .RunCompleted → p.requiredVerifierIds.all (fun id =>
    id ∈ p.passedVerifierIds ∨ id ∈ p.verificationExceptionIds) = true

theorem assertKindAllowed_ok {p : RunProjection} {payload : EventPayload} :
    assertKindAllowed p payload (nextStatusFor payload) = .ok () ↔
      KindAllowed p.executionDefinition.isCompensation payload := by
  unfold assertKindAllowed KindAllowed
  cases p.executionDefinition.isCompensation <;>
    by_cases h₁ : payload.eventType ∈ [RunEventType.PlanningStarted, .ModelCallStarted,
      .ModelCallCompleted, .InputRequested, .InputSubmitted] <;>
    by_cases h₂ : nextStatusFor payload = some .planning <;>
    by_cases h₃ : payload.eventType = .CompensationRequested <;>
    simp_all [bind, Except.bind, pure, Except.pure, throw, throwThe, MonadExceptOf.throw]

/-- **The reducer.** -/
theorem reduceRunEvent_ok {p q : RunProjection} {e : RunEvent} :
    reduceRunEvent p e = .ok q ↔ Foldable p e ∧ q = p.fold e := by
  constructor
  · intro h
    unfold reduceRunEvent RunEvent.eventType at h
    simp only [bind, Except.bind, pure, Except.pure, throw, throwThe, MonadExceptOf.throw] at h
    split at h <;> rename_i h₁
    · cases h
    split at h <;> rename_i h₂
    · cases h
    split at h <;> rename_i h₃
    · cases h
    split at h <;> rename_i h₄
    · cases h
    simp only [not_or, not_not] at h₂
    have hrest : StatusAllowed p.status e.payload ∧
        (e.eventType = .RunCompleted → p.requiredVerifierIds.all (fun id =>
          id ∈ p.passedVerifierIds ∨ id ∈ p.verificationExceptionIds) = true) ∧
        q = p.fold e := by
      unfold StatusAllowed RunEvent.eventType
      cases hn : nextStatusFor e.payload <;> simp only [hn] at h ⊢
      all_goals
        split at h <;> rename_i hm
        · cases h
        split at h <;> rename_i hc
        · split at h <;> rename_i hv
          · cases h
          · cases h; exact ⟨not_not.mp hm, fun _ => not_not.mp hv, rfl⟩
        · cases h; exact ⟨not_not.mp hm, fun hc' => absurd hc' hc, rfl⟩
    exact ⟨⟨by simpa using h₁, h₂.1, h₂.2.1, h₂.2.2.1, h₂.2.2.2, not_not.mp h₃,
      assertKindAllowed_ok.mp h₄, hrest.1, hrest.2.1⟩, hrest.2.2⟩
  · rintro ⟨⟨h₁, h₂, h₃, h₄, h₅, h₆, h₇, h₈, h₉⟩, rfl⟩
    have hk := assertKindAllowed_ok.mpr h₇
    unfold reduceRunEvent
    simp only [bind, Except.bind, pure, Except.pure, throw, throwThe, MonadExceptOf.throw, h₁,
      h₂, h₃, h₄, h₅, h₆, hk]
    unfold StatusAllowed at h₈
    cases hn : nextStatusFor e.payload <;> simp only [hn] at h₈ ⊢
    all_goals
      by_cases hc : e.eventType = .RunCompleted
      · have hv := h₉ hc
        simp_all [RunEvent.eventType]
      · simp_all [RunEvent.eventType]

section Fold

variable (b p : RunProjection) (payload : EventPayload) (e : RunEvent)

@[simp] theorem apply_runId : (b.apply payload).runId = b.runId := by cases payload <;> rfl
@[simp] theorem apply_tenantId : (b.apply payload).tenantId = b.tenantId := by
  cases payload <;> rfl
@[simp] theorem apply_workOrderId : (b.apply payload).workOrderId = b.workOrderId := by
  cases payload <;> rfl
@[simp] theorem apply_workOrderBindingDigest :
    (b.apply payload).workOrderBindingDigest = b.workOrderBindingDigest := by
  cases payload <;> rfl
@[simp] theorem apply_executionDefinition :
    (b.apply payload).executionDefinition = b.executionDefinition := by cases payload <;> rfl
@[simp] theorem apply_executionDefinitionDigest :
    (b.apply payload).executionDefinitionDigest = b.executionDefinitionDigest := by
  cases payload <;> rfl
@[simp] theorem apply_status : (b.apply payload).status = b.status := by cases payload <;> rfl
@[simp] theorem apply_lastSequence : (b.apply payload).lastSequence = b.lastSequence := by
  cases payload <;> rfl
@[simp] theorem apply_lastEventId : (b.apply payload).lastEventId = b.lastEventId := by
  cases payload <;> rfl
@[simp] theorem apply_currentStepId : (b.apply payload).currentStepId = b.currentStepId := by
  cases payload <;> rfl
@[simp] theorem apply_updatedAt : (b.apply payload).updatedAt = b.updatedAt := by
  cases payload <;> rfl

@[simp] theorem fold_runId : (p.fold e).runId = p.runId := by simp [RunProjection.fold]
@[simp] theorem fold_tenantId : (p.fold e).tenantId = p.tenantId := by simp [RunProjection.fold]
@[simp] theorem fold_workOrderId : (p.fold e).workOrderId = p.workOrderId := by
  simp [RunProjection.fold]
@[simp] theorem fold_workOrderBindingDigest :
    (p.fold e).workOrderBindingDigest = p.workOrderBindingDigest := by simp [RunProjection.fold]
@[simp] theorem fold_executionDefinition :
    (p.fold e).executionDefinition = p.executionDefinition := by simp [RunProjection.fold]
@[simp] theorem fold_executionDefinitionDigest :
    (p.fold e).executionDefinitionDigest = p.executionDefinitionDigest := by
  simp [RunProjection.fold]
theorem fold_status :
    (p.fold e).status = (nextStatusFor e.payload).getD p.status := by simp [RunProjection.fold]
@[simp] theorem fold_lastSequence : (p.fold e).lastSequence = e.sequence := by
  simp [RunProjection.fold]
@[simp] theorem fold_lastEventId : (p.fold e).lastEventId = some e.eventId := by
  simp [RunProjection.fold]
@[simp] theorem fold_currentStepId :
    (p.fold e).currentStepId = e.payload.currentStep.or p.currentStepId := by
  simp [RunProjection.fold]
@[simp] theorem fold_updatedAt : (p.fold e).updatedAt = e.occurredAt := by
  simp [RunProjection.fold]

end Fold

/-! ### What the operations of a transaction do -/

section Operations

variable {s s' : Store}

theorem putRunProjection_ok {p : RunProjection} :
    (putRunProjection p).run s = .ok s' ↔ s.truth.projection = p ∧ s' = s := by
  simp [putRunProjection, Transaction.throwIf_ok]

theorem asRead_ok {p : RunProjection} :
    (asRead p).run s = .ok s' ↔ s.truth.projection = p ∧ s' = s := by
  simp [asRead, Transaction.throwIf_ok]

/-- An event is in the stream already, or it is appended to it. -/
theorem appendRunEvent_ok {e : RunEvent} (h : (appendRunEvent e).run s = .ok s') :
    (e ∈ s.truth.events ∧ s' = s) ∨
      ((∀ e' ∈ s.truth.events, e'.eventId ≠ e.eventId) ∧
        s.truth.events.length + 1 = e.sequence ∧ Foldable s.truth.projection e ∧
        s' = { s with truth := s.truth.push e (s.truth.projection.fold e) }) := by
  simp only [appendRunEvent, Transaction.choose_run] at h
  split at h
  · rename_i d hd
    split at h
    · rename_i heq
      subst heq
      cases h
      exact .inl ⟨List.mem_of_find?_eq_some hd, rfl⟩
    · cases h
  · rename_i hd
    split at h
    · cases h
    · rename_i hseq
      split at h
      · cases h
      · rename_i next hr
        obtain ⟨hf, rfl⟩ := reduceRunEvent_ok.mp hr
        cases h
        refine .inr ⟨fun e' he' => ?_, not_not.mp hseq, hf, rfl⟩
        simpa using List.find?_eq_none.mp hd e' he'

theorem appendRunEvent_of {e : RunEvent} (hid : ∀ e' ∈ s.truth.events, e'.eventId ≠ e.eventId)
    (hseq : s.truth.events.length + 1 = e.sequence) (hf : Foldable s.truth.projection e) :
    (appendRunEvent e).run s =
      .ok { s with truth := s.truth.push e (s.truth.projection.fold e) } := by
  have hnone : s.truth.events.find? (·.eventId = e.eventId) = none := by
    simpa [List.find?_eq_none] using hid
  simp only [appendRunEvent, Transaction.choose_run, hnone, hseq, ne_eq, not_true_eq_false,
    if_false, reduceRunEvent_ok.mpr ⟨hf, rfl⟩]
  rfl

/-- The operation leaves the truth of the run alone. -/
def Tx.Aside (f : Tx) : Prop :=
  ∀ {s s' : Store}, f.run s = .ok s' → s'.truth = s.truth

theorem Tx.Aside.andThen {f g : Tx} (hf : f.Aside) (hg : g.Aside) :
    Tx.Aside (Transaction.andThen f g) := by
  intro s s' h
  obtain ⟨s₁, h₁, h₂⟩ := Transaction.andThen_ok.mp h
  rw [hg h₂, hf h₁]

theorem skip_aside : Tx.Aside .skip := by
  intro s s' h
  cases h
  rfl

theorem reserveCapabilityGrantUse_aside (grantId key : String) (now : Instant) :
    (reserveCapabilityGrantUse grantId key now).Aside := by
  intro s s' h
  simp only [reserveCapabilityGrantUse, Transaction.choose_run] at h
  split at h
  · cases h; rfl
  · split at h
    · cases h
    · split at h
      · cases h
      · split at h <;> cases h
        rfl

theorem claimApproval_aside (approvalId key : String) (now : Instant) :
    (claimApproval approvalId key now).Aside := by
  intro s s' h
  simp only [claimApproval, Transaction.choose_run] at h
  split at h
  · rw [(Transaction.throwIf_ok.mp h).2]
  · split at h
    · cases h
    · split at h
      · cases h
      · split at h <;> cases h
        rfl

theorem putModelCallReservation_aside (r : ModelCallReservation) :
    (putModelCallReservation r).Aside := by
  intro s s' h
  simp only [putModelCallReservation, Transaction.choose_run] at h
  split at h
  · split at h <;> cases h
    rfl
  · split at h
    · cases h; rfl
    · split at h
      · cases h
      · split at h
        · cases h
        · split at h <;> cases h
          rfl

theorem putActiveExecutionReservation_aside (r : ActiveExecutionReservation) (maximum : Nat)
    (now : Instant) : (putActiveExecutionReservation r maximum now).Aside := by
  intro s s' h
  simp only [putActiveExecutionReservation, Transaction.choose_run] at h
  split at h
  · cases h
  · split at h
    · split at h
      · cases h
      · split at h <;> cases h
        rfl
    · split at h
      · cases h; rfl
      · split at h
        · cases h
        · split at h
          · rw [(Transaction.throwIf_ok.mp h).2]
          · split at h <;> cases h <;> rfl

theorem consumeDecisionChallenge_aside (challengeId commandId : String) (at_ : Instant) :
    (consumeDecisionChallenge challengeId commandId at_).Aside := by
  intro s s' h
  simp only [consumeDecisionChallenge, Transaction.choose_run] at h
  split at h
  · cases h
  · split at h
    · cases h
    · split at h
      · cases h; rfl
      · split at h
        · cases h
        · split at h <;> cases h
          rfl

theorem putDecisionRejection_aside (decisionId reasonCode : String) :
    (putDecisionRejection decisionId reasonCode).Aside := by
  intro s s' h
  simp only [putDecisionRejection, Transaction.choose_run] at h
  split at h <;> cases h
  rfl

theorem putDecisionChallenge_aside (challenge : DecisionChallenge) :
    (putDecisionChallenge challenge).Aside := by
  intro s s' h
  simp only [putDecisionChallenge, Transaction.choose_run] at h
  split at h <;> cases h
  rfl

theorem putDecisionGate_ok {gate : DecisionGate} (h : (putDecisionGate gate).run s = .ok s') :
    (s.truth.gates gate.decisionId = none ∨ s.truth.gates gate.decisionId = some gate) ∧
      s'.truth = { s.truth with gates := s.truth.gates.set gate.decisionId gate } := by
  simp only [putDecisionGate, Transaction.choose_run] at h
  split at h
  · cases h
  · split at h
    · rename_i existing hg
      split at h <;> cases h
      rename_i heq
      subst heq
      exact ⟨.inr hg, by rw [Table.set_eq_self hg]⟩
    · cases h
      exact ⟨.inl ‹_›, rfl⟩

theorem putApproval_ok {approval : Approval} (h : (putApproval approval).run s = .ok s') :
    (s.truth.approvals approval.id = none ∨ s.truth.approvals approval.id = some approval) ∧
      s'.truth = { s.truth with approvals := s.truth.approvals.set approval.id approval } := by
  simp only [putApproval, Transaction.choose_run] at h
  split at h
  · cases h
  · split at h
    · cases h
    · split at h <;> cases h
      rename_i hx
      refine ⟨?_, rfl⟩
      cases ha : s.truth.approvals approval.id with
      | none => exact .inl rfl
      | some x => exact .inr (by simpa [ha] using hx)

theorem putInputSubmission_ok {record : InputSubmissionRecord} {now : Instant}
    (h : (putInputSubmission record now).run s = .ok s') :
    s.truth.getSubmission record.requestId now = none ∧
      s'.truth =
        { s.truth with submissions := s.truth.submissions.set record.requestId record } := by
  simp only [putInputSubmission, Transaction.choose_run] at h
  split at h <;> cases h
  exact ⟨‹_›, rfl⟩

theorem putAuthorizationReservation_ok {r : AuthorizationReservation}
    (h : (putAuthorizationReservation r).run s = .ok s') :
    ∃ authorizations keys, s'.truth =
      { s.truth with authorizations := authorizations, authorizationKeys := keys } := by
  simp only [putAuthorizationReservation, Transaction.choose_run] at h
  split at h
  · split at h <;> cases h
    exact ⟨_, _, rfl⟩
  · split at h <;> cases h
    exact ⟨_, _, rfl⟩

theorem putProtectedEffectResult_ok {r : ProtectedEffectResult}
    (h : (putProtectedEffectResult r).run s = .ok s') :
    ∃ results digests, s'.truth =
      { s.truth with results := results, resultDigests := digests } := by
  simp only [putProtectedEffectResult, Transaction.choose_run] at h
  split at h
  · cases h
  · split at h
    · cases h
    · split at h
      · cases h
      · split at h
        · split at h <;> cases h
          exact ⟨_, _, rfl⟩
        · split at h <;> cases h
          exact ⟨_, _, rfl⟩

/-- A record is in the ledger already, or it advances the one that is. -/
theorem putEffectRecord_ok {E : Encoding} {r : EffectRecord}
    (h : (putEffectRecord E r).run s = .ok s') :
    (∀ id, s.truth.effectKeys r.effectKey = some id → id = r.effectId) ∧
      ((s.truth.effects r.effectId = some r ∧ s' = s) ∨
        (s'.truth = s.truth.putEffect r ∧
          ∀ x, s.truth.effects r.effectId = some x →
            isEffectTransitionAllowed x.state.name r.state.name r.strategy = true)) := by
  simp only [putEffectRecord, Transaction.choose_run] at h
  split at h
  · cases h
  split at h
  · cases h
  split at h
  · cases h
  split at h
  · cases h
  rename_i hkey
  split at h
  · cases h
  have hid : ∀ id, s.truth.effectKeys r.effectKey = some id → id = r.effectId := by
    intro id hid
    simpa [hid] using hkey
  split at h
  · rename_i existing hx
    split at h
    · rename_i heq
      cases h
      exact ⟨hid, .inl ⟨heq ▸ hx, rfl⟩⟩
    · split at h <;> cases h
      rename_i hne hok
      simp only [not_or, not_not] at hok
      refine ⟨hid, .inr ⟨rfl, fun x hx' => ?_⟩⟩
      rw [hx] at hx'
      cases hx'
      exact hok.2.1
  · rename_i hx
    cases h
    exact ⟨hid, .inr ⟨rfl, fun x hx' => by rw [hx] at hx'; cases hx'⟩⟩

/-- A snapshot of the same identity is there already, or the snapshot is added. -/
theorem putContextSnapshot_ok {snapshot : ContextSnapshot}
    (h : (putContextSnapshot snapshot).run s = .ok s') :
    (∃ x ∈ s.truth.snapshots, x.snapshotId = snapshot.snapshotId) ∨
      s'.truth = { s.truth with snapshots := s.truth.snapshots ++ [snapshot] } := by
  simp only [putContextSnapshot, Transaction.choose_run] at h
  split at h
  · rename_i existing hx
    exact .inl ⟨existing, List.mem_of_find?_eq_some hx, by simpa using List.find?_some hx⟩
  · cases h
    exact .inr rfl

end Operations

end Pactmark
