import Pactmark.Agent.Within

/-!
# Agent — the commands leave the budgets alone

A command commits one transaction, and none of the events it may contain is a budgeted one.
-/

namespace Pactmark

open Durable

/-- The transaction leaves the budgets alone. -/
class IsGrowing (f : Tx) : Prop where
  grew : ∀ {s s'}, f.run s = .ok s' → Grew s s'

instance (f g : Tx) [hf : IsGrowing f] [hg : IsGrowing g] : IsGrowing (f.andThen g) := by
  refine ⟨fun h => ?_⟩
  obtain ⟨s₁, h₁, h₂⟩ := Transaction.andThen_ok.mp h
  exact (hf.grew h₁).trans (hg.grew h₂)

theorem Tx.Beside.grew {f : Tx} (hf : f.Beside) {s s' : Store} (h : f.run s = .ok s') :
    Grew s s' := by
  obtain ⟨he, hp, hn⟩ := hf h
  have hw := (f.grows h).1
  exact ⟨hw, ⟨[], by simp [he]⟩, fun x hx => .inl (hn ▸ hx), by rw [hw, he, hp]; exact id⟩

instance (f : Tx) [hf : IsBeside f] : IsGrowing f := ⟨Tx.Beside.grew hf.beside⟩

theorem appendRunEvent_growing {e : RunEvent} (he : e.payload.budgeted = false) :
    IsGrowing (appendRunEvent e) := by
  refine ⟨fun {s s'} h => ?_⟩
  rcases appendRunEvent_ok h with ⟨-, rfl⟩ | ⟨hfresh, -, hf, rfl⟩
  · exact Grew.refl s'
  · refine ⟨rfl, ⟨[e], rfl, fun e' he' => ?_⟩, fun x hx => .inl hx, fun hst => ?_⟩
    · rw [List.mem_singleton.mp he', he]
    · exact hst.push ⟨hf, hfresh⟩

instance (p : RunProjection) : IsBeside (putRunProjection p) := by
  refine ⟨fun h => ?_⟩
  rw [(putRunProjection_ok.mp h).2]
  exact ⟨rfl, rfl, rfl⟩

instance (p : RunProjection) : IsBeside (asRead p) := by
  refine ⟨fun h => ?_⟩
  rw [(asRead_ok.mp h).2]
  exact ⟨rfl, rfl, rfl⟩

instance (r : InputSubmissionRecord) (now : Instant) : IsBeside (putInputSubmission r now) := by
  refine ⟨fun h => ?_⟩
  rw [(putInputSubmission_ok h).2]
  exact ⟨rfl, rfl, rfl⟩

instance (challengeId commandId : String) (now : Instant) :
    IsBeside (consumeDecisionChallenge challengeId commandId now) :=
  ⟨Tx.Aside.beside (consumeDecisionChallenge_aside challengeId commandId now)⟩

instance (a : Approval) : IsBeside (putApproval a) := by
  refine ⟨fun h => ?_⟩
  rw [(putApproval_ok h).2]
  exact ⟨rfl, rfl, rfl⟩

instance (decisionId reasonCode : String) : IsBeside (putDecisionRejection decisionId reasonCode) :=
  ⟨Tx.Aside.beside (putDecisionRejection_aside decisionId reasonCode)⟩

instance (challenge : DecisionChallenge) : IsBeside (putDecisionChallenge challenge) :=
  ⟨Tx.Aside.beside (putDecisionChallenge_aside challenge)⟩

/-- A command whose callback yields only transactions that leave the budgets alone. -/
theorem within_commandTransaction {command : CommandContext} {callback : Runtime Tx}
    (hc : Within callback) (hr : callback.Returns IsGrowing) :
    Within (commandTransaction command callback) := by
  unfold commandTransaction
  refine within_bind inferInstance fun seen => ?_
  cases seen with
  | some digest => infer_instance
  | none =>
      refine ⟨fun s => Prog.solo_bind (((hc.solo s).returns hr).mono (fun tx s₁ h₁ => ?_)
        fun _ _ => id)⟩
      obtain ⟨h₁, htx⟩ := h₁
      refine Prog.solo_commit (fun s₂ h₂ => ?_) fun _ => h₁
      have h₂ : Grew s₁ s₂ := by
        simp only [transactCommand, Transaction.choose_run] at h₂
        split at h₂
        · rw [(Transaction.throwIf_ok.mp h₂).2]
          exact Grew.refl s₁
        · obtain ⟨s₃, h₃, h₄⟩ := Transaction.andThen_ok.mp h₂
          cases h₄
          obtain ⟨hw, he, hn, hst⟩ := htx.grew h₃
          exact ⟨hw, he, hn, hst⟩
      exact ⟨h₁.trans h₂, h₁.trans h₂⟩

section Commands

variable (K : Config) (runId : String) (command : CommandContext)

theorem eventTransaction_growing (p : RunProjection) (writes : Tx) [IsBeside writes]
    {e : RunEvent} (he : e.payload.budgeted = false) (next : RunProjection) :
    IsGrowing (eventTransaction p writes e next) := by
  have := appendRunEvent_growing he
  simp only [eventTransaction, Transaction.sequence_cons, Transaction.sequence_nil]
  infer_instance

theorem returns_event (wo : WorkOrder) (p : RunProjection) (payload : EventPayload) :
    (event K wo p.runId (p.lastSequence + 1) payload none).Returns fun e => e.payload = payload :=
  fun _ => rfl

theorem returns_appendCommand (wo : WorkOrder) (p : RunProjection) {payload : EventPayload}
    (writes : Tx) [IsBeside writes] (h : payload.budgeted = false) :
    (appendCommand K wo p payload writes).Returns IsGrowing := by
  unfold appendCommand
  refine (returns_event K wo p payload).bind fun e he => (Prog.returns_true _).bind fun next _ => ?_
  exact eventTransaction_growing p writes (by rw [he, h]) next

instance (wo : WorkOrder) (p : RunProjection) (payload : EventPayload) (writes : Tx) :
    Calm (appendCommand K wo p payload writes) := by
  unfold appendCommand
  infer_instance

instance : Calm loadWorkOrder := by
  unfold loadWorkOrder
  infer_instance

instance (wo : WorkOrder) (p : RunProjection) (q step : String) (e : RunEvent) (schema : Digest)
    (v : JsonValue) (claims : Claims) (now : Instant) :
    Calm (answerRequest K wo p q step e schema v claims command now) := by
  unfold answerRequest
  infer_instance

instance (claims : Claims) (q : String) (v : JsonValue) (now : Instant) :
    Calm (submitFresh K claims q v command now) := by
  unfold submitFresh
  refine calm_bind inferInstance fun _ => calm_bind inferInstance fun _ => ?_
  refine calm_bind inferInstance fun _ => calm_bind inferInstance fun _ => ?_
  refine calm_bind inferInstance fun _ => ?_
  split
  · infer_instance
  · split <;> infer_instance

instance (claims : Claims) (r : InputSubmissionRecord) (v : JsonValue) :
    Calm (resubmitInput K claims r v) := by
  unfold resubmitInput
  infer_instance

theorem returns_submitFresh (claims : Claims) (q : String) (v : JsonValue) (now : Instant) :
    (submitFresh K claims q v command now).Returns IsGrowing := by
  unfold submitFresh
  refine (Prog.returns_true _).bind fun p _ => (Prog.returns_true _).bind fun _ _ => ?_
  refine (Prog.returns_true _).bind fun wo _ => (Prog.returns_true _).bind fun _ _ => ?_
  refine (Prog.returns_true _).bind fun events _ => ?_
  split
  · trivial
  · split
    · unfold answerRequest
      refine (Prog.returns_true _).bind fun _ _ => (Prog.returns_true _).bind fun _ _ => ?_
      refine (Prog.returns_true _).bind fun _ _ => (Prog.returns_true _).bind fun _ _ => ?_
      refine (Prog.returns_true _).bind fun _ _ => ?_
      exact returns_appendCommand K wo p _ rfl
    · trivial

instance (q : String) (v : JsonValue) : Within (submitInput K runId q v command) := by
  unfold submitInput
  refine within_bind inferInstance fun claims => within_bind inferInstance fun _ => ?_
  refine within_commandTransaction ?_ ?_
  · refine within_bind inferInstance fun now => within_bind inferInstance fun existing => ?_
    cases existing <;> infer_instance
  · refine (Prog.returns_true _).bind fun now _ => (Prog.returns_true _).bind fun existing _ => ?_
    cases existing with
    | none => exact returns_submitFresh K command claims q v now
    | some existing =>
        refine (Prog.returns_true _).bind fun _ _ => (Prog.returns_true _).bind fun _ _ => ?_
        exact inferInstanceAs (IsGrowing .skip)

/-! ### Decisions -/

instance (decisionId : String) : Calm (waitingDecision decisionId) := by
  unfold waitingDecision
  infer_instance

instance (claims : Claims) (p : RunProjection) (decisionId : String) :
    Calm (waitingGate K claims p decisionId) := by
  unfold waitingGate
  refine calm_bind inferInstance fun gate => ?_
  cases gate <;> infer_instance

instance (claims : Claims) (decisionId : String) (proof : Digest) :
    Calm (decisionContext K claims decisionId proof) := by
  unfold decisionContext
  refine calm_bind inferInstance fun _ => calm_bind inferInstance fun _ => ?_
  refine calm_bind inferInstance fun challenge => calm_bind inferInstance fun _ => ?_
  cases challenge <;> infer_instance

instance (decisionId : String) : Within (issueDecisionChallenge K runId decisionId command) := by
  unfold issueDecisionChallenge
  refine within_bind inferInstance fun _ => within_bind inferInstance fun _ => ?_
  refine within_bind inferInstance fun _ => within_bind inferInstance fun _ => ?_
  refine within_bind inferInstance fun _ => within_bind inferInstance fun _ => ?_
  refine within_bind inferInstance fun _ => within_commandTransaction inferInstance ?_
  refine (Prog.returns_true _).bind fun _ _ => (Prog.returns_true _).bind fun _ _ => ?_
  refine (Prog.returns_true _).bind fun _ _ => ?_
  exact inferInstanceAs (IsGrowing (putDecisionChallenge _))

instance (decisionId : String) (proof : Digest) :
    Within (approve K runId decisionId proof command) := by
  unfold approve
  refine within_bind inferInstance fun _ => within_commandTransaction inferInstance ?_
  refine (Prog.returns_true _).bind fun _ _ => (Prog.returns_true _).bind fun _ _ => ?_
  refine (Prog.returns_true _).bind fun _ _ => (Prog.returns_true _).bind fun _ _ => ?_
  refine (Prog.returns_true _).bind fun _ _ => ?_
  exact returns_appendCommand K _ _ _ rfl

instance (decisionId : String) (proof : Digest) (reason : String) :
    Within (reject K runId decisionId proof reason command) := by
  unfold reject
  refine within_bind inferInstance fun _ => within_commandTransaction inferInstance ?_
  refine (Prog.returns_true _).bind fun _ _ => (Prog.returns_true _).bind fun _ _ => ?_
  refine (Prog.returns_true _).bind fun _ _ => ?_
  exact returns_appendCommand K _ _ _ rfl

/-! ### Reconciling and cancelling -/

instance (wo : WorkOrder) (r : EffectRecord) (registration : ToolRegistration) (key : String) :
    Calm (lookupRecovered K wo r registration key) := by
  unfold lookupRecovered
  refine calm_bind inferInstance fun _ => calm_bind inferInstance fun lookup => ?_
  cases lookup <;> infer_instance

instance (wo : WorkOrder) (r : EffectRecord) (registration : ToolRegistration)
    (strategy : EffectStrategy) (resolution : Resolution) :
    Calm (recoverResult K wo r registration strategy resolution) := by
  cases resolution with
  | abandon_uncertain => exact inferInstanceAs (Calm (Prog.pure _))
  | recovered_acknowledgement =>
      simp only [recoverResult]
      split <;> infer_instance

instance (effectId : String) (digest : Digest) : Calm (reconciling effectId digest) := by
  unfold reconciling
  refine calm_bind inferInstance fun _ => calm_bind inferInstance fun _ => ?_
  split <;> infer_instance

instance (effectId : String) : Calm (suspendedEffect effectId) := by
  unfold suspendedEffect
  refine calm_bind inferInstance fun _ => calm_bind inferInstance fun _ => ?_
  refine calm_bind inferInstance fun _ => ?_
  split <;> infer_instance

instance (wo : WorkOrder) (r : EffectRecord) : Calm (reconciliationRegistration wo r) := by
  unfold reconciliationRegistration
  refine calm_bind inferInstance fun _ => calm_bind inferInstance fun _ => ?_
  refine calm_bind inferInstance fun _ => calm_bind inferInstance fun _ => ?_
  split <;> infer_instance

instance (wo : WorkOrder) (effectId : String) (digest : Digest) (resolution : Resolution)
    (commandId : String) (recovered : Option (EffectExecution × ProtectedEffectResult)) :
    Calm (resolveEffect K wo effectId digest resolution commandId recovered) := by
  unfold resolveEffect acknowledgeRecovered abandonUncertain
  refine calm_bind inferInstance fun _ => calm_bind inferInstance fun _ => ?_
  refine calm_bind inferInstance fun _ => ?_
  split <;> infer_instance

theorem returns_resolveEffect (wo : WorkOrder) (effectId : String) (digest : Digest)
    (resolution : Resolution) (commandId : String)
    (recovered : Option (EffectExecution × ProtectedEffectResult)) :
    (resolveEffect K wo effectId digest resolution commandId recovered).Returns IsGrowing := by
  unfold resolveEffect
  refine (Prog.returns_true _).bind fun found _ => ?_
  refine (returns_event K wo found.1 _).bind fun e he => (Prog.returns_true _).bind fun next _ => ?_
  have recorded := appendRunEvent_growing (e := e) (by rw [he])
  split
  · unfold acknowledgeRecovered
    refine (returns_event K wo next _).bind fun e' he' => (Prog.returns_true _).bind fun q _ => ?_
    have acknowledged := appendRunEvent_growing (e := e') (by rw [he'])
    show IsGrowing (recoverTransaction ..)
    simp only [recoverTransaction, Transaction.sequence_cons, Transaction.sequence_nil]
    infer_instance
  · unfold abandonUncertain
    refine (Prog.returns_true _).bind fun _ _ => ?_
    refine (returns_event K wo next _).bind fun e' he' => (Prog.returns_true _).bind fun q _ => ?_
    have failed := appendRunEvent_growing (e := e') (by rw [he'])
    show IsGrowing (abandonTransaction ..)
    simp only [abandonTransaction, Transaction.sequence_cons, Transaction.sequence_nil]
    infer_instance
  · trivial

instance (effectId : String) (resolution : Resolution) :
    Within (reconcileEffect K runId effectId resolution command) := by
  unfold reconcileEffect
  refine within_bind inferInstance fun _ => within_bind inferInstance fun _ => ?_
  refine within_bind inferInstance fun _ => within_bind inferInstance fun _ => ?_
  refine within_bind inferInstance fun _ => within_bind inferInstance fun _ => ?_
  refine within_bind inferInstance fun _ => within_commandTransaction inferInstance ?_
  exact returns_resolveEffect K _ _ _ _ _ _

instance (reason : String) : Within (cancel K runId reason command) := by
  unfold cancel
  refine within_bind inferInstance fun _ => within_commandTransaction inferInstance ?_
  refine (Prog.returns_true _).bind fun p _ => ?_
  split
  · exact inferInstanceAs (IsGrowing .skip)
  · refine (Prog.returns_true _).bind fun _ _ => ?_
    exact returns_appendCommand K _ _ _ rfl

/-- No command but `resume` counts against a budget. -/
theorem Commanded.within {p : Runtime Unit} (h : Commanded K runId p) : Within p := by
  cases h <;> infer_instance

end Commands

end Pactmark
