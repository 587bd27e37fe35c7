import Pactmark.Protocol.Truth

/-!
# Protocol — the commits of a run

`ExecutorCommit` and `CommandCommit` are the ways one transaction of an `execute`, and one of a
command, may change the truth of a run: what is appended, what is written beside it, and what
has to hold before.  They are the abstract protocol.  `Coherent.executorCommit` and
`Coherent.commandCommit` show that it keeps a run coherent; that the programs of the kernel
commit nothing else is proved later, function by function.
-/

namespace Pactmark

open Durable

/-- The truth once `e` is appended, with the snapshot written beside it. -/
def RunTruth.add (c : RunTruth) (e : RunEvent) (sn : Option ContextSnapshot := none) : RunTruth :=
  { c with
    events := c.events ++ [e]
    projection := c.projection.fold e
    snapshots := c.snapshots ++ sn.toList }

/-- The events an `execute` appends with nothing but a checkpoint beside them. -/
def EventPayload.plain : EventPayload → Bool
  | .PlanningStarted .. | .ModelCallStarted .. | .ModelCallCompleted .. | .ExecutionStarted ..
  | .ToolCallRequested .. | .ToolCallCompleted .. | .RetryScheduled .. | .RetryResumed ..
  | .InputRequested .. | .ArtifactProduced .. | .VerificationStarted ..
  | .VerificationRecorded .. | .CompensationRequested .. => true
  | _ => false

/-- The events that end a run. -/
def EventPayload.ended : EventPayload → Bool
  | .RunCompleted .. | .RunFailed .. | .RunCancelled .. => true
  | _ => false

section

variable (K : Config) (H : Prop) (wo : WorkOrder)

/-- The checkpoint of an agent run is written with the event, and is good for what it says. -/
def Checkpointed (c : RunTruth) (e : RunEvent) (k : Option Checkpoint)
    (sn : Option ContextSnapshot) : Prop :=
  Saves K wo e k sn ∧ (wo.isCompensation = false →
    ∃ k', k = some k' ∧ Carries (c.projection.fold e) k' e.payload)

/-- What one transaction of an `execute` does. -/
inductive ExecutorCommit (c : RunTruth) : RunTruth → Prop where
  | plain {e : RunEvent} {k : Option Checkpoint} {sn : Option ContextSnapshot}
      (next : Next c.events c.projection e) (hp : e.payload.plain = true)
      (saves : Checkpointed K wo c e k sn) (clear : Clear c.effects)
      (settled : H → Settled c.effects) : ExecutorCommit c (c.add e sn)
  | ended {e : RunEvent} (next : Next c.events c.projection e) (hp : e.payload.ended = true) :
      ExecutorCommit c (c.add e)
  | suspend {e : RunEvent} {step : String} {target : ResumeTarget} {reason : String}
      (next : Next c.events c.projection e)
      (hp : e.payload = .RunSuspended step target reason none)
      (agent : wo.isCompensation = false) (clear : Clear c.effects) :
      ExecutorCommit c (c.add e)
  | requestApproval {e : RunEvent} {step d : String} {gateDigest effectDigest : Digest}
      {gate : DecisionGate} (next : Next c.events c.projection e)
      (hp : e.payload = .ApprovalRequested step d gateDigest effectDigest)
      (hg : GateOf K wo e.runId e.eventId step d gateDigest effectDigest gate)
      (old : c.gates d = none ∨ c.gates d = some gate)
      (tool : K.contextCheckpointEnabled = true → wo.isCompensation = false →
        Behind 0 c.projection c.snapshots fun k =>
          k.phase = .tool ∧ k.stepId = some step ∧ k.OfTool)
      (clear : Clear c.effects) (settled : H → Settled c.effects) :
      ExecutorCommit c { c.add e with gates := c.gates.set d gate }
  | prepare {e : RunEvent} {step : String} {effectDigest : Digest} {r : EffectRecord}
      {authorizations : Table AuthorizationReservation} {keys : Table String}
      (next : Next c.events c.projection e)
      (hp : e.payload = .EffectPrepared step r.effectId effectDigest r.effectKey r.strategy)
      (state : r.state = .prepared) (absent : c.effects r.effectId = none)
      (unkeyed : c.effectKeys r.effectKey = none) (services : K.effectServices = true)
      (clear : Clear c.effects) (settled : H → Settled c.effects) :
      ExecutorCommit c
        { (c.add e).putEffect r with
          authorizations := authorizations, authorizationKeys := keys }
  | dispatch {e : RunEvent} {step : String} {r : EffectRecord} {t : Instant}
      {k : Option Checkpoint} {sn : Option ContextSnapshot}
      (next : Next c.events c.projection e)
      (hp : e.payload = .EffectDispatched step r.effectId 1)
      (hr : c.effects r.effectId = some r) (state : r.state = .prepared)
      (saves : Checkpointed K wo c e k sn)
      (keys : ∀ k', k = some k' → k'.phase = .tool ∧ k'.Keys K wo c.projection.runId r)
      (clear : Clear c.effects) (settled : H → Settled c.effects) :
      ExecutorCommit c ((c.add e sn).putEffect (r.advance t (.dispatched t)))
  | redispatch {e : RunEvent} {step : String} {r : EffectRecord} {n : Nat}
      {k : Option Checkpoint} {sn : Option ContextSnapshot}
      (next : Next c.events c.projection e)
      (hp : e.payload = .EffectDispatched step r.effectId n)
      (hr : c.effects r.effectId = some r) (state : r.state.name = .dispatched)
      (strategy : r.strategy = .reconcilable) (saves : Checkpointed K wo c e k sn)
      (keys : ∀ k', k = some k' → k'.phase = .tool ∧ k'.Keys K wo c.projection.runId r)
      (clear : Clear c.effects)
      (settled : H → SettledBut r.effectId c.effects) : ExecutorCommit c (c.add e sn)
  | acknowledge {e : RunEvent} {step : String} {r : EffectRecord} {digest : Digest}
      {ack : EffectAcknowledgement} {t : Instant} {k : Option Checkpoint}
      {sn : Option ContextSnapshot} {results : Table ProtectedEffectResult}
      {digests : Table String} (next : Next c.events c.projection e)
      (hp : e.payload = .EffectAcknowledged step r.effectId digest ack)
      (hr : c.effects r.effectId = some r) (state : r.state.name = .dispatched)
      (running : c.projection.status = .running)
      (saves : Checkpointed K wo c e k sn) (clear : Clear c.effects)
      (settled : H → SettledBut r.effectId c.effects) :
      ExecutorCommit c
        { (c.add e sn).putEffect (r.advance t (.acknowledged digest ack)) with
          results := results, resultDigests := digests }
  | uncertain {e : RunEvent} {step code : String} {r : EffectRecord} {t t' : Instant}
      (next : Next c.events c.projection e)
      (hp : e.payload = .EffectUncertain step r.effectId code)
      (hr : c.effects r.effectId = some r) (state : r.state.name = .dispatched)
      (clear : Clear c.effects) (settled : H → SettledBut r.effectId c.effects) :
      ExecutorCommit c ((c.add e).putEffect (r.advance t (.unknown t' code)))
  | park {e : RunEvent} {step : String} {target : ResumeTarget} {reason : String}
      {r : EffectRecord} (next : Next c.events c.projection e)
      (hp : e.payload = .RunSuspended step target reason (some r.effectId))
      (hr : c.effects r.effectId = some r) (state : r.state.name = .unknown)
      (clear : ClearBut r.effectId c.effects) (settled : H → Settled c.effects) :
      ExecutorCommit c (c.add e)
  | needsReconciliation {e : RunEvent} {step code : String} {r : EffectRecord} {t : Instant}
      (next : Next c.events c.projection e)
      (hp : e.payload = .EffectNeedsReconciliation step r.effectId)
      (hr : c.effects r.effectId = some r) (state : r.state.name = .unknown)
      (active : c.projection.activeEffectId = some r.effectId) :
      ExecutorCommit c ((c.add e).putEffect (r.advance t (.needs_reconciliation code)))

/-- What one transaction of a command does. -/
inductive CommandCommit (c : RunTruth) : RunTruth → Prop where
  | cancel {e : RunEvent} {step : Option String} {reason actor : String}
      (next : Next c.events c.projection e) (hp : e.payload = .RunCancelled step reason actor) :
      CommandCommit c (c.add e)
  | submit {e : RunEvent} {step q id prompt : String} {schema digest : Digest}
      {submissions : Table InputSubmissionRecord} (next : Next c.events c.projection e)
      (hp : e.payload = .InputSubmitted step q id schema digest)
      (last : lastPayload c.events = some (.InputRequested step q schema prompt))
      (status : c.projection.status = .waiting_for_input) :
      CommandCommit c { c.add e with submissions := submissions }
  | approve {e : RunEvent} {step d : String} {gate : DecisionGate} {approval : Approval}
      (next : Next c.events c.projection e)
      (hp : e.payload = .ApprovalRecorded step d approval.id .running)
      (status : c.projection.status = .waiting_for_approval)
      (decision : c.projection.waitingDecisionId = some d)
      (hg : c.gates d = some gate) (hs : gate.binding.stepId = step)
      (binding : approval.binding = gate.binding)
      (old : c.approvals approval.id = none ∨ c.approvals approval.id = some approval) :
      CommandCommit c { c.add e with approvals := c.approvals.set approval.id approval }
  | reject {e : RunEvent} {step d reason : String} (next : Next c.events c.projection e)
      (hp : e.payload = .ApprovalRejected step d .failed reason)
      (status : c.projection.status = .waiting_for_approval) : CommandCommit c (c.add e)
  | recover {e₁ e₂ : RunEvent} {step₁ step₂ commandId : String} {kind : ResolutionKind}
      {r : EffectRecord} {digest : Digest} {ack : EffectAcknowledgement} {t : Instant}
      {results : Table ProtectedEffectResult} {digests : Table String}
      (next₁ : Next c.events c.projection e₁)
      (hp₁ : e₁.payload = .EffectReconciliationRecorded step₁ r.effectId kind commandId)
      (next₂ : Next (c.events ++ [e₁]) (c.projection.fold e₁) e₂)
      (hp₂ : e₂.payload = .EffectAcknowledged step₂ r.effectId digest ack)
      (hr : c.effects r.effectId = some r) (state : r.state.name = .needs_reconciliation)
      (active : c.projection.activeEffectId = some r.effectId) :
      CommandCommit c
        { ((c.add e₁).add e₂).putEffect (r.advance t (.acknowledged digest ack)) with
          results := results, resultDigests := digests }
  | abandon {e₁ e₂ : RunEvent} {step₁ commandId : String} {step₂ : Option String}
      {kind : ResolutionKind} {r : EffectRecord} {code : KafErrorCode} {details : ErrorDetails}
      {t : Instant} {reason : String} {refs : List String}
      (next₁ : Next c.events c.projection e₁)
      (hp₁ : e₁.payload = .EffectReconciliationRecorded step₁ r.effectId kind commandId)
      (next₂ : Next (c.events ++ [e₁]) (c.projection.fold e₁) e₂)
      (hp₂ : e₂.payload = .RunFailed step₂ code details)
      (hr : c.effects r.effectId = some r) (state : r.state.name = .needs_reconciliation)
      (active : c.projection.activeEffectId = some r.effectId) :
      CommandCommit c (((c.add e₁).add e₂).putEffect (r.advance t (.abandoned reason refs)))

end

/-! ### The statuses the reducer admits an event in -/

section Statuses

variable {p : RunProjection} {e : RunEvent}

/-- An event of a running effect is admitted in a running run only. -/
theorem Foldable.running (h : Foldable p e)
    (ht : e.payload.eventType = .EffectPrepared ∨ e.payload.eventType = .EffectDispatched ∨
      e.payload.eventType = .EffectUncertain) :
    p.status = .running ∧ (p.fold e).status = .running := by
  have hs := h.status
  cases hp : e.payload <;> simp_all [EventPayload.eventType, StatusAllowed, nextStatusFor, fold_status] <;>
    cases hst : p.status <;> simp_all [STATE_PRESERVING_EVENTS]

theorem Foldable.suspended (h : Foldable p e)
    (ht : e.payload.eventType = .EffectNeedsReconciliation ∨
      e.payload.eventType = .EffectReconciliationRecorded) :
    p.status = .suspended ∧ (p.fold e).status = .suspended := by
  have hs := h.status
  cases hp : e.payload <;> simp_all [EventPayload.eventType, StatusAllowed, nextStatusFor, fold_status] <;>
    cases hst : p.status <;> simp_all [STATE_PRESERVING_EVENTS]

theorem Foldable.plain (h : Foldable p e) (hp : e.payload.plain = true) :
    (p.fold e).status = .planning ∨ (p.fold e).status = .running ∨
      (p.fold e).status = .verifying ∨
      ((p.fold e).status = .waiting_for_input ∧ e.payload.eventType = .InputRequested) := by
  have hs := h.status
  cases hq : e.payload <;>
    simp_all [EventPayload.plain, StatusAllowed, nextStatusFor, EventPayload.eventType,
      fold_status] <;>
    cases hst : p.status <;> simp_all [STATE_PRESERVING_EVENTS]

/-- No event takes a run back to where it was created. -/
theorem Foldable.born (h : Foldable p e) : (p.fold e).status ≠ .created := by
  have hs := h.status
  rw [fold_status]
  unfold StatusAllowed at hs
  cases hn : nextStatusFor e.payload <;> rw [hn] at hs <;> simp only [Option.getD] <;>
    rintro hc
  · simp [hc, STATE_PRESERVING_EVENTS] at hs
  · subst hc
    cases hst : p.status <;> simp [hst, RUN_TRANSITIONS] at hs

theorem Foldable.ended (hp : e.payload.ended = true) : (p.fold e).status.terminal = true := by
  cases hq : e.payload <;>
    simp_all [EventPayload.ended, nextStatusFor, RunStatus.terminal, fold_status]

end Statuses

/-! ### The invariants, by status -/

theorem ClearTail.of_ne {events : List RunEvent} {effects : Table EffectRecord} {e : RunEvent}
    (hu : e.payload.eventType ≠ .EffectUncertain) (hd : e.payload.eventType ≠ .EffectDispatched) :
    ClearTail (events ++ [e]) effects := by
  unfold ClearTail
  rw [lastPayload_concat]
  cases hp : e.payload <;> simp_all [EventPayload.eventType]

theorem Reconciliation.of_clear {wo : WorkOrder} {events : List RunEvent} {p : RunProjection}
    {effects : Table EffectRecord} (hs : p.status ≠ .suspended) (ha : p.status ≠ .accepted)
    (h : Clear effects) (ht : ClearTail events effects) : Reconciliation wo events p effects := by
  unfold Reconciliation
  cases hp : p.status <;> simp_all

theorem Reconciliation.of_terminal {wo : WorkOrder} {events : List RunEvent} {p : RunProjection}
    {effects : Table EffectRecord} (hs : p.status.terminal = true) :
    Reconciliation wo events p effects := by
  unfold Reconciliation
  cases hp : p.status <;> simp_all [RunStatus.terminal]

section Dispatch

variable {K : Config} {wo : WorkOrder} {events : List RunEvent} {p : RunProjection}
  {effects : Table EffectRecord} {snapshots : List ContextSnapshot}

theorem Dispatch.of_settled (h : Settled effects) :
    Dispatch K wo events p effects snapshots := by
  unfold Dispatch
  cases p.status <;> simp [h]

theorem Dispatch.of_terminal (hs : p.status.terminal = true) :
    Dispatch K wo events p effects snapshots := by
  unfold Dispatch
  cases hp : p.status <;> simp_all [RunStatus.terminal]

end Dispatch

theorem Waiting.of_ne {events : List RunEvent} {p : RunProjection}
    (h₁ : p.status ≠ .waiting_for_input) (h₂ : p.status ≠ .waiting_for_approval) :
    Waiting events p :=
  ⟨fun h => absurd h h₁, fun h => absurd h h₂⟩

theorem Waiting.of_terminal {events : List RunEvent} {p : RunProjection}
    (h : p.status.terminal = true) : Waiting events p :=
  .of_ne (by rintro h'; rw [h'] at h; cases h) (by rintro h'; rw [h'] at h; cases h)

theorem Resumption.of_ne {events : List RunEvent} {p : RunProjection}
    {snapshots : List ContextSnapshot} (h : p.status.terminal = true ∨ p.status = .suspended) :
    Resumption events p snapshots := by
  unfold Resumption
  cases hp : p.status <;> simp_all [RunStatus.terminal]

/-- A run that has been planned has a snapshot. -/
theorem Resumption.latest {events : List RunEvent} {p : RunProjection}
    {snapshots : List ContextSnapshot} (h : Resumption events p snapshots)
    (hs : p.status = .running) : ∃ n, Behind n p snapshots fun _ => True := by
  have weaken : ∀ {n : Nat} {Φ : Checkpoint → Prop}, Behind n p snapshots Φ →
      ∃ n, Behind n p snapshots fun _ => True :=
    fun {n} _ ⟨sn, hl, hn, _⟩ => ⟨n, sn, hl, hn, trivial⟩
  simp only [Resumption, hs] at h
  split at h
  · exact h.elim fun _ => weaken
  · exact h.elim fun _ => weaken
  all_goals exact weaken h

/-- The checkpoint written with an event is where the next `execute` finds it. -/
theorem Resumption.of_saved {K : Config} {wo : WorkOrder} {c : RunTruth} {e : RunEvent}
    {k : Option Checkpoint} {sn : Option ContextSnapshot}
    (hs : (c.projection.fold e).status = .planning ∨ (c.projection.fold e).status = .running ∨
      (c.projection.fold e).status = .verifying ∨
      ((c.projection.fold e).status = .waiting_for_input ∧
        e.payload.eventType = .InputRequested))
    (ht : e.payload.eventType ∉ [.ApprovalRecorded, .InputSubmitted, .EffectPrepared,
      .EffectUncertain])
    (hc : Checkpointed K wo c e k sn) (hK : K.contextCheckpointEnabled = true)
    (ha : wo.isCompensation = false) :
    Resumption (c.events ++ [e]) (c.projection.fold e) (c.snapshots ++ sn.toList) := by
  obtain ⟨k', rfl, hk⟩ := hc.2 ha
  unfold Resumption
  rcases hs with hs | hs | hs | ⟨hs, hi⟩ <;> rw [hs] <;> simp only [lastPayload_concat]
  case inr.inr.inr =>
    cases hp : e.payload <;> simp_all only [EventPayload.eventType, reduceCtorEq]
    exact ⟨_, _, _, _, rfl, Behind.saved hK hc.1 hk⟩
  all_goals
    cases hp : e.payload <;> simp_all only [EventPayload.eventType, List.mem_cons, true_or, or_true,
      not_true_eq_false]
    all_goals first
      | trivial
      | exact Behind.saved hK hc.1 hk
      | (have h' := hs; simp [fold_status, hp, nextStatusFor] at h')

/-! ### Commits keep a run coherent -/

section Coherence

variable {K : Config} {H : Prop} {wo : WorkOrder} {c d : RunTruth}

/-- What the append of one event that is no decision leaves to show. -/
theorem Grounded.append {e : RunEvent} {k : Option Checkpoint} {sn : Option ContextSnapshot}
    (h : Grounded K wo c) (next : Next c.events c.projection e) (saves : Saves K wo e k sn)
    (decision : e.payload.eventType ≠ .ApprovalRequested ∧
      e.payload.eventType ≠ .ApprovalRecorded)
    (events : d.events = c.events ++ [e]) (projection : d.projection = c.projection.fold e)
    (snapshots : d.snapshots = c.snapshots ++ sn.toList) (gates : d.gates = c.gates)
    (approvals : d.approvals = c.approvals)
    (ledger : Ledger (c.events ++ [e]) d.effects d.effectKeys)
    (services : ∀ e r, d.effects e = some r → K.effectServices = true)
    (reconciliation : Reconciliation wo (c.events ++ [e]) (c.projection.fold e) d.effects)
    (dispatch : H → Dispatch K wo (c.events ++ [e]) (c.projection.fold e) d.effects
      (c.snapshots ++ sn.toList))
    (waiting : Waiting (c.events ++ [e]) (c.projection.fold e))
    (resumption : K.contextCheckpointEnabled = true → wo.isCompensation = false →
      Resumption (c.events ++ [e]) (c.projection.fold e) (c.snapshots ++ sn.toList)) :
    Coherent K H wo d where
  stream := by rw [events, projection]; exact h.stream.push next
  born := by rw [projection]; exact next.foldable.born
  ledger := by rw [events]; exact ledger
  services := services
  reconciliation := by rw [events, projection]; exact reconciliation
  dispatch := by rw [events, projection, snapshots]; exact dispatch
  waiting := by rw [events, projection]; exact waiting
  decisions := by
    rw [events, gates, approvals]
    refine h.decisions.push (fun _ _ => id) (fun _ _ => id) (fun hp => ?_) (fun hp => ?_)
    · exact absurd (by rw [hp]; rfl) decision.1
    · exact absurd (by rw [hp]; rfl) decision.2
  snapshots := by rw [events, snapshots]; exact h.snapshots.push h.stream next saves
  resumption := by rw [events, projection, snapshots]; exact resumption

/-- The append of an event that is no decision, without a checkpoint. -/
theorem Grounded.add {e : RunEvent} (h : Grounded K wo c) (next : Next c.events c.projection e)
    (decision : e.payload.eventType ≠ .ApprovalRequested ∧
      e.payload.eventType ≠ .ApprovalRecorded) : Grounded K wo (c.add e) where
  stream := h.stream.push next
  born := next.foldable.born
  decisions := by
    refine h.decisions.push (fun _ _ => id) (fun _ _ => id) (fun hp => ?_) (fun hp => ?_)
    · exact absurd (by rw [hp]; rfl) decision.1
    · exact absurd (by rw [hp]; rfl) decision.2
  snapshots := h.snapshots.push h.stream next (k := none) rfl

/-- **An `execute` keeps a run coherent.** -/
theorem Coherent.executorCommit (h : Coherent K H wo c) (hc : ExecutorCommit K H wo c d) :
    Coherent K H wo d := by
  cases hc with
  | @plain e k sn next hp saves clear settled =>
      have hs := next.foldable.plain hp
      have ht : e.payload.eventType ≠ .ApprovalRequested ∧
          e.payload.eventType ∉ [.ApprovalRecorded, .InputSubmitted, .EffectPrepared,
            .EffectUncertain] ∧
          e.payload.eventType ≠ .EffectDispatched := by
        cases hq : e.payload <;> simp_all [EventPayload.plain, EventPayload.eventType]
      have hu : e.payload.eventType ≠ .EffectUncertain := fun hu => ht.2.1 (by simp [hu])
      refine h.toGrounded.append next saves.1 ⟨ht.1, fun ha => ht.2.1 (by simp [ha])⟩ rfl rfl rfl
        rfl rfl (h.ledger.push ht.2.2) h.services (.of_clear ?_ ?_ clear (.of_ne hu ht.2.2))
        (fun hH => .of_settled (settled hH)) ⟨?_, ?_⟩ (Resumption.of_saved hs ht.2.1 saves)
      · rcases hs with hs | hs | hs | hs <;> simp [hs]
      · rcases hs with hs | hs | hs | hs <;> simp [hs]
      · intro hw
        rcases hs with hs | hs | hs | ⟨-, hi⟩
        · simp [hs] at hw
        · simp [hs] at hw
        · simp [hs] at hw
        · cases hq : e.payload <;> simp_all [EventPayload.eventType]
          simp [RunProjection.fold, RunProjection.apply, hq]
      · intro hw
        rcases hs with hs | hs | hs | hs <;> simp [hs] at hw
  | @ended e next hp =>
      have hs := Foldable.ended (p := c.projection) hp
      have ht : e.payload.eventType ≠ .ApprovalRequested ∧
          e.payload.eventType ≠ .ApprovalRecorded ∧ e.payload.eventType ≠ .EffectDispatched := by
        cases hq : e.payload <;> simp_all [EventPayload.ended, EventPayload.eventType]
      refine h.toGrounded.append next (k := none) rfl ⟨ht.1, ht.2.1⟩ rfl rfl rfl rfl rfl
        (h.ledger.push ht.2.2) h.services (.of_terminal hs) (fun _ => .of_terminal hs)
        (.of_terminal hs) (fun _ _ => .of_ne (.inl hs))
  | @suspend e step target reason next hp agent clear =>
      have hs : (c.projection.fold e).status = .suspended := by
        simp [fold_status, hp, nextStatusFor]
      have ha : (c.projection.fold e).activeEffectId = none := by
        simp [RunProjection.fold, RunProjection.apply, hp]
      refine h.toGrounded.append next (k := none) rfl (by simp [hp, EventPayload.eventType]) rfl rfl rfl rfl
        rfl (h.ledger.push (by simp [hp, EventPayload.eventType])) h.services ?_ (fun _ => ?_)
        (.of_ne (by simp [hs]) (by simp [hs])) (fun _ _ => .of_ne (.inr hs))
      · simp only [Reconciliation, hs, ha]
        exact ⟨clear, agent⟩
      · simp only [Dispatch, hs, ha, true_or]
  | @requestApproval e step d gateDigest effectDigest gate next hp hg old tool clear settled =>
      have hs : (c.projection.fold e).status = .waiting_for_approval := by
        simp [fold_status, hp, nextStatusFor]
      have hw : (c.projection.fold e).waitingDecisionId = some d := by
        simp [RunProjection.fold, RunProjection.apply, hp]
      refine ⟨⟨h.stream.push next, next.foldable.born, ?_,
          h.snapshots.push h.stream next (k := none) rfl⟩,
        h.ledger.push (by simp [hp, EventPayload.eventType]),
        h.services,
        .of_clear (by simp [RunTruth.add, hs]) (by simp [RunTruth.add, hs])
          clear (.of_ne (by simp [hp, EventPayload.eventType])
            (by simp [hp, EventPayload.eventType])),
        fun hH => .of_settled (settled hH), ?_, fun hK hA => ?_⟩
      rotate_left
      · refine ⟨fun h' => ?_, fun _ => ⟨step, d, gateDigest, effectDigest, ?_, hw⟩⟩
        · rw [show (c.add e).projection.status = _ from hs] at h'
          cases h'
        · simp [RunTruth.add, hp]
      · show Resumption (c.events ++ [e]) (c.projection.fold e) _
        simp only [Resumption, hs, lastPayload_concat, hp]
        exact ⟨step, d, gateDigest, effectDigest, rfl,
          (tool hK hA).push next.foldable.sequence fun _ => id⟩
      · refine h.decisions.push (fun d' g hd' => ?_) (fun _ _ => id) (fun hp' => ?_)
          (fun hp' => ?_)
        · by_cases hdd : d' = d
          · subst hdd
            rcases old with old | old
            · rw [old] at hd'; cases hd'
            · rw [old] at hd'; cases hd'; simp
          · exact (Table.set_of_ne _ _ hdd).trans hd'
        · rw [hp] at hp'
          cases hp'
          exact ⟨gate, by simp, hg⟩
        · rw [hp] at hp'
          cases hp'
  | @prepare e step effectDigest r authorizations keys next hp state absent unkeyed services clear
      settled =>
      have hs := (next.foldable.running (.inl (by rw [hp]; rfl))).2
      have hclear : Clear (c.effects.set r.effectId r) :=
        (clear.but _).clear (by rw [state]; rfl)
      refine h.toGrounded.append next (k := none) rfl (by simp [hp, EventPayload.eventType]) rfl rfl rfl rfl
        rfl ((h.ledger.push (by simp [hp, EventPayload.eventType])).prepare state absent unkeyed)
        (fun _ _ _ => services) (.of_clear (by simp [hs]) (by simp [hs])
          hclear (.of_ne (by simp [hp, EventPayload.eventType])
            (by simp [hp, EventPayload.eventType])))
        (fun hH => .of_settled (((settled hH).but _).settled (by rw [state]; simp
          [EffectState.name]))) (.of_ne (by simp [hs]) (by simp [hs])) (fun hK hA => ?_)
      simp only [Resumption, hs, lastPayload_concat, hp]
      have hrun := (next.foldable.running (.inl (by rw [hp]; rfl))).1
      obtain ⟨n, hb⟩ := (h.resumption hK hA).latest hrun
      exact ⟨n, hb.push next.foldable.sequence fun _ => id⟩
  | @dispatch e step r t k sn next hp hr state saves keys clear settled =>
      have hs := (next.foldable.running (.inr (.inl (by rw [hp]; rfl)))).2
      refine h.toGrounded.append next saves.1 (by simp [hp, EventPayload.eventType]) rfl rfl rfl rfl rfl
        (h.ledger.dispatch hr state hp) (fun _ _ _ => h.services _ _ hr)
        (.of_clear (by simp [hs]) (by simp [hs])
          ((clear.but _).clear rfl) (by
            rw [ClearTail, lastPayload_concat, hp]
            exact ⟨_, Table.set_self _ _ _, rfl⟩)) (fun hH => ?_)
        (.of_ne (by simp [hs]) (by simp [hs]))
        (Resumption.of_saved (.inr (.inl hs)) (by simp [hp, EventPayload.eventType]) saves)
      simp only [Dispatch, hs]
      exact .inr ⟨r.advance t (.dispatched t),
        ⟨⟨step, 1, by rw [lastPayload_concat, hp]; rfl⟩, Table.set_self _ _ _, rfl, ((settled hH).but _).set _⟩, fun hK hA => by
          obtain ⟨k', rfl, -⟩ := saves.2 hA
          rw [fold_runId]
          exact Behind.saved hK saves.1 (keys k' rfl)⟩
  | @redispatch e step r n k sn next hp hr state strategy saves keys clear settled =>
      have hs := (next.foldable.running (.inr (.inl (by rw [hp]; rfl)))).2
      refine h.toGrounded.append next saves.1 (by simp [hp, EventPayload.eventType]) rfl rfl rfl rfl rfl
        (h.ledger.redispatch hr state strategy hp) h.services
        (.of_clear (by simp [hs]) (by simp [hs])
          clear (by
            rw [ClearTail, lastPayload_concat, hp]
            exact ⟨r, hr, state⟩)) (fun hH => ?_)
        (.of_ne (by simp [hs]) (by simp [hs]))
        (Resumption.of_saved (.inr (.inl hs)) (by simp [hp, EventPayload.eventType]) saves)
      simp only [Dispatch, hs]
      exact .inr ⟨r, ⟨⟨step, n, by rw [lastPayload_concat, hp]⟩, hr, state, settled hH⟩, fun hK hA => by
        obtain ⟨k', rfl, -⟩ := saves.2 hA
        rw [fold_runId]
        exact Behind.saved hK saves.1 (keys k' rfl)⟩
  | @acknowledge e step r digest ack t k sn results digests next hp hr state running saves clear
      settled =>
      have hs : (c.projection.fold e).status = .running := by
        simp [fold_status, hp, nextStatusFor, running]
      refine h.toGrounded.append next saves.1 (by simp [hp, EventPayload.eventType]) rfl rfl rfl rfl rfl
        ((h.ledger.push (by simp [hp, EventPayload.eventType])).settle hr (by simp [state])
          (by simp [EffectState.name]))
        (fun _ _ _ => h.services _ _ hr)
        (.of_clear (by simp [hs]) (by simp [hs])
          ((clear.but _).clear rfl) (.of_ne (by simp [hp, EventPayload.eventType])
            (by simp [hp, EventPayload.eventType])))
        (fun hH => .of_settled ((settled hH).settled (by simp [EffectRecord.advance,
          EffectState.name])))
        (.of_ne (by simp [hs]) (by simp [hs]))
        (Resumption.of_saved (.inr (.inl hs)) (by simp [hp, EventPayload.eventType]) saves)
  | @uncertain e step code r t t' next hp hr state clear settled =>
      have hs := (next.foldable.running (.inr (.inr (by rw [hp]; rfl)))).2
      refine h.toGrounded.append next (k := none) rfl (by simp [hp, EventPayload.eventType]) rfl rfl rfl rfl
        rfl ((h.ledger.push (by simp [hp, EventPayload.eventType])).settle hr (by simp [state])
          (by simp [EffectState.name]))
        (fun _ _ _ => h.services _ _ hr) ?_
        (fun hH => .of_settled ((settled hH).settled (by simp [EffectRecord.advance,
          EffectState.name])))
        (.of_ne (by simp [hs]) (by simp [hs])) (fun hK hA => ?_)
      · simp only [Reconciliation, hs]
        exact .inr ⟨step, r.effectId, code, _, by simp [hp], Table.set_self _ _ _,
          by simp [EffectRecord.advance, EffectState.name], (clear.but _).set _⟩
      · simp only [Resumption, hs, lastPayload_concat, hp]
        have hrun := (next.foldable.running (.inr (.inr (by rw [hp]; rfl)))).1
        obtain ⟨n, hb⟩ := (h.resumption hK hA).latest hrun
        exact ⟨n, hb.push next.foldable.sequence fun _ => id⟩
  | @park e step target reason r next hp hr state clear settled =>
      have hs : (c.projection.fold e).status = .suspended := by
        simp [fold_status, hp, nextStatusFor]
      have ha : (c.projection.fold e).activeEffectId = some r.effectId := by
        simp [RunProjection.fold, RunProjection.apply, hp]
      refine h.toGrounded.append next (k := none) rfl (by simp [hp, EventPayload.eventType]) rfl rfl rfl rfl
        rfl (h.ledger.push (by simp [hp, EventPayload.eventType])) h.services ?_
        (fun hH => .of_settled (settled hH)) (.of_ne (by simp [hs]) (by simp [hs]))
        (fun _ _ => .of_ne (.inr hs))
      simp only [Reconciliation, hs, ha]
      exact ⟨clear, r, hr, .inl ⟨step, target, reason, by simp [hp], state⟩⟩
  | @needsReconciliation e step code r t next hp hr state active =>
      obtain ⟨hs₀, hs⟩ := next.foldable.suspended (.inl (by rw [hp]; rfl))
      have ha : (c.projection.fold e).activeEffectId = some r.effectId := by
        simp [RunProjection.fold, RunProjection.apply, hp, active]
      have hrec := h.reconciliation
      simp only [Reconciliation, hs₀, active] at hrec
      refine h.toGrounded.append next (k := none) rfl (by simp [hp, EventPayload.eventType]) rfl rfl rfl rfl
        rfl ((h.ledger.push (by simp [hp, EventPayload.eventType])).settle hr (by simp [state])
          (by simp [EffectState.name]))
        (fun _ _ _ => h.services _ _ hr) ?_ (fun hH => ?_)
        (.of_ne (by simp [hs]) (by simp [hs])) (fun _ _ => .of_ne (.inr hs))
      · simp only [Reconciliation, hs, ha]
        exact ⟨hrec.1.set _, _, Table.set_self _ _ _,
          .inr ⟨step, by simp [hp], by simp [EffectRecord.advance, EffectState.name]⟩⟩
      · have hd := h.dispatch hH
        simp only [Dispatch, hs₀, active, reduceCtorEq, false_or] at hd
        exact .of_settled ((hd.but _).settled (by simp [EffectRecord.advance, EffectState.name]))

/-- A suspended run is parked on the effect it is active on. -/
theorem Coherent.parked (h : Coherent K H wo c) (hs : c.projection.status = .suspended)
    {id : String} (ha : c.projection.activeEffectId = some id) :
    ParkedTail c.events c.effects id ∧ (H → Settled c.effects) := by
  have hr := h.reconciliation
  simp only [Reconciliation, hs, ha] at hr
  refine ⟨hr, fun hH => ?_⟩
  have hd := h.dispatch hH
  simpa only [Dispatch, hs, ha, reduceCtorEq, false_or] using hd

/-- **A command keeps a run coherent.** -/
theorem Coherent.commandCommit (h : Coherent K H wo c) (agent : wo.isCompensation = false)
    (hc : CommandCommit c d) : Coherent K H wo d := by
  cases hc with
  | cancel next hp => exact h.executorCommit (.ended next (by rw [hp]; rfl))
  | @submit e step q id prompt schema digest submissions next hp last status =>
      have hs : (c.projection.fold e).status = .planning := by
        simp [fold_status, hp, nextStatusFor]
      have hclear : Clear c.effects := by
        simpa only [Reconciliation, status] using h.reconciliation
      have hsettled : H → Settled c.effects := fun hH => by
        simpa only [Dispatch, status] using h.dispatch hH
      refine h.toGrounded.append next (k := none) rfl (by simp [hp, EventPayload.eventType]) rfl
        rfl rfl rfl rfl (h.ledger.push (by simp [hp, EventPayload.eventType])) h.services
        (.of_clear (by simp [hs]) (by simp [hs])
          hclear (.of_ne (by simp [hp, EventPayload.eventType])
            (by simp [hp, EventPayload.eventType])))
        (fun hH => .of_settled (hsettled hH)) (.of_ne (by simp [hs]) (by simp [hs]))
        (fun hK hA => ?_)
      have hr := h.resumption hK hA
      simp only [Resumption, status, last] at hr
      obtain ⟨step', q', schema', prompt', heq, hb⟩ := hr
      cases heq
      simp only [Resumption, hs, lastPayload_concat, hp]
      refine hb.push next.foldable.sequence fun k hk => ⟨hk, trivial, ?_⟩
      simp [hp, EventPayload.currentStep]
  | @approve e step d gate approval next hp status decision hg hst binding old =>
      have hs : (c.projection.fold e).status = .running := by
        simp [fold_status, hp, nextStatusFor, ResumeTarget.status]
      have hclear : Clear c.effects := by
        simpa only [Reconciliation, status] using h.reconciliation
      have hsettled : H → Settled c.effects := fun hH => by
        simpa only [Dispatch, status] using h.dispatch hH
      obtain ⟨step', d', gateDigest, effectDigest, hl, hd'⟩ := h.waiting.2 status
      obtain ⟨last, hlast, hlp⟩ := Option.map_eq_some_iff.mp hl
      rw [decision] at hd'
      cases hd'
      have hi : c.events[c.events.length - 1]? = some last := by
        rw [List.getLast?_eq_getElem?] at hlast
        exact hlast
      obtain ⟨gate', hgate', hof⟩ := h.decisions.requested hi hlp
      rw [hg] at hgate'
      cases hgate'
      have hstep : step' = step := by rw [← hst, hof.bindingStep]
      subst hstep
      refine ⟨⟨h.stream.push next, next.foldable.born, ?_,
          h.snapshots.push h.stream next (k := none) rfl⟩,
        h.ledger.push (by simp [hp, EventPayload.eventType]),
        h.services,
        .of_clear (by simp [RunTruth.add, hs]) (by simp [RunTruth.add, hs])
          hclear (.of_ne (by simp [hp, EventPayload.eventType])
            (by simp [hp, EventPayload.eventType])),
        fun hH => .of_settled (hsettled hH),
        .of_ne (by simp [RunTruth.add, hs]) (by simp [RunTruth.add, hs]), fun hK hA => ?_⟩
      · refine h.decisions.push (fun _ _ => id) (fun a x ha => ?_) (fun hp' => ?_) (fun hp' => ?_)
        · by_cases haa : a = approval.id
          · subst haa
            rcases old with old | old
            · rw [old] at ha; cases ha
            · rw [old] at ha; cases ha; simp
          · exact (Table.set_of_ne _ _ haa).trans ha
        · rw [hp] at hp'
          cases hp'
        · rw [hp] at hp'
          cases hp'
          exact ⟨rfl, last, gateDigest, effectDigest, gate, approval, hlast, hlp, hg, by simp,
            rfl, binding⟩
      · have hr := h.resumption hK hA
        simp only [Resumption, status] at hr
        obtain ⟨step'', d'', g'', f'', heq, hb⟩ := hr
        rw [hl] at heq
        cases heq
        show Resumption (c.events ++ [e]) (c.projection.fold e) _
        simp only [Resumption, hs, lastPayload_concat, hp]
        refine hb.push next.foldable.sequence fun k hk => ⟨hk.1, hk.2.1, ?_⟩
        refine ⟨by rw [hk.2.1]; rfl, by simp [hp, EventPayload.currentStep, hk.2.1], ?_⟩
        simp only [Checkpoint.Shape, hk.1, hs]
        exact ⟨trivial, hk.2.2⟩
  | @reject e step d reason next hp status =>
      have hs : (c.projection.fold e).status.terminal = true := by
        simp [fold_status, hp, nextStatusFor, RunStatus.terminal]
      refine h.toGrounded.append next (k := none) rfl (by simp [hp, EventPayload.eventType]) rfl
        rfl rfl rfl rfl (h.ledger.push (by simp [hp, EventPayload.eventType])) h.services
        (.of_terminal hs) (fun _ => .of_terminal hs) (.of_terminal hs)
        (fun _ _ => .of_ne (.inl hs))
  | @recover e₁ e₂ step₁ step₂ commandId kind r digest ack t results digests next₁ hp₁ next₂ hp₂
      hr state active =>
      obtain ⟨hs₀, hs₁⟩ := next₁.foldable.suspended (.inr (by rw [hp₁]; rfl))
      have hs : ((c.projection.fold e₁).fold e₂).status = .suspended := by
        simp [fold_status _ e₂, hp₂, nextStatusFor, hs₁]
      have ha : ((c.projection.fold e₁).fold e₂).activeEffectId = none := by
        simp [RunProjection.fold, RunProjection.apply, hp₂]
      obtain ⟨hpark, hsettled⟩ := h.parked hs₀ active
      have hne : e₁.payload.eventType ≠ .EffectDispatched := by
        simp [hp₁, EventPayload.eventType]
      refine (h.toGrounded.add next₁ (by simp [hp₁, EventPayload.eventType])).append next₂
        (k := none) rfl (by simp [hp₂, EventPayload.eventType]) rfl rfl rfl rfl rfl
        (((h.ledger.push hne).push (by simp [hp₂, EventPayload.eventType])).settle hr
          (by simp [state]) (by simp [EffectState.name]))
        (fun _ _ _ => h.services _ _ hr) ?_ (fun hH => ?_)
        (.of_ne (by simp [RunTruth.add, hs]) (by simp [RunTruth.add, hs]))
        (fun _ _ => .of_ne (.inr hs))
      · simp only [Reconciliation, RunTruth.add, hs, ha]
        exact ⟨hpark.1.clear rfl, agent⟩
      · simp only [Dispatch, RunTruth.add, hs, ha, true_or]
  | @abandon e₁ e₂ step₁ commandId step₂ kind r code details t reason refs next₁ hp₁ next₂ hp₂ hr
      state active =>
      have hs : ((c.projection.fold e₁).fold e₂).status.terminal = true := by
        simp [fold_status _ e₂, hp₂, nextStatusFor, RunStatus.terminal]
      have hne : e₁.payload.eventType ≠ .EffectDispatched := by
        simp [hp₁, EventPayload.eventType]
      refine (h.toGrounded.add next₁ (by simp [hp₁, EventPayload.eventType])).append next₂
        (k := none) rfl (by simp [hp₂, EventPayload.eventType]) rfl rfl rfl rfl rfl
        (((h.ledger.push hne).push (by simp [hp₂, EventPayload.eventType])).settle hr
          (by simp [state]) (by simp [EffectState.name]))
        (fun _ _ _ => h.services _ _ hr)
        (.of_terminal hs) (fun _ => .of_terminal hs) (.of_terminal hs)
        (fun _ _ => .of_ne (.inl hs))

end Coherence

end Pactmark
