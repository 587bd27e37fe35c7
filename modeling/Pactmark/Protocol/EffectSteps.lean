import Pactmark.Protocol.Append

/-!
# Protocol — the steps of the effect protocol

The programs of `Runtime.Effects`, one lemma each: what a thread has to know before the program,
and what it knows after it.  `Outstanding`, `Doubted` and `Quiet` are what is known of the ledger
before, in the middle of and after an effect.
-/

namespace Pactmark

open Durable

/-! ### What is known of the ledger -/

/-- The effect has been dispatched, and no other one is open. -/
structure Outstanding (H : Prop) (r : EffectRecord) (c : RunTruth) : Prop where
  record : c.effects r.effectId = some r
  state : r.state.name = .dispatched
  clear : Clear c.effects
  settled : H → SettledBut r.effectId c.effects

/-- The outcome of the effect is recorded as unknown, and no other one is open. -/
structure Doubted (H : Prop) (r : EffectRecord) (c : RunTruth) : Prop where
  record : c.effects r.effectId = some r
  state : r.state.name = .unknown
  clear : ClearBut r.effectId c.effects
  settled : H → Settled c.effects

/-- The run is running, and the effect in one of the states it is parked from. -/
def Parkable (H : Prop) (r : EffectRecord) (c : RunTruth) : Prop :=
  (Outstanding H r c ∨ Doubted H r c) ∧ c.projection.status = .running

/-- A record that moves to another state replaces the one in the ledger. -/
theorem putEffectRecord_advance {E : Encoding} {s s' : Store} {r : EffectRecord} {t : Instant}
    {state : EffectState} (hr : s.truth.effects r.effectId = some r)
    (hne : state.name ≠ r.state.name)
    (h : (putEffectRecord E (r.advance t state)).run s = .ok s') :
    s'.truth = s.truth.putEffect (r.advance t state) := by
  rcases (putEffectRecord_ok h).2 with ⟨hx, -⟩ | ⟨ht, -⟩
  · have heq : r = r.advance t state := Option.some.inj (hr.symm.trans hx)
    exact absurd (congrArg (fun r => r.state.name) heq).symm hne
  · exact ht

section Parking

variable {K : Config} {H : Prop} {env : Env} {t : Nat} {w : RunWorld} {wo : WorkOrder}
  {p : RunProjection} {Φ : RunTruth → Prop} {lease : RunLease} {r : EffectRecord}
  {step code : String}

/-! ### Parking an effect -/

theorem wp_recordUncertain {at_ : Instant} (h : Holding wo p (Outstanding H r) w) :
    (recordUncertain K wo p lease r step code at_).wp (executorContract K H env) t
      (fun out => Holding wo out.1 fun c =>
        Doubted H out.2 c ∧ c.projection.status = .running) (fun _ => On wo) w := by
  unfold recordUncertain
  refine wp_calm_bind holding_stable h (fun now v _ hv => Prog.wp_bind ?_) fun _ _ hv => hv.on
  refine (wp_append_holding (Ψ := fun c => Doubted H (r.advance now (.unknown at_ code)) c ∧
    c.projection.status = .running) hv (putEffectRecord_beside _ _) rfl
    fun {v s₁ e sn} hi hpr hΦ _ h₁ hbuild hn saves hon => ?_).mono (fun next u _ hu => ?_)
    fun _ _ _ hv => hv.on
  · have hs := putEffectRecord_advance hΦ.record (by rw [hΦ.state]; simp [EffectState.name]) h₁
    cases saves
    rw [hs]
    refine ⟨.uncertain (hpr.symm ▸ hn) hbuild.payload hΦ.record hΦ.state hΦ.clear hΦ.settled,
      ⟨⟨Table.set_self _ _ _, rfl, (hΦ.clear.but _).set _, fun hH => ?_⟩, ?_⟩, fun _ _ => trivial⟩
    · exact (hΦ.settled hH).settled (by simp [EffectRecord.advance, EffectState.name])
    · show (v.state.truth.projection.fold e).status = .running
      rw [hpr]
      exact (hn.foldable.running (.inr (.inr (by rw [hbuild.payload]; rfl)))).2
  · exact wp_pure holding_stable hu.2 fun _ => id

theorem wp_suspendForReconciliation
    (h : Holding wo p (fun c => Doubted H r c ∧ c.projection.status = .running) w) :
    (suspendForReconciliation K wo p lease r step).wp (executorContract K H env) t
      (fun next => Holding wo next fun c =>
        Doubted H r c ∧ c.projection.activeEffectId = some r.effectId) (fun _ => On wo) w := by
  unfold suspendForReconciliation
  split
  · refine (wp_append_holding h skip_aside.beside rfl
      fun {v s₁ e sn} hi hpr hΦ _ h₁ hbuild hn saves hon => ?_).mono (fun next u _ hu => hu.2)
      fun _ _ _ hv => hv.on
    cases h₁
    cases saves
    have hd := hΦ.1
    refine ⟨.park (hpr.symm ▸ hn) hbuild.payload hd.record hd.state hd.clear hd.settled,
      ⟨⟨hd.record, hd.state, hd.clear, hd.settled⟩, ?_⟩, fun _ _ => trivial⟩
    simp [RunTruth.add, RunProjection.fold, RunProjection.apply, hbuild.payload]
  · rename_i hp
    exact wp_pure holding_stable (h.mono fun c hc hΦ => absurd (hc ▸ hΦ.2) hp) fun _ => id

theorem wp_recordNeedsReconciliation
    (h : Holding wo p (fun c => Doubted H r c ∧
      c.projection.activeEffectId = some r.effectId) w) :
    (recordNeedsReconciliation K wo p lease r step).wp (executorContract K H env) t
      (fun _ => On wo) (fun _ => On wo) w := by
  unfold recordNeedsReconciliation
  split
  · refine wp_calm_bind holding_stable h (fun now v _ hv => ?_) fun _ _ hv => hv.on
    refine (wp_append_holding (Ψ := fun _ => True) hv (putEffectRecord_beside _ _) rfl
      fun {v s₁ e sn} hi hpr hΦ _ h₁ hbuild hn saves hon => ?_).mono
      (fun next u _ hu => hu.2.on) fun _ _ _ hv => hv.on
    have hs := putEffectRecord_advance hΦ.1.record (by rw [hΦ.1.state]; simp [EffectState.name]) h₁
    cases saves
    rw [hs]
    exact ⟨.needsReconciliation (hpr.symm ▸ hn) hbuild.payload hΦ.1.record hΦ.1.state hΦ.2,
      trivial, fun _ _ => trivial⟩
  · exact wp_pure holding_stable h fun _ hv => hv.on

/-- The record is in one of the two states an effect is parked from. -/
theorem wp_parkUncertain (h : Holding wo p (Parkable H r) w) :
    (parkUncertain K wo p lease r step code).wp (executorContract K H env) t
      (fun out => Holding wo out.1 fun c =>
        Doubted H out.2 c ∧ c.projection.status = .running) (fun _ => On wo) w := by
  unfold parkUncertain
  split
  · rename_i at_ hstate
    refine wp_recordUncertain (h.mono fun c _ hc => hc.1.resolve_right fun hd => ?_)
    have := hd.state
    rw [hstate] at this
    cases this
  · rename_i hstate
    refine wp_pure holding_stable (h.mono fun c _ hc => ⟨hc.1.resolve_left fun hd => ?_, hc.2⟩)
      fun _ => id
    have := hd.state
    cases hs : r.state <;> simp_all [EffectState.name]

/-- `#parkEffectForReconciliation`. -/
theorem wp_parkEffectForReconciliation (h : Holding wo p (Parkable H r) w) :
    (parkEffectForReconciliation K wo p lease r step code).wp (executorContract K H env) t
      (fun _ => On wo) (fun _ => On wo) w := by
  unfold parkEffectForReconciliation
  refine Prog.wp_bind ((wp_parkUncertain h).mono (fun out v _ hv => ?_) fun _ _ _ => id)
  exact Prog.wp_bind ((wp_suspendForReconciliation hv).mono
    (fun q u _ hu => wp_recordNeedsReconciliation hu) fun _ _ _ => id)

end Parking

/-! ### Recovering an interrupted effect -/

section Recovery

variable {K : Config} {H : Prop} {env : Env} {t : Nat} {w : RunWorld} {wo : WorkOrder}
  {p : RunProjection} {Φ : RunTruth → Prop} {lease : RunLease} {c : RunTruth}
  {r : EffectRecord} {step effectId : String}

/-- The effect of a last `EffectDispatched` is outstanding. -/
theorem Coherent.outstanding (h : Coherent K H wo c) (hs : c.projection.status = .running)
    {attempt : Nat} (hl : lastPayload c.events = some (.EffectDispatched step effectId attempt))
    (hr : c.effects effectId = some r) : Outstanding H r c := by
  have hid := (h.ledger.id hr).1
  have hrec := h.reconciliation
  simp only [Reconciliation, hs] at hrec
  rcases hrec with ⟨clear, htail⟩ | ⟨step', e, code, x, hl', -⟩
  · simp only [ClearTail, hl] at htail
    obtain ⟨x, hx, hxs⟩ := htail
    rw [hr] at hx
    cases hx
    refine ⟨hid ▸ hr, hxs, clear, fun hH => ?_⟩
    have hd := h.dispatch hH
    simp only [Dispatch, hs] at hd
    rcases hd with hd | ⟨x, ⟨⟨step', attempt', hl'⟩, -, -, others⟩, -⟩
    · exact hd.but _
    · rw [hl] at hl'
      cases hl'
      rw [hid]
      exact others
  · rw [hl] at hl'
    cases hl'

/-- The effect of a last `EffectUncertain` is in doubt. -/
theorem Coherent.doubted (h : Coherent K H wo c) (hs : c.projection.status = .running)
    {code : String} (hl : lastPayload c.events = some (.EffectUncertain step effectId code))
    (hr : c.effects effectId = some r) : Doubted H r c := by
  have hid := (h.ledger.id hr).1
  have hrec := h.reconciliation
  simp only [Reconciliation, hs] at hrec
  rcases hrec with ⟨-, htail⟩ | ⟨step', e, code', x, hl', hx, hxs, clear⟩
  · simp only [ClearTail, hl] at htail
  · rw [hl] at hl'
    cases hl'
    rw [hr] at hx
    cases hx
    refine ⟨hid ▸ hr, hxs, hid.symm ▸ clear, fun hH => ?_⟩
    have hd := h.dispatch hH
    simp only [Dispatch, hs] at hd
    rcases hd with hd | ⟨x, ⟨⟨step', attempt', hl'⟩, -, -, -⟩, -⟩
    · exact hd
    · rw [hl] at hl'
      cases hl'

/-- Nothing awaits reconciliation in a running run whose last event records no doubt. -/
theorem Coherent.clear (h : Coherent K H wo c) (hs : c.projection.status = .running)
    (hl : ∀ step e code, lastPayload c.events ≠ some (.EffectUncertain step e code)) :
    Clear c.effects := by
  have hrec := h.reconciliation
  simp only [Reconciliation, hs] at hrec
  rcases hrec with ⟨clear, -⟩ | ⟨step', e, code', x, hl', -⟩
  · exact clear
  · exact absurd hl' (hl _ _ _)

theorem wp_suspendResultUnavailable (h : Holding wo p Φ w)
    (clear : ∀ c, c.projection = p → Φ c → Clear c.effects ∧ wo.isCompensation = false) :
    (suspendResultUnavailable K wo p lease step).wp (executorContract K H env) t
      (fun _ => On wo) (fun _ => On wo) w :=
  wp_append_suspend h clear

/-- What a recovery ends with: the run is parked, or nothing was done. -/
def Recovered (wo : WorkOrder) (p : RunProjection) (Φ : RunTruth → Prop)
    (out : Option RunProjection) (v : RunWorld) : Prop :=
  On wo v ∧ (out = none → Holding wo p Φ v)

theorem wp_recovered {prog : Runtime RunProjection} {E : Thrown → RunWorld → Prop}
    (h : prog.wp (executorContract K H env) t (fun _ => On wo) E w) :
    (some <$> prog).wp (executorContract K H env) t (Recovered wo p Φ) E w :=
  Prog.wp_bind (h.mono (fun _ _ _ hv => wp_pure (on_stable wo) hv fun _ hu => ⟨hu, nofun⟩)
    fun _ _ _ => id)

theorem wp_recoverAcknowledged {digest : Digest} (h : Holding wo p Φ w)
    (clear : ∀ c, c.projection = p → Φ c → Clear c.effects ∧ wo.isCompensation = false) :
    (recoverAcknowledged K wo p lease step effectId digest).wp (executorContract K H env) t
      (Recovered wo p Φ) (fun _ => On wo) w := by
  unfold recoverAcknowledged
  refine wp_calm_bind holding_stable h (fun record v _ hv => ?_) fun _ _ hv => hv.on
  split
  · split
    · refine wp_calm_bind holding_stable hv (fun recovered u _ hu => ?_) fun _ _ hu => hu.on
      split
      · exact wp_pure holding_stable hu fun _ hx => ⟨hx.on, fun _ => hx⟩
      · exact wp_recovered (wp_suspendResultUnavailable hu clear)
    · exact wp_recovered (wp_suspendResultUnavailable hv clear)
  · exact wp_recovered (wp_suspendResultUnavailable hv clear)

theorem wp_recoverDispatched {code : Option String} (hp : p.status = .running)
    (h : Holding wo p Φ w)
    (open_ : ∀ c r, c.projection = p → Φ c → c.effects effectId = some r →
      Outstanding H r c ∨ Doubted H r c) :
    (recoverDispatched K wo p lease step effectId code).wp (executorContract K H env) t
      (Recovered wo p Φ) (fun _ => On wo) w := by
  unfold recoverDispatched
  split
  · refine wp_read_bind (fun c => c.effects effectId) h fun record v _ hv => ?_
    have hv' : Holding wo p Φ v := hv.mono fun _ _ hc => hc.1
    cases record with
    | none => exact wp_pure holding_stable hv' fun _ hx => ⟨hx.on, fun _ => hx⟩
    | some r =>
        dsimp only
        split
        · exact wp_pure holding_stable hv' fun _ hx => ⟨hx.on, fun _ => hx⟩
        · exact wp_recovered (wp_parkEffectForReconciliation
            (hv.mono fun c hc hΦ => ⟨open_ c r hc hΦ.1 hΦ.2.symm, hc ▸ hp⟩))
  · exact wp_pure holding_stable h fun _ hx => ⟨hx.on, fun _ => hx⟩

/-- `#recoverInterruptedEffect`. -/
theorem wp_recoverInterruptedEffect {history : List RunEvent} (hp : p.status = .running)
    (agent : wo.isCompensation = false)
    (h : Holding wo p (fun c => Coherent K H wo c ∧ history = c.events) w) :
    (recoverInterruptedEffect K wo p lease history).wp (executorContract K H env) t
      (Recovered wo p fun c => Coherent K H wo c ∧ history = c.events) (fun _ => On wo) w := by
  unfold recoverInterruptedEffect
  split
  · rename_i hl
    refine wp_recoverAcknowledged h fun c hc hΦ => ⟨?_, agent⟩
    refine hΦ.1.clear (hc.symm ▸ hp) fun step e code hl' => ?_
    rw [← hΦ.2, lastPayload, hl] at hl'
    cases hl'
  · rename_i hl
    refine wp_recoverDispatched hp h fun c r hc hΦ hr => .inl ?_
    exact hΦ.1.outstanding (hc.symm ▸ hp) (by rw [← hΦ.2]; exact hl) hr
  · rename_i hl
    refine wp_recoverDispatched hp h fun c r hc hΦ hr => .inr ?_
    exact hΦ.1.doubted (hc.symm ▸ hp) (by rw [← hΦ.2]; exact hl) hr
  · exact wp_pure holding_stable h fun _ hx => ⟨hx.on, fun _ => hx⟩

end Recovery

/-! ### Boundaries -/

section Boundary

variable {K : Config} {H : Prop} {env : Env} {t : Nat} {w : RunWorld} {wo : WorkOrder}
  {lease : RunLease} {α : Type} {Q : α → RunWorld → Prop} {R R' : RunWorld → Prop}

theorem throwBoundaryError_eq (e : Thrown) :
    ∃ e', (throwBoundaryError e : Runtime α) = .throw e' := by
  unfold throwBoundaryError
  split <;> exact ⟨_, rfl⟩

theorem wp_throwBoundaryError {e : Thrown} {P : α → RunWorld → Prop} (hR : Stable R) (h : R w) :
    (throwBoundaryError e : Runtime α).wp (executorContract K H env) t P (fun _ => R) w := by
  obtain ⟨e', he⟩ := throwBoundaryError_eq (α := α) e
  rw [he]
  exact wp_throw hR h fun _ => id

/-- The heartbeat around an operation adds nothing to what is known. -/
theorem wp_withLeaseHeartbeat {operation : Runtime α} (hQ : ∀ a, Stable (Q a))
    (hR : Stable R) (hQR : ∀ a v, Q a v → R v)
    (h : operation.wp (executorContract K H env) t Q (fun _ => R) w) :
    (withLeaseHeartbeat lease operation).wp (executorContract K H env) t Q (fun _ => R) w := by
  unfold withLeaseHeartbeat
  refine Prog.wp_bind (Prog.wp_attempt (h.mono (fun a v _ hv => ?_) fun e v _ hv => ?_)) <;>
    unfold endHeartbeat
  · refine wp_calm_bind (hQ a) hv (fun failure u _ hu => ?_) fun _ _ => hQR a _
    cases failure with
    | some e => exact wp_throwBoundaryError hR (hQR a _ hu)
    | none =>
        exact wp_calm_bind (hQ a) hu (fun _ x _ hx => wp_pure (hQ a) hx fun _ => id)
          fun _ _ => hQR a _
  · refine wp_calm_bind hR hv (fun failure u _ hu => ?_) fun _ _ => id
    cases failure <;> exact wp_throwBoundaryError hR hu

/-- `#withActiveExecution` adds nothing to what the callback makes known. -/
theorem wp_withActiveExecution {callback : Runtime α} {runId : String} {key : ActiveExecutionKey}
    {again : Bool} (hR : Stable R) (hR' : Stable R') (hRR' : ∀ v, R v → R' v)
    (hQ : ∀ a, Stable (Q a)) (hQR : ∀ a v, Q a v → R' v)
    (hc : ∀ v, R v → callback.wp (executorContract K H env) t Q (fun _ => R') v) (h : R w) :
    (withActiveExecution K wo runId lease key callback again).wp (executorContract K H env) t Q
      (fun _ => R') w := by
  have body : ∀ v, R v → (withLeaseHeartbeat lease callback).wp (executorContract K H env) t Q
      (fun _ => R') v := fun v hv => wp_withLeaseHeartbeat hQ hR' hQR (hc v hv)
  unfold withActiveExecution
  split
  · refine wp_calm_bind hR h (fun _ v _ hv => wp_calm_bind hR hv (fun prior u _ hu => ?_)
      fun _ => hRR') fun _ => hRR'
    cases prior with
    | some prior =>
        exact wp_calm_bind hR hu (fun _ x _ hx => wp_calm_bind hR hx (fun _ y _ hy => body y hy)
          fun _ => hRR') fun _ => hRR'
    | none =>
        refine wp_calm_bind hR hu (fun reservation x _ hx => Prog.wp_bind
          (Prog.wp_attempt ((body x hx).mono (fun a y _ hy => ?_) fun e y _ hy => ?_)))
          fun _ => hRR'
        · exact wp_calm_bind (hQ a) hy (fun _ z _ hz => wp_pure (hQ a) hz fun _ => id)
            fun _ _ => hQR a _
        · exact wp_calm_bind hR' hy (fun _ z _ hz => wp_throw hR' hz fun _ => id) fun _ _ => id
  · exact body w h

end Boundary

/-! ### What a dispatch is made on -/

/-- The thread has found the operation not applied since the last dispatch of the effect. -/
def Looked (t : Nat) (effectId operationKey : String) (w : RunWorld) : Prop :=
  ∃ call ∈ w.calls, call.thread = t ∧ observedNotApplied operationKey call ∧
    dispatches call.state.truth.events effectId = dispatches w.state.truth.events effectId

theorem looked_stable {t : Nat} {effectId operationKey : String} :
    Stable (Looked t effectId operationKey) := by
  intro w v ⟨call, hm, ht, ho, hd⟩ hout
  exact ⟨call, hout.calls.subset hm, ht, ho, hd.trans (hout.dispatches _).symm⟩

theorem licensed_stable {t : Nat} {effectId : String} {r : EffectRecord} :
    Stable fun w => Licensed w t effectId r := by
  intro w v h hout
  refine ⟨hout.dispatched h.record h.dispatched, h.dispatched, ?_, fun h₁ => ?_⟩
  · rw [hout.dispatchCalls, hout.dispatches]
    exact h.owed
  · rw [hout.dispatches] at h₁
    obtain ⟨hs, operationKey, hk, call, hm, ht, ho, h₁', hd⟩ := h.again h₁
    exact ⟨hs, operationKey, hk, call, hout.calls.subset hm, ht, ho, h₁',
      hd.trans (hout.dispatches _).symm⟩

/-- What holds of the plan of a write effect. -/
structure Planned (K : Config) (wo : WorkOrder) (i : EffectPlan) : Prop where
  workOrder : i.workOrder = wo
  key : i.effectKey = createEffectKey K.encoding
    { workOrderBindingDigest := wo.workOrderBindingDigest
      executionDefinitionDigest := wo.executionDefinitionDigest
      runId := i.projection.runId
      stepId := i.stepId
      toolCallId := i.toolCallId
      toolRegistrationDigest := i.registration.toolRegistrationDigest
      argumentsDigest := i.argumentsDigest
      normalizedTargetDigest := i.normalizedTargetDigest }
  context : i.context.effectKey = i.effectKey
  checkpoint : ∀ k, i.checkpoint = some k → k.phase = .tool ∧ k.stepId = some i.stepId ∧
    k.toolCallId = some i.toolCallId ∧ k.OfTool
  agent : wo.isCompensation = false → i.checkpoint.isSome

/-- The record is one of the plan's effect. -/
structure EffectPlan.Has (i : EffectPlan) (r : EffectRecord) : Prop where
  id : r.effectId = i.effectId
  key : r.effectKey = i.effectKey
  registration : r.toolRegistrationDigest = i.registration.toolRegistrationDigest
  arguments : r.argumentsDigest = i.argumentsDigest
  target : r.normalizedTargetDigest = i.normalizedTargetDigest
  strategy : r.strategy = i.strategy.kind.toStrategyKind
  operation : r.operationKey = i.operationKey

theorem EffectPlan.Has.advance {i : EffectPlan} {r : EffectRecord} (h : i.Has r) (t : Instant)
    (s : EffectState) : i.Has (r.advance t s) :=
  ⟨h.id, h.key, h.registration, h.arguments, h.target, h.strategy, h.operation⟩

section Plans

variable {K : Config} {wo : WorkOrder} {i : EffectPlan} {r : EffectRecord}

/-- The checkpoint of the plan is the one its tool call resumes from. -/
theorem Planned.resumes (h : Planned K wo i) {next : RunProjection}
    (hn : Stands next .running i.stepId) (agent : wo.isCompensation = false) :
    ∃ k, i.checkpoint = some k ∧ Resumes next k := by
  obtain ⟨k, hk⟩ := Option.isSome_iff_exists.mp (h.agent agent)
  obtain ⟨hphase, hstep, -, htool⟩ := h.checkpoint k hk
  refine ⟨k, hk, by rw [hstep]; rfl, by rw [hstep]; exact hn.step, ?_⟩
  simp only [Checkpoint.Shape, hphase]
  exact ⟨hn.status, htool⟩

theorem Planned.keys (h : Planned K wo i) (hr : i.Has r) {runId : String}
    (hrun : runId = i.projection.runId) :
    ∀ k, i.checkpoint = some k → k.phase = .tool ∧ k.Keys K wo runId r := by
  intro k hk
  obtain ⟨hphase, hstep, hcall, -⟩ := h.checkpoint k hk
  refine ⟨hphase, i.stepId, i.toolCallId, hstep, hcall, ?_⟩
  rw [hr.key, h.key, hr.registration, hr.arguments, hr.target, hrun]

/-- The checkpoint of the plan, written with an event of its effect. -/
theorem Planned.checkpointed (h : Planned K wo i) {c : RunTruth} {e : RunEvent}
    {sn : Option ContextSnapshot} (hn : Stands (c.projection.fold e) .running i.stepId)
    (hp : e.payload.eventType ≠ .InputRequested) (saves : Saves K wo e i.checkpoint sn) :
    Checkpointed K wo c e i.checkpoint sn := by
  refine ⟨saves, fun agent => ?_⟩
  obtain ⟨k, hk, hres⟩ := h.resumes hn agent
  refine ⟨k, hk, ?_⟩
  cases hq : e.payload <;> simp_all [Carries, EventPayload.eventType]

end Plans

/-! ### Dispatching -/

/-- The effect has been dispatched in a step that is running. -/
structure InFlight (H : Prop) (step : String) (r : EffectRecord) (c : RunTruth) : Prop
    extends Outstanding H r c where
  stands : Stands c.projection .running step

theorem InFlight.parkable {H : Prop} {step : String} {r : EffectRecord} {c : RunTruth}
    (h : InFlight H step r c) : Parkable H r c :=
  ⟨.inl h.toOutstanding, h.stands.status⟩

/-- No effect is open, and the step is in the status. -/
structure Idle (H : Prop) (status : RunStatus) (step : String) (c : RunTruth) : Prop
    extends Quiet H c where
  stands : Stands c.projection status step

/-- What is known once `#executeWriteEffect` has returned. -/
def Effected (H : Prop) (wo : WorkOrder) (step : String) : EffectOutcome → RunWorld → Prop
  | .acknowledged next _, v => Holding wo next (Idle H .running step) v
  | .parked _, v => On wo v

section Dispatching

variable {K : Config} {H : Prop} {env : Env} {t : Nat} {w : RunWorld} {wo : WorkOrder}
  {p : RunProjection} {Φ : RunTruth → Prop} {r : EffectRecord} {i : EffectPlan}
  {execution : EffectExecution}

theorem wp_acknowledgeEffect (hi : Planned K wo i) (h : Holding wo p (InFlight H i.stepId r) w) :
    (acknowledgeEffect K wo p i.lease r i.stepId execution i.checkpoint).wp
      (executorContract K H env) t (fun next => Holding wo next (Idle H .running i.stepId))
      (fun _ => On wo) w := by
  unfold acknowledgeEffect
  refine wp_calm_bind holding_stable h (fun now v _ hv => ?_) fun _ _ hv => hv.on
  refine wp_calm_bind holding_stable hv (fun result u _ hu => ?_) fun _ _ hv => hv.on
  refine (wp_append_holding (Ψ := Idle H .running i.stepId) hu
    (Tx.Beside.andThen (putEffectRecord_beside _ _) (putProtectedEffectResult_beside _)) rfl
    fun {v s₁ e sn} hsound hpr hΦ _ h₁ hbuild hn saves hon => ?_).mono
    (fun next x _ hx => hx.2) fun _ _ _ hv => hv.on
  obtain ⟨s₂, h₂, h₃⟩ := Transaction.andThen_ok.mp h₁
  have hs := putEffectRecord_advance hΦ.record (by rw [hΦ.state]; simp [EffectState.name]) h₂
  obtain ⟨results, digests, hs'⟩ := putProtectedEffectResult_ok h₃
  have hstands := hΦ.stands.fold hbuild.payload rfl rfl
  rw [hs', hs]
  refine ⟨.acknowledge (hpr.symm ▸ hn) hbuild.payload hΦ.record hΦ.state hΦ.stands.status
    (hi.checkpointed hstands (by rw [hbuild.payload]; simp [EventPayload.eventType]) saves)
    hΦ.clear hΦ.settled, ⟨⟨(hΦ.clear.but _).clear rfl, fun hH => ?_⟩, hstands⟩,
    fun _ _ => trivial⟩
  exact (hΦ.settled hH).settled (by simp [EffectRecord.advance, EffectState.name])

theorem Holding.answered (h : Holding wo p Φ w) {q : Query} (a : Answer q) :
    Holding wo p Φ (w.answered t q a) :=
  ⟨h.on, h.truth.imp_left fun hs => ⟨hs.event, hs.ended⟩⟩

/-- **A dispatch call is made on a committed dispatch.** -/
theorem wp_invoke_dispatch {value : JsonValue} {operationKey : Option String}
    {context : EffectDispatchContext} {effectId : String} (hkey : context.effectKey = r.effectKey)
    (h : Holding wo p Φ w ∧ Licensed w t effectId r) :
    (invoke (.dispatch value operationKey context) : Runtime EffectExecution).wp
      (executorContract K H env) t (fun _ => Holding wo p Φ) (fun _ => Holding wo p Φ) w := by
  intro v ho _ a _
  have hv := holding_stable h.1 ho
  refine ⟨.dispatch (licensed_stable h.2 ho) hkey rfl, ?_⟩
  exact Prog.wp_ofExcept (fun _ _ u hu _ => holding_stable (hv.answered a) hu)
    fun _ _ u hu _ => holding_stable (hv.answered a) hu

theorem wp_attemptDispatch {attempt : Nat} {effectId : String}
    (hkey : i.context.effectKey = r.effectKey)
    (h : Holding wo p Φ w ∧ Licensed w t effectId r) :
    (attemptDispatch K i attempt).wp (executorContract K H env) t (fun _ => Holding wo p Φ)
      (fun _ => Holding wo p Φ) w := by
  unfold attemptDispatch
  refine Prog.wp_bind ((wp_withActiveExecution (Q := fun _ => Holding wo p Φ)
    (R := fun v => Holding wo p Φ v ∧ Licensed v t effectId r) (fun hv ho => ⟨holding_stable hv.1 ho, licensed_stable hv.2 ho⟩)
    holding_stable (fun _ hv => hv.1) (fun _ => holding_stable) (fun _ _ => id)
    (fun v hv => ?_) h).mono (fun a v _ hv => wp_calm holding_stable _ hv) fun _ _ _ => id)
  unfold dispatchEffect
  split
  · exact wp_invoke_dispatch hkey hv
  · exact wp_throw holding_stable hv.1 fun _ => id
  · exact wp_invoke_dispatch hkey hv

theorem wp_dispatchFailed {e : Thrown} (hi : Planned K wo i)
    (h : Holding wo p (InFlight H i.stepId r) w) :
    (dispatchFailed K i p r e).wp (executorContract K H env) t (Effected H wo i.stepId)
      (fun _ => On wo) w := by
  unfold dispatchFailed
  refine wp_calm_bind holding_stable h (fun _ v _ hv => wp_calm_bind holding_stable hv
    (fun _ u _ hu => Prog.wp_bind ?_) fun _ _ hu => hu.on) fun _ _ hv => hv.on
  rw [hi.workOrder]
  exact (wp_parkEffectForReconciliation (hu.mono fun _ _ hc => hc.parkable)).mono
    (fun _ x _ hx => wp_pure (on_stable wo) hx fun _ => id) fun _ _ _ => id

theorem wp_callDispatch {attempt : Nat} (hi : Planned K wo i) (hr : i.Has r)
    (h : Holding wo p (InFlight H i.stepId r) w ∧ Licensed w t r.effectId r) :
    (callDispatch K i p r attempt).wp (executorContract K H env) t (Effected H wo i.stepId)
      (fun _ => On wo) w := by
  unfold callDispatch
  refine Prog.wp_bind (Prog.wp_attempt
    ((wp_attemptDispatch (hi.context.trans hr.key.symm) h).mono (fun x v _ hv => ?_)
      fun e v _ hv => wp_dispatchFailed hi hv))
  refine Prog.wp_bind ?_
  rw [hi.workOrder]
  exact (wp_acknowledgeEffect hi hv).mono
    (fun next u _ hu => wp_pure holding_stable hu fun _ => id) fun _ _ _ => id

/-- A prepared record, where no effect is open. -/
structure Prepared (H : Prop) (step : String) (r : EffectRecord) (c : RunTruth) : Prop
    extends Idle H .running step c where
  record : c.effects r.effectId = some r
  state : r.state = .prepared

/-- The dispatches of an effect, after one more. -/
theorem dispatches_add {c : RunTruth} {e : RunEvent} {sn : Option ContextSnapshot}
    {step effectId : String} {attempt : Nat}
    (hp : e.payload = .EffectDispatched step effectId attempt) :
    dispatches (c.add e sn).events effectId = dispatches c.events effectId + 1 := by
  simp [RunTruth.add, dispatches_self hp]

theorem wp_dispatchPrepared (hi : Planned K wo i) (hr : i.Has r)
    (hrun : p.runId = i.projection.runId) (h : Holding wo p (Prepared H i.stepId r) w) :
    (dispatchPrepared K i p r).wp (executorContract K H env) t (Effected H wo i.stepId)
      (fun _ => On wo) w := by
  unfold dispatchPrepared
  rw [hi.workOrder, ← hr.id]
  refine wp_calm_bind holding_stable h (fun now v _ hv => Prog.wp_bind ?_) fun _ _ hv => hv.on
  have hr' := hr.advance now (.dispatched now)
  refine (wp_append (G := fun _ => True)
    (J := fun v => Licensed v t r.effectId (r.advance now (.dispatched now)))
    (Ψ := InFlight H i.stepId (r.advance now (.dispatched now))) (fun h _ => h) licensed_stable hv
    trivial (putEffectRecord_beside _ _) rfl
    fun {v s₁ e sn} hsound hpr hΦ _ h₁ hbuild hn saves hon => ?_).mono
    (fun next u _ hu => ?_) fun _ _ _ hv => hv.1.on
  · have hs := putEffectRecord_advance hΦ.record (by rw [hΦ.state]; simp [EffectState.name]) h₁
    have hstands := hΦ.stands.fold hbuild.payload rfl rfl
    have hzero : dispatches v.state.truth.events r.effectId = 0 :=
      hsound.coherent.ledger.prepared hΦ.record (by rw [hΦ.state]; rfl)
    have hcalls := hsound.accounted.counted hΦ.record
    rw [hs]
    refine ⟨.dispatch (hpr.symm ▸ hn) hbuild.payload hΦ.record hΦ.state
      (hi.checkpointed hstands (by rw [hbuild.payload]; simp [EventPayload.eventType]) saves)
      (hi.keys hr (hpr.symm ▸ hrun)) hΦ.clear hΦ.settled,
      ⟨⟨Table.set_self _ _ _, rfl, (hΦ.clear.but _).clear rfl,
        fun hH => ((hΦ.settled hH).but _).set _⟩, hstands⟩, fun {u} hu hc => ?_⟩
    have hone : dispatches u.state.truth.events r.effectId = 1 := by
      rw [hu, dispatches_add hbuild.payload]
      show dispatches v.state.truth.events r.effectId + 1 = 1
      omega
    refine ⟨by rw [hu]; exact Table.set_self _ _ _, rfl, ?_, fun h₁ => ?_⟩
    · show dispatchCalls r.effectKey u.calls < _
      rw [hone, hc]
      omega
    · omega
  · exact wp_callDispatch hi hr' hu.2

theorem wp_parkEffect {code : String} (hi : Planned K wo i)
    (h : Holding wo i.projection (Parkable H r) w) :
    (parkEffect K i r code).wp (executorContract K H env) t (Effected H wo i.stepId)
      (fun _ => On wo) w := by
  unfold parkEffect
  rw [hi.workOrder]
  exact Prog.wp_bind ((wp_parkEffectForReconciliation h).mono
    (fun _ x _ hx => wp_pure (on_stable wo) hx fun _ => id) fun _ _ _ => id)

/-- The lookup of an operation is remembered. -/
theorem wp_lookupEffect {operationKey : String} (effectId : String) (h : Holding wo p Φ w) :
    (lookupEffect K i operationKey).wp (executorContract K H env) t
      (fun found v => Holding wo p Φ v ∧
        (found = .not_applied → Looked t effectId operationKey v))
      (fun _ => Holding wo p Φ) w := by
  unfold lookupEffect
  refine Prog.wp_bind ((wp_withActiveExecution (Q := fun answer v => Holding wo p Φ v ∧
    (answer = some EffectLookupResult.not_applied → Looked t effectId operationKey v)) (R := Holding wo p Φ)
    holding_stable holding_stable (fun _ => id)
    (fun _ _ _ hv ho => ⟨holding_stable hv.1 ho, fun ha => looked_stable (hv.2 ha) ho⟩)
    (fun _ _ hv => hv.1) (fun v hv => ?_) h).mono (fun answer v _ hv => ?_) fun _ _ _ => id)
  · intro v' ho _ a _
    have hs := CalmStep.answered (q := .lookup operationKey i.context) rfl a t v'
    have hv' := holding_stable (holding_stable hv ho) hs.outside
    refine ⟨.calm hs, Prog.wp_ofExcept (fun found ha u hu _ => ⟨holding_stable hv' hu, ?_⟩)
      fun _ _ u hu _ => holding_stable hv' hu⟩
    rintro rfl
    have hlook : Looked t effectId operationKey
        (v'.answered t (.lookup operationKey i.context) a) :=
      ⟨_, List.mem_append_right _ (List.mem_singleton.mpr rfl), rfl,
        ⟨t, i.context, v'.state, a, rfl, ha⟩, rfl⟩
    exact looked_stable hlook hu
  · refine Prog.wp_ofExcept (fun found hf u hu _ => ⟨holding_stable hv.1 hu, ?_⟩)
      fun _ _ u hu _ => holding_stable hv.1 hu
    rintro rfl
    refine looked_stable (hv.2 ?_) hu
    cases answer with
    | none => cases hf
    | some found => cases hf; rfl

theorem wp_dispatchAgain {operationKey : String} (hi : Planned K wo i) (hr : i.Has r)
    (hs : r.strategy = .reconcilable) (hk : r.operationKey = some operationKey)
    (h : Holding wo i.projection (InFlight H i.stepId r) w ∧
      Looked t r.effectId operationKey w) :
    (dispatchAgain K i r).wp (executorContract K H env) t (Effected H wo i.stepId)
      (fun _ => On wo) w := by
  unfold dispatchAgain
  rw [hi.workOrder, ← hr.id]
  refine wp_calm_bind (R := fun v => Holding wo i.projection (InFlight H i.stepId r) v ∧
    Looked t r.effectId operationKey v)
    (fun hv ho => ⟨holding_stable hv.1 ho, looked_stable hv.2 ho⟩) h
    (fun history v _ hv => Prog.wp_bind ?_) fun _ _ hv => hv.1.on
  refine (wp_append (J := fun v => Licensed v t r.effectId r) (Ψ := InFlight H i.stepId r)
    looked_stable licensed_stable hv.1 hv.2 skip_aside.beside rfl
    fun {v s₁ e sn} hsound hpr hΦ hlook h₁ hbuild hn saves hon => ?_).mono
    (fun next u _ hu => wp_callDispatch hi hr hu.2)
    fun _ _ _ hv => hv.1.on
  cases h₁
  have hstands := hΦ.stands.fold hbuild.payload rfl rfl
  have hpos := hsound.coherent.ledger.dispatched hΦ.record (by rw [hΦ.state]; simp)
  have hcalls := hsound.accounted.counted hΦ.record
  refine ⟨.redispatch (hpr.symm ▸ hn) hbuild.payload hΦ.record hΦ.state hs
    (hi.checkpointed hstands (by rw [hbuild.payload]; simp [EventPayload.eventType]) saves)
    (hi.keys hr (by rw [hpr])) hΦ.clear hΦ.settled,
    ⟨⟨hΦ.record, hΦ.state, hΦ.clear, hΦ.settled⟩, hstands⟩, fun {u} hu hc => ?_⟩
  have hsucc : dispatches u.state.truth.events r.effectId =
      dispatches v.state.truth.events r.effectId + 1 := by
    rw [hu, dispatches_add hbuild.payload]
  obtain ⟨call, hm, ht, hobs, hd⟩ := hlook
  refine ⟨by rw [hu]; exact hΦ.record, hΦ.state, by rw [hsucc, hc]; omega, fun _ =>
    ⟨hs, operationKey, hk, call, hc ▸ hm, ht, hobs, by omega, by omega⟩⟩

theorem wp_recoverApplied {operationKey : String} (hi : Planned K wo i)
    (h : Holding wo i.projection (InFlight H i.stepId r) w) :
    (recoverApplied K i r operationKey execution).wp (executorContract K H env) t
      (Effected H wo i.stepId) (fun _ => On wo) w := by
  unfold recoverApplied
  rw [hi.workOrder]
  refine wp_calm_bind holding_stable h (fun recovered v _ hv => wp_calm_bind holding_stable hv
    (fun _ u _ hu => Prog.wp_bind ?_) fun _ _ hu => hu.on) fun _ _ hv => hv.on
  exact (wp_acknowledgeEffect hi hu).mono
    (fun next x _ hx => wp_pure holding_stable hx fun _ => id) fun _ _ _ => id

theorem wp_resumeDispatched (hi : Planned K wo i) (hr : i.Has r)
    (h : Holding wo i.projection (InFlight H i.stepId r) w) :
    (resumeDispatched K i r).wp (executorContract K H env) t (Effected H wo i.stepId)
      (fun _ => On wo) w := by
  unfold resumeDispatched
  split
  · exact wp_parkEffect hi (h.mono fun _ _ hc => hc.parkable)
  · exact wp_parkEffect hi (h.mono fun _ _ hc => hc.parkable)
  · exact wp_throw holding_stable h fun _ hv => hv.on
  · rename_i hkind hop
    refine Prog.wp_bind ((wp_lookupEffect r.effectId h).mono
      (fun found v _ hv => ?_) fun _ _ _ hv => hv.on)
    cases found with
    | unknown => exact wp_parkEffect hi (hv.1.mono fun _ _ hc => hc.parkable)
    | applied execution => exact wp_recoverApplied hi hv.1
    | not_applied =>
        refine wp_dispatchAgain hi hr ?_ (hr.operation.trans hop) ⟨hv.1, hv.2 rfl⟩
        rw [hr.strategy, hkind]
        rfl

theorem wp_resumeAcknowledged {digest : Digest} (hi : Planned K wo i)
    (h : Holding wo i.projection Φ w)
    (idle : ∀ c, c.projection = i.projection → Φ c →
      Idle H .running i.stepId c ∧ wo.isCompensation = false) :
    (resumeAcknowledged K i r digest).wp (executorContract K H env) t (Effected H wo i.stepId)
      (fun _ => On wo) w := by
  unfold resumeAcknowledged
  rw [hi.workOrder]
  refine wp_calm_bind holding_stable h (fun recovered v _ hv => ?_) fun _ _ hv => hv.on
  split
  · refine wp_calm_bind holding_stable hv (fun output u _ hu => ?_) fun _ _ hu => hu.on
    exact wp_pure holding_stable (hu.mono fun c hc hΦ => (idle c hc hΦ).1) fun _ => id
  · refine Prog.wp_bind ((wp_suspendResultUnavailable hv fun c hc hΦ =>
      ⟨(idle c hc hΦ).1.clear, (idle c hc hΦ).2⟩).mono
      (fun _ x _ hx => wp_pure (on_stable wo) hx fun _ => id) fun _ _ _ => id)

/-- No record has the key of the plan, and no effect is open. -/
structure Unprepared (H : Prop) (step key : String) (c : RunTruth) : Prop
    extends Idle H .running step c where
  absent : c.getByEffectKey key = none

/-- The first record of a key. -/
theorem putEffectRecord_new {E : Encoding} {s s' : Store} {events : List RunEvent}
    (hl : Ledger events s.truth.effects s.truth.effectKeys)
    (habs : s.truth.getByEffectKey r.effectKey = none) (hr : r.state = .prepared)
    (h : (putEffectRecord E r).run s = .ok s') :
    s.truth.effects r.effectId = none ∧ s.truth.effectKeys r.effectKey = none ∧
      s'.truth = s.truth.putEffect r := by
  have hkey : s.truth.effectKeys r.effectKey = none := by
    cases hk : s.truth.effectKeys r.effectKey with
    | none => rfl
    | some id =>
        obtain ⟨x, hx, -⟩ := hl.key hk
        simp [RunTruth.getByEffectKey, hk, hx] at habs
  obtain ⟨-, ⟨hx, -⟩ | ⟨ht, hallow⟩⟩ := putEffectRecord_ok h
  · rw [(hl.id hx).2] at hkey
    cases hkey
  · refine ⟨?_, hkey, ht⟩
    cases hx : s.truth.effects r.effectId with
    | none => rfl
    | some x =>
        have := hallow x hx
        rw [hr] at this
        unfold isEffectTransitionAllowed at this
        cases hs : x.state <;> simp [hs, EffectState.name, EFFECT_TRANSITIONS] at this

theorem prepareCommit_ok {authorization consumed : AuthorizationReservation} {at_ : Instant}
    {s s' : Store} (h : (prepareCommit K authorization consumed r at_).run s = .ok s') :
    ∃ s₁ authorizations keys, s₁.truth = { s.truth with
        authorizations := authorizations, authorizationKeys := keys } ∧
      (putEffectRecord K.encoding r).run s₁ = .ok s' := by
  simp only [prepareCommit, Transaction.sequence_cons, Transaction.sequence_nil] at h
  obtain ⟨s₁, h₁, h⟩ := Transaction.andThen_ok.mp h
  obtain ⟨s₂, h₂, h⟩ := Transaction.andThen_ok.mp h
  obtain ⟨s₃, h₃, h⟩ := Transaction.andThen_ok.mp h
  obtain ⟨s₄, h₄, h₅⟩ := Transaction.andThen_ok.mp h
  cases h₅
  obtain ⟨authorizations, keys, ht⟩ := putAuthorizationReservation_ok h₃
  have h₂' : s₂.truth = s₁.truth := by
    split at h₂
    · exact claimApproval_aside _ _ _ h₂
    · exact skip_aside h₂
  refine ⟨s₃, authorizations, keys, ?_, h₄⟩
  rw [ht, h₂', reserveCapabilityGrantUse_aside _ _ _ h₁]

theorem prepareCommit_beside (authorization consumed : AuthorizationReservation)
    (r : EffectRecord) (at_ : Instant) : (prepareCommit K authorization consumed r at_).Beside := by
  intro s s' h
  obtain ⟨s₁, authorizations, keys, ht, h₁⟩ := prepareCommit_ok h
  have := putEffectRecord_beside _ _ h₁
  rw [ht] at this
  exact this

theorem wp_prepareEffect (hi : Planned K wo i) (hK : K.effectServices = true)
    (h : Holding wo i.projection (Unprepared H i.stepId i.effectKey) w) :
    (prepareEffect K i).wp (executorContract K H env) t (Effected H wo i.stepId)
      (fun _ => On wo) w := by
  unfold prepareEffect
  rw [hi.workOrder]
  refine wp_calm_bind holding_stable h (fun authorization v _ hv => wp_calm_bind holding_stable hv
    (fun now u _ hu => wp_calm_bind holding_stable hu (fun consumed x _ hx => Prog.wp_bind ?_)
      fun _ _ hu => hu.on) fun _ _ hu => hu.on) fun _ _ hv => hv.on
  have hr : i.Has (i.preparedRecord K authorization now) := ⟨rfl, rfl, rfl, rfl, rfl, rfl, rfl⟩
  refine (wp_append_holding (Ψ := Prepared H i.stepId (i.preparedRecord K authorization now)) hx
    (prepareCommit_beside _ _ _ _) rfl
    fun {v s₁ e sn} hsound hpr hΦ _ h₁ hbuild hn saves hon => ?_).mono
    (fun next u _ hu => wp_dispatchPrepared hi hr hu.1.runId hu.2)
    fun _ _ _ hv => hv.on
  obtain ⟨s₂, authorizations, keys, ht, h₂⟩ := prepareCommit_ok h₁
  obtain ⟨habs, hkey, ht'⟩ := putEffectRecord_new (s := s₂)
    (by rw [ht]; exact hsound.coherent.ledger) (by rw [ht]; exact hΦ.absent) rfl h₂
  cases saves
  rw [ht] at habs hkey ht'
  rw [ht']
  refine ⟨.prepare (r := i.preparedRecord K authorization now) (hpr.symm ▸ hn) hbuild.payload rfl
    habs hkey hK hΦ.clear hΦ.settled, ⟨⟨⟨?_, fun hH => ?_⟩, hΦ.stands.fold hbuild.payload rfl rfl⟩,
      Table.set_self _ _ _, rfl⟩, fun _ _ => trivial⟩
  · exact (hΦ.clear.but _).clear rfl
  · exact ((hΦ.settled hH).but _).settled (by
      simp [EffectPlan.preparedRecord, EffectState.name])

/-- The ledger has the record, and no other effect is open. -/
structure Found (H : Prop) (step : String) (r : EffectRecord) (c : RunTruth) : Prop where
  record : c.effects r.effectId = some r
  clear : Clear c.effects
  others : H → SettledBut r.effectId c.effects
  stands : Stands c.projection .running step

theorem Found.idle {c : RunTruth} {step : String} (h : Found H step r c)
    (hs : r.state.name ≠ .dispatched) : Idle H .running step c := by
  refine ⟨⟨h.clear, fun hH e x hx => ?_⟩, h.stands⟩
  by_cases he : e = r.effectId
  · subst he
    rw [h.record] at hx
    cases hx
    exact hs
  · exact h.others hH e x he hx

theorem wp_resumeEffect (hi : Planned K wo i) (hr : i.Has r)
    (h : Holding wo i.projection (fun c => Found H i.stepId r c ∧ wo.isCompensation = false) w) :
    (resumeEffect K i r).wp (executorContract K H env) t (Effected H wo i.stepId)
      (fun _ => On wo) w := by
  have awaiting : r.state.awaiting = true →
      Holding wo i.projection (Parkable H r) w := fun ha =>
    h.mono fun c _ hc => by
      have := hc.1.clear _ _ hc.1.record
      rw [ha] at this
      cases this
  unfold resumeEffect
  split
  · rename_i hs
    exact wp_resumeAcknowledged hi h fun c _ hc =>
      ⟨hc.1.idle (by rw [hs]; simp [EffectState.name]), hc.2⟩
  · rename_i hs
    exact wp_resumeAcknowledged hi h fun c _ hc =>
      ⟨hc.1.idle (by rw [hs]; simp [EffectState.name]), hc.2⟩
  · rename_i hs
    exact wp_parkEffect hi (awaiting (by rw [hs]; rfl))
  · rename_i hs
    exact wp_parkEffect hi (awaiting (by rw [hs]; rfl))
  · exact wp_throw holding_stable h fun _ hv => hv.on
  · rename_i hs
    exact wp_resumeDispatched hi hr (h.mono fun c _ hc =>
      ⟨⟨hc.1.record, by rw [hs]; rfl, hc.1.clear, hc.1.others⟩, hc.1.stands⟩)
  · rename_i hs
    exact wp_dispatchPrepared hi hr rfl (h.mono fun c _ hc =>
      ⟨hc.1.idle (by rw [hs]; simp [EffectState.name]), hc.1.record, hs⟩)

end Dispatching

/-! ### Executing a write effect -/

/-- What is known before the effect of a key: a dispatch that was interrupted is its own. -/
structure Ready (H : Prop) (step key : String) (c : RunTruth) : Prop where
  stands : Stands c.projection .running step
  clear : Clear c.effects
  settled : H → Settled c.effects ∨
    ∃ r, Interrupted c.events c.effects r ∧ r.effectKey = key

section Executing

variable {K : Config} {H : Prop} {env : Env} {t : Nat} {w : RunWorld} {wo : WorkOrder}
  {c : RunTruth} {step key : String} {r : EffectRecord}

theorem getByEffectKey_of_record (hl : Ledger c.events c.effects c.effectKeys)
    (hr : c.effects r.effectId = some r) (hk : r.effectKey = key) :
    c.getByEffectKey key = some r := by
  rw [RunTruth.getByEffectKey, ← hk, (hl.id hr).2]
  exact hr

theorem getByEffectKey_eq_some (hl : Ledger c.events c.effects c.effectKeys)
    (h : c.getByEffectKey key = some r) : c.effects r.effectId = some r := by
  obtain ⟨id, -, hid⟩ := Option.bind_eq_some_iff.mp h
  rwa [(hl.id hid).1]

/-- An interrupted dispatch is found under its key. -/
theorem Ready.unprepared (h : Ready H step key c) (hl : Ledger c.events c.effects c.effectKeys)
    (hk : c.getByEffectKey key = none) : Unprepared H step key c := by
  refine ⟨⟨⟨h.clear, fun hH => (h.settled hH).resolve_right ?_⟩, h.stands⟩, hk⟩
  rintro ⟨r, hr, hkey⟩
  rw [getByEffectKey_of_record hl hr.record hkey] at hk
  cases hk

theorem Ready.found (h : Ready H step key c) (hl : Ledger c.events c.effects c.effectKeys)
    (hk : c.getByEffectKey key = some r) : Found H step r c := by
  refine ⟨getByEffectKey_eq_some hl hk, h.clear, fun hH => ?_, h.stands⟩
  rcases h.settled hH with hs | ⟨x, hx, hkey⟩
  · exact hs.but _
  · rw [getByEffectKey_of_record hl hx.record hkey] at hk
    cases hk
    exact hx.others

theorem Holding.coherent {p : RunProjection} {Φ : RunTruth → Prop} (h : Holding wo p Φ w)
    (hi : Sound K H w) : Holding wo p (fun c => Φ c ∧ Coherent K H wo c) w :=
  ⟨h.on, h.truth.imp_right fun hc => ⟨hc.projection, hc.length, fun ha =>
    ⟨hc.holds ha, h.on ▸ hi.coherent⟩⟩⟩

theorem assertEffectRecordBinding_ok {i : EffectInput} {strategy : EffectStrategy}
    {arguments : Digest} (h : assertEffectRecordBinding i strategy arguments key r = .ok ()) :
    r.effectKey = key ∧ r.toolRegistrationDigest = i.registration.toolRegistrationDigest ∧
      r.strategy = strategy.kind.toStrategyKind ∧ r.argumentsDigest = arguments ∧
      r.normalizedTargetDigest = i.normalizedTargetDigest := by
  unfold assertEffectRecordBinding at h
  split at h
  · rename_i hc
    exact ⟨hc.2.2.1, hc.2.2.2.1, hc.2.2.2.2.1, hc.2.2.2.2.2.2⟩
  · cases h

/-- **`#executeWriteEffect`.** -/
theorem wp_executeWriteEffect {i : EffectInput} {Φ : RunTruth → Prop}
    (hwo : i.workOrder = wo)
    (checkpoint : ∀ k, i.checkpoint = some k → k.phase = .tool ∧ k.stepId = some i.stepId ∧
      k.toolCallId = some i.toolCallId ∧ k.OfTool)
    (agent : wo.isCompensation = false → i.checkpoint.isSome)
    (h : Holding wo i.projection Φ w)
    (ready : ∀ c, c.projection = i.projection → Φ c → Ready H i.stepId (i.effectKey K) c)
    (first : wo.isCompensation = true → ∀ c, c.projection = i.projection → Φ c →
      ∀ e, c.effects e = none) :
    (executeWriteEffect K i).wp (executorContract K H env) t (Effected H wo i.stepId)
      (fun _ => On wo) w := by
  unfold executeWriteEffect
  refine Prog.wp_bind (Prog.wp_throwIf (fun hK v hv _ => ?_) fun _ v hv _ => on_stable wo h.on hv)
  refine wp_calm_bind holding_stable (holding_stable h hv) (fun strategy? u _ hu => ?_)
    fun _ _ hu => hu.on
  split
  · exact wp_throw holding_stable hu fun _ hx => hx.on
  rename_i strategy _
  refine wp_read_bind (fun c => c.getByEffectKey (i.effectKey K)) hu fun record? x hsound hx => ?_
  have hx' := (hx.coherent hsound).mono fun c hc hΦ =>
    (⟨ready c hc hΦ.1.1, hΦ.1.2, hΦ.2.ledger, fun hcomp => first hcomp c hc hΦ.1.1⟩ :
      Ready H i.stepId (i.effectKey K) c ∧ record? = c.getByEffectKey (i.effectKey K) ∧
        Ledger c.events c.effects c.effectKeys ∧
        (wo.isCompensation = true → ∀ e, c.effects e = none))
  refine Prog.wp_bind (Prog.wp_ofExcept (fun _ hbind y hy _ => ?_)
    fun _ _ y hy _ => on_stable wo hx.on hy)
  have hy' := holding_stable hx' hy
  cases record? with
  | none =>
      refine wp_calm_bind holding_stable hy' (fun effectId z _ hz => ?_) fun _ _ hz => hz.on
      refine wp_calm_bind holding_stable hz (fun preview z₁ _ hz₁ => ?_) fun _ _ hz => hz.on
      refine wp_calm_bind holding_stable hz₁ (fun _ z₂ _ hz₂ => ?_) fun _ _ hz => hz.on
      refine wp_calm_bind holding_stable hz₂ (fun operationKey z₃ _ hz₃ => ?_) fun _ _ hz => hz.on
      refine wp_calm_bind holding_stable hz₃ (fun _ z₄ _ hz₄ => ?_) fun _ _ hz => hz.on
      exact wp_prepareEffect (i := i.plan K strategy effectId operationKey)
        ⟨hwo, hwo ▸ rfl, rfl, checkpoint, agent⟩ (by simpa using hK)
        (hz₄.mono fun c _ hc => hc.1.unprepared hc.2.2.1 hc.2.1.symm)
  | some r =>
      obtain ⟨hkey, hreg, hstrat, hargs, htarget⟩ := assertEffectRecordBinding_ok hbind
      refine Prog.wp_bind (wp_pure (a := r.effectId) holding_stable hy' fun z hz => ?_)
      refine wp_calm_bind holding_stable hz (fun preview z₁ _ hz₁ => ?_) fun _ _ hz => hz.on
      refine wp_calm_bind holding_stable hz₁ (fun _ z₂ _ hz₂ => ?_) fun _ _ hz => hz.on
      refine wp_calm_bind holding_stable hz₂ (fun operationKey z₃ _ hz₃ => ?_) fun _ _ hz => hz.on
      refine Prog.wp_bind (Prog.wp_throwIf (fun hop z₄ hz₄ _ => ?_)
        fun _ z₄ hz₄ _ => on_stable wo hz₃.on hz₄)
      have hop' : r.operationKey = operationKey := by simpa using hop
      refine wp_resumeEffect (i := i.plan K strategy r.effectId operationKey)
        ⟨hwo, hwo ▸ rfl, rfl, checkpoint, agent⟩
        ⟨rfl, hkey, hreg, hargs, htarget, hstrat, hop'⟩
        ((holding_stable hz₃ hz₄).mono fun c _ hc => ?_)
      have hfound := hc.1.found hc.2.2.1 hc.2.1.symm
      refine ⟨hfound, ?_⟩
      cases hcomp : wo.isCompensation with
      | false => rfl
      | true =>
          have := hfound.record
          rw [hc.2.2.2 hcomp] at this
          cases this

end Executing

end Pactmark
