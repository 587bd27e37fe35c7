import Pactmark.Protocol.Stream

/-!
# Protocol — what holds of the truth of a run

The invariants of a run's truth, each over the parts of the truth it speaks about.

* `Stream`: the events are numbered from one, have distinct identities, and are bound to the
  work order; the projection is up to date with them.
* `Ledger`: the tables of the effect ledger agree with one another and with the
  `EffectDispatched` events.
* `Reconciliation`: at most one effect awaits reconciliation, and only in the tail of a run that
  is being parked or has been parked on it.
* `Dispatch`: an effect is left `dispatched` only by its own `EffectDispatched` event, from whose
  checkpoint its tool call is made again, or by a run that is suspended or over.  It holds of the
  runs in which the host is steady.
* `Waiting`: a run that waits does so because of its last event.
* `Resumption`: where the next `execute` of an agent run finds its checkpoint.
-/

namespace Pactmark

open Durable

/-! ### The stream -/

/-- The events of a run and its projection. -/
structure Stream (wo : WorkOrder) (events : List RunEvent) (p : RunProjection) : Prop where
  length : p.lastSequence = events.length
  sequence : ∀ {i e}, events[i]? = some e → e.sequence = i + 1
  lastId : p.lastEventId = events.getLast?.map (·.eventId)
  distinct : events.Pairwise (·.eventId ≠ ·.eventId)
  tenant : p.tenantId = wo.tenantId
  workOrder : p.workOrderId = wo.id
  binding : p.workOrderBindingDigest = wo.workOrderBindingDigest
  definition : p.executionDefinition = wo.executionDefinition
  definitionDigest : p.executionDefinitionDigest = wo.executionDefinitionDigest
  bound : ∀ e ∈ events,
    e.runId = p.runId ∧ e.executionDefinitionDigest = wo.executionDefinitionDigest

/-- The reducer accepts `e`, and no event has its identity. -/
structure Next (events : List RunEvent) (p : RunProjection) (e : RunEvent) : Prop where
  foldable : Foldable p e
  fresh : ∀ e' ∈ events, e'.eventId ≠ e.eventId

theorem getElem?_concat {events : List RunEvent} {e x : RunEvent} {i : Nat}
    (h : (events ++ [e])[i]? = some x) : events[i]? = some x ∨ (i = events.length ∧ x = e) := by
  rcases Nat.lt_trichotomy i events.length with hi | hi | hi
  · rw [List.getElem?_append_left hi] at h
    exact .inl h
  · subst hi
    simp only [List.getElem?_concat_length, Option.some.injEq] at h
    exact .inr ⟨rfl, h.symm⟩
  · rw [List.getElem?_eq_none (by simp; omega)] at h
    cases h

theorem getElem?_of_concat {events : List RunEvent} {e x : RunEvent} {i : Nat}
    (h : events[i]? = some x) : (events ++ [e])[i]? = some x := by
  rw [List.getElem?_append_left (List.getElem?_eq_some_iff.mp h).1]
  exact h

theorem Stream.push {wo : WorkOrder} {events : List RunEvent} {p : RunProjection} {e : RunEvent}
    (h : Stream wo events p) (hn : Next events p e) : Stream wo (events ++ [e]) (p.fold e) where
  length := by simp [hn.foldable.sequence, h.length]
  sequence {i e'} he := by
    rcases getElem?_concat he with he | ⟨rfl, rfl⟩
    · exact h.sequence he
    · rw [hn.foldable.sequence, h.length]
  lastId := by simp
  distinct := by
    rw [List.pairwise_append]
    exact ⟨h.distinct, List.pairwise_singleton _ _, fun a ha b hb => by
      rw [List.mem_singleton.mp hb]; exact hn.fresh a ha⟩
  tenant := by simp [h.tenant]
  workOrder := by simp [h.workOrder]
  binding := by simp [h.binding]
  definition := by simp [h.definition]
  definitionDigest := by simp [h.definitionDigest]
  bound e' he' := by
    rcases List.mem_append.mp he' with he' | he'
    · simpa using h.bound e' he'
    · rw [List.mem_singleton.mp he', hn.foldable.definitionDigest, h.definitionDigest]
      simp [hn.foldable.run]

theorem Stream.sequence_le {wo : WorkOrder} {events : List RunEvent} {p : RunProjection}
    (h : Stream wo events p) {e : RunEvent} (he : e ∈ events) : e.sequence ≤ events.length := by
  obtain ⟨i, hi, rfl⟩ := List.mem_iff_getElem.mp he
  rw [h.sequence (List.getElem?_eq_getElem hi)]
  omega

/-! ### The ledger -/

/-- The event commits a dispatch of the effect. -/
def RunEvent.dispatches (effectId : String) (e : RunEvent) : Bool :=
  match e.payload with
  | .EffectDispatched _ id _ => id = effectId
  | _ => false

/-- How often a dispatch of the effect was committed. -/
def dispatches (events : List RunEvent) (effectId : String) : Nat :=
  (events.filter (·.dispatches effectId)).length

@[simp] theorem dispatches_append (a b : List RunEvent) (id : String) :
    dispatches (a ++ b) id = dispatches a id + dispatches b id := by
  simp [dispatches]

@[simp] theorem dispatches_nil (id : String) : dispatches [] id = 0 := rfl

theorem dispatches_self {e : RunEvent} {step id : String} {attempt : Nat}
    (h : e.payload = .EffectDispatched step id attempt) : dispatches [e] id = 1 := by
  simp [dispatches, RunEvent.dispatches, h]

theorem dispatches_of_ne {e : RunEvent} {step id id' : String} {attempt : Nat}
    (h : e.payload = .EffectDispatched step id attempt) (hne : id ≠ id') :
    dispatches [e] id' = 0 := by
  simp [dispatches, RunEvent.dispatches, h, hne]

theorem dispatches_other {e : RunEvent} {id : String}
    (h : e.payload.eventType ≠ .EffectDispatched) : dispatches [e] id = 0 := by
  unfold dispatches RunEvent.dispatches
  cases hp : e.payload <;> simp_all [List.filter, EventPayload.eventType]

theorem dispatches_mono {a b : List RunEvent} (h : a <+: b) (id : String) :
    dispatches a id ≤ dispatches b id := by
  obtain ⟨c, rfl⟩ := h
  simp

/-- The effect ledger of a run. -/
structure Ledger (events : List RunEvent) (effects : Table EffectRecord)
    (effectKeys : Table String) : Prop where
  id : ∀ {e r}, effects e = some r → r.effectId = e ∧ effectKeys r.effectKey = some e
  key : ∀ {k e}, effectKeys k = some e → ∃ r, effects e = some r ∧ r.effectKey = k
  absent : ∀ {e}, effects e = none → dispatches events e = 0
  prepared : ∀ {e r}, effects e = some r → r.state.name = .prepared → dispatches events e = 0
  dispatched : ∀ {e r}, effects e = some r → r.state.name ≠ .prepared → 1 ≤ dispatches events e
  once : ∀ {e r}, effects e = some r → r.strategy ≠ .reconcilable → dispatches events e ≤ 1

namespace Ledger

variable {events : List RunEvent} {effects : Table EffectRecord} {effectKeys : Table String}
  {e : RunEvent} {r : EffectRecord}

/-- An event that dispatches nothing. -/
theorem push (h : Ledger events effects effectKeys)
    (he : e.payload.eventType ≠ .EffectDispatched) : Ledger (events ++ [e]) effects effectKeys where
  id := h.id
  key := h.key
  absent hx := by simp [h.absent hx, dispatches_other he]
  prepared hx hs := by simp [h.prepared hx hs, dispatches_other he]
  dispatched hx hs := by simpa [dispatches_other he] using h.dispatched hx hs
  once hx hs := by simpa [dispatches_other he] using h.once hx hs

/-- A new record. -/
theorem prepare (h : Ledger events effects effectKeys) (hs : r.state = .prepared)
    (absent : effects r.effectId = none) (unkeyed : effectKeys r.effectKey = none) :
    Ledger events (effects.set r.effectId r) (effectKeys.set r.effectKey r.effectId) := by
  refine ⟨fun {id x} hx => ?_, fun {k id} hk => ?_, fun {id} hx => ?_, fun {id x} hx hp => ?_,
    fun {id x} hx hp => ?_, fun {id x} hx hp => ?_⟩ <;>
    simp only [Table.set] at *
  · split at hx <;> rename_i hid
    · cases hx; simp [hid]
    · obtain ⟨h₁, h₂⟩ := h.id hx
      refine ⟨h₁, ?_⟩
      rw [if_neg, h₂]
      intro hk
      rw [hk, unkeyed] at h₂
      cases h₂
  · split at hk <;> rename_i hid
    · cases hk; exact ⟨r, by simp, hid.symm⟩
    · obtain ⟨x, hx, hxk⟩ := h.key hk
      refine ⟨x, ?_, hxk⟩
      rw [if_neg, hx]
      rintro rfl
      rw [absent] at hx
      cases hx
  · split at hx
    · cases hx
    · exact h.absent hx
  · split at hx <;> rename_i hid
    · rw [hid]; exact h.absent absent
    · exact h.prepared hx hp
  · split at hx
    · cases hx; simp [hs, EffectState.name] at hp
    · exact h.dispatched hx hp
  · split at hx <;> rename_i hid
    · rw [hid, h.absent absent]; omega
    · exact h.once hx hp

/-- A record is advanced, and its dispatches with it. -/
theorem advance {events' : List RunEvent} (h : Ledger events effects effectKeys)
    (hr : effects r.effectId = some r) {t : Instant} {s : EffectState} (hs : s.name ≠ .prepared)
    (others : ∀ id, id ≠ r.effectId → dispatches events' id = dispatches events id)
    (some_ : 1 ≤ dispatches events' r.effectId)
    (once : r.strategy ≠ .reconcilable → dispatches events' r.effectId ≤ 1) :
    Ledger events' (effects.set r.effectId (r.advance t s))
      (effectKeys.set r.effectKey r.effectId) := by
  refine ⟨fun {id x} hx => ?_, fun {k id} hk => ?_, fun {id} hx => ?_, fun {id x} hx hp => ?_,
    fun {id x} hx hp => ?_, fun {id x} hx hp => ?_⟩ <;>
    simp only [Table.set] at *
  · split at hx <;> rename_i hid
    · cases hx; simp [EffectRecord.advance, hid]
    · obtain ⟨h₁, h₂⟩ := h.id hx
      refine ⟨h₁, ?_⟩
      rw [if_neg, h₂]
      intro hk
      rw [hk, (h.id hr).2] at h₂
      exact hid (Option.some.inj h₂).symm
  · split at hk <;> rename_i hid
    · cases hk; exact ⟨_, if_pos rfl, hid.symm⟩
    · obtain ⟨x, hx, hxk⟩ := h.key hk
      refine ⟨x, ?_, hxk⟩
      rw [if_neg, hx]
      rintro rfl
      rw [hr] at hx
      cases hx
      exact hid hxk.symm
  · split at hx
    · cases hx
    · rw [others _ ‹_›]; exact h.absent hx
  · split at hx
    · cases hx; exact absurd hp hs
    · rw [others _ ‹_›]; exact h.prepared hx hp
  · split at hx <;> rename_i hid
    · rw [hid]; exact some_
    · rw [others _ hid]; exact h.dispatched hx hp
  · split at hx <;> rename_i hid
    · cases hx; rw [hid]; exact once hp
    · rw [others _ hid]; exact h.once hx hp

/-- A record that has been dispatched is advanced by an event that dispatches nothing. -/
theorem settle (h : Ledger events effects effectKeys) (hr : effects r.effectId = some r)
    (hd : r.state.name ≠ .prepared) {t : Instant} {s : EffectState} (hs : s.name ≠ .prepared) :
    Ledger events (effects.set r.effectId (r.advance t s))
      (effectKeys.set r.effectKey r.effectId) :=
  h.advance hr hs (fun _ _ => rfl) (h.dispatched hr hd) (h.once hr)

/-- The first dispatch of a prepared record. -/
theorem dispatch (h : Ledger events effects effectKeys) (hr : effects r.effectId = some r)
    (hs : r.state = .prepared) {step : String} {n : Nat} {t : Instant}
    (he : e.payload = .EffectDispatched step r.effectId n) :
    Ledger (events ++ [e]) (effects.set r.effectId (r.advance t (.dispatched t)))
      (effectKeys.set r.effectKey r.effectId) := by
  have h₀ : dispatches events r.effectId = 0 := h.prepared hr (by rw [hs]; rfl)
  refine h.advance hr (by simp [EffectState.name]) (fun id hid => ?_) ?_ fun _ => ?_
  · simp [dispatches_of_ne he (Ne.symm hid)]
  · simp [dispatches_self he]
  · simp [dispatches_self he, h₀]

/-- Another dispatch of a reconcilable record. -/
theorem redispatch (h : Ledger events effects effectKeys) (hr : effects r.effectId = some r)
    (hs : r.state.name = .dispatched) (hk : r.strategy = .reconcilable) {step : String} {n : Nat}
    (he : e.payload = .EffectDispatched step r.effectId n) :
    Ledger (events ++ [e]) effects effectKeys := by
  refine ⟨h.id, h.key, fun {id} hx => ?_, fun {id x} hx hp => ?_, fun {id x} hx hp => ?_,
    fun {id x} hx hp => ?_⟩
  · have hid : r.effectId ≠ id := by rintro rfl; rw [hr] at hx; cases hx
    simp [h.absent hx, dispatches_of_ne he hid]
  · have hid : r.effectId ≠ id := by
      rintro rfl
      rw [hr] at hx
      cases hx
      rw [hs] at hp
      cases hp
    simp [h.prepared hx hp, dispatches_of_ne he hid]
  · have := h.dispatched hx hp
    simp only [dispatches_append]
    omega
  · have hid : r.effectId ≠ id := by rintro rfl; rw [hr] at hx; cases hx; exact hp hk
    simpa [dispatches_of_ne he hid] using h.once hx hp

end Ledger

/-! ### Effects that await reconciliation -/

/-- `unknown` or `needs_reconciliation`. -/
def EffectState.awaiting (s : EffectState) : Bool :=
  s.name = .unknown ∨ s.name = .needs_reconciliation

/-- `dispatched`, `unknown` or `needs_reconciliation`: the outcome is not known. -/
def EffectState.open (s : EffectState) : Bool :=
  s.name = .dispatched ∨ s.awaiting

/-- No effect awaits reconciliation. -/
def Clear (effects : Table EffectRecord) : Prop :=
  ∀ e r, effects e = some r → r.state.awaiting = false

/-- No effect but `e₀` awaits reconciliation. -/
def ClearBut (e₀ : String) (effects : Table EffectRecord) : Prop :=
  ∀ e r, e ≠ e₀ → effects e = some r → r.state.awaiting = false

/-- No effect is left `dispatched`. -/
def Settled (effects : Table EffectRecord) : Prop :=
  ∀ e r, effects e = some r → r.state.name ≠ .dispatched

/-- No effect but `e₀` is left `dispatched`. -/
def SettledBut (e₀ : String) (effects : Table EffectRecord) : Prop :=
  ∀ e r, e ≠ e₀ → effects e = some r → r.state.name ≠ .dispatched

section Marks

variable {effects : Table EffectRecord} {id : String} {r r' : EffectRecord}

theorem Clear.but (h : Clear effects) (id : String) : ClearBut id effects :=
  fun e r _ => h e r

theorem Settled.but (h : Settled effects) (id : String) : SettledBut id effects :=
  fun e r _ => h e r

theorem ClearBut.set (h : ClearBut id effects) (r : EffectRecord) :
    ClearBut id (effects.set id r) := by
  intro e x he hx
  rw [Table.set_of_ne _ _ he] at hx
  exact h e x he hx

theorem SettledBut.set (h : SettledBut id effects) (r : EffectRecord) :
    SettledBut id (effects.set id r) := by
  intro e x he hx
  rw [Table.set_of_ne _ _ he] at hx
  exact h e x he hx

/-- Once the exception is resolved nothing awaits reconciliation. -/
theorem ClearBut.clear (h : ClearBut id effects) (hr : r.state.awaiting = false) :
    Clear (effects.set id r) := by
  intro e x hx
  by_cases he : e = id
  · subst he
    rw [Table.set_self] at hx
    cases hx
    exact hr
  · exact h.set r e x he hx

theorem SettledBut.settled (h : SettledBut id effects) (hr : r.state.name ≠ .dispatched) :
    Settled (effects.set id r) := by
  intro e x hx
  by_cases he : e = id
  · subst he
    rw [Table.set_self] at hx
    cases hx
    exact hr
  · exact h.set r e x he hx

end Marks

/-- The last payload of a stream. -/
def lastPayload (events : List RunEvent) : Option EventPayload :=
  events.getLast?.map (·.payload)

@[simp] theorem lastPayload_concat (events : List RunEvent) (e : RunEvent) :
    lastPayload (events ++ [e]) = some e.payload := by
  simp [lastPayload]

/-- The effect the last event records as uncertain, in a running run. -/
def UncertainTail (events : List RunEvent) (effects : Table EffectRecord) : Prop :=
  ∃ step e code r, lastPayload events = some (.EffectUncertain step e code) ∧
    effects e = some r ∧ r.state.name = .unknown ∧ ClearBut e effects

/-- What the last event says of its effect where nothing awaits reconciliation. -/
def ClearTail (events : List RunEvent) (effects : Table EffectRecord) : Prop :=
  match lastPayload events with
  | some (.EffectUncertain ..) => False
  | some (.EffectDispatched _ e _) => ∃ r, effects e = some r ∧ r.state.name = .dispatched
  | _ => True

/-- The effect a suspended run is parked on. -/
def ParkedTail (events : List RunEvent) (effects : Table EffectRecord) (e : String) : Prop :=
  ClearBut e effects ∧ ∃ r, effects e = some r ∧
    ((∃ step target reason, lastPayload events = some (.RunSuspended step target reason (some e)) ∧
        r.state.name = .unknown) ∨
      (∃ step, lastPayload events = some (.EffectNeedsReconciliation step e) ∧
        r.state.name = .needs_reconciliation))

/-- Where an effect may await reconciliation. -/
def Reconciliation (wo : WorkOrder) (events : List RunEvent) (p : RunProjection)
    (effects : Table EffectRecord) : Prop :=
  match p.status with
  | .completed | .failed | .cancelled => True
  | .suspended =>
      match p.activeEffectId with
      | none => Clear effects ∧ wo.isCompensation = false
      | some e => ParkedTail events effects e
  | .running => (Clear effects ∧ ClearTail events effects) ∨ UncertainTail events effects
  | .accepted => ∀ e, effects e = none
  | _ => Clear effects

/-! ### Waiting -/

/-- A run waits because of its last event. -/
def Waiting (events : List RunEvent) (p : RunProjection) : Prop :=
  (p.status = .waiting_for_input → ∃ step q schema prompt,
      lastPayload events = some (.InputRequested step q schema prompt) ∧
        p.waitingRequestId = some q) ∧
    (p.status = .waiting_for_approval → ∃ step d gateDigest effectDigest,
      lastPayload events = some (.ApprovalRequested step d gateDigest effectDigest) ∧
        p.waitingDecisionId = some d)

/-! ### Decisions -/

/-- The gate an `ApprovalRequested` event was committed with. -/
structure GateOf (K : Config) (wo : WorkOrder) (runId eventId step d : String)
    (gateDigest effectDigest : Digest) (gate : DecisionGate) : Prop where
  decision : gate.decisionId = d
  tenant : gate.tenantId = wo.tenantId
  run : gate.runId = runId
  event : gate.requestingEventId = eventId
  digest : gate.decisionGateDigest = gateDigest
  gateDigest : gateDigest = K.encoding.digest (.decisionGate d eventId gate.binding
    gate.requiredAuthenticationStrength)
  effectDigest : effectDigest = K.encoding.digest (.decisionBinding gate.binding)
  owner : wo.decisionOwner = .principal gate.binding.principalId
  bindingTenant : gate.binding.tenantId = wo.tenantId
  bindingRun : gate.binding.runId = runId
  bindingStep : gate.binding.stepId = step
  bindingDecision : gate.binding.decisionId = d
  workOrder : gate.binding.workOrderBindingDigest = wo.workOrderBindingDigest
  definition : gate.binding.executionDefinition = wo.executionDefinition
  definitionDigest : gate.binding.executionDefinitionDigest = wo.executionDefinitionDigest
  purpose : gate.binding.purposeCode = wo.purposeCode
  registry : gate.binding.purposeRegistryVersion = wo.purposeRegistryVersion

/-- The decisions of a run: a request has its gate, and a recorded approval follows its request
and has its approval. -/
structure Decisions (K : Config) (wo : WorkOrder) (events : List RunEvent)
    (gates : Table DecisionGate) (approvals : Table Approval) : Prop where
  requested : ∀ {i : Nat} {e : RunEvent} {step d gateDigest effectDigest}, events[i]? = some e →
    e.payload = .ApprovalRequested step d gateDigest effectDigest →
      ∃ gate, gates d = some gate ∧
        GateOf K wo e.runId e.eventId step d gateDigest effectDigest gate
  recorded : ∀ {i : Nat} {e : RunEvent} {step d a target}, events[i]? = some e →
    e.payload = .ApprovalRecorded step d a target →
      target = .running ∧ ∃ j e' gateDigest effectDigest gate approval,
        i = j + 1 ∧ events[j]? = some e' ∧
        e'.payload = .ApprovalRequested step d gateDigest effectDigest ∧
        gates d = some gate ∧ approvals a = some approval ∧ approval.id = a ∧
        approval.binding = gate.binding

theorem Decisions.push {K : Config} {wo : WorkOrder} {events : List RunEvent}
    {gates gates' : Table DecisionGate} {approvals approvals' : Table Approval} {e : RunEvent}
    (h : Decisions K wo events gates approvals)
    (hg : ∀ d g, gates d = some g → gates' d = some g)
    (ha : ∀ a x, approvals a = some x → approvals' a = some x)
    (requested : ∀ {step d gateDigest effectDigest},
      e.payload = .ApprovalRequested step d gateDigest effectDigest →
        ∃ gate, gates' d = some gate ∧
          GateOf K wo e.runId e.eventId step d gateDigest effectDigest gate)
    (recorded : ∀ {step d a target}, e.payload = .ApprovalRecorded step d a target →
      target = .running ∧ ∃ e' gateDigest effectDigest gate approval,
        events.getLast? = some e' ∧
        e'.payload = .ApprovalRequested step d gateDigest effectDigest ∧
        gates' d = some gate ∧ approvals' a = some approval ∧ approval.id = a ∧
        approval.binding = gate.binding) :
    Decisions K wo (events ++ [e]) gates' approvals' where
  requested {i x step d gateDigest effectDigest} hx hp := by
    rcases getElem?_concat hx with hx | ⟨rfl, rfl⟩
    · obtain ⟨gate, hd, hgate⟩ := h.requested hx hp
      exact ⟨gate, hg d gate hd, hgate⟩
    · exact requested hp
  recorded {i x step d a target} hx hp := by
    rcases getElem?_concat hx with hx | ⟨rfl, rfl⟩
    · obtain ⟨ht, j, e', g, f, gate, approval, hi, hj, hj', hd, hap, hid, hb⟩ := h.recorded hx hp
      exact ⟨ht, j, e', g, f, gate, approval, hi, getElem?_of_concat hj, hj', hg d gate hd,
        ha a approval hap, hid, hb⟩
    · obtain ⟨ht, e', g, f, gate, approval, hl, he', hd, hap, hid, hb⟩ := recorded hp
      have hne : events ≠ [] := by rintro rfl; simp at hl
      have hpos : 0 < events.length := List.length_pos_iff.mpr hne
      refine ⟨ht, events.length - 1, e', g, f, gate, approval, by omega,
        getElem?_of_concat ?_, he', hd, hap, hid, hb⟩
      rw [List.getLast?_eq_getElem?] at hl
      exact hl

/-! ### Checkpoints -/

/-- A checkpoint of a tool call. -/
def Checkpoint.OfTool (k : Checkpoint) : Prop :=
  k.toolCallId.isSome ∧ ∃ registration input, k.emission = some (.tool_call registration input)

/-- A checkpoint of a final output. -/
def Checkpoint.OfFinal (k : Checkpoint) : Prop :=
  ∃ value, k.emission = some (.final value)

/-- The checkpoint of an input request. -/
def Checkpoint.AsksFor (k : Checkpoint) (step q : String) (schema : Digest) : Prop :=
  k.phase = .input ∧ k.stepId = some step ∧ k.requestId = some q ∧
    k.inputSchemaDigest = some schema ∧ ∃ s prompt, k.emission = some (.input_request s prompt)

/-- The checkpoint of a scheduled retry. -/
def Checkpoint.Scheduled (k : Checkpoint) (status : RunStatus) : Prop :=
  ∃ boundary attempt notBefore, k.retryBoundary = some boundary ∧ k.nextAttempt = some attempt ∧
    k.notBefore = some notBefore ∧ k.resumePhase = some boundary ∧
    match boundary with
    | .model => status = .planning
    | .tool => status = .running ∧ k.OfTool

/-- What a checkpoint of each phase holds, and the status of a run that resumes from it. -/
def Checkpoint.Shape (k : Checkpoint) (status : RunStatus) : Prop :=
  match k.phase with
  | .turn => status = .running
  | .model | .model_inflight => status = .planning
  | .emission => status = .planning ∧ k.emission.isSome
  | .tool_request | .tool => status = .running ∧ k.OfTool
  | .final => status = .running ∧ k.OfFinal ∧ k.artifact = none ∧ k.verificationStarted = false
  | .verification =>
      k.OfFinal ∧ k.artifact.isSome ∧
        status = if k.verificationStarted then .verifying else .running
  | .scheduled_backoff => k.Scheduled status
  | .input => False

/-- A run may resume from the checkpoint. -/
def Resumes (p : RunProjection) (k : Checkpoint) : Prop :=
  k.stepId.isSome ∧ p.currentStepId = k.stepId ∧ k.Shape p.status

/-- What the checkpoint written with an event is good for. -/
def Carries (p : RunProjection) (k : Checkpoint) : EventPayload → Prop
  | .InputRequested step q schema _ => k.AsksFor step q schema
  | _ => Resumes p k

/-- The snapshot `#createContextSnapshot` makes. -/
def savedSnapshot (K : Config) (wo : WorkOrder) (e : RunEvent) (k : Checkpoint) (step : String) :
    ContextSnapshot :=
  { contextMaterial K wo e k step with
    aadDigest := K.encoding.digest (contextBinding (contextMaterial K wo e k step)) }

/-- The snapshot written with an event. -/
def Saves (K : Config) (wo : WorkOrder) (e : RunEvent) :
    Option Checkpoint → Option ContextSnapshot → Prop
  | none, snapshot => snapshot = none
  | some k, snapshot =>
      if K.contextCheckpointEnabled then
        ∃ step, k.stepId = some step ∧ snapshot = some (savedSnapshot K wo e k step)
      else snapshot = none

/-- The context snapshots of a run. -/
structure Snapshots (K : Config) (wo : WorkOrder) (events : List RunEvent)
    (snapshots : List ContextSnapshot) : Prop where
  increasing : snapshots.Pairwise (·.sequence < ·.sequence)
  saved : ∀ sn ∈ snapshots, ∃ e ∈ events, ∃ step, sn.checkpoint.stepId = some step ∧
    sn = savedSnapshot K wo e sn.checkpoint step

/-- The latest snapshot, `n` events before the last. -/
def Behind (n : Nat) (p : RunProjection) (snapshots : List ContextSnapshot)
    (Φ : Checkpoint → Prop) : Prop :=
  ∃ sn, snapshots.getLast? = some sn ∧ sn.sequence + n = p.lastSequence ∧ Φ sn.checkpoint

theorem Snapshots.push {K : Config} {wo : WorkOrder} {events : List RunEvent} {p : RunProjection}
    {snapshots : List ContextSnapshot} {e : RunEvent} {k : Option Checkpoint}
    {sn : Option ContextSnapshot} (h : Snapshots K wo events snapshots)
    (hst : Stream wo events p) (hn : Next events p e) (hs : Saves K wo e k sn) :
    Snapshots K wo (events ++ [e]) (snapshots ++ sn.toList) := by
  have old : ∀ x ∈ snapshots, ∃ e' ∈ events ++ [e], ∃ step, x.checkpoint.stepId = some step ∧
      x = savedSnapshot K wo e' x.checkpoint step := fun x hx => by
    obtain ⟨e', he', hx'⟩ := h.saved x hx
    exact ⟨e', List.mem_append_left _ he', hx'⟩
  have unchanged : sn = none →
      Snapshots K wo (events ++ [e]) (snapshots ++ sn.toList) := by
    rintro rfl
    exact ⟨by simpa using h.increasing, by simpa using old⟩
  cases k with
  | none => exact unchanged hs
  | some k =>
      simp only [Saves] at hs
      split at hs
      · obtain ⟨step, hk, rfl⟩ := hs
        refine ⟨?_, fun x hx => ?_⟩
        · simp only [Option.toList_some, List.pairwise_append, List.mem_singleton, forall_eq]
          refine ⟨h.increasing, List.pairwise_singleton _ _, fun x hx => ?_⟩
          obtain ⟨e', he', step', -, hx'⟩ := h.saved x hx
          have hlt := hst.sequence_le he'
          rw [hx']
          show e'.sequence < e.sequence
          rw [hn.foldable.sequence, hst.length]
          omega
        · simp only [Option.toList_some, List.mem_append, List.mem_singleton] at hx
          rcases hx with hx | rfl
          · exact old x hx
          · exact ⟨e, by simp, step, hk, rfl⟩
      · exact unchanged hs

/-- The snapshot written with the last event. -/
theorem Behind.saved {K : Config} {wo : WorkOrder} {p : RunProjection}
    {snapshots : List ContextSnapshot} {e : RunEvent} {k : Checkpoint}
    {sn : Option ContextSnapshot} {Φ : Checkpoint → Prop}
    (hK : K.contextCheckpointEnabled = true) (hs : Saves K wo e (some k) sn) (hk : Φ k) :
    Behind 0 (p.fold e) (snapshots ++ sn.toList) Φ := by
  simp only [Saves, hK, if_true] at hs
  obtain ⟨step, -, rfl⟩ := hs
  exact ⟨savedSnapshot K wo e k step, by simp, by simp [savedSnapshot, contextMaterial], hk⟩

/-- An event without a snapshot leaves the latest one further behind. -/
theorem Behind.push {p : RunProjection} {snapshots : List ContextSnapshot} {e : RunEvent}
    {Φ Ψ : Checkpoint → Prop} {n : Nat} (he : e.sequence = p.lastSequence + 1)
    (h : Behind n p snapshots Φ) (hΦ : ∀ k, Φ k → Ψ k) :
    Behind (n + 1) (p.fold e) (snapshots ++ (none : Option ContextSnapshot).toList) Ψ := by
  obtain ⟨sn, hl, hs, hk⟩ := h
  refine ⟨sn, by simpa using hl, ?_, hΦ _ hk⟩
  rw [fold_lastSequence, he]
  omega

/-- The effect whose dispatch the last event committed. -/
structure Interrupted (events : List RunEvent) (effects : Table EffectRecord)
    (r : EffectRecord) : Prop where
  last : ∃ step attempt, lastPayload events = some (.EffectDispatched step r.effectId attempt)
  record : effects r.effectId = some r
  state : r.state.name = .dispatched
  others : SettledBut r.effectId effects

/-- The tool call of the checkpoint has the key of the record, when it is made for the same
registration, arguments and target. -/
def Checkpoint.Keys (K : Config) (wo : WorkOrder) (runId : String) (r : EffectRecord)
    (k : Checkpoint) : Prop :=
  ∃ step call, k.stepId = some step ∧ k.toolCallId = some call ∧
    r.effectKey = createEffectKey K.encoding
      { workOrderBindingDigest := wo.workOrderBindingDigest
        executionDefinitionDigest := wo.executionDefinitionDigest
        runId
        stepId := step
        toolCallId := call
        toolRegistrationDigest := r.toolRegistrationDigest
        argumentsDigest := r.argumentsDigest
        normalizedTargetDigest := r.normalizedTargetDigest }

/-- Where an effect may be left `dispatched`. -/
def Dispatch (K : Config) (wo : WorkOrder) (events : List RunEvent) (p : RunProjection)
    (effects : Table EffectRecord) (snapshots : List ContextSnapshot) : Prop :=
  match p.status with
  | .completed | .failed | .cancelled => True
  | .suspended => p.activeEffectId = none ∨ Settled effects
  | .running =>
      Settled effects ∨ ∃ r, Interrupted events effects r ∧
        (K.contextCheckpointEnabled = true → wo.isCompensation = false →
          Behind 0 p snapshots fun k => k.phase = .tool ∧ k.Keys K wo p.runId r)
  | _ => Settled effects

/-- Where the next `execute` of an agent run finds its checkpoint. -/
def Resumption (events : List RunEvent) (p : RunProjection)
    (snapshots : List ContextSnapshot) : Prop :=
  match p.status with
  | .planning | .running | .verifying =>
      match lastPayload events with
      | some (.EffectPrepared ..) | some (.EffectUncertain ..) =>
          ∃ n, Behind (n + 1) p snapshots fun _ => True
      | some (.ApprovalRecorded step _ _ _) =>
          Behind 2 p snapshots fun k => k.phase = .tool ∧ k.stepId = some step ∧ Resumes p k
      | some (.InputSubmitted step q _ schema _) =>
          Behind 1 p snapshots fun k => k.AsksFor step q schema ∧ p.status = .planning ∧
            p.currentStepId = some step
      | _ => Behind 0 p snapshots (Resumes p)
  | .waiting_for_input =>
      ∃ step q schema prompt, lastPayload events = some (.InputRequested step q schema prompt) ∧
        Behind 0 p snapshots fun k => k.AsksFor step q schema
  | .waiting_for_approval =>
      ∃ step d gateDigest effectDigest,
        lastPayload events = some (.ApprovalRequested step d gateDigest effectDigest) ∧
        Behind 1 p snapshots fun k => k.phase = .tool ∧ k.stepId = some step ∧ k.OfTool
  | _ => True

/-! ### Coherence -/

/-- The part of the invariant that no status decides. -/
structure Grounded (K : Config) (wo : WorkOrder) (c : RunTruth) : Prop where
  stream : Stream wo c.events c.projection
  born : c.projection.status ≠ .created
  decisions : Decisions K wo c.events c.gates c.approvals
  snapshots : Snapshots K wo c.events c.snapshots

/-- **What holds of the truth of every reachable run.**  `H` says that the host is steady. -/
structure Coherent (K : Config) (H : Prop) (wo : WorkOrder) (c : RunTruth) : Prop
    extends Grounded K wo c where
  ledger : Ledger c.events c.effects c.effectKeys
  services : ∀ e r, c.effects e = some r → K.effectServices = true
  reconciliation : Reconciliation wo c.events c.projection c.effects
  dispatch : H → Dispatch K wo c.events c.projection c.effects c.snapshots
  waiting : Waiting c.events c.projection
  resumption : K.contextCheckpointEnabled = true → wo.isCompensation = false →
    Resumption c.events c.projection c.snapshots

end Pactmark
