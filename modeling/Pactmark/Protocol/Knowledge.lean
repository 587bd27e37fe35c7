import Pactmark.Protocol.Commit
import Pactmark.Durable.System

/-!
# Protocol — who may do what, and what a thread knows

`ExecutorStep` and `CommandStep` are the guarantees of the two roles, `Outside` and `Around` what
they rely on, and `Sound` the invariant of the world: a coherent run whose dispatch calls are all
accounted for by committed dispatches.

A thread that runs `execute` carries the projection it last committed, and everything it knows of
the run it knows of the state that projection belongs to.  `Holding p Φ` says so: either a
command has got in between, and then the thread will commit nothing more, or the run is still at
`p` and `Φ` holds of it.

`wp_calm` is the rule for the programs that only ask and read, and `wp_append` the rule for
`#append`.
-/

namespace Pactmark

open Durable

/-! ### Dispatch calls -/

/-- The call is a dispatch under the effect key. -/
def dispatchOf (key : String) (call : Call Store Query Answer) : Bool :=
  match call.question with
  | .dispatch _ _ context => context.effectKey = key
  | _ => false

/-- The question is a dispatch. -/
@[reducible] def Query.isDispatch : Query → Bool
  | .dispatch .. => true
  | _ => false

/-- How often a dispatch was made under the effect key. -/
def dispatchCalls (key : String) (calls : List (Call Store Query Answer)) : Nat :=
  (calls.filter (dispatchOf key)).length

@[simp] theorem dispatchCalls_append (key : String) (a b : List (Call Store Query Answer)) :
    dispatchCalls key (a ++ b) = dispatchCalls key a + dispatchCalls key b := by
  simp [dispatchCalls]

theorem dispatchCalls_calm {key : String} {call : Call Store Query Answer}
    (h : call.question.isDispatch = false) : dispatchCalls key [call] = 0 := by
  obtain ⟨t, q, a, s⟩ := call
  cases q <;> simp_all [dispatchCalls, dispatchOf, Query.isDispatch]

theorem dispatchCalls_dispatch {key : String} {t : Nat} {value : JsonValue}
    {operationKey : Option String} {context : EffectDispatchContext}
    {answer : Answer (.dispatch value operationKey context)} {s : Store} :
    dispatchCalls key [⟨t, .dispatch value operationKey context, answer, s⟩] =
      if context.effectKey = key then 1 else 0 := by
  by_cases h : context.effectKey = key <;> simp [dispatchCalls, dispatchOf, h]

/-- The call observed that the operation had not been applied. -/
def observedNotApplied (operationKey : String) (call : Call Store Query Answer) : Prop :=
  ∃ t context s, ∃ answer : Answer (.lookup operationKey context),
    call = ⟨t, .lookup operationKey context, answer, s⟩ ∧
      answer = (Except.ok (some .not_applied) : Except Thrown (Option EffectLookupResult))

/-- The thread looked the operation up and found it not applied, after all but the last dispatch
of the effect had been committed. -/
def LookedUp (w : RunWorld) (t : Nat) (id operationKey : String) : Prop :=
  ∃ call ∈ w.calls, call.thread = t ∧ observedNotApplied operationKey call ∧
    1 ≤ dispatches call.state.truth.events id ∧
    dispatches call.state.truth.events id + 1 = dispatches w.state.truth.events id

/-- What a dispatch under a key is made on. -/
structure Licensed (w : RunWorld) (t : Nat) (id : String) (r : EffectRecord) : Prop where
  record : w.state.truth.effects id = some r
  dispatched : r.state.name = .dispatched
  owed : dispatchCalls r.effectKey w.calls < dispatches w.state.truth.events id
  again : 1 < dispatches w.state.truth.events id →
    r.strategy = .reconcilable ∧ ∃ operationKey, r.operationKey = some operationKey ∧
      LookedUp w t id operationKey

/-! ### The invariant of the world -/

/-- Every dispatch call is accounted for by a committed dispatch. -/
structure Accounted (c : RunTruth) (calls : List (Call Store Query Answer)) : Prop where
  counted : ∀ {id r}, c.effects id = some r →
    dispatchCalls r.effectKey calls ≤ dispatches c.events id
  unkeyed : ∀ {key}, c.effectKeys key = none → dispatchCalls key calls = 0

/-- The invariant of the world. -/
structure Sound (K : Config) (H : Prop) (w : RunWorld) : Prop where
  coherent : Coherent K H w.state.workOrder w.state.truth
  accounted : Accounted w.state.truth w.calls

/-! ### Steps -/

/-- A step that leaves the truth of the run alone and dispatches nothing. -/
def CalmStep (w v : RunWorld) : Prop :=
  v.state.workOrder = w.state.workOrder ∧ v.state.truth = w.state.truth ∧
    (v.calls = w.calls ∨ ∃ call, v.calls = w.calls ++ [call] ∧ call.question.isDispatch = false)

/-- A step of an `execute`. -/
inductive ExecutorStep (K : Config) (H : Prop) (w v : RunWorld) : Prop where
  | calm (h : CalmStep w v)
  | commit (calls : v.calls = w.calls) (workOrder : v.state.workOrder = w.state.workOrder)
      (h : ExecutorCommit K H w.state.workOrder w.state.truth v.state.truth)
  | dispatch {t : Nat} {id : String} {r : EffectRecord} {value : JsonValue}
      {operationKey : Option String} {context : EffectDispatchContext}
      {answer : Answer (.dispatch value operationKey context)} (h : Licensed w t id r)
      (key : context.effectKey = r.effectKey)
      (hv : v = w.answered t (.dispatch value operationKey context) answer)

/-- A step of a command. -/
inductive CommandStep (w v : RunWorld) : Prop where
  | calm (h : CalmStep w v)
  | commit (calls : v.calls = w.calls) (workOrder : v.state.workOrder = w.state.workOrder)
      (agent : w.state.workOrder.isCompensation = false)
      (h : CommandCommit w.state.truth v.state.truth)

/-- The events only commands append. -/
def EventPayload.byCommand : EventPayload → Bool
  | .RunCancelled .. | .InputSubmitted .. | .ApprovalRecorded .. | .ApprovalRejected ..
  | .EffectReconciliationRecorded .. => true
  | _ => false

/-- The statuses `execute` works in. -/
def RunStatus.executing : RunStatus → Bool
  | .accepted | .planning | .running | .verifying => true
  | _ => false

/-- A run another party has moved on. -/
structure Overtaken (c d : RunTruth) : Prop where
  events : ∃ e rest, d.events = c.events ++ e :: rest ∧ e.payload.byCommand = true
  ended : c.projection.status.executing = true → d.projection.status.terminal = true
  alive : c.projection.status.terminal = false

/-- What an `execute` may find changed between two of its steps. -/
structure Outside (w v : RunWorld) : Prop where
  workOrder : v.state.workOrder = w.state.workOrder
  truth : v.state.truth = w.state.truth ∨ Overtaken w.state.truth v.state.truth
  dispatches : ∀ id,
    dispatches v.state.truth.events id = dispatches w.state.truth.events id
  dispatched : ∀ {id r}, w.state.truth.effects id = some r → r.state.name = .dispatched →
    v.state.truth.effects id = some r
  calls : w.calls <+: v.calls
  dispatchCalls : ∀ key, dispatchCalls key v.calls = dispatchCalls key w.calls

/-- What a command may find changed between two of its steps. -/
structure Around (w v : RunWorld) : Prop where
  workOrder : v.state.workOrder = w.state.workOrder
  truth : v.state.truth = w.state.truth ∨
    w.state.truth.events.length < v.state.truth.events.length

theorem Overtaken.trans {a b c : RunTruth} (h : Overtaken a b) (h' : Overtaken b c) :
    Overtaken a c := by
  obtain ⟨e, rest, he, hb⟩ := h.events
  obtain ⟨e', rest', he', -⟩ := h'.events
  refine ⟨⟨e, rest ++ e' :: rest', by rw [he', he]; simp, hb⟩, fun hx => ?_, h.alive⟩
  have := h.ended hx
  rw [h'.alive] at this
  cases this

theorem Outside.refl (w : RunWorld) : Outside w w :=
  ⟨rfl, .inl rfl, fun _ => rfl, fun h _ => h, List.prefix_refl _, fun _ => rfl⟩

theorem Outside.trans {u v w : RunWorld} (h : Outside u v) (h' : Outside v w) : Outside u w where
  workOrder := h'.workOrder.trans h.workOrder
  truth := by
    rcases h.truth with e | o <;> rcases h'.truth with e' | o'
    · exact .inl (e'.trans e)
    · exact .inr (e ▸ o')
    · exact .inr (e' ▸ o)
    · exact .inr (o.trans o')
  dispatches id := (h'.dispatches id).trans (h.dispatches id)
  dispatched hr hs := h'.dispatched (h.dispatched hr hs) hs
  calls := h.calls.trans h'.calls
  dispatchCalls key := (h'.dispatchCalls key).trans (h.dispatchCalls key)

theorem Around.trans {u v w : RunWorld} (h : Around u v) (h' : Around v w) : Around u w where
  workOrder := h'.workOrder.trans h.workOrder
  truth := by
    rcases h.truth with e | o <;> rcases h'.truth with e' | o'
    · exact .inl (e'.trans e)
    · exact .inr (e ▸ o')
    · exact .inr (e' ▸ o)
    · exact .inr (Nat.lt_trans o o')

/-- What the collaborators may answer, and how the storage may fail. -/
structure Env where
  allow : RunWorld → (q : Query) → Answer q → Prop
  fault : Thrown → Prop

/-- The contract of an `execute`. -/
def executorContract (K : Config) (H : Prop) (env : Env) : Contract Store Thrown Query Answer where
  rely := Outside
  guar := ExecutorStep K H
  inv := Sound K H
  allow := env.allow
  fault := env.fault
  rely_refl := Outside.refl
  rely_trans := Outside.trans

/-- The contract of a command. -/
def commandContract (K : Config) (H : Prop) (env : Env) : Contract Store Thrown Query Answer where
  rely := Around
  guar := CommandStep
  inv := Sound K H
  allow := env.allow
  fault := env.fault
  rely_refl _ := ⟨rfl, .inl rfl⟩
  rely_trans := Around.trans

/-! ### What every commit keeps -/

/-- How a record may change: not at all, or to another state along the ledger's transitions. -/
def Advances (r r' : EffectRecord) : Prop :=
  r'.toEffectIdentity = r.toEffectIdentity ∧ r'.effectDigest = r.effectDigest ∧
    (r' = r ∨ r'.state.name ∈ EFFECT_TRANSITIONS r.state.name)

/-- What every commit keeps. -/
structure Extends (c d : RunTruth) : Prop where
  longer : ∃ e rest, d.events = c.events ++ e :: rest
  record : ∀ {id r}, c.effects id = some r → ∃ r', d.effects id = some r' ∧ Advances r r'
  fresh : ∀ {id r'}, d.effects id = some r' → c.effects id = none →
    c.effectKeys r'.effectKey = none ∧ r'.state.name = .prepared
  keys : ∀ {key}, d.effectKeys key = none → c.effectKeys key = none

theorem Advances.refl (r : EffectRecord) : Advances r r := ⟨rfl, rfl, .inl rfl⟩

theorem Extends.of_effects {c d : RunTruth} (longer : ∃ e rest, d.events = c.events ++ e :: rest)
    (effects : d.effects = c.effects) (keys : d.effectKeys = c.effectKeys) : Extends c d where
  longer := longer
  record hr := ⟨_, effects ▸ hr, .refl _⟩
  fresh hr hc := by rw [effects, hc] at hr; cases hr
  keys h := keys ▸ h

theorem Extends.of_advance {c d : RunTruth} {r : EffectRecord} {t : Instant} {s : EffectState}
    (longer : ∃ e rest, d.events = c.events ++ e :: rest) (hr : c.effects r.effectId = some r)
    (effects : d.effects = c.effects.set r.effectId (r.advance t s))
    (keys : d.effectKeys = c.effectKeys.set r.effectKey r.effectId)
    (hs : s.name ∈ EFFECT_TRANSITIONS r.state.name) : Extends c d where
  longer := longer
  record {id x} hx := by
    rw [effects]
    by_cases hid : id = r.effectId
    · subst hid
      rw [hr] at hx
      cases hx
      exact ⟨_, Table.set_self _ _ _, rfl, rfl, .inr hs⟩
    · exact ⟨x, (Table.set_of_ne _ _ hid).trans hx, .refl x⟩
  fresh {id x} hx hc := by
    rw [effects] at hx
    by_cases hid : id = r.effectId
    · subst hid
      rw [hr] at hc
      cases hc
    · rw [Table.set_of_ne _ _ hid, hc] at hx
      cases hx
  keys {key} h := by
    rw [keys] at h
    by_cases hk : key = r.effectKey
    · subst hk
      simp at h
    · rwa [Table.set_of_ne _ _ hk] at h

theorem ExecutorCommit.extends {K : Config} {H : Prop} {wo : WorkOrder} {c d : RunTruth}
    (h : ExecutorCommit K H wo c d) : Extends c d := by
  cases h with
  | plain | ended | suspend | requestApproval | redispatch | park =>
      exact .of_effects ⟨_, [], rfl⟩ rfl rfl
  | @prepare e step effectDigest r authorizations keys next hp state absent unkeyed =>
      refine ⟨⟨_, [], rfl⟩, fun {id x} hx => ⟨x, ?_, .refl x⟩, fun {id x} hx hc => ?_,
        fun {key} hk => ?_⟩
      · refine (Table.set_of_ne _ _ ?_).trans hx
        rintro rfl
        rw [absent] at hx
        cases hx
      · by_cases hid : id = r.effectId
        · subst hid
          have hx' := (Table.set_self c.effects r.effectId r).symm.trans hx
          cases hx'
          exact ⟨unkeyed, by rw [state]; rfl⟩
        · have hx' := (Table.set_of_ne c.effects r hid).symm.trans hx
          rw [hc] at hx'
          cases hx'
      · by_cases hkk : key = r.effectKey
        · rw [hkk]; exact unkeyed
        · exact (Table.set_of_ne c.effectKeys r.effectId hkk).symm.trans hk
  | dispatch next hp hr state =>
      exact .of_advance ⟨_, [], rfl⟩ hr rfl rfl (by rw [state]; simp [EFFECT_TRANSITIONS, EffectState.name])
  | acknowledge next hp hr state | uncertain next hp hr state =>
      exact .of_advance ⟨_, [], rfl⟩ hr rfl rfl (by rw [state]; simp [EFFECT_TRANSITIONS, EffectState.name])
  | needsReconciliation next hp hr state =>
      exact .of_advance ⟨_, [], rfl⟩ hr rfl rfl (by rw [state]; simp [EFFECT_TRANSITIONS, EffectState.name])

theorem CommandCommit.extends {c d : RunTruth} (h : CommandCommit c d) : Extends c d := by
  cases h with
  | cancel | submit | approve | reject => exact .of_effects ⟨_, [], rfl⟩ rfl rfl
  | @recover e₁ e₂ _ _ _ _ _ _ _ _ _ _ _ _ _ _ hr state
  | @abandon e₁ e₂ _ _ _ _ _ _ _ _ _ _ _ _ _ _ hr state =>
      exact .of_advance ⟨e₁, [e₂], by simp [RunTruth.add, RunTruth.putEffect]⟩ hr rfl rfl
        (by rw [state]; simp [EFFECT_TRANSITIONS, EffectState.name])

theorem Extends.events {c d : RunTruth} (h : Extends c d) : c.events <+: d.events := by
  obtain ⟨e, rest, he⟩ := h.longer
  rw [he]
  exact List.prefix_append _ _

theorem Accounted.extends {c d : RunTruth} {calls : List (Call Store Query Answer)}
    (h : Accounted c calls) (hx : Extends c d) : Accounted d calls where
  counted {id r'} hr' := by
    cases hc : c.effects id with
    | none =>
        rw [h.unkeyed (hx.fresh hr' hc).1]
        exact Nat.zero_le _
    | some r =>
        obtain ⟨x, hx', hid, -, -⟩ := hx.record hc
        rw [hr'] at hx'
        cases hx'
        have hkey : r'.effectKey = r.effectKey := congrArg EffectIdentity.effectKey hid
        rw [hkey]
        exact Nat.le_trans (h.counted hc) (dispatches_mono hx.events id)
  unkeyed hk := h.unkeyed (hx.keys hk)

/-! ### What a step keeps -/

section Steps

variable {K : Config} {H : Prop} {w v : RunWorld}

theorem CalmStep.dispatchCalls (h : CalmStep w v) (key : String) :
    dispatchCalls key v.calls = dispatchCalls key w.calls := by
  rcases h.2.2 with e | ⟨call, e, hc⟩
  · rw [e]
  · rw [e, dispatchCalls_append, dispatchCalls_calm hc, Nat.add_zero]

theorem CalmStep.calls (h : CalmStep w v) : w.calls <+: v.calls := by
  rcases h.2.2 with e | ⟨call, e, -⟩
  · exact e ▸ List.prefix_refl _
  · exact e ▸ List.prefix_append _ _

theorem CalmStep.outside (h : CalmStep w v) : Outside w v where
  workOrder := h.1
  truth := .inl h.2.1
  dispatches id := by rw [h.2.1]
  dispatched hr _ := by rw [h.2.1]; exact hr
  calls := h.calls
  dispatchCalls := h.dispatchCalls

theorem Sound.calm (h : Sound K H w) (hs : CalmStep w v) : Sound K H v where
  coherent := by rw [hs.1, hs.2.1]; exact h.coherent
  accounted := by
    rw [hs.2.1]
    refine ⟨fun hr => ?_, fun hk => ?_⟩
    · rw [hs.dispatchCalls]; exact h.accounted.counted hr
    · rw [hs.dispatchCalls]; exact h.accounted.unkeyed hk

/-- The invariant is kept by an `execute`. -/
theorem Sound.executorStep (h : Sound K H w) (hs : ExecutorStep K H w v) : Sound K H v := by
  cases hs with
  | calm hs => exact h.calm hs
  | commit calls workOrder hc =>
      refine ⟨?_, ?_⟩
      · rw [workOrder]; exact h.coherent.executorCommit hc
      · rw [calls]; exact h.accounted.extends hc.extends
  | @dispatch t id r value operationKey context answer hl key hv =>
      subst hv
      have hl₂ := (h.coherent.ledger.id hl.record).2
      refine ⟨h.coherent, ⟨fun {id' r'} hr' => ?_, fun {k} hk => ?_⟩⟩
      · show dispatchCalls r'.effectKey (w.calls ++ [_]) ≤ _
        rw [dispatchCalls_append, dispatchCalls_dispatch, key]
        split
        · rename_i hkk
          have hid : id' = id := by
            have := (h.coherent.ledger.id hr').2
            rw [← hkk, hl₂] at this
            exact (Option.some.inj this).symm
          subst hid
          rw [← hkk]
          exact hl.owed
        · exact h.accounted.counted hr'
      · show dispatchCalls k (w.calls ++ [_]) = 0
        rw [dispatchCalls_append, dispatchCalls_dispatch, key, if_neg, h.accounted.unkeyed hk]
        rintro rfl
        rw [World.answered_state, hl₂] at hk
        cases hk

/-- The invariant is kept by a command. -/
theorem Sound.commandStep (h : Sound K H w) (hs : CommandStep w v) : Sound K H v := by
  cases hs with
  | calm hs => exact h.calm hs
  | commit calls workOrder agent hc =>
      refine ⟨?_, ?_⟩
      · rw [workOrder]; exact h.coherent.commandCommit agent hc
      · rw [calls]; exact h.accounted.extends hc.extends

theorem Extends.length {c d : RunTruth} (h : Extends c d) :
    c.events.length < d.events.length := by
  obtain ⟨e, rest, he⟩ := h.longer
  simp [he]

/-- A command relies on nothing an `execute` does not keep. -/
theorem ExecutorStep.around (h : ExecutorStep K H w v) : Around w v := by
  cases h with
  | calm h => exact ⟨h.1, .inl h.2.1⟩
  | commit calls workOrder hc => exact ⟨workOrder, .inr hc.extends.length⟩
  | dispatch h key hv => subst hv; exact ⟨rfl, .inl rfl⟩

theorem CommandStep.around (h : CommandStep w v) : Around w v := by
  cases h with
  | calm h => exact ⟨h.1, .inl h.2.1⟩
  | commit calls workOrder agent hc => exact ⟨workOrder, .inr hc.extends.length⟩

theorem CommandCommit.overtaken {c d : RunTruth} (h : CommandCommit c d) : Overtaken c d := by
  cases h with
  | cancel next hp =>
      exact ⟨⟨_, [], rfl, by rw [hp]; rfl⟩,
        fun _ => by simp [RunTruth.add, fold_status, hp, nextStatusFor, RunStatus.terminal],
        next.foldable.alive⟩
  | submit next hp last status =>
      exact ⟨⟨_, [], rfl, by rw [hp]; rfl⟩, fun h => by simp [status, RunStatus.executing] at h,
        next.foldable.alive⟩
  | approve next hp status =>
      exact ⟨⟨_, [], rfl, by rw [hp]; rfl⟩, fun h => by simp [status, RunStatus.executing] at h,
        next.foldable.alive⟩
  | reject next hp status =>
      exact ⟨⟨_, [], rfl, by rw [hp]; rfl⟩, fun h => by simp [status, RunStatus.executing] at h,
        next.foldable.alive⟩
  | @recover e₁ e₂ _ _ _ _ _ _ _ _ _ _ next₁ hp₁
  | @abandon e₁ e₂ _ _ _ _ _ _ _ _ _ _ next₁ hp₁ =>
      have hs := (next₁.foldable.suspended (.inr (by rw [hp₁]; rfl))).1
      exact ⟨⟨e₁, [e₂], by simp [RunTruth.add, RunTruth.putEffect], by rw [hp₁]; rfl⟩,
        fun h => by simp [hs, RunStatus.executing] at h, next₁.foldable.alive⟩

/-- A command dispatches nothing. -/
theorem CommandCommit.dispatches {c d : RunTruth} (h : CommandCommit c d) (id : String) :
    dispatches d.events id = dispatches c.events id := by
  cases h with
  | cancel next hp | submit next hp | approve next hp | reject next hp =>
      simp [RunTruth.add, dispatches_other (show _ ≠ _ by rw [hp]; simp [EventPayload.eventType])]
  | @recover e₁ e₂ _ _ _ _ _ _ _ _ _ _ next₁ hp₁ next₂ hp₂
  | @abandon e₁ e₂ _ _ _ _ _ _ _ _ _ _ next₁ hp₁ next₂ hp₂ =>
      show Pactmark.dispatches ((c.events ++ [e₁]) ++ [e₂]) id = _
      simp only [dispatches_append,
        dispatches_other (show e₁.payload.eventType ≠ _ by rw [hp₁]; simp [EventPayload.eventType]),
        dispatches_other (show e₂.payload.eventType ≠ _ by rw [hp₂]; simp [EventPayload.eventType]),
        Nat.add_zero]

/-- A command leaves dispatched records alone. -/
theorem CommandCommit.dispatched {c d : RunTruth} (h : CommandCommit c d) {id : String}
    {r : EffectRecord} (hr : c.effects id = some r) (hs : r.state.name = .dispatched) :
    d.effects id = some r := by
  cases h with
  | cancel | submit | approve | reject => exact hr
  | @recover _ _ _ _ _ _ x _ _ _ _ _ _ _ _ _ hx state
  | @abandon _ _ _ _ _ _ x _ _ _ _ _ _ _ _ _ hx state =>
      refine (Table.set_of_ne c.effects _ ?_).trans hr
      rintro rfl
      have heq : x = r := Option.some.inj (hx.symm.trans hr)
      rw [heq, hs] at state
      cases state

/-- An `execute` relies on nothing a command does not keep. -/
theorem CommandStep.outside (h : CommandStep w v) : Outside w v := by
  cases h with
  | calm h => exact h.outside
  | commit calls workOrder agent hc =>
      exact ⟨workOrder, .inr hc.overtaken, hc.dispatches, hc.dispatched,
        calls ▸ List.prefix_refl _, fun key => by rw [calls]⟩

end Steps

end Pactmark
