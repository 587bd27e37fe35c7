import Pactmark.Agent.Interruption

/-!
# Agent — resuming a production model call

A production call commits `ModelCallStarted` together with its accepted reservation, and only
then becomes dispatched.  A call that is resumed goes the same way again: whatever it does, it
does after another `ModelCallStarted` (`resumed_call_starts_again`).
-/

namespace Pactmark

open Durable

variable {K : Config} {allow : (q : Query) → Answer q → Prop} {fault : Thrown → Prop}
  {i : ModelCallInput} {s s' : Store}

/-- The call has done nothing yet, or it has started again. -/
def StartsAgain (i : ModelCallInput) (s s' : Store) : Prop :=
  s'.truth = s.truth ∧ s'.modelCalls = s.modelCalls ∨
    ∃ e reservationId digest, e.payload = .ModelCallStarted i.stepId reservationId digest ∧
      s.truth.events ++ [e] <+: s'.truth.events

/-- What comes before `ModelCallStarted` writes nothing. -/
theorem solo_prepareProductionCall {I : Store → Prop} :
    (prepareProductionCall K i).solo allow fault I (fun _ s' => s' = s) (fun _ s' => s' = s) s := by
  unfold prepareProductionCall
  refine Prog.solo_bind (solo_consult fun security _ => ?_)
  refine Prog.solo_bind (solo_consult fun resource _ => ?_)
  refine Prog.solo_bind (solo_consult fun registration _ => ?_)
  split
  · refine Prog.solo_bind (Prog.solo_ofExcept (fun _ _ => ?_) fun _ _ => rfl)
    refine Prog.solo_bind (Prog.solo_throwIf (fun _ => ?_) fun _ => rfl)
    refine Prog.solo_bind ?_
    unfold inputTokenUpperBound
    refine Prog.solo_bind (solo_consult fun estimate _ => ?_)
    split
    · exact Prog.solo_throw rfl
    · exact Prog.solo_throw rfl
    · refine Prog.solo_bind (Prog.solo_throwIf (fun _ => Prog.solo_pure ?_) fun _ => rfl)
      refine Prog.solo_bind (solo_consult fun now _ => ?_)
      exact Prog.solo_bind (Prog.solo_throwIf (fun _ => Prog.solo_pure rfl) fun _ => rfl)
  · exact Prog.solo_throw rfl

theorem solo_invokeProductionModelCall (hp : i.projection = s.truth.projection)
    (hst : Stream s.workOrder s.truth.events s.truth.projection) :
    (invokeProductionModelCall K i).solo allow fault (StartsAgain i s)
      (fun _ => StartsAgain i s) (fun _ => StartsAgain i s) s := by
  have still : StartsAgain i s s := .inl ⟨rfl, rfl⟩
  unfold invokeProductionModelCall
  refine Prog.solo_bind (solo_prepareProductionCall.mono (fun c s₁ h₁ => ?_)
    fun e s₁ h₁ => h₁ ▸ still)
  subst h₁
  refine Prog.solo_bind (solo_append (Tx.Aside.beside (putModelCallReservation_aside _))
    (fun p s₂ s₃ _ _ hadds hagain => ?_) fun _ => still)
  rcases hadds.events with heq | ⟨e, he, -, heq⟩
  · obtain ⟨e, hm, hseq⟩ := hagain heq
    have hle := hst.sequence_le hm
    rw [hseq, hp, hst.length] at hle
    omega
  · -- from here on the second start stays in the stream
    have hstarted : ∀ s', s₁.truth.events ++ [e] <+: s'.truth.events → StartsAgain i s₁ s' :=
      fun s' h => .inr ⟨e, _, _, he, h⟩
    have hnow : s₁.truth.events ++ [e] <+: s₂.truth.events := heq ▸ List.prefix_refl _
    exact ⟨hstarted s₂ hnow, (Prog.solo_up (fun hle h => h.trans (Store.le_def.mp hle).2)
      hstarted _ hnow).mono (fun _ => hstarted) fun _ => hstarted⟩

theorem solo_assertJsonByteLimit {I : Store → Prop} {P : Unit → Store → Prop}
    {E : Thrown → Store → Prop} {value : JsonValue} {limit : Option Nat} {category : String}
    (hP : P () s) (hE : ∀ e, E e s) :
    (assertJsonByteLimit value limit category).solo allow fault I P E s := by
  cases limit with
  | none => exact Prog.solo_pure hP
  | some limit => exact Prog.solo_throwIf (fun _ => hP) fun _ => hE _

/-- A resumed call does nothing, or it starts again. -/
theorem solo_invokeModelCall (hK : K.productionModelServices = true)
    (hp : i.projection = s.truth.projection)
    (hst : Stream s.workOrder s.truth.events s.truth.projection) :
    (invokeModelCall K i).solo allow fault (StartsAgain i s)
      (fun _ => StartsAgain i s) (fun _ => StartsAgain i s) s := by
  have still : StartsAgain i s s := .inl ⟨rfl, rfl⟩
  unfold invokeModelCall
  refine Prog.solo_bind (solo_consult fun _ _ => ?_)
  refine Prog.solo_bind (solo_consult fun _ _ => ?_)
  refine Prog.solo_bind (solo_consult fun _ _ => ?_)
  refine Prog.solo_bind (Prog.solo_throwIf (fun _ => ?_) fun _ => still)
  refine Prog.solo_bind (solo_assertJsonByteLimit ?_ fun _ => still)
  rw [if_pos hK]
  exact Prog.solo_bind (Prog.solo_throwIf (fun _ => solo_invokeProductionModelCall hp hst)
    fun _ => still)

/-- The `ModelCallStarted` events of a step. -/
def startedCalls (stepId : String) (events : List RunEvent) : Nat :=
  (events.filter fun e =>
    match e.payload with
    | .ModelCallStarted id _ _ => id = stepId
    | _ => false).length

theorem StartsAgain.startedCalls (h : StartsAgain i s s') (hcalls : s'.modelCalls ≠ s.modelCalls) :
    startedCalls i.stepId s.truth.events < startedCalls i.stepId s'.truth.events := by
  rcases h with ⟨-, heq⟩ | ⟨e, reservationId, digest, he, rest, hrest⟩
  · exact absurd heq hcalls
  · rw [← hrest]
    simp [Pactmark.startedCalls, he]

/-- **No accepted call is resumed without starting again.**  An accepted reservation stands in
the store.  No run of the call it was made for takes it further and leaves the stream with the
one `ModelCallStarted` it has. -/
theorem accepted_call_starts_again {prior : ModelCallReservation}
    (hK : K.productionModelServices = true) (hp : i.projection = s.truth.projection)
    (hst : Stream s.workOrder s.truth.events s.truth.projection)
    (hprior : s.modelCall i.stepId i.attempt = some prior) (haccepted : prior.status = .accepted) :
    ¬ ∃ s' r next, (invokeModelCall K i).Ran allow fault s s' r ∧
      s'.modelCall i.stepId i.attempt = some next ∧ next.status ≠ .accepted ∧
      startedCalls i.stepId s'.truth.events = startedCalls i.stepId s.truth.events := by
  rintro ⟨s', r, next, hran, hnext, hstatus, hcount⟩
  have hagain := ((solo_invokeModelCall hK hp hst).ran hran (.inl ⟨rfl, rfl⟩)).1
  have hcalls : s'.modelCalls ≠ s.modelCalls := by
    intro heq
    have : s'.modelCall i.stepId i.attempt = s.modelCall i.stepId i.attempt := by
      simp only [Store.modelCall, heq]
    rw [hnext, hprior] at this
    cases this
    exact hstatus haccepted
  have := hagain.startedCalls hcalls
  omega

section Samples

set_option maxRecDepth 10000

namespace Host

/-- A runtime with production model services. -/
def production : Config :=
  { config with productionModelServices := true, productionModelBoundaryReady := true }

/-- The store of a run that stopped between the start and the dispatch of its first call. -/
def accepted1 : Store :=
  ({ credential := .error .abort } : Host).executes production 1
    (store ⟨2, 2, 0, 1000, none, none, none, none, none, none, none⟩)

/-- The call it resumes with. -/
def resumedCall : ModelCallInput where
  workOrder := accepted1.workOrder
  definition := definition
  projection := accepted1.truth.projection
  lease := lease
  stepId := "step-1"
  attempt := 1
  modelInput := .null
  started := true

end Host

theorem stream_accepted : Stream Host.accepted1.workOrder Host.accepted1.truth.events
    Host.accepted1.truth.projection :=
  .of_map (by decide +kernel) (by decide +kernel) (by decide +kernel) (by decide +kernel)
    (by decide +kernel) (by decide +kernel)

/-- The first call of a run that stopped before its dispatch. -/
theorem accepted_call_starts_again_first :
    ¬ ∃ s' r next, (invokeModelCall Host.production Host.resumedCall).Ran ({} : Host).Answers
        (fun _ => False) Host.accepted1 s' r ∧
      s'.modelCall "step-1" 1 = some next ∧ next.status ≠ .accepted ∧
      startedCalls "step-1" s'.truth.events = startedCalls "step-1" Host.accepted1.truth.events :=
  accepted_call_starts_again rfl rfl stream_accepted rfl rfl

/-- The next `execute` dispatches an accepted call under a second `ModelCallStarted` of the same
step and reservation. -/
theorem resumed_call_starts_twice :
    Host.accepted1.truth.events.map (·.eventType) =
        [.RunAccepted, .PlanningStarted, .ModelCallStarted] ∧
      (Host.accepted1.modelCall "step-1" 1).map (·.status) = some .accepted ∧
      ((({} : Host).executes Host.production 1 Host.accepted1).truth.events.map
          (·.payload)).take 5 =
        [.RunAccepted "order" "binding" [], .PlanningStarted "step-1",
          .ModelCallStarted "step-1" "model-call-reservation:digest" "digest",
          .ModelCallStarted "step-1" "model-call-reservation:digest" "digest",
          .ModelCallCompleted "step-1" "model-call-reservation:digest" "digest" "final"] :=
  ⟨rfl, rfl, rfl⟩

end Samples

end Pactmark
