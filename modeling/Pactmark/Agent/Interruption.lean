import Pactmark.Agent.Resumption

/-!
# Agent — an interrupted worker, and a suspended run

`execute` is given one signal for two things: a user cancels the run, or the worker that serves
it stops or loses its lease.  Its `catch` block cannot tell them apart.  Under an aborted signal
it cancels the run, unless the run is over or the lease is not renewed any more
(`interruption_keeps_run_iff`).

A suspended run of an agent is left alone by every `execute` and every `resume`
(`suspended_stays`).
-/

namespace Pactmark

open Durable

variable {K : Config} {allow : (q : Query) → Answer q → Prop} {fault : Thrown → Prop}
  {lease : RunLease} {actor : String} {s s' : Store}

/-! ### An aborted signal -/

/-- The signal is aborted, and the clock can be read. -/
structure Signalled (allow : (q : Query) → Answer q → Prop) : Prop where
  aborted : ∀ a : Bool, allow .aborted a ↔ a = true
  clock : ∃ now : Instant, allow .now now

/-- The event that cancels a run on an aborted signal. -/
def abortEvent (K : Config) (s : Store) (actor : String) (now : Instant) : RunEvent where
  eventId := K.eventId s.workOrder.tenantId s.truth.projection.runId
    (s.truth.projection.lastSequence + 1) .RunCancelled
  runId := s.truth.projection.runId
  tenantId := s.workOrder.tenantId
  sequence := s.truth.projection.lastSequence + 1
  occurredAt := now
  correlationId := s.workOrder.correlationId.getD s.truth.projection.runId
  dataClass := s.workOrder.dataClass
  executionDefinition := s.workOrder.executionDefinition
  executionDefinitionDigest := s.workOrder.executionDefinitionDigest
  payload := .RunCancelled s.truth.projection.currentStepId "abort_signal" actor

theorem abortEvent_foldable (hst : Stream s.workOrder s.truth.events s.truth.projection)
    (halive : s.truth.projection.status.terminal = false)
    (hborn : s.truth.projection.status ≠ .created) (now : Instant) :
    Foldable s.truth.projection (abortEvent K s actor now) where
  alive := halive
  run := rfl
  tenant := hst.tenant.symm
  definitionDigest := hst.definitionDigest.symm
  definition := hst.definition.symm
  sequence := rfl
  kind := by simp [KindAllowed, abortEvent, EventPayload.eventType, nextStatusFor]
  status := by
    show RunStatus.cancelled ∈ RUN_TRANSITIONS s.truth.projection.status
    cases h : s.truth.projection.status <;> simp_all [RUN_TRANSITIONS, RunStatus.terminal]
  verified h := by cases h

/-- With its lease renewed, the `catch` block of a live run appends `RunCancelled`. -/
theorem ran_cancelled {e : Thrown} (hsignal : Signalled allow)
    (hst : Stream s.workOrder s.truth.events s.truth.projection)
    (hborn : s.truth.projection.status ≠ .created)
    (hid : ∀ e' ∈ s.truth.events, e'.eventId ≠ K.eventId s.workOrder.tenantId
      s.truth.projection.runId (s.truth.projection.lastSequence + 1) .RunCancelled)
    (halive : s.truth.projection.status.terminal = false)
    (hrenew : allow (.renewLease lease) (.ok ())) {now : Instant} (hnow : allow .now now) :
    (executionFailed K s.workOrder lease actor e).Ran allow fault s
      { s with truth := s.truth.push (abortEvent K s actor now)
                          (s.truth.projection.fold (abortEvent K s actor now)) }
      (some (.ok .cancelled)) := by
  have hf : Foldable s.truth.projection (abortEvent K s actor now) :=
    abortEvent_foldable hst halive hborn now
  have happend := appendTransaction_of hid (by rw [← hst.length]; rfl) hf
  refine .bind (.ask true ((hsignal.aborted true).mpr rfl) (.pure _ s)) ?_
  refine .bind (.look (.pure _ s)) ?_
  rw [if_neg (by simp [halive])]
  refine Prog.Ran.bind (a := s.truth.projection.fold (abortEvent K s actor now)) ?_ (.pure _ _)
  refine .bind (.ask (.ok ()) hrenew (.pure _ s)) ?_
  refine .bind (.ask now hnow (.pure _ s)) ?_
  refine .bind (Prog.ran_ofExcept (reduceRunEvent_ok.mpr ⟨hf, rfl⟩) s) ?_
  refine .bind (.pure none s) ?_
  exact .bind (Prog.ran_commit happend) (.pure _ _)

/-- Where the lease is not renewed, the `catch` block leaves the run as it is. -/
theorem solo_unrenewed {e : Thrown} (hsignal : Signalled allow)
    (h : s.truth.projection.status.terminal = true ∨ ¬ allow (.renewLease lease) (.ok ())) :
    (executionFailed K s.workOrder lease actor e).solo allow fault (fun s' => s' = s)
      (fun _ s' => s' = s) (fun _ s' => s' = s) s := by
  refine Prog.solo_bind (solo_consult fun aborted ha => ?_)
  have habort : id aborted = true := (hsignal.aborted aborted).mp ha
  rw [if_pos habort]
  refine Prog.solo_bind (Prog.solo_read ?_)
  split
  · exact Prog.solo_pure rfl
  · rename_i halive
    refine Prog.solo_bind (Prog.solo_bind ?_)
    rintro (e | u) ha
    · rfl
    · exact absurd ha (h.resolve_left halive)

section Suspended

variable {runId : String}

theorem transactCommand_aside {scope : String} {digest : Digest} {callback : Tx}
    (h : callback.Aside) : (transactCommand scope digest callback).Aside := by
  intro s s' hs
  simp only [transactCommand, Transaction.choose_run] at hs
  split at hs
  · rw [(Transaction.throwIf_ok.mp hs).2]
  · obtain ⟨s₁, h₁, h₂⟩ := Transaction.andThen_ok.mp hs
    cases h₂
    exact (h h₁ : s₁.truth = s.truth)

instance (command : CommandContext) : Calm (commandTransaction command (.pure .skip)) := by
  unfold commandTransaction
  refine calm_bind inferInstance fun seen => ?_
  cases seen with
  | some digest => infer_instance
  | none =>
      have : Calm (.commit (transactCommand command.scope command.requestDigest .skip)) :=
        calm_commit (transactCommand_aside skip_aside)
      exact this

/-- The run is an agent's, and it is suspended. -/
structure Suspended (s : Store) : Prop where
  agent : s.workOrder.isCompensation = false
  status : s.truth.projection.status = .suspended

theorem Suspended.same (h : Suspended s) (hs : SameRun s s') : Suspended s' :=
  ⟨hs.workOrder ▸ h.agent, hs.truth ▸ h.status⟩

/-- `execute` parks a suspended run before it looks at anything else. -/
theorem solo_execute_suspended {I : Store → Prop} (h : Suspended s)
    (hI : ∀ s', SameRun s s' → I s') :
    (execute K runId).solo allow fault I
      (fun out s' => SameRun s s' ∧ ∀ S l, out ≠ .entered S l) (fun _ => SameRun s) s := by
  have from_ : ∀ {s₁ : Store}, SameRun s s₁ → (∀ s', SameRun s₁ s' → I s') ∧
      ∀ (_ : Thrown) s', SameRun s₁ s' → SameRun s s' :=
    fun h₁ => ⟨fun s' h => hI s' (h₁.trans h), fun _ _ h => h₁.trans h⟩
  have refl_ := from_ (SameRun.refl s)
  unfold execute
  refine solo_calm_bind refl_.1 (fun claims s₁ h₁ => ?_) refl_.2
  unfold getRun
  refine Prog.solo_bind (solo_calm_bind (from_ h₁).1 (fun claims' s₂ h₂ => ?_) (from_ h₁).2)
  have h₂ := h₁.trans h₂
  refine Prog.solo_bind (Prog.solo_read ?_)
  refine solo_calm_bind (from_ h₂).1 (fun _ s₃ h₃ => Prog.solo_pure ?_) (from_ h₂).2
  have h₃ := h₂.trans h₃
  have hs₂ := h.same h₂
  rw [if_neg (by simp [hs₂.status, RunStatus.terminal])]
  refine Prog.solo_bind (Prog.solo_read ?_)
  rw [if_neg (by simp [(h.same h₃).agent])]
  unfold executeAgent
  refine solo_calm_bind (from_ h₃).1 (fun definition s₄ h₄ => ?_) (from_ h₃).2
  have h₄ := h₃.trans h₄
  cases definition with
  | none => exact Prog.solo_throw h₄
  | some definition =>
      refine solo_calm_bind (from_ h₄).1 (fun lease s₅ h₅ => ?_) (from_ h₄).2
      have h₅ := h₄.trans h₅
      -- the status is looked at before the stream is, so nothing can be thrown
      refine Prog.solo_bind (Prog.solo_attempt (Prog.solo_tryCatch
        (Prog.solo_bind (Prog.solo_read ?_))))
      rw [if_pos (.inr (.inr hs₂.status))]
      refine Prog.solo_pure ?_
      refine solo_calm_bind (from_ h₅).1 (fun _ s₆ h₆ => ?_) (from_ h₅).2
      exact Prog.solo_pure ⟨h₅.trans h₆, fun _ _ h => by cases h⟩

theorem solo_resume_suspended {I : Store → Prop} {command : CommandContext} (h : Suspended s)
    (hI : ∀ s', SameRun s s' → I s') :
    (resume K runId command).solo allow fault I
      (fun out s' => SameRun s s' ∧ ∀ S l, out ≠ .entered S l) (fun _ => SameRun s) s := by
  have from_ : ∀ {s₁ : Store}, SameRun s s₁ → (∀ s', SameRun s₁ s' → I s') ∧
      ∀ (_ : Thrown) s', SameRun s₁ s' → SameRun s s' :=
    fun h₁ => ⟨fun s' h => hI s' (h₁.trans h), fun _ _ h => h₁.trans h⟩
  have refl_ := from_ (SameRun.refl s)
  unfold resume
  refine solo_calm_bind refl_.1 (fun claims s₁ h₁ => ?_) refl_.2
  refine solo_calm_bind (from_ h₁).1 (fun _ s₂ h₂ => ?_) (from_ h₁).2
  have h₂ := h₁.trans h₂
  refine Prog.solo_bind (Prog.solo_read ?_)
  split
  · exact Prog.solo_pure ⟨h₂, fun _ _ h => by cases h⟩
  · split
    · exact Prog.solo_pure ⟨h₂, fun _ _ h => by cases h⟩
    · refine (solo_execute_suspended (h.same h₂) (from_ h₂).1).mono (fun out s₃ h₃ => ?_)
        (from_ h₂).2
      exact ⟨h₂.trans h₃.1, h₃.2⟩

/-- A call of `execute` or of `resume`. -/
def Invoked (K : Config) (runId : String) (allow : (q : Query) → Answer q → Prop)
    (fault : Thrown → Prop) (s s' : Store) : Prop :=
  ∃ p r, Entering K runId p ∧ p.Ran allow fault s s' r

theorem solo_entering_suspended {p : Runtime Started} (hp : Entering K runId p)
    (h : Suspended s) :
    p.solo allow fault (SameRun s)
      (fun out s' => SameRun s s' ∧ ∀ S l, out ≠ .entered S l) (fun _ => SameRun s) s := by
  cases hp with
  | execute => exact solo_execute_suspended h fun _ => id
  | resume command => exact solo_resume_suspended h fun _ => id

theorem Invoked.suspended (h : Suspended s) (hi : Invoked K runId allow fault s s') :
    SameRun s s' := by
  obtain ⟨p, r, hp, hran⟩ := hi
  exact ((solo_entering_suspended hp h).ran hran (SameRun.refl s)).1

/-- However often a suspended run is executed and resumed, and whatever the collaborators
answer, its truth does not change and no call enters its loop. -/
theorem suspended_stays {v : Store} (h : Suspended s)
    (hv : Relation.ReflTransGen (Invoked K runId allow fault) s v) :
    v.truth = s.truth ∧ ∀ p s' S l, Entering K runId p →
      ¬ p.Ran allow fault v s' (some (.ok (.entered S l))) := by
  have hsame : SameRun s v := by
    induction hv with
    | refl => exact SameRun.refl s
    | tail _ hlast ih => exact ih.trans (hlast.suspended (h.same ih))
  refine ⟨hsame.truth, fun p s' S l hp hran => ?_⟩
  have hout := ((solo_entering_suspended hp (h.same hsame)).ran hran (SameRun.refl v)).2.1 _ rfl
  exact hout.2 S l rfl

/-- **No suspended run of an agent is ever resumed.**  No sequence of `execute` and `resume`
calls brings it to the status it is to be resumed to, or into the loop. -/
theorem suspended_never_resumes (h : Suspended s) (r : ResumeTarget) :
    ¬ ∃ v, Relation.ReflTransGen (Invoked K runId allow fault) s v ∧
      (v.truth.projection.status = r.status ∨ ∃ p s' S l, Entering K runId p ∧
        p.Ran allow fault v s' (some (.ok (.entered S l)))) := by
  rintro ⟨v, hv, hstatus | ⟨p, s', S, l, hp, hran⟩⟩
  · rw [(suspended_stays h hv).1, h.status] at hstatus
    cases r <;> cases hstatus
  · exact (suspended_stays h hv).2 p s' S l hp hran

end Suspended

section Samples

set_option maxRecDepth 10000

/-- The stream of an accepted run. -/
theorem stream_host (budget : WorkBudget) :
    Stream (Host.store budget).workOrder (Host.store budget).truth.events
      (Host.store budget).truth.projection where
  length := rfl
  sequence {i e} h := by
    cases i with
    | zero => cases h; rfl
    | succ i => cases h
  lastId := rfl
  distinct := List.pairwise_singleton _ _
  tenant := rfl
  workOrder := rfl
  binding := rfl
  definition := rfl
  definitionDigest := rfl
  bound e h := by
    rw [List.mem_singleton.mp h]
    exact ⟨rfl, rfl⟩

/-- The store of a run whose first model call had an outcome nobody knows. -/
def Host.unknown : Store :=
  ({ model := fun _ => .error (.host "gone" true) } : Host).executes config 1
    (store ⟨2, 2, 0, 1000, none, none, none, none, none, none, none⟩)

theorem suspended_unknown : Suspended Host.unknown := ⟨rfl, rfl⟩

/-- The run of a lost model call is not resumed. -/
theorem suspended_never_resumes_unknown :
    Host.unknown.truth.projection.status = .suspended ∧
      ¬ ∃ v, Relation.ReflTransGen (Invoked Host.config "run" ({} : Host).Answers (fun _ => False))
          Host.unknown v ∧
        (v.truth.projection.status = ResumeTarget.planning.status ∨ ∃ p s' S l,
          Entering Host.config "run" p ∧
            p.Ran ({} : Host).Answers (fun _ => False) v s' (some (.ok (.entered S l)))) :=
  ⟨rfl, suspended_never_resumes suspended_unknown .planning⟩

/-- A run that is suspended until its model call can be made again, with a host that would make
it and with budget left: every call of `execute` and of `resume` leaves it suspended. -/
theorem suspended_run_is_stuck :
    Host.unknown.truth.events.map (·.eventType) =
        [.RunAccepted, .PlanningStarted, .ModelCallStarted, .RunSuspended] ∧
      Host.unknown.truth.projection.resumeTarget = some .planning ∧
      Host.unknown.truth.projection.activeEffectId = none ∧
      ∀ v, Relation.ReflTransGen (Invoked Host.config "run" ({} : Host).Answers (fun _ => False))
        Host.unknown v → v.truth.projection.status = .suspended := by
  refine ⟨rfl, rfl, rfl, fun v hv => ?_⟩
  rw [(suspended_stays suspended_unknown hv).1]
  exact suspended_unknown.status

end Samples

end Pactmark
