import Pactmark.Protocol.Replay

/-!
# Protocol — what completes a run

A run is completed by what its verifiers have recorded over the whole run: the reducer only adds
to `passedVerifierIds` and `verificationExceptionIds`, so a pass is not withdrawn by a later
record, by another artifact or by another verification.

* `Phases.snoc`: every pass and every exception was recorded in a phase of verification, and a
  run that verifies is in one.
* `rebuildRunProjection_completed`: a completed run has a phase at its end, and for every
  required verifier a pass or an exception in one of its phases.
-/

namespace Pactmark

open Durable

/-- A pass of the verifier, or an exception for it. -/
def RunEvent.Covers (e : RunEvent) (verifierId : String) : Prop :=
  (∃ stepId verificationId digest,
      e.payload = .VerificationRecorded stepId verificationId verifierId .pass digest) ∨
    ∃ stepId exceptionId, e.payload = .VerificationExceptionRecorded stepId exceptionId verifierId

/-- The events of a phase of verification. -/
def verificationEvents : List RunEventType :=
  [.VerificationRecorded, .VerificationExceptionRecorded]

/-- The events end in a phase of verification: `started` and the records `phase` after it. -/
structure EndsIn (events pre : List RunEvent) (started : RunEvent) (phase : List RunEvent) :
    Prop where
  events : events = pre ++ started :: phase
  started : started.eventType = .VerificationStarted
  phase : ∀ e ∈ phase, e.eventType ∈ verificationEvents

/-- The verifier is covered in some phase of verification of the events. -/
def CoveredInPhase (events : List RunEvent) (verifierId : String) : Prop :=
  ∃ pre started phase e post, events = pre ++ e :: post ∧ e.Covers verifierId ∧
    ∃ before, EndsIn pre before started phase

variable {run : Run} {events pre post : List RunEvent} {p : RunProjection} {e : RunEvent}
  {verifierId : String}

theorem CoveredInPhase.snoc (h : CoveredInPhase events verifierId) :
    CoveredInPhase (events ++ [e]) verifierId := by
  obtain ⟨pre, started, phase, x, post, rfl, hx, hends⟩ := h
  exact ⟨pre, started, phase, x, post ++ [e], by simp, hx, hends⟩

/-- Where the passes and the exceptions of a projection come from. -/
structure Phases (events : List RunEvent) (p : RunProjection) : Prop where
  passed : ∀ id ∈ p.passedVerifierIds, CoveredInPhase events id
  excepted : ∀ id ∈ p.verificationExceptionIds, CoveredInPhase events id
  verifying : p.status = .verifying → ∃ pre started phase, EndsIn events pre started phase

theorem Phases.initial (hcreated : run.status = .created) :
    Phases [] (createRunProjection run) where
  passed _ h := by cases h
  excepted _ h := by cases h
  verifying h := by cases hcreated.symm.trans h

/-- A verification is recorded while the run verifies. -/
theorem Foldable.verifying (h : Foldable p e) (he : e.eventType ∈ verificationEvents) :
    p.status = .verifying ∧ (p.fold e).status = .verifying := by
  unfold verificationEvents at he
  rcases h.status_cases with ⟨-, hs, hmem⟩ | ⟨hn, -⟩
  · have hverifying : p.status = .verifying := by
      simp only [List.mem_cons, List.not_mem_nil, or_false] at he
      cases hstatus : p.status <;> rw [hstatus] at hmem <;> rcases he with he | he <;>
        simp [STATE_PRESERVING_EVENTS, he] at hmem ⊢
    exact ⟨hverifying, hs.trans hverifying⟩
  · unfold RunEvent.eventType at he
    cases hp : e.payload <;> rw [hp] at he hn <;>
      simp [EventPayload.eventType, nextStatusFor] at he hn

/-- An event that leaves a run verifying starts a phase or belongs to one. -/
theorem Foldable.verifying_cases (h : Foldable p e) (hrange : e.payload.inRange = true)
    (hs : (p.fold e).status = .verifying) :
    e.eventType = .VerificationStarted ∨
      p.status = .verifying ∧ e.eventType ∈ verificationEvents := by
  rcases h.status_cases with ⟨-, heq, hmem⟩ | ⟨hn, -⟩
  · rw [heq] at hs
    rw [hs] at hmem
    exact .inr ⟨hs, hmem⟩
  · exact .inl (nextStatusFor_soleEvent hrange (hs ▸ hn) rfl)

/-- An event that covers a verifier does so in the phase the events end in. -/
theorem Phases.covered (h : Phases events p) (hf : Foldable p e)
    (he : e.eventType ∈ verificationEvents) (hc : e.Covers verifierId) :
    CoveredInPhase (events ++ [e]) verifierId := by
  obtain ⟨before, started, phase, hends⟩ := h.verifying (hf.verifying he).1
  exact ⟨events, started, phase, e, [], rfl, hc, before, hends⟩

/-- **One accepted event.** -/
theorem Phases.snoc (h : Phases events p) (hf : Foldable p e)
    (hrange : e.payload.inRange = true) : Phases (events ++ [e]) (p.fold e) where
  passed id hid := by
    rcases fold_passedVerifierIds (p := p) (e := e) with hs | ⟨s, v, w, d, hpayload, hs⟩
    · rw [hs] at hid
      exact (h.passed id hid).snoc
    · rw [hs] at hid
      rcases mem_addId hid with hid | rfl
      · exact (h.passed id hid).snoc
      · refine h.covered hf ?_ (.inl ⟨s, v, d, hpayload⟩)
        rw [RunEvent.eventType, hpayload]
        exact List.mem_cons_self ..
  excepted id hid := by
    rcases fold_verificationExceptionIds (p := p) (e := e) with hs | ⟨s, x, w, hpayload, hs⟩
    · rw [hs] at hid
      exact (h.excepted id hid).snoc
    · rw [hs] at hid
      rcases mem_addId hid with hid | rfl
      · exact (h.excepted id hid).snoc
      · refine h.covered hf ?_ (.inr ⟨s, x, hpayload⟩)
        rw [RunEvent.eventType, hpayload]
        exact List.mem_cons_of_mem _ (List.mem_cons_self ..)
  verifying hs := by
    rcases hf.verifying_cases hrange hs with hstarted | ⟨hverifying, he⟩
    · exact ⟨events, e, [], rfl, hstarted, fun x hx => absurd hx List.not_mem_nil⟩
    · obtain ⟨pre, started, phase, hends⟩ := h.verifying hverifying
      refine ⟨pre, started, phase ++ [e], by simp [hends.events], hends.started, ?_⟩
      intro x hx
      rcases List.mem_append.mp hx with hx | hx
      · exact hends.phase x hx
      · rwa [List.mem_singleton.mp hx]

theorem rebuild_phases (hcreated : run.status = .created)
    (h : rebuildRunProjection (createRunProjection run) events = .ok p) : Phases events p :=
  replay_induction (Phases.initial hcreated)
    (fun _ hs hx => by
      obtain ⟨-, he, hf, -, rfl⟩ := parsedReduce_ok.mp hx
      exact hs.snoc hf (RunEvent.parses.inRange he)) h

/-- Where a phase starts, when it is the only one. -/
theorem EndsIn.only {started : RunEvent} {phase before : List RunEvent} {x : RunEvent}
    (h : EndsIn events pre started phase) (honly : ∀ e ∈ pre, e.eventType ≠ .VerificationStarted)
    (hx : x.eventType = .VerificationStarted) (heq : events = before ++ x :: post) :
    post = phase := by
  have heq' := h.events.symm.trans heq
  rcases List.append_eq_append_iff.mp heq' with ⟨as, rfl, has⟩ | ⟨cs, rfl, hcs⟩
  · cases as with
    | nil => exact (List.cons.inj has).2.symm
    | cons a as =>
      obtain ⟨-, hphase⟩ := List.cons.inj has
      have hmem := h.phase x (by rw [hphase]; simp)
      rw [hx] at hmem
      cases hmem with
      | tail _ hmem => cases hmem with | tail _ hmem => cases hmem
  · cases cs with
    | nil => exact (List.cons.inj hcs).2
    | cons c cs =>
      obtain ⟨rfl, -⟩ := List.cons.inj hcs
      exact absurd hx (honly x (by simp))

/-- **What completes a run**: the events before `RunCompleted` end in a phase of verification, and
every required verifier is covered in some phase of them; in that last one, when it is the only
one. -/
theorem rebuildRunProjection_completed (hcreated : run.status = .created)
    (h : rebuildRunProjection (createRunProjection run) (events ++ [e]) = .ok p)
    (hcompleted : e.eventType = .RunCompleted) :
    ∃ pre started phase, EndsIn events pre started phase ∧
      ∀ accepted ∈ events, ∀ workOrderId digest requiredVerifierIds,
        accepted.payload = .RunAccepted workOrderId digest requiredVerifierIds →
        ∀ verifierId ∈ requiredVerifierIds, CoveredInPhase events verifierId ∧
          ((∀ x ∈ pre, x.eventType ≠ .VerificationStarted) →
            ∃ x ∈ phase, x.Covers verifierId) := by
  -- `a` is the projection that `RunCompleted` is folded into
  obtain ⟨a, ha, hx⟩ := replay_snoc.mp h
  obtain ⟨-, -, hf, -, -⟩ := parsedReduce_ok.mp hx
  have hphases := rebuild_phases hcreated ha
  have hsafe := rebuild_safe hcreated ha
  have hverifying : a.status = .verifying := by
    have hs := hf.status
    unfold RunEvent.eventType at hcompleted
    cases hp : e.payload <;> rw [hp] at hcompleted hs <;>
      simp [EventPayload.eventType] at hcompleted
    cases hstatus : a.status <;> rw [hstatus] at hs <;>
      simp [StatusAllowed, nextStatusFor, RUN_TRANSITIONS] at hs
  obtain ⟨pre, started, phase, hends⟩ := hphases.verifying hverifying
  refine ⟨pre, started, phase, hends, ?_⟩
  intro accepted haccepted workOrderId digest ids hpayload verifierId hid
  rw [← hsafe.required accepted haccepted workOrderId digest ids hpayload] at hid
  have hcovered : CoveredInPhase events verifierId := by
    have := List.all_eq_true.mp (hf.verified hcompleted) verifierId hid
    rcases of_decide_eq_true this with hpassed | hexcepted
    · exact hphases.passed verifierId hpassed
    · exact hphases.excepted verifierId hexcepted
  refine ⟨hcovered, fun honly => ?_⟩
  obtain ⟨pre', started', phase', x, post, rfl, hxc, before, hbefore⟩ := hcovered
  have hpost : phase' ++ x :: post = phase :=
    hends.only honly hbefore.started (show _ = before ++ started' :: (phase' ++ x :: post) by
      rw [hbefore.events]
      simp)
  exact ⟨x, by rw [← hpost]; simp, hxc⟩

section Witness

/-- A run that verifies one artifact, replaces it, and completes after a verification that
records nothing. -/
def replacedArtifact : List EventPayload :=
  [.RunAccepted "order" someDigest ["verifier"],
    .ExecutionStarted "step" none,
    .VerificationStarted "step" someDigest,
    .VerificationRecorded "step" "verification" "verifier" .pass someDigest,
    .PlanningStarted "step",
    .ExecutionStarted "step" none,
    .ArtifactProduced "step" "artifact" someDigest,
    .VerificationStarted "step" someDigest,
    .RunCompleted "step" "evidence" someDigest]

theorem replacedArtifact_plain : ∀ payload ∈ replacedArtifact, payload.Plain := by
  decide

/-- A run whose verifier fails after it has passed. -/
def failedAfterPass : List EventPayload :=
  [.RunAccepted "order" someDigest ["verifier"],
    .ExecutionStarted "step" none,
    .VerificationStarted "step" someDigest,
    .VerificationRecorded "step" "verification" "verifier" .pass someDigest,
    .VerificationRecorded "step" "again" "verifier" .fail someDigest,
    .RunCompleted "step" "evidence" someDigest]

theorem failedAfterPass_plain : ∀ payload ∈ failedAfterPass, payload.Plain := by
  decide

theorem rebuildRunProjection_completed_replaced :
    ∃ pre started phase, EndsIn (eventsOf (replacedArtifact.take 8)) pre started phase ∧
      CoveredInPhase (eventsOf (replacedArtifact.take 8)) "verifier" := by
  have h := rebuild_eventsOf (by decide) replacedArtifact_plain rfl
  obtain ⟨pre, started, phase, hends, hcovered⟩ :=
    rebuildRunProjection_completed rfl
      (show rebuildRunProjection _ (eventsOf (replacedArtifact.take 8) ++
        [nthEvent 9 (.RunCompleted "step" "evidence" someDigest)]) = _ from h) rfl
  refine ⟨pre, started, phase, hends, ?_⟩
  exact (hcovered (nthEvent 1 (.RunAccepted "order" someDigest ["verifier"]))
    (List.mem_cons_self ..) _ _ _ rfl "verifier" (List.mem_cons_self ..)).1

/-- A run is completed by a pass of an earlier verification, and by a pass that a failure
followed. -/
theorem completed_without_fresh_pass :
    (¬ ∀ (run : Run) (events : List RunEvent) (e : RunEvent) (p : RunProjection),
      run.status = .created →
      rebuildRunProjection (createRunProjection run) (events ++ [e]) = .ok p →
      e.eventType = .RunCompleted →
      ∀ accepted ∈ events, ∀ workOrderId digest requiredVerifierIds,
        accepted.payload = .RunAccepted workOrderId digest requiredVerifierIds →
        ∀ verifierId ∈ requiredVerifierIds, ∀ pre started post,
          events = pre ++ started :: post → started.eventType = .VerificationStarted →
          (∀ x ∈ post, x.eventType ≠ .VerificationStarted) → ∃ x ∈ post, x.Covers verifierId) ∧
    (¬ ∀ (run : Run) (events : List RunEvent) (e : RunEvent) (p : RunProjection),
      run.status = .created →
      rebuildRunProjection (createRunProjection run) (events ++ [e]) = .ok p →
      e.eventType = .RunCompleted →
      ∀ accepted ∈ events, ∀ workOrderId digest requiredVerifierIds,
        accepted.payload = .RunAccepted workOrderId digest requiredVerifierIds →
        ∀ verifierId ∈ requiredVerifierIds,
          ∀ pre x post stepId verificationId status verificationDigest,
          events = pre ++ x :: post →
          x.payload = .VerificationRecorded stepId verificationId verifierId status
            verificationDigest →
          (∀ y ∈ post, y.eventType ≠ .VerificationRecorded) →
            status = .pass ∨ ∃ y ∈ events, ∃ stepId exceptionId,
              y.payload = .VerificationExceptionRecorded stepId exceptionId verifierId) := by
  constructor
  · intro h
    have hp := rebuild_eventsOf (by decide) replacedArtifact_plain rfl
    obtain ⟨x, hx, -⟩ := h createdRun (eventsOf (replacedArtifact.take 8))
      (nthEvent 9 (.RunCompleted "step" "evidence" someDigest)) _ rfl hp rfl
      (nthEvent 1 (.RunAccepted "order" someDigest ["verifier"])) (List.mem_cons_self ..) _ _ _
      rfl "verifier" (List.mem_cons_self ..) (eventsOf (replacedArtifact.take 7))
      (nthEvent 8 (.VerificationStarted "step" someDigest)) [] rfl rfl
      (fun x hx => absurd hx List.not_mem_nil)
    exact absurd hx List.not_mem_nil
  · intro h
    have hp := rebuild_eventsOf (by decide) failedAfterPass_plain rfl
    rcases h createdRun (eventsOf (failedAfterPass.take 5))
      (nthEvent 6 (.RunCompleted "step" "evidence" someDigest)) _ rfl hp rfl
      (nthEvent 1 (.RunAccepted "order" someDigest ["verifier"])) (List.mem_cons_self ..) _ _ _
      rfl "verifier" (List.mem_cons_self ..) (eventsOf (failedAfterPass.take 4))
      (nthEvent 5 (.VerificationRecorded "step" "again" "verifier" .fail someDigest)) [] "step"
      "again" .fail someDigest rfl rfl (fun x hx => absurd hx List.not_mem_nil)
      with hpass | ⟨y, hy, stepId, exceptionId, hpayload⟩
    · cases hpass
    · obtain ⟨i, hi, rfl⟩ := List.mem_mapIdx.mp hy
      have hmem := List.getElem_mem hi
      change (failedAfterPass.take 5)[i] = _ at hpayload
      rw [hpayload] at hmem
      simp [failedAfterPass] at hmem

end Witness

end Pactmark
