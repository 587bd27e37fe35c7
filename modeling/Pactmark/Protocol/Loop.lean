import Pactmark.Protocol.EffectSteps

/-!
# Protocol — what a pass of the loop begins and ends with

`LoopKnown` is what a thread knows at the beginning of a pass of the loop of `execute`, from the
checkpoint it goes on with.  `Loads.known` is where it comes from when a run is resumed: the
checkpoint that was loaded is the last one written, or an approval or an input has come since.
`Ended` is what a pass ends with, and `wp_append_idle` the rule for the events a pass appends
while no effect is open.
-/

namespace Pactmark

open Durable

/-! ### The checkpoint of a resumed run -/

theorem foldl_later (l : List ContextSnapshot) (init : Option ContextSnapshot)
    (h : (init.toList ++ l).Pairwise (·.sequence < ·.sequence)) :
    l.foldl ContextSnapshot.later init = (init.toList ++ l).getLast? := by
  induction l generalizing init with
  | nil => cases init <;> simp
  | cons x l ih =>
      have hx : ContextSnapshot.later init x = some x := by
        cases init with
        | none => rfl
        | some y =>
            simp only [Option.toList_some, List.cons_append, List.pairwise_cons,
              List.nil_append] at h
            have hlt : y.sequence < x.sequence := h.1 x (by simp)
            simp [ContextSnapshot.later, hlt]
      rw [List.foldl_cons, hx, ih]
      · cases init <;> simp [List.getLast?_cons]
      · cases init with
        | none => simpa using h
        | some y =>
            simp only [Option.toList_some, List.cons_append, List.nil_append,
              List.pairwise_cons] at h ⊢
            exact h.2

/-- The snapshots of a run expire together, so the latest is the last one or there is none. -/
theorem getLatestSnapshot_eq {K : Config} {wo : WorkOrder} {c : RunTruth}
    (hs : Snapshots K wo c.events c.snapshots) (now : Instant) :
    c.getLatestSnapshot now =
      if hasExpired wo.retentionExpiresAt now then none else c.snapshots.getLast? := by
  have hexp : ∀ x ∈ c.snapshots, hasExpired x.expiresAt now =
      hasExpired wo.retentionExpiresAt now := by
    intro x hx
    obtain ⟨e, -, step, -, heq⟩ := hs.saved x hx
    rw [heq]
    rfl
  unfold RunTruth.getLatestSnapshot
  split
  · rename_i hx
    rw [List.filter_eq_nil_iff.mpr fun x hm => by simp [hexp x hm, hx]]
    rfl
  · rename_i hx
    rw [List.filter_eq_self.mpr fun x hm => by simp [hexp x hm, hx],
      foldl_later _ none (by simpa using hs.increasing)]
    simp

/-- What comes after a sequence number ends with the last event. -/
theorem lastPayload_suffix {wo : WorkOrder} {events : List RunEvent} {p : RunProjection}
    (hst : Stream wo events p) {n : Nat} {e : RunEvent}
    (h : (events.filter (·.sequence > n)).getLast? = some e) :
    lastPayload events = some e.payload := by
  obtain ⟨hne, hlast⟩ : ∃ init last, events = init ++ [last] := by
    cases hev : events.getLast? with
    | none =>
        rw [List.getLast?_eq_none_iff.mp hev] at h
        cases h
    | some last => exact ⟨_, last, (List.getLast?_eq_some_iff.mp hev).choose_spec⟩
  obtain ⟨last, rfl⟩ := hlast
  have hmem : e ∈ (hne ++ [last]).filter (·.sequence > n) := List.mem_of_getLast? h
  obtain ⟨hm, hgt⟩ := List.mem_filter.mp hmem
  have hle := hst.sequence_le hm
  have hl : last.sequence = (hne ++ [last]).length := by
    have := hst.sequence (i := hne.length) (e := last) (by simp)
    simpa using this
  have hgt' : last.sequence > n := by
    have : e.sequence > n := by simpa using hgt
    omega
  rw [List.filter_append, List.filter_cons_of_pos (by simpa using hgt'), List.filter_nil,
    List.getLast?_concat] at h
  cases h
  simp

/-- The snapshot is the last event's, or a safe suffix follows it. -/
def SafelyBehind (sn : ContextSnapshot) (c : RunTruth) : Prop :=
  sn.sequence = c.projection.lastSequence ∨ ∃ payload, lastPayload c.events = some payload ∧
    (payload.eventType = .ApprovalRecorded ∨ payload.eventType = .InputSubmitted)

/-- The checkpoint comes from the last snapshot, and the suffix after that one is a safe one. -/
def Loads (K : Config) (k : Checkpoint) (c : RunTruth) : Prop :=
  K.contextCheckpointEnabled = true ∧ ∃ sn, c.snapshots.getLast? = some sn ∧ sn.checkpoint = k ∧
    SafelyBehind sn c

theorem safeApprovalSuffix_last {wo : WorkOrder} {p : RunProjection} {sn : ContextSnapshot}
    {k : Checkpoint} {suffix : List RunEvent}
    (h : safeApprovalSuffix wo p sn k suffix = true) :
    ∃ e, suffix.getLast? = some e ∧ e.payload.eventType = .ApprovalRecorded := by
  unfold safeApprovalSuffix at h
  split at h
  · rename_i requested recorded
    refine ⟨recorded, rfl, ?_⟩
    split at h
    · rename_i hp
      rw [hp]
      rfl
    · cases h
  · cases h

theorem safeInputSuffix_last {wo : WorkOrder} {p : RunProjection} {sn : ContextSnapshot}
    {k : Checkpoint} {suffix : List RunEvent} (h : safeInputSuffix wo p sn k suffix = true) :
    ∃ e, suffix.getLast? = some e ∧ e.payload.eventType = .InputSubmitted := by
  unfold safeInputSuffix at h
  split at h
  · rename_i submitted
    refine ⟨submitted, rfl, ?_⟩
    split at h
    · rename_i hp
      rw [hp]
      rfl
    · cases h
  · cases h

section Loading

variable {K : Config} {H : Prop} {env : Env} {t : Nat} {w : RunWorld} {wo : WorkOrder}
  {p : RunProjection} {Φ : RunTruth → Prop}

/-- A safe suffix ends with an approval or with an input. -/
theorem safeSuffix_last {c : RunTruth} (hst : Stream wo c.events c.projection)
    {sn : ContextSnapshot} {k : Checkpoint}
    (h : ¬ (¬ safeApprovalSuffix wo p sn k (c.events.filter (·.sequence > sn.sequence)) ∧
      ¬ safeInputSuffix wo p sn k (c.events.filter (·.sequence > sn.sequence)))) :
    ∃ payload, lastPayload c.events = some payload ∧
      (payload.eventType = .ApprovalRecorded ∨ payload.eventType = .InputSubmitted) := by
  rcases not_and_or.mp h with hs | hs
  · obtain ⟨e, he, ht⟩ := safeApprovalSuffix_last (not_not.mp hs)
    exact ⟨e.payload, lastPayload_suffix hst he, .inl ht⟩
  · obtain ⟨e, he, ht⟩ := safeInputSuffix_last (not_not.mp hs)
    exact ⟨e.payload, lastPayload_suffix hst he, .inr ht⟩

theorem wp_assertContextCheckpointSuffix {sn : ContextSnapshot} {k : Checkpoint}
    (h : Holding wo p Φ w) (coherent : ∀ c, c.projection = p → Φ c → Coherent K H wo c) :
    (assertContextCheckpointSuffix wo p sn k).wp (executorContract K H env) t
      (fun _ => Holding wo p fun c => Φ c ∧ SafelyBehind sn c) (fun _ => On wo) w := by
  unfold assertContextCheckpointSuffix
  split
  · rename_i hseq
    exact wp_pure holding_stable h fun v hv => hv.mono fun c hc hΦ => ⟨hΦ, .inl (hc ▸ hseq)⟩
  · refine Prog.wp_bind ((wp_read_holding (E := fun _ => On wo) h).mono
      (fun events v _ hv => ?_) fun _ _ _ => id)
    refine Prog.wp_throwIf (fun hsafe u hu _ => ?_) fun _ u hu _ => on_stable wo hv.on hu
    refine (holding_stable hv hu).mono fun c hc hΦ => ⟨hΦ.1, .inr ?_⟩
    obtain ⟨hΦ, rfl⟩ := hΦ
    exact safeSuffix_last (coherent c hc hΦ).stream hsafe

theorem wp_openContextSnapshot {sn : ContextSnapshot} (h : Holding wo p Φ w)
    (coherent : ∀ c, c.projection = p → Φ c → Coherent K H wo c) :
    (openContextSnapshot K wo p sn).wp (executorContract K H env) t
      (fun k => Holding wo p fun c => Φ c ∧ k = sn.checkpoint ∧ SafelyBehind sn c)
      (fun _ => On wo) w := by
  unfold openContextSnapshot
  refine wp_calm_bind holding_stable h (fun _ x _ hx => ?_) fun _ _ hx => hx.on
  refine wp_calm_bind holding_stable hx (fun _ x₁ _ hx₁ => ?_) fun _ _ hx => hx.on
  refine wp_calm_bind holding_stable hx₁ (fun _ x₂ _ hx₂ => ?_) fun _ _ hx => hx.on
  refine wp_calm_bind holding_stable hx₂ (fun _ x₃ _ hx₃ => ?_) fun _ _ hx => hx.on
  refine Prog.wp_bind ((wp_assertContextCheckpointSuffix hx₃ coherent).mono
    (fun _ x₄ _ hx₄ => ?_) fun _ _ _ => id)
  refine wp_calm_bind holding_stable hx₄ (fun _ x₅ _ hx₅ => ?_) fun _ _ hx => hx.on
  exact wp_pure holding_stable hx₅ fun y hy => hy.mono fun c _ hΦ => ⟨hΦ.1, rfl, hΦ.2⟩

/-- What is known once a checkpoint was looked for. -/
def Loaded (K : Config) (Φ : RunTruth → Prop) (out : Option Checkpoint) (c : RunTruth) : Prop :=
  Φ c ∧ ∀ k, out = some k → Loads K k c

/-- `#loadContextCheckpoint` finds the checkpoint of the last snapshot, or none. -/
theorem wp_loadContextCheckpoint (h : Holding wo p Φ w)
    (coherent : ∀ c, c.projection = p → Φ c → Coherent K H wo c) :
    (loadContextCheckpoint K wo p).wp (executorContract K H env) t
      (fun out => Holding wo p (Loaded K Φ out)) (fun _ => On wo) w := by
  have none_ : ∀ {v}, Holding wo p Φ v → Holding wo p (Loaded K Φ none) v := fun hv =>
    hv.mono fun c _ hΦ => ⟨hΦ, fun k hk => by cases hk⟩
  unfold loadContextCheckpoint
  split
  · rename_i hK
    refine wp_calm_bind holding_stable h (fun now v _ hv => ?_) fun _ _ hv => hv.on
    refine wp_read_bind (fun c => c.getLatestSnapshot now) hv fun latest u _ hu => ?_
    cases latest with
    | none => exact wp_pure holding_stable (hu.mono fun c _ hΦ => hΦ.1) fun x hx => none_ hx
    | some sn =>
        refine Prog.wp_bind ((wp_openContextSnapshot hu fun c hc hΦ => coherent c hc hΦ.1).mono
          (fun k x _ hx => ?_) fun _ _ _ => id)
        refine wp_pure holding_stable hx fun y hy => hy.mono fun c hc hΦ => ⟨hΦ.1.1, ?_⟩
        obtain ⟨⟨hΦ, hsn⟩, rfl, hsafe⟩ := hΦ
        rintro _ ⟨⟩
        refine ⟨hK, sn, ?_, rfl, hsafe⟩
        rw [getLatestSnapshot_eq (coherent c hc hΦ).snapshots] at hsn
        split at hsn
        · cases hsn
        · exact hsn.symm
  · exact wp_pure holding_stable h fun v hv => none_ hv

end Loading

/-! ### What is known at the beginning of a pass -/

/-- A tool call goes on from its checkpoint.  The checkpoint is the last snapshot, unless the
step has been approved since; and a dispatch that was interrupted is this call's. -/
structure Tooled (K : Config) (H : Prop) (wo : WorkOrder) (step call : String) (c : RunTruth) :
    Prop where
  stands : Stands c.projection .running step
  clear : Clear c.effects
  saved : K.contextCheckpointEnabled = true →
    (Behind 0 c.projection c.snapshots fun k =>
      k.phase = .tool ∧ k.stepId = some step ∧ k.OfTool) ∨ lastApproval step c.events ≠ none
  settled : H → Settled c.effects ∨ ∃ r, Interrupted c.events c.effects r ∧
    r.effectKey = createEffectKey K.encoding
      { workOrderBindingDigest := wo.workOrderBindingDigest
        executionDefinitionDigest := wo.executionDefinitionDigest
        runId := c.projection.runId
        stepId := step
        toolCallId := call
        toolRegistrationDigest := r.toolRegistrationDigest
        argumentsDigest := r.argumentsDigest
        normalizedTargetDigest := r.normalizedTargetDigest }

/-- What is known of a run that goes on from a checkpoint. -/
def LoopKnown (K : Config) (H : Prop) (wo : WorkOrder) (k : Option Checkpoint) (c : RunTruth) :
    Prop :=
  match k with
  | none => Quiet H c ∧ (c.projection.status = .accepted ∨ c.projection.status = .running)
  | some k =>
      match k.phase with
      | .input => Quiet H c ∧ ∃ step q schema, k.AsksFor step q schema ∧
          Stands c.projection .planning step
      | .tool => ∃ step call, k.stepId = some step ∧ k.toolCallId = some call ∧ k.OfTool ∧
          Tooled K H wo step call c
      | _ => Quiet H c ∧ Resumes c.projection k

/-- A recorded approval is found. -/
theorem lastApproval_concat {step d a : String} {target : ResumeTarget} {before recorded : RunEvent}
    (hp : recorded.payload = .ApprovalRecorded step d a target) (init : List RunEvent) :
    lastApproval step (init ++ [before, recorded]) ≠ none := by
  induction init with
  | nil => simp [lastApproval, hp]
  | cons x init ih =>
      obtain ⟨y, rest, hrest⟩ : ∃ y rest, init ++ [before, recorded] = y :: rest := by
        cases init with
        | nil => exact ⟨before, [recorded], rfl⟩
        | cons y init => exact ⟨y, init ++ [before, recorded], rfl⟩
      rw [List.cons_append, hrest, lastApproval]
      rw [hrest] at ih
      intro h
      exact ih (Option.or_eq_none_iff.mp h).1

theorem Decisions.lastApproval {K : Config} {wo : WorkOrder} {events : List RunEvent}
    {gates : Table DecisionGate} {approvals : Table Approval} {step d a : String}
    {target : ResumeTarget} (h : Decisions K wo events gates approvals)
    (hl : lastPayload events = some (.ApprovalRecorded step d a target)) :
    lastApproval step events ≠ none := by
  obtain ⟨last, hlast, hp⟩ := Option.map_eq_some_iff.mp hl
  rw [List.getLast?_eq_getElem?] at hlast
  obtain ⟨-, j, e', -, -, -, -, hj, he', -⟩ := h.recorded hlast hp
  have hlt := (List.getElem?_eq_some_iff.mp hlast).1
  have hsplit : events = events.take j ++ [e', last] := by
    rw [hj] at hlast
    have h₁ : events.drop j = e' :: events.drop (j + 1) :=
      List.drop_eq_getElem?_toList_append.trans (by simp [he'])
    have h₂ : events.drop (j + 1) = last :: events.drop (j + 2) :=
      List.drop_eq_getElem?_toList_append.trans (by simp [hlast])
    have h₃ : events.drop (j + 2) = [] := List.drop_eq_nil_of_le (by omega)
    calc events = events.take j ++ events.drop j := (List.take_append_drop j events).symm
      _ = events.take j ++ [e', last] := by rw [h₁, h₂, h₃]
  rw [hsplit]
  exact lastApproval_concat hp _

/-! ### Events between effects -/

section Idling

variable {K : Config} {H : Prop} {env : Env} {t : Nat} {w : RunWorld} {wo : WorkOrder}
  {p : RunProjection} {Φ : RunTruth → Prop} {lease : RunLease} {payload : EventPayload}
  {given : Option String} {commit : Tx} {k : Option Checkpoint} {status : RunStatus}
  {step : String}

/-- What is known after an event between two effects: the status and the step, the checkpoint
that was written with it, and what was known before it of the projection it was appended to. -/
structure Noted (K : Config) (H : Prop) (p : RunProjection) (Φ : RunTruth → Prop)
    (k : Option Checkpoint) (status : RunStatus) (step : String) (c : RunTruth) : Prop
    extends Idle H status step c where
  saved : Saved K k c
  before : ∃ c', c'.projection = p ∧ Φ c'

/-- An event between two effects. -/
theorem wp_append_idle (h : Holding wo p Φ w) (hp : payload.plain = true) (aside : commit.Aside)
    (quiet : ∀ c, c.projection = p → Φ c → Quiet H c)
    (stands : ∀ c next, c.projection = p → Φ c → Appended K wo p payload next →
      Stands next status step)
    (carries : wo.isCompensation = false → ∀ c next, c.projection = p → Φ c →
      Stands next status step → ∃ k', k = some k' ∧ Carries next k' payload) :
    (append K wo p lease payload given commit k).wp (executorContract K H env) t
      (fun next v => Appended K wo p payload next ∧
        Holding wo next (Noted K H p Φ k status step) v)
      (fun _ v => Holding wo p Φ v) w := by
  refine wp_append_plain h hp aside fun {c e sn} hc hΦ hbuild hfold saves => ?_
  have hq := quiet c hc hΦ
  have hst : Stands (c.projection.fold e) status step :=
    stands c _ hc hΦ ⟨e, given, hbuild, hfold, by rw [hc]⟩
  exact ⟨hq, fun agent => carries agent c _ hc hΦ hst,
    ⟨⟨⟨hq.clear, hq.settled⟩, hst⟩, saves.saved, c, hc, hΦ⟩⟩

/-- An event that sets neither the status nor the step. -/
theorem Stands.appended {next : RunProjection} (h : Stands p status step)
    (ha : Appended K wo p payload next) (hs : nextStatusFor payload = none)
    (hc : payload.currentStep = none) : Stands next status step :=
  ⟨by rw [ha.status, hs]; exact h.status, by rw [ha.currentStepId, hc]; exact h.step⟩

theorem Stands.resumes {next : RunProjection} {k : Checkpoint} (h : Stands next status step)
    (hk : k.stepId = some step) (hs : k.Shape status) : Resumes next k :=
  ⟨by rw [hk]; rfl, by rw [hk]; exact h.step, by rw [h.status]; exact hs⟩

end Idling

end Pactmark
