import Pactmark.Runtime.Serving
import Pactmark.Protocol.Append

/-!
# Agent — the programs of a run that is served alone

The rules of `Prog.solo` for the kernel.  A calm program leaves the truth of the run as it is
(`solo_calm`), and `append` adds its event and its snapshot or nothing at all (`solo_append`).

`Within G p` says that a program relates the store it starts in by `G` to every store it goes
through and to the one it ends in, whatever its collaborators answer and however the storage
fails.  It is a class, so that the parts of a program that change nothing of interest are found
by instance resolution.  `execute_entered` says what `execute` enters its loop with.
-/

namespace Pactmark

open Durable

variable {α β : Type} {allow : (q : Query) → Answer q → Prop} {fault : Thrown → Prop}
  {I : Store → Prop} {s s' : Store}

/-! ### Calm programs -/

theorem solo_trivial (p : Runtime α) (s : Store) :
    p.solo allow fault (fun _ => True) (fun _ _ => True) (fun _ _ => True) s := by
  induction p generalizing s with
  | pure a | throw e => trivial
  | ask q k ih => exact fun a _ => ih a s
  | look k ih => exact ih s s
  | transact f k ih => exact ⟨fun s' _ => ⟨trivial, ih _ s'⟩, fun e _ => ih _ s⟩

/-- The truth of the run and its work order are the same. -/
structure SameRun (s s' : Store) : Prop where
  truth : s'.truth = s.truth
  workOrder : s'.workOrder = s.workOrder

theorem SameRun.refl (s : Store) : SameRun s s := ⟨rfl, rfl⟩

theorem solo_calm {P : α → Store → Prop} {E : Thrown → Store → Prop} (p : Runtime α)
    [hc : Calm p] (hI : ∀ s', SameRun s s' → I s') (hP : ∀ a s', SameRun s s' → P a s')
    (hE : ∀ e s', SameRun s s' → E e s') : p.solo allow fault I P E s := by
  refine (Prog.solo_confined (R := SameRun s) hc.confined ?_ (SameRun.refl s)).mono hP hE
  intro f s₁ s₂ hf h hrun
  have hs : SameRun s s₂ :=
    ⟨(hf hrun).trans h.truth, (f.grows hrun).1.trans h.workOrder⟩
  exact ⟨hI s₂ hs, hs⟩

theorem solo_consult {q : Query} {P : α → Store → Prop} {E : Thrown → Store → Prop}
    {decode : Answer q → α} (h : ∀ a, allow q a → P (decode a) s) :
    (consult q decode).solo allow fault I P E s := h

theorem solo_invoke {q : Query} {P : α → Store → Prop} {E : Thrown → Store → Prop}
    {decode : Answer q → Except Thrown α} (hok : ∀ a, P a s) (herr : ∀ e, E e s) :
    (invoke q decode).solo allow fault I P E s :=
  fun _ _ => Prog.solo_ofExcept (fun a _ => hok a) fun e _ => herr e

/-- The program makes no transaction. -/
class Still (p : Runtime α) : Prop where
  confined : p.Confined (fun _ => True) (fun _ => False)

theorem solo_still (p : Runtime α) [hp : Still p] :
    p.solo allow fault I (fun _ s' => s' = s) (fun _ s' => s' = s) s :=
  Prog.solo_confined (R := fun s' => s' = s) hp.confined (fun hf => hf.elim) rfl

theorem solo_still_bind {P : β → Store → Prop} {E : Thrown → Store → Prop} {p : Runtime α}
    {f : α → Runtime β} [Still p] (h : ∀ a, (f a).solo allow fault I P E s)
    (hE : ∀ e, E e s) : (p.bind f).solo allow fault I P E s :=
  Prog.solo_bind ((solo_still p).mono (fun a _ hs => hs ▸ h a) fun e _ hs => hs ▸ hE e)

theorem still_bind {p : Runtime α} {f : α → Runtime β} (hp : Still p) (hf : ∀ a, Still (f a)) :
    Still (p >>= f) :=
  ⟨hp.confined.bind fun a => (hf a).confined⟩

instance (p : Runtime α) (f : α → Runtime β) [hp : Still p] [hf : ∀ a, Still (f a)] :
    Still (p >>= f) :=
  still_bind hp hf

instance (p : Runtime α) (f : α → β) [hp : Still p] : Still (f <$> p) :=
  ⟨hp.confined.bind fun _ => trivial⟩

instance (a : α) : Still (.pure a) := ⟨trivial⟩
instance (a : α) : Still (Pure.pure a) := ⟨trivial⟩
instance (e : Thrown) : Still (.throw e : Runtime α) := ⟨trivial⟩
instance (f : Store → α) : Still (.read f) := ⟨fun _ => trivial⟩
instance still_ofExcept (r : Except Thrown α) : Still (.ofExcept r) := by
  cases r <;> exact ⟨trivial⟩

instance (q : Query) (decode : Answer q → α) : Still (consult q decode) :=
  ⟨trivial, fun _ => trivial⟩

instance (q : Query) (decode : Answer q → Except Thrown α) : Still (invoke q decode) :=
  ⟨trivial, fun a => (still_ofExcept (decode a)).confined⟩

instance (c : Prop) [Decidable c] (p q : Runtime α) [hp : Still p] [hq : Still q] :
    Still (if c then p else q) := by
  split
  · exact hp
  · exact hq

instance (bad : Prop) [Decidable bad] (e : Thrown) : Still (.throwIf bad e) := by
  unfold Prog.throwIf
  infer_instance

instance (deadline : Option Instant) : Still (deadlineElapsed deadline) := by
  unfold deadlineElapsed
  split <;> infer_instance

instance (wo : WorkOrder) (d : BoundaryDispatch) (u : Usage) : Still (assertBoundary wo d u) := by
  unfold assertBoundary
  infer_instance

instance (S : Session) (l : LoopState) (d : BoundaryDispatch) :
    Still (assertLoopBoundary S l d) := by
  unfold assertLoopBoundary boundaryUsage
  infer_instance

instance (operation runId : String) : Still (verifyAuthority operation runId) := by
  unfold verifyAuthority
  refine still_bind inferInstance fun verification => ?_
  cases verification <;> infer_instance

instance (claims : Claims) (p : RunProjection) :
    Still (assertAuthorityWorkOrderScope claims p) := by
  unfold assertAuthorityWorkOrderScope
  infer_instance

instance : Still acquire := by
  unfold acquire
  refine still_bind inferInstance fun lease => ?_
  cases lease <;> infer_instance

instance (K : Config) (r : EffectRecord) : Still (getAcknowledgedResult K r) := by
  unfold getAcknowledgedResult
  refine still_bind inferInstance fun _ => still_bind inferInstance fun stored => ?_
  cases stored <;> infer_instance

instance (wo : WorkOrder) (p : RunProjection) (sn : ContextSnapshot) (k : Checkpoint) :
    Still (assertContextCheckpointSuffix wo p sn k) := by
  unfold assertContextCheckpointSuffix
  infer_instance

instance (operation runId : String) (command : CommandContext) :
    Still (commandClaims operation runId command) := by
  unfold commandClaims
  infer_instance

instance (operation runId : String) (command : CommandContext) :
    Calm (commandClaims operation runId command) := by
  unfold commandClaims
  infer_instance

/-! ### Appending an event -/

/-- The snapshot `#append` writes with an event: none, or that of its checkpoint. -/
def SnapshotOf (k : Option Checkpoint) (e : RunEvent) (sn : Option ContextSnapshot) : Prop :=
  ∀ x, sn = some x → k = some x.checkpoint ∧ x.sequence = e.sequence

theorem solo_event {K : Config} {wo : WorkOrder} {runId : String} {n : Nat}
    {payload : EventPayload} {given : Option String} :
    (event K wo runId n payload given).solo allow fault I
      (fun e s' => s' = s ∧ e.payload = payload ∧ e.sequence = n) (fun _ _ => False) s :=
  fun _ _ => ⟨rfl, rfl, rfl⟩

theorem solo_snapshotOf {K : Config} {wo : WorkOrder} {e : RunEvent} {k : Option Checkpoint} :
    (snapshotOf K wo e k).solo allow fault I (fun sn s' => s' = s ∧ SnapshotOf k e sn)
      (fun _ s' => s' = s) s := by
  have hnone : SnapshotOf k e none := fun x hx => by cases hx
  cases k with
  | none => exact Prog.solo_pure ⟨rfl, hnone⟩
  | some k =>
      simp only [snapshotOf, createContextSnapshot]
      split
      · split
        · exact Prog.solo_throw rfl
        · refine Prog.solo_bind (Prog.solo_throwIf (fun _ => ?_) fun _ => rfl)
          refine Prog.solo_bind (solo_invoke (fun aad => ?_) fun _ => rfl)
          refine Prog.solo_bind (Prog.solo_throwIf (fun _ => Prog.solo_pure ?_) fun _ => rfl)
          refine ⟨rfl, fun x hx => ?_⟩
          cases hx
          exact ⟨rfl, rfl⟩
      · exact Prog.solo_pure ⟨rfl, hnone⟩

/-- What `#append` does to the store: its event is added to the stream, unless it is there
already, and the snapshot of its checkpoint to the snapshots, unless there is none. -/
structure Adds (payload : EventPayload) (k : Option Checkpoint) (s s' : Store) : Prop where
  workOrder : s'.workOrder = s.workOrder
  events : s'.truth.events = s.truth.events ∨
    ∃ e, e.payload = payload ∧ e.sequence = s.truth.events.length + 1 ∧
      s'.truth.events = s.truth.events ++ [e]
  snapshots : s'.truth.snapshots = s.truth.snapshots ∨
    ∃ x, k = some x.checkpoint ∧
      (∃ e ∈ s'.truth.events, e.payload = payload ∧ e.sequence = x.sequence) ∧
      s'.truth.snapshots = s.truth.snapshots ++ [x]
  stream : Stream s.workOrder s.truth.events s.truth.projection →
    Stream s'.workOrder s'.truth.events s'.truth.projection

theorem putSnapshot_beside {sn : Option ContextSnapshot} (h : (putSnapshot sn).run s = .ok s') :
    s'.truth.events = s.truth.events ∧ s'.truth.projection = s.truth.projection ∧
      (s'.truth.snapshots = s.truth.snapshots ∨
        ∃ x, sn = some x ∧ s'.truth.snapshots = s.truth.snapshots ++ [x]) := by
  cases sn with
  | none =>
      cases h
      exact ⟨rfl, rfl, .inl rfl⟩
  | some x =>
      simp only [putSnapshot, putContextSnapshot, Transaction.choose_run] at h
      split at h
      · split at h <;> cases h
        exact ⟨rfl, rfl, .inl rfl⟩
      · cases h
        exact ⟨rfl, rfl, .inr ⟨x, rfl, rfl⟩⟩

theorem appendTransaction_adds {payload : EventPayload} {k : Option Checkpoint} {commit : Tx}
    {sn : Option ContextSnapshot} {e : RunEvent} {next : RunProjection} (hb : commit.Beside)
    (he : e.payload = payload) (hsn : SnapshotOf k e sn)
    (h : (appendTransaction commit sn e next).run s = .ok s') : Adds payload k s s' := by
  have hwork := ((appendTransaction commit sn e next).grows h).1
  simp only [appendTransaction, Transaction.sequence_cons, Transaction.sequence_nil] at h
  obtain ⟨s₁, h₁, h⟩ := Transaction.andThen_ok.mp h
  obtain ⟨s₂, h₂, h⟩ := Transaction.andThen_ok.mp h
  obtain ⟨s₃, h₃, h⟩ := Transaction.andThen_ok.mp h
  obtain ⟨s₄, h₄, h₅⟩ := Transaction.andThen_ok.mp h
  cases h₅
  obtain ⟨-, rfl⟩ := putRunProjection_ok.mp h₄
  obtain ⟨hev, hproj, hsnap⟩ := hb h₁
  obtain ⟨hev₂, hproj₂, hsnap₂⟩ := putSnapshot_beside h₂
  rw [hev] at hev₂
  rw [hproj] at hproj₂
  rw [hsnap] at hsnap₂
  have hevents : (s'.truth.events = s.truth.events ∧ e ∈ s.truth.events ∧
        s'.truth.projection = s.truth.projection ∨
      e.sequence = s.truth.events.length + 1 ∧ s'.truth.events = s.truth.events ++ [e] ∧
        Next s.truth.events s.truth.projection e ∧
        s'.truth.projection = s.truth.projection.fold e) ∧
      s'.truth.snapshots = s₂.truth.snapshots := by
    rcases appendRunEvent_ok h₃ with ⟨hm, rfl⟩ | ⟨hfresh, hlen, hf, rfl⟩
    · exact ⟨.inl ⟨hev₂, hev₂ ▸ hm, hproj₂⟩, rfl⟩
    · rw [hev₂] at hfresh hlen
      rw [hproj₂] at hf
      exact ⟨.inr ⟨hlen.symm, by simp only [RunTruth.push, hev₂], ⟨hf, hfresh⟩,
        by simp only [RunTruth.push, hproj₂]⟩, rfl⟩
  obtain ⟨hevents, hkeep⟩ := hevents
  refine ⟨hwork, ?_, ?_, fun hst => ?_⟩
  · rcases hevents with ⟨heq, -⟩ | ⟨hseq, heq, -⟩
    · exact .inl heq
    · exact .inr ⟨e, he, hseq, heq⟩
  · rcases hsnap₂ with heq | ⟨x, hx, heq⟩
    · exact .inl (hkeep.trans heq)
    · obtain ⟨hk, hseq⟩ := hsn x hx
      refine .inr ⟨x, hk, ⟨e, ?_, he, hseq.symm⟩, hkeep.trans heq⟩
      rcases hevents with ⟨heq, hm, -⟩ | ⟨-, heq, -⟩ <;> rw [heq]
      · exact hm
      · simp
  · rw [hwork]
    rcases hevents with ⟨heq, -, hp⟩ | ⟨-, heq, hnext, hp⟩ <;> rw [heq, hp]
    · exact hst
    · exact hst.push hnext

/-- A transaction of `#append` that adds no event has found its event in the stream. -/
theorem appendTransaction_again {commit : Tx} {sn : Option ContextSnapshot} {e : RunEvent}
    {next : RunProjection} (hb : commit.Beside)
    (h : (appendTransaction commit sn e next).run s = .ok s')
    (heq : s'.truth.events = s.truth.events) : e ∈ s.truth.events := by
  simp only [appendTransaction, Transaction.sequence_cons, Transaction.sequence_nil] at h
  obtain ⟨s₁, h₁, h⟩ := Transaction.andThen_ok.mp h
  obtain ⟨s₂, h₂, h⟩ := Transaction.andThen_ok.mp h
  obtain ⟨s₃, h₃, h⟩ := Transaction.andThen_ok.mp h
  obtain ⟨s₄, h₄, h₅⟩ := Transaction.andThen_ok.mp h
  cases h₅
  obtain ⟨-, rfl⟩ := putRunProjection_ok.mp h₄
  have hev : s₂.truth.events = s.truth.events :=
    (putSnapshot_beside h₂).1.trans (hb h₁).1
  rcases appendRunEvent_ok h₃ with ⟨hm, -⟩ | ⟨-, -, -, rfl⟩
  · exact hev ▸ hm
  · rw [← hev] at heq
    simp [RunTruth.push] at heq

/-- An event that is new and that the reducer accepts is appended. -/
theorem appendTransaction_of {e : RunEvent}
    (hid : ∀ e' ∈ s.truth.events, e'.eventId ≠ e.eventId)
    (hseq : s.truth.events.length + 1 = e.sequence) (hf : Foldable s.truth.projection e) :
    (appendTransaction .skip none e (s.truth.projection.fold e)).run s =
      .ok { s with truth := s.truth.push e (s.truth.projection.fold e) } := by
  simp only [appendTransaction, Transaction.sequence_cons, Transaction.sequence_nil]
  refine Transaction.andThen_ok.mpr ⟨s, rfl, Transaction.andThen_ok.mpr ⟨s, rfl, ?_⟩⟩
  refine Transaction.andThen_ok.mpr ⟨_, appendRunEvent_of hid hseq hf, ?_⟩
  exact Transaction.andThen_ok.mpr ⟨_, putRunProjection_ok.mpr ⟨rfl, rfl⟩, rfl⟩

/-- **The rule of `#append`, alone.** -/
theorem solo_append {K : Config} {wo : WorkOrder} {p : RunProjection} {lease : RunLease}
    {payload : EventPayload} {given : Option String} {commit : Tx} {k : Option Checkpoint}
    {P : RunProjection → Store → Prop} {E : Thrown → Store → Prop} (hb : commit.Beside)
    (hok : ∀ next s' s₁, commit.run s = .ok s₁ → s'.modelCalls = s₁.modelCalls →
      Adds payload k s s' → (s'.truth.events = s.truth.events →
        ∃ e ∈ s.truth.events, e.sequence = p.lastSequence + 1) → I s' ∧ P next s')
    (herr : ∀ e, E e s) :
    (append K wo p lease payload given commit k).solo allow fault I P E s := by
  unfold append renew
  refine Prog.solo_bind (solo_invoke (fun _ => ?_) herr)
  refine Prog.solo_bind (solo_event.mono (fun e s₀ h => ?_) fun _ _ => False.elim)
  obtain ⟨rfl, hpayload, hsequence⟩ := h
  refine Prog.solo_bind (Prog.solo_ofExcept (fun next _ => ?_) fun e _ => herr e)
  refine Prog.solo_bind (solo_snapshotOf.mono (fun sn s₀ h => ?_) fun e s₀ h => h ▸ herr e)
  obtain ⟨rfl, hsn⟩ := h
  refine Prog.solo_bind (Prog.solo_commit (fun s' h => ?_) herr)
  have hadds := appendTransaction_adds hb hpayload hsn h
  have hagain := appendTransaction_again hb h
  simp only [appendTransaction, Transaction.sequence_cons, Transaction.sequence_nil] at h
  obtain ⟨s₁, h₁, h⟩ := Transaction.andThen_ok.mp h
  obtain ⟨s₂, h₂, h⟩ := Transaction.andThen_ok.mp h
  obtain ⟨s₃, h₃, h⟩ := Transaction.andThen_ok.mp h
  obtain ⟨s₄, h₄, h₅⟩ := Transaction.andThen_ok.mp h
  cases h₅
  obtain ⟨-, rfl⟩ := putRunProjection_ok.mp h₄
  have hcalls : s'.modelCalls = s₁.modelCalls := by
    have h₂₁ : s₂.modelCalls = s₁.modelCalls := by
      cases sn with
      | none => cases h₂; rfl
      | some x =>
          simp only [putSnapshot, putContextSnapshot, Transaction.choose_run] at h₂
          split at h₂
          · split at h₂ <;> cases h₂
            rfl
          · cases h₂
            rfl
    rcases appendRunEvent_ok h₃ with ⟨-, rfl⟩ | ⟨-, -, -, rfl⟩ <;> exact h₂₁
  exact hok next s' s₁ h₁ hcalls hadds fun heq => ⟨e, hagain heq, hsequence⟩

/-! ### What `execute` enters its loop with -/

theorem solo_calm_bind {P : β → Store → Prop} {E : Thrown → Store → Prop} {p : Runtime α}
    {f : α → Runtime β} [Calm p] (hI : ∀ s', SameRun s s' → I s')
    (h : ∀ a s', SameRun s s' → (f a).solo allow fault I P E s')
    (hE : ∀ e s', SameRun s s' → E e s') : (p.bind f).solo allow fault I P E s :=
  Prog.solo_bind (solo_calm p hI h hE)

/-- A program whose result is only ever wrapped. -/
theorem solo_map_trivial {P : β → Store → Prop} {E : Thrown → Store → Prop} {p : Runtime α}
    {f : α → β} (h : ∀ a s', P (f a) s') (hE : ∀ e s', E e s') :
    (f <$> p).solo allow fault (fun _ => True) P E s :=
  Prog.solo_bind ((solo_trivial p s).mono (fun a s' _ => h a s') fun e s' _ => hE e s')

theorem SameRun.trans {s₁ s₂ s₃ : Store} (h : SameRun s₁ s₂) (h' : SameRun s₂ s₃) :
    SameRun s₁ s₃ :=
  ⟨h'.truth.trans h.truth, h'.workOrder.trans h.workOrder⟩

section Entering

variable {K : Config} {runId : String} {wo : WorkOrder} {p : RunProjection} {lease : RunLease}

/-- An interrupted effect that needs no recovery leaves the store as it is. -/
theorem solo_recoverInterruptedEffect {history : List RunEvent} :
    (recoverInterruptedEffect K wo p lease history).solo allow fault (fun _ => True)
      (fun out s' => out = none → s' = s) (fun _ _ => True) s := by
  have some_ : ∀ {q : Runtime RunProjection}, (some <$> q).solo allow fault
      (fun _ => True) (fun out s' => out = none → s' = s) (fun _ _ => True) s :=
    solo_map_trivial (fun _ _ h => by cases h) fun _ _ => trivial
  have none_ : (Prog.pure none : Runtime (Option RunProjection)).solo allow fault
      (fun _ => True) (fun out s' => out = none → s' = s) (fun _ _ => True) s :=
    fun _ => rfl
  have dispatched : ∀ {step id : String} {code : Option String},
      (recoverDispatched K wo p lease step id code).solo allow fault (fun _ => True)
        (fun out s' => out = none → s' = s) (fun _ _ => True) s := by
    intro step id code
    unfold recoverDispatched
    split
    · refine Prog.solo_bind (Prog.solo_read ?_)
      split
      · exact none_
      · split
        · exact none_
        · exact some_
    · exact none_
  unfold recoverInterruptedEffect
  split
  · unfold recoverAcknowledged
    refine Prog.solo_bind (Prog.solo_read ?_)
    split
    · split
      · refine solo_still_bind (fun result => ?_) fun _ => trivial
        split
        · exact none_
        · exact some_
      · exact some_
    · exact some_
  · exact dispatched
  · exact dispatched
  · exact none_

theorem getLatestSnapshot_mem {c : RunTruth} {now : Instant} {x : ContextSnapshot}
    (h : c.getLatestSnapshot now = some x) : x ∈ c.snapshots := by
  have fold : ∀ (l : List ContextSnapshot) (init : Option ContextSnapshot),
      l.foldl ContextSnapshot.later init = some x → x ∈ l ∨ init = some x := by
    intro l
    induction l with
    | nil => exact fun init h => .inr h
    | cons y l ih =>
        intro init h
        rcases ih _ h with hm | hl
        · exact .inl (List.mem_cons_of_mem _ hm)
        · cases init with
          | none =>
              cases hl
              exact .inl List.mem_cons_self
          | some z =>
              simp only [ContextSnapshot.later] at hl
              split at hl <;> cases hl
              · exact .inl List.mem_cons_self
              · exact .inr rfl
  rcases fold _ _ h with hm | hn
  · exact (List.mem_filter.mp hm).1
  · cases hn

/-- The snapshot is the last event's, or its checkpoint waited for an approval or an input. -/
def UpToDate (x : ContextSnapshot) (p : RunProjection) : Prop :=
  x.sequence = p.lastSequence ∨ x.checkpoint.phase = .tool ∨ x.checkpoint.phase = .input

theorem safeApprovalSuffix_phase {sn : ContextSnapshot} {suffix : List RunEvent}
    (h : safeApprovalSuffix wo p sn sn.checkpoint suffix = true) : UpToDate sn p := by
  unfold safeApprovalSuffix at h
  split at h
  · split at h
    · simp only [decide_eq_true_eq] at h
      exact .inr (.inl h.1)
    · cases h
  · cases h

theorem safeInputSuffix_phase {sn : ContextSnapshot} {suffix : List RunEvent}
    (h : safeInputSuffix wo p sn sn.checkpoint suffix = true) : UpToDate sn p := by
  unfold safeInputSuffix at h
  split at h
  · split at h
    · simp only [decide_eq_true_eq] at h
      exact .inr (.inr h.1)
    · cases h
  · cases h

theorem solo_assertContextCheckpointSuffix {sn : ContextSnapshot} {E : Thrown → Store → Prop}
    (hE : ∀ e, E e s) :
    (assertContextCheckpointSuffix wo p sn sn.checkpoint).solo allow fault I
      (fun _ s' => s' = s ∧ UpToDate sn p) E s := by
  unfold assertContextCheckpointSuffix
  split
  · exact Prog.solo_pure ⟨rfl, .inl ‹_›⟩
  · refine Prog.solo_bind (Prog.solo_read (Prog.solo_throwIf (fun hsafe => ⟨rfl, ?_⟩) fun _ =>
      hE _))
    rcases not_and_or.mp hsafe with hs | hs
    · exact safeApprovalSuffix_phase (not_not.mp hs)
    · exact safeInputSuffix_phase (not_not.mp hs)

theorem solo_openContextSnapshot {sn : ContextSnapshot} {E : Thrown → Store → Prop}
    (hE : ∀ e, E e s) :
    (openContextSnapshot K wo p sn).solo allow fault I
      (fun k s' => s' = s ∧ k = sn.checkpoint ∧ UpToDate sn p) E s := by
  unfold openContextSnapshot
  refine solo_still_bind (fun _ => solo_still_bind (fun _ => ?_) hE) hE
  refine solo_still_bind (fun _ => solo_still_bind (fun _ => ?_) hE) hE
  refine Prog.solo_bind ((solo_assertContextCheckpointSuffix hE).mono (fun _ s₁ h₁ => ?_)
    fun _ _ => id)
  obtain ⟨rfl, hup⟩ := h₁
  exact solo_still_bind (fun _ => Prog.solo_pure ⟨rfl, rfl, hup⟩) hE

/-- A checkpoint that is loaded is that of an up-to-date snapshot. -/
theorem solo_startingCheckpoint {E : Thrown → Store → Prop} (hE : ∀ e, E e s) :
    (startingCheckpoint K wo p).solo allow fault I
      (fun out s' => s' = s ∧ (out = none ∨ ∃ x ∈ s.truth.snapshots,
        out = some x.checkpoint ∧ UpToDate x p)) E s := by
  unfold startingCheckpoint loadContextCheckpoint
  split
  · exact Prog.solo_pure ⟨rfl, .inl rfl⟩
  · split
    · refine solo_still_bind (fun now => Prog.solo_bind (Prog.solo_read ?_)) hE
      split
      · exact Prog.solo_pure ⟨rfl, .inl rfl⟩
      · rename_i sn hsn
        refine Prog.solo_bind ((solo_openContextSnapshot hE).mono (fun k s₁ h₁ => ?_)
          fun _ _ => id)
        obtain ⟨rfl, rfl, hup⟩ := h₁
        exact Prog.solo_pure ⟨rfl, .inr ⟨sn, getLatestSnapshot_mem hsn, rfl, hup⟩⟩
    · exact Prog.solo_pure ⟨rfl, .inl rfl⟩

/-- The loop starts with the counts of the stream and with a checkpoint it has loaded. -/
structure Enters (s : Store) (S : Session) (l : LoopState) : Prop where
  workOrder : S.workOrder = s.workOrder
  agent : s.workOrder.isCompensation = false
  history : S.history = s.truth.events
  turns : l.turns = countEvents s.truth.events .PlanningStarted
  modelCalls : l.modelCalls = countEvents s.truth.events .ModelCallStarted
  toolCalls : l.toolCalls = countEvents s.truth.events .ToolCallRequested
  byRegistration : l.toolCallsByRegistration = toolCallCount s.truth.events
  loaded : l.checkpoint = none ∨ ∃ x ∈ s.truth.snapshots,
    l.checkpoint = some x.checkpoint ∧ UpToDate x s.truth.projection

/-- Whatever `execute` ends with before its loop, it has not entered it. -/
theorem solo_ended {q : Runtime TurnOutcome} {P : Session → LoopState → Store → Prop} :
    (Started.ended <$> q).solo allow fault (fun _ => True)
      (fun out s' => ∀ S l, out = .entered S l → P S l s') (fun _ _ => True) s :=
  solo_map_trivial (fun _ _ _ _ h => by cases h) fun _ _ => trivial

theorem solo_resumeRun {claims : Claims} {definition : AgentDefinition}
    (hagent : s.workOrder.isCompensation = false) :
    (resumeRun K claims s.workOrder definition lease s.truth.projection
      s.truth.events).solo allow fault (fun _ => True)
      (fun out s' => ∀ S l, out = .entered S l → s' = s ∧ Enters s S l) (fun _ _ => True) s := by
  unfold resumeRun
  extract_lets rest
  have resumed : ∀ out s₁, (out = none → s₁ = s) → (rest out).solo allow fault
      (fun _ => True) (fun out s' => ∀ S l, out = .entered S l → s' = s ∧ Enters s S l)
      (fun _ _ => True) s₁ := by
    intro out s₁ h₁
    cases out with
    | some _ => exact Prog.solo_pure fun _ _ h => by cases h
    | none =>
        rw [h₁ rfl]
        refine Prog.solo_bind ((solo_startingCheckpoint fun _ => trivial).mono
          (fun k s₂ h₂ => ?_) fun _ _ => id)
        obtain ⟨rfl, hk⟩ := h₂
        split
        · exact solo_ended
        · refine Prog.solo_bind (solo_consult fun started _ => ?_)
          refine Prog.solo_pure fun S l h => ?_
          cases h
          exact ⟨rfl, rfl, hagent, rfl, rfl, rfl, rfl, rfl, hk⟩
  split
  · exact Prog.solo_bind (solo_recoverInterruptedEffect.mono resumed fun _ _ => id)
  · exact resumed none s fun _ => rfl

theorem solo_guardedStart {actor : String} {body : Runtime Started}
    {P : Session → LoopState → Store → Prop}
    (h : body.solo allow fault (fun _ => True)
      (fun out s' => ∀ S l, out = .entered S l → P S l s') (fun _ _ => True) s) :
    (guardedStart K wo lease actor body).solo allow fault (fun _ => True)
      (fun out s' => ∀ S l, out = .entered S l → P S l s') (fun _ _ => True) s := by
  have released : ∀ {q : Runtime Started} {s₁ : Store},
      (∀ s₂, q.solo allow fault (fun _ => True)
        (fun out s' => ∀ S l, out = .entered S l → P S l s') (fun _ _ => True) s₂) →
      ((release lease).bind fun _ => q).solo allow fault (fun _ => True)
        (fun out s' => ∀ S l, out = .entered S l → P S l s') (fun _ _ => True) s₁ := by
    intro q s₁ hq
    exact solo_calm_bind (fun _ _ => trivial) (fun _ s₂ _ => hq s₂) fun _ _ _ => trivial
  refine Prog.solo_bind (Prog.solo_attempt (Prog.solo_tryCatch (h.mono (fun out s₁ h₁ => ?_)
    fun e s₁ _ => solo_map_trivial (fun _ _ => ?_) fun _ _ => ?_)))
  · cases out with
    | entered S l => exact Prog.solo_pure h₁
    | ended outcome => exact released fun _ => Prog.solo_pure fun _ _ h => by cases h
  · exact released fun _ => Prog.solo_pure fun _ _ h => by cases h
  · exact released fun _ => Prog.solo_throw trivial

/-- **What `execute` enters its loop with.**  Nothing has been written by then, the counters are
those of the stream, and the checkpoint is one of its snapshots'. -/
theorem solo_execute : (execute K runId).solo allow fault (fun _ => True)
    (fun out s' => ∀ S l, out = .entered S l → s' = s ∧ Enters s S l)
    (fun _ _ => True) s := by
  unfold execute getRun
  refine solo_still_bind (fun claims => ?_) fun _ => trivial
  refine Prog.solo_bind (solo_still_bind (fun _ => ?_) fun _ => trivial)
  refine Prog.solo_bind (Prog.solo_read ?_)
  refine solo_still_bind (fun _ => Prog.solo_pure ?_) fun _ => trivial
  split
  · exact Prog.solo_pure fun _ _ h => by cases h
  · refine Prog.solo_bind (Prog.solo_read ?_)
    split
    · exact solo_ended
    · rename_i hagent
      unfold executeAgent
      refine solo_still_bind (fun definition => ?_) fun _ => trivial
      cases definition with
      | none => exact Prog.solo_throw trivial
      | some definition =>
          refine solo_still_bind (fun lease => ?_) fun _ => trivial
          refine solo_guardedStart (Prog.solo_bind (Prog.solo_read ?_))
          split
          · exact Prog.solo_pure fun _ _ h => by cases h
          · exact solo_resumeRun (by simpa using hagent)

end Entering

/-- A concrete stream is coherent. -/
theorem Stream.of_map {wo : WorkOrder} {events : List RunEvent} {p : RunProjection}
    (length : p.lastSequence = events.length)
    (sequence : events.map (·.sequence) = (List.range events.length).map (· + 1))
    (lastId : p.lastEventId = events.getLast?.map (·.eventId))
    (distinct : events.Pairwise (·.eventId ≠ ·.eventId))
    (bindings : p.tenantId = wo.tenantId ∧ p.workOrderId = wo.id ∧
      p.workOrderBindingDigest = wo.workOrderBindingDigest ∧
      p.executionDefinition = wo.executionDefinition ∧
      p.executionDefinitionDigest = wo.executionDefinitionDigest)
    (bound : ∀ e ∈ events,
      e.runId = p.runId ∧ e.executionDefinitionDigest = wo.executionDefinitionDigest) :
    Stream wo events p where
  length := length
  sequence {i e} he := by
    have hi := congrArg (·[i]?) sequence
    obtain ⟨hlt, rfl⟩ := List.getElem?_eq_some_iff.mp he
    simpa [hlt] using hi
  lastId := lastId
  distinct := distinct
  tenant := bindings.1
  workOrder := bindings.2.1
  binding := bindings.2.2.1
  definition := bindings.2.2.2.1
  definitionDigest := bindings.2.2.2.2
  bound := bound

end Pactmark
