import Pactmark.Agent.Commands

/-!
# Agent — the budgets of a run

The stream of a run never has more turns, model calls or tool calls than its work order permits,
over any number of executions, crashes and commands (`served_within_budget`).

The counters of a loop are at least the counts of the stream (`Counts`).  A checkpoint that
leads to a budgeted event by what it says has to say enough for it: an attempt above the calls
that were made, or a tool call that is still permitted (`Affords`).  A snapshot says this of the
stream it was written on (`Permits`), and a run is resumed from an up-to-date one.

A production call is the exception.  Resumed while its reservation is still accepted, it starts
again without being counted again; `Startable` leaves such executions out.
-/

namespace Pactmark

open Durable

/-! ### Counting events -/

section Counting

variable {events es : List RunEvent} {t : RunEventType} {d : Digest} {e : RunEvent}

theorem countEvents_append :
    countEvents (events ++ es) t = countEvents events t + countEvents es t := by
  simp [countEvents]

theorem toolCallCount_append :
    toolCallCount (events ++ es) d = toolCallCount events d + toolCallCount es d := by
  simp [toolCallCount]

theorem countEvents_take_le (n : Nat) :
    countEvents (events.take n) t ≤ countEvents events t :=
  (List.Sublist.filter _ (List.take_sublist n events)).length_le

theorem toolCallCount_take_le (n : Nat) :
    toolCallCount (events.take n) d ≤ toolCallCount events d :=
  (List.Sublist.filter _ (List.take_sublist n events)).length_le

/-- The event types that count against a budget. -/
def RunEventType.budgeted (t : RunEventType) : Prop :=
  t = .PlanningStarted ∨ t = .ModelCallStarted ∨ t = .ToolCallRequested

theorem budgeted_of_eventType {payload : EventPayload} (ht : payload.eventType.budgeted) :
    payload.budgeted = true := by
  rcases ht with ht | ht | ht <;> cases payload <;> first | rfl | cases ht

theorem countEvents_unbudgeted (h : ∀ e ∈ es, e.payload.budgeted = false) (ht : t.budgeted) :
    countEvents es t = 0 := by
  simp only [countEvents, List.length_eq_zero_iff, List.filter_eq_nil_iff, decide_eq_true_eq]
  rintro e he rfl
  have hp := h e he
  rw [budgeted_of_eventType ht] at hp
  cases hp

theorem toolCallCount_unbudgeted (h : ∀ e ∈ es, e.payload.budgeted = false) :
    toolCallCount es d = 0 := by
  simp only [toolCallCount, List.length_eq_zero_iff, List.filter_eq_nil_iff]
  intro e he
  have := h e he
  split
  · rename_i hp
    rw [hp] at this
    cases this
  · simp

end Counting

/-! ### What a stream may still hold -/

/-- The registrations a host resolves tools to: it always gives the same one, under the digest
it has itself. -/
structure Registry (allow : (q : Query) → Answer q → Prop)
    (tools : Digest → Option ToolRegistration) : Prop where
  resolves : ∀ d (a : Option ToolRegistration), allow (.resolveTool d) a → a = tools d
  keyed : ∀ d r, tools d = some r → r.toolRegistrationDigest = d

section Permits

variable (K : Config) (tools : Digest → Option ToolRegistration) (wo : WorkOrder)

/-- **The budgets of a run.** -/
structure WithinBudget (events : List RunEvent) : Prop where
  turns : countEvents events .PlanningStarted ≤ wo.budget.maxTurns
  modelCalls : countEvents events .ModelCallStarted ≤ wo.budget.maxModelCalls
  toolCalls : countEvents events .ToolCallRequested ≤ wo.budget.maxToolCalls
  perTool : ∀ d r, tools d = some r → toolCallCount events d ≤ r.maxCallsPerRun

/-- Another call of the tool is within the budgets. -/
structure PermitsTool (events : List RunEvent) (d : Digest) : Prop where
  toolCalls : countEvents events .ToolCallRequested < wo.budget.maxToolCalls
  perTool : ∀ r, tools d = some r → toolCallCount events d < r.maxCallsPerRun

/-- What a checkpoint leads to is permitted on the stream it was written on. -/
def Permits (events : List RunEvent) (k : Checkpoint) : Prop :=
  match k.phase with
  | .model => ∀ a, k.attempt = some a → countEvents events .ModelCallStarted ≤ a ∧
      (K.productionModelServices = false → countEvents events .ModelCallStarted < a)
  | .model_inflight => ∃ a, k.attempt = some a ∧ countEvents events .ModelCallStarted ≤ a
  | .tool_request => ∀ d input, k.emission = some (.tool_call d input) →
      PermitsTool tools wo events d
  | .scheduled_backoff => k.resumePhase = some .model → ∀ n, k.nextAttempt = some n →
      countEvents events .ModelCallStarted < n
  | .turn => k.attempt = none
  | _ => True

end Permits

variable {K : Config} {tools : Digest → Option ToolRegistration} {wo : WorkOrder}
  {allow : (q : Query) → Answer q → Prop} {fault : Thrown → Prop} {s s' : Store}

theorem permits_of_uncounted {events : List RunEvent} {k : Checkpoint}
    (h : k.counted = false) : Permits K tools wo events k := by
  unfold Permits
  split <;> simp_all [Checkpoint.counted]
  · split at h <;> simp_all
  · split at h <;> simp_all [Option.eq_none_iff_forall_ne_some]

/-- A checkpoint that permits something on a stream permits it on what came before. -/
theorem Permits.take {events : List RunEvent} {k : Checkpoint}
    (h : Permits K tools wo events k) (n : Nat) : Permits K tools wo (events.take n) k := by
  have hmodel : countEvents (events.take n) .ModelCallStarted ≤
      countEvents events .ModelCallStarted := countEvents_take_le n
  have htool : countEvents (events.take n) .ToolCallRequested ≤
      countEvents events .ToolCallRequested := countEvents_take_le n
  unfold Permits at h ⊢
  split at h
  · exact fun a ha => ⟨Nat.le_trans hmodel (h a ha).1, fun hK =>
      Nat.lt_of_le_of_lt hmodel ((h a ha).2 hK)⟩
  · obtain ⟨a, ha, hle⟩ := h
    exact ⟨a, ha, Nat.le_trans hmodel hle⟩
  · exact fun d input he => ⟨Nat.lt_of_le_of_lt htool (h d input he).toolCalls, fun r hr =>
      Nat.lt_of_le_of_lt (toolCallCount_take_le n) ((h d input he).perTool r hr)⟩
  · exact fun hp m hm => Nat.lt_of_le_of_lt hmodel (h hp m hm)
  · exact h
  · trivial

/-! ### The invariant of the store -/

/-- The stream is within the budgets, and every snapshot permits what it leads to. -/
structure Kept (K : Config) (tools : Digest → Option ToolRegistration) (wo : WorkOrder)
    (s : Store) : Prop where
  workOrder : s.workOrder = wo
  agent : wo.isCompensation = false
  stream : Stream s.workOrder s.truth.events s.truth.projection
  budget : WithinBudget tools wo s.truth.events
  saved : ∀ x ∈ s.truth.snapshots, x.sequence ≤ s.truth.events.length ∧
    Permits K tools wo (s.truth.events.take x.sequence) x.checkpoint

/-- No budgeted event has been added. -/
structure NoMore (s s' : Store) : Prop where
  count : ∀ {t : RunEventType}, t.budgeted →
    countEvents s'.truth.events t ≤ countEvents s.truth.events t
  perTool : ∀ d, toolCallCount s'.truth.events d ≤ toolCallCount s.truth.events d

theorem NoMore.refl (s : Store) : NoMore s s := ⟨fun _ => Nat.le_refl _, fun _ => Nat.le_refl _⟩

theorem NoMore.trans {s₁ s₂ s₃ : Store} (h : NoMore s₁ s₂) (h' : NoMore s₂ s₃) : NoMore s₁ s₃ :=
  ⟨fun ht => Nat.le_trans (h'.count ht) (h.count ht),
    fun d => Nat.le_trans (h'.perTool d) (h.perTool d)⟩

theorem NoMore.turns (h : NoMore s s') :
    countEvents s'.truth.events .PlanningStarted ≤ countEvents s.truth.events .PlanningStarted :=
  h.count (.inl rfl)

theorem NoMore.modelCalls (h : NoMore s s') :
    countEvents s'.truth.events .ModelCallStarted ≤
      countEvents s.truth.events .ModelCallStarted :=
  h.count (.inr (.inl rfl))

theorem NoMore.toolCalls (h : NoMore s s') :
    countEvents s'.truth.events .ToolCallRequested ≤
      countEvents s.truth.events .ToolCallRequested :=
  h.count (.inr (.inr rfl))

theorem Grew.noMore (h : Grew s s') : NoMore s s' := by
  obtain ⟨es, hes, hun⟩ := h.events
  constructor
  · intro t ht
    rw [hes, countEvents_append, countEvents_unbudgeted hun ht]
    omega
  · intro d
    rw [hes, toolCallCount_append, toolCallCount_unbudgeted hun]
    omega

theorem WithinBudget.noMore (h : WithinBudget tools wo s.truth.events) (hs : NoMore s s') :
    WithinBudget tools wo s'.truth.events where
  turns := Nat.le_trans hs.turns h.turns
  modelCalls := Nat.le_trans hs.modelCalls h.modelCalls
  toolCalls := Nat.le_trans hs.toolCalls h.toolCalls
  perTool d r hr := Nat.le_trans (hs.perTool d) (h.perTool d r hr)

theorem Kept.grew (h : Kept K tools wo s) (hs : Grew s s') : Kept K tools wo s' where
  workOrder := hs.workOrder.trans h.workOrder
  agent := h.agent
  stream := hs.stream h.stream
  budget := h.budget.noMore hs.noMore
  saved x hx := by
    obtain ⟨es, hes, -⟩ := hs.events
    rcases hs.snapshots x hx with hx | ⟨hc, e, he, hseq⟩
    · obtain ⟨hle, hp⟩ := h.saved x hx
      rw [hes, List.take_append_of_le_length hle, List.length_append]
      exact ⟨by omega, hp⟩
    · exact ⟨hseq ▸ (hs.stream h.stream).sequence_le he, permits_of_uncounted hc⟩

section Adds

variable {payload : EventPayload} {k : Option Checkpoint}

/-- The calls of a tool an event counts for. -/
def EventPayload.callsOf (d : Digest) : EventPayload → Nat
  | .ToolCallRequested _ _ d' _ => if d' = d then 1 else 0
  | _ => 0

theorem Adds.count_le (h : Adds payload k s s') (t : RunEventType) :
    countEvents s'.truth.events t ≤
      countEvents s.truth.events t + if payload.eventType = t then 1 else 0 := by
  rcases h.events with heq | ⟨e, rfl, -, heq⟩
  · rw [heq]
    omega
  · rw [heq, countEvents_append]
    by_cases ht : e.payload.eventType = t <;> simp [countEvents, RunEvent.eventType, ht]

theorem Adds.toolCallCount_le (h : Adds payload k s s') (d : Digest) :
    toolCallCount s'.truth.events d ≤ toolCallCount s.truth.events d + payload.callsOf d := by
  rcases h.events with heq | ⟨e, rfl, -, heq⟩
  · rw [heq]
    omega
  · rw [heq, toolCallCount_append]
    cases he : e.payload <;> simp [toolCallCount, EventPayload.callsOf, he]
    split <;> simp_all

theorem Adds.noMore (h : Adds payload k s s') (hp : payload.budgeted = false) : NoMore s s' := by
  have huncounted : ∀ {t : RunEventType}, t.budgeted → payload.eventType ≠ t := by
    rintro t ht rfl
    rw [budgeted_of_eventType ht] at hp
    cases hp
  constructor
  · intro t ht
    have := h.count_le t
    rwa [if_neg (huncounted ht)] at this
  · intro d
    have := h.toolCallCount_le d
    cases payload <;> first | exact this | cases hp

/-- A counted checkpoint is saved when what it leads to is permitted on the stream with the
event it comes with. -/
theorem Kept.adds (h : Kept K tools wo s) (hs : Adds payload k s s')
    (hb : WithinBudget tools wo s'.truth.events)
    (hk : ∀ k', k = some k' → Permits K tools wo s'.truth.events k') : Kept K tools wo s' where
  workOrder := hs.workOrder.trans h.workOrder
  agent := h.agent
  stream := hs.stream h.stream
  budget := hb
  saved x hx := by
    have hold : x ∈ s.truth.snapshots → x.sequence ≤ s'.truth.events.length ∧
        Permits K tools wo (s'.truth.events.take x.sequence) x.checkpoint := by
      intro hx
      obtain ⟨hle, hp⟩ := h.saved x hx
      rcases hs.events with heq | ⟨e, -, -, heq⟩ <;> rw [heq]
      · exact ⟨hle, hp⟩
      · rw [List.take_append_of_le_length hle, List.length_append]
        exact ⟨by omega, hp⟩
    rcases hs.snapshots with heq | ⟨y, hy, ⟨e, he, -, hseq⟩, heq⟩
    · exact hold (heq ▸ hx)
    · rw [heq] at hx
      rcases List.mem_append.mp hx with hx | hx
      · exact hold hx
      · rw [List.mem_singleton.mp hx]
        exact ⟨hseq ▸ (hs.stream h.stream).sequence_le he, (hk _ hy).take _⟩

end Adds

/-! ### The loop -/

/-- The reservation of a call has left its first status. -/
def Store.Spent (s : Store) (stepId : String) (attempt : Nat) : Prop :=
  ∃ r, s.modelCall stepId attempt = some r ∧ r.status ≠ .accepted

/-- The checkpoint is that of a model call the stream has already: one that was interrupted, or
one whose attempt is not above the calls that were made. -/
def Checkpoint.Recalls (k : Checkpoint) (events : List RunEvent) (stepId : String)
    (attempt : Nat) : Prop :=
  k.stepId = some stepId ∧ k.attempt = some attempt ∧
    (k.phase = .model_inflight ∨
      k.phase = .model ∧ attempt ≤ countEvents events .ModelCallStarted)

/-- What the checkpoint of the loop leads to is permitted on the stream as it is, and a
production call it recalls is kept from starting again by its reservation. -/
def Affords (K : Config) (tools : Digest → Option ToolRegistration) (wo : WorkOrder) (s : Store)
    (k : Checkpoint) : Prop :=
  Permits K tools wo s.truth.events k ∧
    (K.productionModelServices = true → ∀ step a, k.Recalls s.truth.events step a →
      s.Spent step a)

/-- The counters of the loop are at least the counts of the stream. -/
structure Counts (s : Store) (l : LoopState) : Prop where
  turns : countEvents s.truth.events .PlanningStarted ≤ l.turns
  modelCalls : countEvents s.truth.events .ModelCallStarted ≤ l.modelCalls
  toolCalls : countEvents s.truth.events .ToolCallRequested ≤ l.toolCalls
  byRegistration : ∀ d, toolCallCount s.truth.events d ≤ l.toolCallsByRegistration d

theorem Counts.noMore {l : LoopState} (h : Counts s l) (hs : NoMore s s') : Counts s' l where
  turns := Nat.le_trans hs.turns h.turns
  modelCalls := Nat.le_trans hs.modelCalls h.modelCalls
  toolCalls := Nat.le_trans hs.toolCalls h.toolCalls
  byRegistration d := Nat.le_trans (hs.perTool d) (h.byRegistration d)

theorem Continued.counts {l l' : LoopState} (h : Continued l l') (hs : Counts s l) :
    Counts s l' where
  turns := h.turns ▸ hs.turns
  modelCalls := h.modelCalls ▸ hs.modelCalls
  toolCalls := h.toolCalls ▸ hs.toolCalls
  byRegistration d := h.byRegistration ▸ hs.byRegistration d

theorem affords_of_uncounted {k : Checkpoint} (h : k.counted = false) :
    Affords K tools wo s k := by
  refine ⟨permits_of_uncounted h, fun _ step a hk => ?_⟩
  unfold Checkpoint.counted at h
  rcases hk.2.2 with hp | ⟨hp, -⟩ <;> simp [hp] at h

/-- The loop may go on from here. -/
structure InLoop (K : Config) (tools : Digest → Option ToolRegistration) (wo : WorkOrder)
    (s : Store) (l : LoopState) : Prop where
  counts : Counts s l
  affords : ∀ k, l.checkpoint = some k → Affords K tools wo s k

theorem Continued.inLoop {l l' : LoopState} (h : Continued l l') (hs : Counts s l) :
    InLoop K tools wo s l' where
  counts := h.counts hs
  affords k hk := by
    have hun := h.uncounted
    rw [hk] at hun
    exact affords_of_uncounted hun

/-- What a pass of the loop comes to. -/
def Passes (K : Config) (tools : Digest → Option ToolRegistration) (wo : WorkOrder)
    (out : TurnOutcome) (s : Store) : Prop :=
  Kept K tools wo s ∧ ∀ l, out = .next l → InLoop K tools wo s l

/-- A program that leaves the budgets alone, from a store that keeps them. -/
theorem solo_within {α : Type} (p : Runtime α) [hp : Within p] (h : Kept K tools wo s) :
    p.solo allow fault (Kept K tools wo) (fun _ => Grew s) (fun _ => Grew s) s :=
  (hp.solo s).weaken (fun _ _ _ => trivial) (fun _ _ => trivial) fun _ => h.grew

theorem solo_within_bind {α β : Type} {p : Runtime α} {f : α → Runtime β}
    {P : β → Store → Prop} {E : Thrown → Store → Prop} [Within p] (h : Kept K tools wo s)
    (hf : ∀ a s', Grew s s' → (f a).solo allow fault (Kept K tools wo) P E s')
    (hE : ∀ e s', Grew s s' → E e s') :
    (p.bind f).solo allow fault (Kept K tools wo) P E s :=
  Prog.solo_bind ((solo_within p h).mono hf hE)

/-- An unbudgeted event with a checkpoint that permits what it leads to. -/
theorem solo_append_permits {w : WorkOrder} {p : RunProjection} {lease : RunLease}
    {payload : EventPayload} {given : Option String} {commit : Tx} {k : Option Checkpoint}
    (hp : payload.budgeted = false) (hb : commit.Beside) (h : Kept K tools wo s)
    (hk : ∀ k', k = some k' → ∀ s', NoMore s s' → Permits K tools wo s'.truth.events k') :
    (append K w p lease payload given commit k).solo allow fault (Kept K tools wo)
      (fun _ s' => Kept K tools wo s' ∧ NoMore s s') (fun _ s' => s' = s) s := by
  refine solo_append hb (fun _ s' _ _ _ hadds _ => ?_) fun _ => rfl
  have hmore := hadds.noMore hp
  have hkept := h.adds hadds (h.budget.noMore hmore) fun k' hk' => hk k' hk' s' hmore
  exact ⟨hkept, hkept, hmore⟩

/-- A part of a pass that leaves the budgets alone and goes on with the counters it was given. -/
theorem solo_hands {l : LoopState} (p : Runtime TurnOutcome) [Within p] [hp : Hands l p]
    (h : Kept K tools wo s) (hl : Counts s l) :
    p.solo allow fault (Kept K tools wo) (Passes K tools wo) (fun _ => Kept K tools wo) s :=
  ((solo_within p h).returns hp.returns).mono
    (fun _ _ ⟨hs, hnext⟩ => ⟨h.grew hs, fun l' hl' =>
      (hnext l' hl').inLoop (hl.noMore hs.noMore)⟩)
    fun _ _ => h.grew

end Pactmark
