import Pactmark.Protocol.Holding

/-!
# Protocol — the rule of `#append`

`append` is the only program of `execute` that changes the truth of the run.  It builds an event
on the projection the thread carries and commits it with what is written beside it and with the
snapshot of a checkpoint, all or nothing.  `appendTransaction_ok` says what the transaction
does, and `wp_append` what the program does: from `Holding wo p Φ` it ends at the next
projection, or it throws and the thread knows what it knew before.

The corollaries are for the kinds of events that need the same facts: `wp_append_plain`,
`wp_append_over` and `wp_append_suspend`.
-/

namespace Pactmark

open Durable

/-- The transaction leaves the stream, its projection and the snapshots alone. -/
def Tx.Beside (f : Tx) : Prop :=
  ∀ {s s' : Store}, f.run s = .ok s' → s'.truth.events = s.truth.events ∧
    s'.truth.projection = s.truth.projection ∧ s'.truth.snapshots = s.truth.snapshots

theorem Tx.Aside.beside {f : Tx} (h : f.Aside) : f.Beside := by
  intro s s' hs
  rw [h hs]
  exact ⟨rfl, rfl, rfl⟩

theorem Tx.Beside.andThen {f g : Tx} (hf : f.Beside) (hg : g.Beside) :
    Tx.Beside (Transaction.andThen f g) := by
  intro s s' h
  obtain ⟨s₁, h₁, h₂⟩ := Transaction.andThen_ok.mp h
  obtain ⟨e₁, p₁, n₁⟩ := hf h₁
  obtain ⟨e₂, p₂, n₂⟩ := hg h₂
  exact ⟨e₂.trans e₁, p₂.trans p₁, n₂.trans n₁⟩

theorem putEffectRecord_beside (E : Encoding) (r : EffectRecord) :
    (putEffectRecord E r).Beside := by
  intro s s' h
  rcases (putEffectRecord_ok h).2 with ⟨-, rfl⟩ | ⟨ht, -⟩
  · exact ⟨rfl, rfl, rfl⟩
  · rw [ht]
    exact ⟨rfl, rfl, rfl⟩

theorem putDecisionGate_beside (gate : DecisionGate) : (putDecisionGate gate).Beside := by
  intro s s' h
  rw [(putDecisionGate_ok h).2]
  exact ⟨rfl, rfl, rfl⟩

theorem putProtectedEffectResult_beside (r : ProtectedEffectResult) :
    (putProtectedEffectResult r).Beside := by
  intro s s' h
  obtain ⟨results, digests, ht⟩ := putProtectedEffectResult_ok h
  rw [ht]
  exact ⟨rfl, rfl, rfl⟩

theorem putAuthorizationReservation_beside (r : AuthorizationReservation) :
    (putAuthorizationReservation r).Beside := by
  intro s s' h
  obtain ⟨authorizations, keys, ht⟩ := putAuthorizationReservation_ok h
  rw [ht]
  exact ⟨rfl, rfl, rfl⟩

/-! ### The event and its snapshot -/

/-- The event `#event` builds on `p`. -/
structure Builds (K : Config) (wo : WorkOrder) (p : RunProjection) (payload : EventPayload)
    (id : Option String) (e : RunEvent) : Prop where
  eventId : e.eventId = id.getD (K.eventId wo.tenantId p.runId (p.lastSequence + 1)
    payload.eventType)
  payload : e.payload = payload
  runId : e.runId = p.runId
  sequence : e.sequence = p.lastSequence + 1
  tenantId : e.tenantId = wo.tenantId
  definition : e.executionDefinition = wo.executionDefinition
  definitionDigest : e.executionDefinitionDigest = wo.executionDefinitionDigest

/-- `next` is `p` with an event of the payload folded into it. -/
def Appended (K : Config) (wo : WorkOrder) (p : RunProjection) (payload : EventPayload)
    (next : RunProjection) : Prop :=
  ∃ e id, Builds K wo p payload id e ∧ Foldable p e ∧ next = p.fold e

section Appended

variable {K : Config} {wo : WorkOrder} {p next : RunProjection} {payload : EventPayload}

theorem Appended.status (h : Appended K wo p payload next) :
    next.status = (nextStatusFor payload).getD p.status := by
  obtain ⟨e, id, hbuild, -, rfl⟩ := h
  rw [fold_status, hbuild.payload]

theorem Appended.currentStepId (h : Appended K wo p payload next) :
    next.currentStepId = payload.currentStep.or p.currentStepId := by
  obtain ⟨e, id, hbuild, -, rfl⟩ := h
  rw [fold_currentStepId, hbuild.payload]

theorem Appended.runId (h : Appended K wo p payload next) : next.runId = p.runId := by
  obtain ⟨e, id, hbuild, -, rfl⟩ := h
  exact fold_runId _ _

/-- The status the event was appended in admitted it. -/
theorem Appended.admitted (h : Appended K wo p payload next) : StatusAllowed p.status payload := by
  obtain ⟨e, id, hbuild, hfold, rfl⟩ := h
  exact hbuild.payload ▸ hfold.status

end Appended

/-- The status of the run, and the step it is in. -/
structure Stands (p : RunProjection) (status : RunStatus) (step : String) : Prop where
  status : p.status = status
  step : p.currentStepId = some step

/-- An event that sets neither leaves the status and the step. -/
theorem Stands.fold {p : RunProjection} {status : RunStatus} {step : String} {e : RunEvent}
    {payload : EventPayload} (h : Stands p status step) (hp : e.payload = payload)
    (hs : nextStatusFor payload = none) (hc : payload.currentStep = none) :
    Stands (p.fold e) status step :=
  ⟨by rw [fold_status, hp, hs]; exact h.status,
    by rw [fold_currentStepId, hp, hc]; exact h.step⟩

section Programs

variable {K : Config} {H : Prop} {env : Env} {t : Nat} {w : RunWorld} {wo : WorkOrder}
  {R : RunWorld → Prop}

theorem wp_event (hR : Stable R) {p : RunProjection} {payload : EventPayload}
    {id : Option String} {E : Thrown → RunWorld → Prop} (h : R w) :
    (event K wo p.runId (p.lastSequence + 1) payload id).wp (executorContract K H env) t
      (fun e v => R v ∧ Builds K wo p payload id e) E w := by
  intro v ho hi a _
  have hs := CalmStep.answered (q := .now) rfl a t v
  refine ⟨.calm hs, fun u hu _ => ⟨hR (hR (hR h ho) hs.outside) hu, ?_⟩⟩
  exact ⟨rfl, rfl, rfl, rfl, rfl, rfl, rfl⟩

theorem wp_createContextSnapshot (hR : Stable R) {e : RunEvent} {k : Checkpoint} (h : R w) :
    (createContextSnapshot K wo e k).wp (executorContract K H env) t
      (fun sn v => R v ∧ Saves K wo e (some k) sn) (fun _ => R) w := by
  unfold createContextSnapshot
  split
  · rename_i hK
    split
    · exact wp_throw hR h fun _ => id
    · rename_i step hstep
      refine wp_calm_bind hR h (fun _ v _ hv => wp_calm_bind hR hv (fun aad u _ hu => ?_)
        fun _ _ => id) fun _ _ => id
      refine Prog.wp_bind (Prog.wp_throwIf (fun hok x hx _ => ?_) fun _ x hx _ => hR hu hx)
      refine wp_pure hR (hR hu hx) fun y hy => ⟨hy, ?_⟩
      simp only [Saves, hK, if_true]
      refine ⟨step, hstep, ?_⟩
      rw [not_not.mp hok]
      rfl
  · rename_i hK
    refine wp_pure hR h fun v hv => ⟨hv, ?_⟩
    simp [Saves, hK]

theorem wp_snapshotOf (hR : Stable R) {e : RunEvent} {k : Option Checkpoint} (h : R w) :
    (snapshotOf K wo e k).wp (executorContract K H env) t
      (fun sn v => R v ∧ Saves K wo e k sn) (fun _ => R) w := by
  cases k with
  | none => exact wp_pure hR h fun v hv => ⟨hv, rfl⟩
  | some k => exact wp_createContextSnapshot hR h

end Programs

/-! ### The transaction -/

section Transaction

variable {K : Config} {wo : WorkOrder} {s s' : Store} {commit : Tx} {e : RunEvent}
  {next : RunProjection} {k : Option Checkpoint} {sn : Option ContextSnapshot}

/-- The snapshot of a new event is new. -/
theorem putSnapshot_ok (hs : Snapshots K wo s.truth.events s.truth.snapshots)
    (fresh : ∀ e' ∈ s.truth.events, e'.eventId ≠ e.eventId) (saves : Saves K wo e k sn)
    (h : (putSnapshot sn).run s = .ok s') :
    s'.truth = { s.truth with snapshots := s.truth.snapshots ++ sn.toList } := by
  cases sn with
  | none =>
      cases h
      simp
  | some sn =>
      rcases putContextSnapshot_ok h with ⟨x, hx, hid⟩ | ht
      · exfalso
        cases k with
        | none => cases saves
        | some k =>
            simp only [Saves] at saves
            split at saves
            · obtain ⟨step, -, heq⟩ := saves
              cases heq
              obtain ⟨e', he', step', -, hx'⟩ := hs.saved x hx
              rw [hx'] at hid
              have hid' : "context-" ++ e'.eventId = "context-" ++ e.eventId := hid
              exact fresh e' he' (by simpa using hid')
            · cases saves
      · simpa using ht

/-- **What the transaction of `#append` does.**  The event is in the stream already, or it is
appended to it, with what is written beside it. -/
theorem appendTransaction_ok (hg : Grounded K wo s.truth) (hb : commit.Beside)
    (saves : Saves K wo e k sn)
    (h : (appendTransaction commit sn e next).run s = .ok s') :
    (e ∈ s.truth.events ∧ (commit = .skip → sn = none → s' = s)) ∨
      ∃ s₁, commit.run s = .ok s₁ ∧ Next s.truth.events s.truth.projection e ∧
        s'.truth = s₁.truth.add e sn ∧ next = s.truth.projection.fold e := by
  simp only [appendTransaction, Transaction.sequence_cons, Transaction.sequence_nil] at h
  obtain ⟨s₁, h₁, h⟩ := Transaction.andThen_ok.mp h
  obtain ⟨s₂, h₂, h⟩ := Transaction.andThen_ok.mp h
  obtain ⟨s₃, h₃, h⟩ := Transaction.andThen_ok.mp h
  obtain ⟨s₄, h₄, h₅⟩ := Transaction.andThen_ok.mp h
  cases h₅
  obtain ⟨he, hp, hn⟩ := hb h₁
  have he₂ : s₂.truth.events = s.truth.events ∧ s₂.truth.projection = s.truth.projection := by
    cases sn with
    | none => cases h₂; exact ⟨he, hp⟩
    | some sn =>
        simp only [putSnapshot, putContextSnapshot, Transaction.choose_run] at h₂
        split at h₂
        · split at h₂ <;> cases h₂
          exact ⟨he, hp⟩
        · cases h₂
          exact ⟨he, hp⟩
  obtain ⟨hp₃, rfl⟩ := putRunProjection_ok.mp h₄
  rcases appendRunEvent_ok h₃ with ⟨hm, rfl⟩ | ⟨fresh, -, hf, rfl⟩
  · refine .inl ⟨he₂.1 ▸ hm, ?_⟩
    rintro rfl rfl
    cases h₁
    cases h₂
    rfl
  · rw [he₂.1] at fresh
    rw [he₂.2] at hf
    refine .inr ⟨s₁, h₁, ⟨hf, fresh⟩, ?_, ?_⟩
    · have h₂' := putSnapshot_ok (s := s₁) (by rw [he, hn]; exact hg.snapshots)
        (by rw [he]; exact fresh) saves h₂
      show s₂.truth.push e (s₂.truth.projection.fold e) = _
      rw [h₂']
      rfl
    · rw [← hp₃]
      show _ = _
      simp only [RunTruth.push, he₂.2]

end Transaction

/-! ### The program -/

section Append

variable {K : Config} {H : Prop} {env : Env} {t : Nat} {w : RunWorld} {wo : WorkOrder}
  {p : RunProjection} {Φ Ψ : RunTruth → Prop} {lease : RunLease} {payload : EventPayload}
  {given : Option String} {commit : Tx} {k : Option Checkpoint}

/-- An event on a projection a command has got ahead of is not in the stream. -/
theorem Stale.not_mem {e : RunEvent} {v : RunWorld} (hi : Sound K H v) (hs : Stale p v)
    (he : e.sequence = p.lastSequence + 1) (hb : e.payload.byCommand = false) :
    e ∉ v.state.truth.events := by
  intro hm
  obtain ⟨i, hlt, hget⟩ := List.mem_iff_getElem.mp hm
  have hget' : v.state.truth.events[i]? = some e := by
    rw [List.getElem?_eq_getElem hlt, hget]
  have hi' : i = p.lastSequence := by
    have := hi.coherent.stream.sequence hget'
    omega
  obtain ⟨x, hx, hxb⟩ := hs.event
  rw [← hi', hget'] at hx
  cases hx
  rw [hb] at hxb
  cases hxb

theorem Current.not_mem {e : RunEvent} {c : RunTruth} (hc : Current p Φ c)
    (hst : Stream wo c.events c.projection) (he : e.sequence = p.lastSequence + 1) :
    e ∉ c.events := by
  intro hm
  have := hst.sequence_le hm
  have := hc.length
  omega

/-- A stale thread appends nothing. -/
theorem Stale.not_next {e : RunEvent} {v : RunWorld} (hi : Sound K H v) (hs : Stale p v)
    (he : e.sequence = p.lastSequence + 1)
    (hn : Next v.state.truth.events v.state.truth.projection e) : False := by
  obtain ⟨x, hx, -⟩ := hs.event
  have hlt := (List.getElem?_eq_some_iff.mp hx).1
  have h₁ := hn.foldable.sequence
  have h₂ := hi.coherent.stream.length
  omega

/-- What is shown of an append: that its commit is one of the protocol, and what is known after
it. -/
def Commits (K : Config) (H : Prop) (wo : WorkOrder) (p : RunProjection) (Φ : RunTruth → Prop)
    (G : RunWorld → Prop) (payload : EventPayload) (given : Option String) (commit : Tx)
    (k : Option Checkpoint) (Ψ : RunTruth → Prop) (J : RunWorld → Prop) : Prop :=
  ∀ {v : RunWorld} {s₁ : Store} {e : RunEvent} {sn : Option ContextSnapshot}, Sound K H v →
    v.state.truth.projection = p → Φ v.state.truth → G v → commit.run v.state = .ok s₁ →
    Builds K wo p payload given e → Next v.state.truth.events p e → Saves K wo e k sn →
    On wo v →
      ExecutorCommit K H wo v.state.truth (s₁.truth.add e sn) ∧ Ψ (s₁.truth.add e sn) ∧
        ∀ {u : RunWorld}, u.state.truth = s₁.truth.add e sn → u.calls = v.calls → J u

/-- Everything of `#append` but its transaction is calm. -/
theorem wp_append_transaction {R : RunWorld → Prop} {P : RunProjection → RunWorld → Prop}
    (hR : Stable R) (h : R w)
    (ok : ∀ {v : RunWorld} {s : Store} {e : RunEvent} {sn : Option ContextSnapshot},
      Sound K H v → R v → Builds K wo p payload given e → Foldable p e → Saves K wo e k sn →
      (appendTransaction commit sn e (p.fold e)).run v.state = .ok s →
        ExecutorStep K H v (v.put s) ∧ ∀ u, Outside (v.put s) u → P (p.fold e) u) :
    (append K wo p lease payload given commit k).wp (executorContract K H env) t P (fun _ => R)
      w := by
  unfold append
  refine wp_calm_bind hR h (fun _ v _ hv => Prog.wp_bind ?_) fun _ _ => id
  refine (wp_event hR hv).mono (fun e u _ hu => Prog.wp_bind ?_) fun _ _ _ => id
  obtain ⟨hu, hbuild⟩ := hu
  refine Prog.wp_ofExcept (fun next hnext u' ho _ => Prog.wp_bind ?_) fun _ _ u' ho _ => hR hu ho
  obtain ⟨hfold, rfl⟩ := reduceRunEvent_ok.mp hnext
  refine (wp_snapshotOf hR (hR hu ho)).mono (fun sn x _ hx => Prog.wp_bind ?_) fun _ _ _ => id
  obtain ⟨hx, saves⟩ := hx
  refine Prog.wp_commit (fun y hy hi s hs => ?_) fun y hy _ _ _ z hz _ => hR (hR hx hy) hz
  obtain ⟨hstep, hP⟩ := ok hi (hR hx hy) hbuild hfold saves hs
  exact ⟨hstep, fun z hz _ z' hz' _ => hP z' (hz.trans hz')⟩

theorem appendTransaction_workOrder {v : RunWorld} {s : Store} {e : RunEvent}
    {sn : Option ContextSnapshot} {next : RunProjection} (hon : On wo v)
    (hs : (appendTransaction commit sn e next).run v.state = .ok s) : On wo (v.put s) :=
  ((appendTransaction _ _ _ _).grows hs).1.trans hon

/-- **The rule of `#append`.** -/
theorem wp_append {G J : RunWorld → Prop} (hG : Stable G) (hJ : Stable J)
    (h : Holding wo p Φ w) (hg : G w) (hb : commit.Beside) (hp : payload.byCommand = false)
    (ok : Commits K H wo p Φ G payload given commit k Ψ J) :
    (append K wo p lease payload given commit k).wp (executorContract K H env) t
      (fun next v => Appended K wo p payload next ∧ Holding wo next Ψ v ∧ J v)
      (fun _ v => Holding wo p Φ v ∧ G v) w := by
  refine wp_append_transaction (fun hv ho => ⟨holding_stable hv.1 ho, hG hv.2 ho⟩) ⟨h, hg⟩
    fun {y s e sn} hi hy hbuild hfold saves hs => ?_
  obtain ⟨hy, hgy⟩ := hy
  have hbc : e.payload.byCommand = false := by rw [hbuild.payload]; exact hp
  have hgr : Grounded K wo y.state.truth := hy.on ▸ hi.coherent.toGrounded
  rcases hy.truth with hstale | hcur
  · -- a command got in between: the event can be neither there already nor the next one
    rcases appendTransaction_ok hgr hb saves hs with ⟨hm, -⟩ | ⟨s₁, -, hn, -⟩
    · exact (hstale.not_mem hi hbuild.sequence hbc hm).elim
    · exact (hstale.not_next hi hbuild.sequence hn).elim
  · rcases appendTransaction_ok hgr hb saves hs with ⟨hm, -⟩ | ⟨s₁, h₁, hn, ht, -⟩
    · exact (hcur.not_mem hgr.stream hbuild.sequence hm).elim
    · rw [hcur.projection] at hn
      obtain ⟨hcommit, hΨ, hJ₁⟩ := ok hi hcur.projection (hcur.holds hfold.alive) hgy h₁ hbuild
        hn saves hy.on
      have hon : On wo (y.put s) := appendTransaction_workOrder hy.on hs
      refine ⟨.commit rfl (hon.trans hy.on.symm) ?_, fun u hu => ?_⟩
      · rw [show y.state.workOrder = wo from hy.on, World.put_state, ht]
        exact hcommit
      · have hput : Holding wo (p.fold e) Ψ (y.put s) := by
          obtain ⟨he, hpr, -⟩ := hb h₁
          refine ⟨hon, .inr ⟨?_, ?_, fun _ => ?_⟩⟩
          · rw [World.put_state, ht]
            show s₁.truth.projection.fold e = _
            rw [hpr, hcur.projection]
          · rw [World.put_state, ht, fold_lastSequence, hbuild.sequence, hcur.length]
            simp [RunTruth.add, he]
          · rw [World.put_state, ht]
            exact hΨ
        exact ⟨⟨e, given, hbuild, hfold, rfl⟩, holding_stable hput hu,
          hJ (hJ₁ (u := y.put s) ht rfl) hu⟩

/-- The rule without anything known of the calls. -/
theorem wp_append_holding (h : Holding wo p Φ w) (hb : commit.Beside)
    (hp : payload.byCommand = false)
    (ok : Commits K H wo p Φ (fun _ => True) payload given commit k Ψ fun _ => True) :
    (append K wo p lease payload given commit k).wp (executorContract K H env) t
      (fun next v => Appended K wo p payload next ∧ Holding wo next Ψ v)
      (fun _ v => Holding wo p Φ v) w :=
  (wp_append (fun h _ => h) (fun h _ => h) h trivial hb hp ok).mono
    (fun _ _ _ hv => ⟨hv.1, hv.2.1⟩) fun _ _ _ hv => hv.1

/-! ### Kinds of events -/

/-- Nothing awaits reconciliation or, with a steady host, the outcome of its dispatch. -/
structure Quiet (H : Prop) (c : RunTruth) : Prop where
  clear : Clear c.effects
  settled : H → Settled c.effects

/-- The checkpoint was written with the last event. -/
def Saved (K : Config) (k : Option Checkpoint) (c : RunTruth) : Prop :=
  K.contextCheckpointEnabled = true → ∀ k', k = some k' →
    Behind 0 c.projection c.snapshots (· = k')

theorem Saves.saved {e : RunEvent} {sn : Option ContextSnapshot} {c : RunTruth}
    (h : Saves K wo e k sn) : Saved K k (c.add e sn) := by
  rintro hK k' rfl
  exact Behind.saved hK h rfl

/-- An event with nothing but a checkpoint beside it. -/
theorem wp_append_plain (h : Holding wo p Φ w) (hp : payload.plain = true)
    (aside : commit.Aside)
    (ok : ∀ {c : RunTruth} {e : RunEvent} {sn : Option ContextSnapshot}, c.projection = p → Φ c →
      Builds K wo p payload given e → Foldable p e → Saves K wo e k sn →
        Quiet H c ∧ (wo.isCompensation = false →
          ∃ k', k = some k' ∧ Carries (c.projection.fold e) k' payload) ∧ Ψ (c.add e sn)) :
    (append K wo p lease payload given commit k).wp (executorContract K H env) t
      (fun next v => Appended K wo p payload next ∧ Holding wo next Ψ v)
      (fun _ v => Holding wo p Φ v) w := by
  refine wp_append_holding h aside.beside ?_ fun {v s₁ e sn} hi hpr hΦ _ h₁ hbuild hn saves hon => ?_
  · cases payload <;> simp_all [EventPayload.plain, EventPayload.byCommand]
  · obtain ⟨hq, carries, hΨ⟩ := ok hpr hΦ hbuild hn.foldable saves
    rw [aside h₁]
    refine ⟨.plain (hpr.symm ▸ hn) (hbuild.payload ▸ hp) ⟨saves, fun ha => ?_⟩ hq.clear
      hq.settled, hΨ, fun _ _ => trivial⟩
    rw [hbuild.payload]
    exact carries ha

/-- An event that ends the run.  The one a `cancel` appends may be there already. -/
theorem wp_append_over (h : Holding wo p Φ w) (hp : payload.ended = true) :
    (append K wo p lease payload given .skip none).wp (executorContract K H env) t
      (fun _ => On wo) (fun _ => On wo) w := by
  refine (wp_append_transaction (P := fun _ => On wo) holding_stable h
    fun {y s e sn} hi hy hbuild hfold saves hs => ?_).mono (fun _ _ _ => id) fun _ _ _ hv => hv.on
  have hgr : Grounded K wo y.state.truth := hy.on ▸ hi.coherent.toGrounded
  have hon : On wo (y.put s) := appendTransaction_workOrder hy.on hs
  refine ⟨?_, fun u hu => on_stable wo hon hu⟩
  cases saves
  rcases appendTransaction_ok hgr skip_aside.beside (k := none) rfl hs with
    ⟨-, hsame⟩ | ⟨s₁, h₁, hn, ht, -⟩
  · rw [hsame rfl rfl]
    exact .calm ⟨rfl, rfl, .inl rfl⟩
  · cases h₁
    refine .commit rfl (hon.trans hy.on.symm) ?_
    rw [World.put_state, ht]
    exact .ended hn (hbuild.payload ▸ hp)

/-- A suspension that waits for no effect. -/
theorem wp_append_suspend {step reason : String} {target : ResumeTarget} (h : Holding wo p Φ w)
    (clear : ∀ c, c.projection = p → Φ c → Clear c.effects ∧ wo.isCompensation = false) :
    (append K wo p lease (.RunSuspended step target reason none) given .skip none).wp
      (executorContract K H env) t (fun _ => On wo) (fun _ => On wo) w := by
  refine (wp_append_holding (Ψ := fun _ => True) h skip_aside.beside rfl
    fun {v s₁ e sn} hi hpr hΦ _ h₁ hbuild hn saves hon => ?_).mono
    (fun _ _ _ hv => hv.2.on) fun _ _ _ hv => hv.on
  cases h₁
  cases saves
  obtain ⟨hclear, agent⟩ := clear _ hpr hΦ
  exact ⟨.suspend (hpr.symm ▸ hn) hbuild.payload agent hclear, trivial, fun _ _ => trivial⟩

end Append

end Pactmark
