import Pactmark.Protocol.Calm

/-!
# Protocol — what an `execute` knows

A thread that runs `execute` carries the projection it last committed, and everything it knows
of the run it knows of the state that projection belongs to.  `Holding wo p Φ` says so: either a
command has got in between, and then the thread can append nothing more, or the run is still at
`p` and `Φ` holds of it.

Three rules carry the proofs about the programs of `execute`.  `wp_calm` is for the programs that
only ask, read and write aside, `wp_read_holding` for a read of the run, and `wp_append` for
`#append`, the only program that changes the truth of the run.
-/

namespace Pactmark

open Durable

/-! ### Knowledge -/

/-- The others keep `R`. -/
def Stable (R : RunWorld → Prop) : Prop :=
  ∀ {w v}, R w → Outside w v → R v

/-- The world is that of the work order. -/
def On (wo : WorkOrder) (w : RunWorld) : Prop :=
  w.state.workOrder = wo

/-- A command has appended the event after `p`. -/
structure Stale (p : RunProjection) (w : RunWorld) : Prop where
  event : ∃ e, w.state.truth.events[p.lastSequence]? = some e ∧ e.payload.byCommand = true
  ended : p.status.executing = true → w.state.truth.projection.status.terminal = true

/-- The run is at `p`, and `Φ` holds of it if it is not over. -/
structure Current (p : RunProjection) (Φ : RunTruth → Prop) (c : RunTruth) : Prop where
  projection : c.projection = p
  length : p.lastSequence = c.events.length
  holds : p.status.terminal = false → Φ c

/-- What a thread knows that carries the projection `p`. -/
structure Holding (wo : WorkOrder) (p : RunProjection) (Φ : RunTruth → Prop) (w : RunWorld) :
    Prop where
  on : On wo w
  truth : Stale p w ∨ Current p Φ w.state.truth

/-- The run is over, or `Φ` holds of it, whatever projection the thread carries. -/
structure Lately (wo : WorkOrder) (Φ : RunTruth → Prop) (w : RunWorld) : Prop where
  on : On wo w
  truth : w.state.truth.projection.status.terminal = true ∨ Φ w.state.truth

theorem on_stable (wo : WorkOrder) : Stable (On wo) :=
  fun h ho => ho.workOrder.trans h

theorem Outside.events {w v : RunWorld} (h : Outside w v) :
    w.state.truth.events <+: v.state.truth.events := by
  rcases h.truth with he | ho
  · exact he ▸ List.prefix_refl _
  · obtain ⟨e, rest, he, -⟩ := ho.events
    exact he ▸ List.prefix_append _ _

theorem Stale.outside {p : RunProjection} {w v : RunWorld} (h : Stale p w) (ho : Outside w v) :
    Stale p v := by
  obtain ⟨⟨e, he, hb⟩, hover⟩ := h
  obtain ⟨rest, hr⟩ := ho.events
  refine ⟨⟨e, ?_, hb⟩, fun hp => ?_⟩
  · rw [← hr, List.getElem?_append_left (List.getElem?_eq_some_iff.mp he).1]
    exact he
  rcases ho.truth with hc | hc
  · rw [hc]; exact hover hp
  · have := hover hp
    rw [hc.alive] at this
    cases this

section Holding

variable {wo : WorkOrder} {p : RunProjection} {Φ Ψ : RunTruth → Prop} {w v : RunWorld}

theorem holding_stable : Stable (Holding wo p Φ) := by
  intro w v h ho
  refine ⟨on_stable wo h.on ho, ?_⟩
  rcases h.truth with hs | hc
  · exact .inl (hs.outside ho)
  · rcases ho.truth with he | hx
    · exact .inr (he ▸ hc)
    · obtain ⟨e, rest, he, hb⟩ := hx.events
      refine .inl ⟨⟨e, ?_, hb⟩, fun hp => hx.ended (hc.projection ▸ hp)⟩
      rw [he, hc.length]
      simp

theorem Holding.mono (h : Holding wo p Φ w) (hΦ : ∀ c, c.projection = p → Φ c → Ψ c) :
    Holding wo p Ψ w :=
  ⟨h.on, h.truth.imp_right fun hc =>
    ⟨hc.projection, hc.length, fun ha => hΦ _ hc.projection (hc.holds ha)⟩⟩

/-- Nothing has to be known of a run that is over. -/
theorem Holding.of_terminal (h : Holding wo p Φ w) (hp : p.status.terminal = true) :
    Holding wo p Ψ w :=
  ⟨h.on, h.truth.imp_right fun hc =>
    ⟨hc.projection, hc.length, fun ha => by rw [hp] at ha; cases ha⟩⟩

/-- A thread that works on the run finds it over when it has been overtaken. -/
theorem Holding.lately (h : Holding wo p Φ w) (hp : p.status.executing = true)
    (hΦ : ∀ c, c.projection = p → Φ c → Ψ c) : Lately wo Ψ w := by
  refine ⟨h.on, ?_⟩
  rcases h.truth with hs | hc
  · exact .inl (hs.ended hp)
  · have ha : p.status.terminal = false := by
      cases hst : p.status <;> simp_all [RunStatus.executing, RunStatus.terminal]
    exact .inr (hΦ _ hc.projection (hc.holds ha))

end Holding

/-! ### Calm programs -/

section Rules

variable {K : Config} {H : Prop} {env : Env} {t : Nat} {α β : Type} {w : RunWorld}
  {wo : WorkOrder} {p : RunProjection} {Φ Ψ : RunTruth → Prop}

theorem CalmStep.answered {q : Query} (hq : q.isDispatch = false) (a : Answer q) (t : Nat)
    (v : RunWorld) : CalmStep v (v.answered t q a) :=
  ⟨rfl, rfl, .inr ⟨_, rfl, hq⟩⟩

theorem CalmStep.put {f : Tx} (hf : Tx.Aside f) {v : RunWorld} {s : Store}
    (h : f.run v.state = .ok s) : CalmStep v (v.put s) :=
  ⟨(f.grows h).1, hf h, .inl rfl⟩

/-- **A calm program keeps whatever the others keep.** -/
theorem wp_calm {R : RunWorld → Prop} (hR : Stable R) (prog : Runtime α) [hc : Calm prog]
    (h : R w) :
    prog.wp (executorContract K H env) t (fun _ => R) (fun _ => R) w := by
  refine Prog.wp_confined hc.confined (fun hw ho _ => hR hw ho) (fun {v q} a hq _ hv => ?_)
    (fun hf _ hv hs => ?_) h
  · have hs := CalmStep.answered hq a t v
    exact ⟨.calm hs, hR hv hs.outside⟩
  · have hs := CalmStep.put hf hs
    exact ⟨.calm hs, hR hv hs.outside⟩

/-- A calm program and what follows it. -/
theorem wp_calm_bind {R : RunWorld → Prop} (hR : Stable R) {prog : Runtime α}
    {f : α → Runtime β} [Calm prog] {P : β → RunWorld → Prop} {E : Thrown → RunWorld → Prop}
    (h : R w) (hf : ∀ a v, Sound K H v → R v → (f a).wp (executorContract K H env) t P E v)
    (hE : ∀ e v, R v → E e v) :
    (prog >>= f).wp (executorContract K H env) t P E w :=
  Prog.wp_bind ((wp_calm hR prog h).mono (fun a v hi hv => hf a v hi hv) fun e v _ => hE e v)

theorem wp_pure {R : RunWorld → Prop} (hR : Stable R) {a : α} {P : α → RunWorld → Prop}
    {E : Thrown → RunWorld → Prop} (h : R w) (hP : ∀ v, R v → P a v) :
    (Prog.pure a : Runtime α).wp (executorContract K H env) t P E w :=
  fun v ho _ => hP v (hR h ho)

theorem wp_throw {R : RunWorld → Prop} (hR : Stable R) {e : Thrown}
    {P : α → RunWorld → Prop} {E : Thrown → RunWorld → Prop} (h : R w) (hE : ∀ v, R v → E e v) :
    (Prog.throw e : Runtime α).wp (executorContract K H env) t P E w :=
  fun v ho _ => hE v (hR h ho)

/-! ### Reads -/

/-- **What is read of the run is known of it.** -/
theorem wp_read_holding {f : RunTruth → α} {E : Thrown → RunWorld → Prop}
    (h : Holding wo p Φ w) :
    (Prog.read fun s => f s.truth : Runtime α).wp (executorContract K H env) t
      (fun a => Holding wo p fun c => Φ c ∧ a = f c) E w := by
  refine Prog.wp_read fun v ho _ u ho' _ => ?_
  have hv := holding_stable h ho
  refine holding_stable ⟨hv.on, ?_⟩ ho'
  exact hv.truth.imp_right fun hc => ⟨hc.projection, hc.length, fun ha => ⟨hc.holds ha, rfl⟩⟩

/-- A read of the run and what follows it. -/
theorem wp_read_bind (f : RunTruth → α) {g : α → Runtime β} {P : β → RunWorld → Prop}
    {E : Thrown → RunWorld → Prop} (h : Holding wo p Φ w)
    (hg : ∀ a v, Sound K H v → Holding wo p (fun c => Φ c ∧ a = f c) v →
      (g a).wp (executorContract K H env) t P E v) :
    ((Prog.read fun s => f s.truth) >>= g).wp (executorContract K H env) t P E w :=
  Prog.wp_bind ((wp_read_holding (E := E) h).mono (fun a v hi hv => hg a v hi hv)
    fun _ _ _ he => he)

theorem On.lately (h : On wo w) : Lately wo (fun _ => True) w := ⟨h, .inr trivial⟩

end Rules

end Pactmark
