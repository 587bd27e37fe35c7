import Pactmark.Durable.Operations
import Pactmark.Stores.EventStoreCoherence
import Mathlib.Data.List.Infix
import Mathlib.Logic.Relation

/-!
# Stores — following the events of a run

`AgentRuntime.events`: a reader that yields the events of a run after a sequence number, reads
again when it has yielded what it read, and ends once the projection of the run is terminal.  A
read of the stream and a read of the projection are one step each, and other workers append in
between (`Step.append`).

What is yielded is always the stream from `afterSequence` on, without a gap
(`Follows.yielded`).  But the reader decides to end on a projection it reads after the stream: an
event that ends the run between the two is never yielded.  `follow_complete` is what holds of the
runs in which this does not happen.
-/

namespace Pactmark

open EventStore EventStoreState

/-- Where a reader stands: before its first look at the run, at the head of its loop, between its
read of the stream and its read of the projection, or at its end. -/
inductive ReaderPhase where
  | opening
  | looping
  | checking (observed : Bool)
  | ended (aborted : Bool)
  | threw
  deriving DecidableEq, Repr

/-- A reader of the events of a run. -/
structure Reader where
  cursor : Nat
  yielded : List RunEvent
  phase : ReaderPhase

namespace Reader

/-- A reader that has not begun. -/
def start (afterSequence : Nat) : Reader :=
  ⟨afterSequence, [], .opening⟩

/-- `for await (const event of eventStore.read(.., cursor)) { ..; yield event; }`. -/
def read (r : Reader) (stream : List RunEvent) : Reader :=
  let events := stream.filter (·.sequence > r.cursor)
  { cursor := (events.getLast?.map (·.sequence)).getD r.cursor
    yielded := r.yielded ++ events
    phase := .checking (!events.isEmpty) }

/-- The reader in another phase. -/
def moved (r : Reader) (phase : ReaderPhase) : Reader :=
  { r with phase }

end Reader

/-- The event takes the run to a terminal status. -/
def RunEvent.endsRun (e : RunEvent) : Bool :=
  (nextStatusFor e.payload).any (·.terminal)

/-- One step of a reader of `key` or of another worker.  `scope` is the check of the authority's
work order scope, and `may` which events may be appended where the reader stands. -/
inductive FollowStep (allowed : RunEvent → Bool) (key : StreamKey) (scope : RunProjection → Bool)
    (may : Reader → RunEvent → Prop) : EventStore × Reader → EventStore × Reader → Prop where
  | append {s : EventStore} {r : Reader} (e : RunEvent) (n : Int) (h : may r e) :
      FollowStep allowed key scope may (s, r) (after (appendSynchronous allowed e n) s, r)
  | appendFenced {s : EventStore} {r : Reader} (active : Except Thrown Unit) (lease : StreamKey)
      (e : RunEvent) (n : Int) (h : may r e) :
      FollowStep allowed key scope may (s, r)
        (after (EventStore.appendFenced allowed active lease e n) s, r)
  | open {s : EventStore} {r : Reader} (hr : r.phase = .opening) {p : RunProjection}
      (hp : s.projections key = some p) (hs : scope p = true) :
      FollowStep allowed key scope may (s, r) (s, r.moved .looping)
  | abort {s : EventStore} {r : Reader} (hr : r.phase = .looping) :
      FollowStep allowed key scope may (s, r) (s, r.moved (.ended true))
  | read {s : EventStore} {r : Reader} (hr : r.phase = .looping) :
      FollowStep allowed key scope may (s, r) (s, r.read (s.stream key))
  | finish {s : EventStore} {r : Reader} {observed : Bool} (hr : r.phase = .checking observed)
      {p : RunProjection} (hp : s.projections key = some p) (hs : scope p = true)
      (ht : p.status.terminal = true) :
      FollowStep allowed key scope may (s, r) (s, r.moved (.ended false))
  | again {s : EventStore} {r : Reader} {observed : Bool} (hr : r.phase = .checking observed)
      {p : RunProjection} (hp : s.projections key = some p) (hs : scope p = true)
      (ht : p.status.terminal = false) :
      FollowStep allowed key scope may (s, r) (s, r.moved .looping)
  | abortSleep {s : EventStore} {r : Reader} (hr : r.phase = .checking false)
      {p : RunProjection} (hp : s.projections key = some p) (hs : scope p = true)
      (ht : p.status.terminal = false) :
      FollowStep allowed key scope may (s, r) (s, r.moved (.ended true))
  | throw {s : EventStore} {r : Reader}
      (hr : r.phase = .opening ∨ ∃ observed, r.phase = .checking observed)
      (hp : ∀ p, s.projections key = some p → scope p = false) :
      FollowStep allowed key scope may (s, r) (s, r.moved .threw)

/-- An event that ends the run is not appended between the reader's read of the stream and its
read of the projection. -/
def Undisturbed (key : StreamKey) (r : Reader) (e : RunEvent) : Prop :=
  e.key = key → e.endsRun = true → ∀ observed, r.phase ≠ .checking observed

/-- What has been yielded is the stream after `afterSequence`, as far as it was read. -/
structure Follows (key : StreamKey) (afterSequence : Nat) (x : EventStore × Reader) : Prop where
  sound : EventStoreState.Sound ⟨x.1, []⟩
  yielded : x.2.yielded <+: (x.1.stream key).drop afterSequence
  cursor : x.2.cursor = afterSequence + x.2.yielded.length

section Appends

variable {allowed : RunEvent → Bool} {s : EventStore} {e : RunEvent} {n : Int} {key : StreamKey}

/-- An append leaves the stream and the projection of a run, or adds an event the reducer
accepts. -/
theorem append_stream (h : EventStoreState.Sound ⟨s, []⟩) (allowed : RunEvent → Bool)
    (e : RunEvent) (n : Int) (key : StreamKey) :
    ((after (appendSynchronous allowed e n) s).stream key = s.stream key ∧
      (after (appendSynchronous allowed e n) s).projections key = s.projections key) ∨
    (e.key = key ∧ (after (appendSynchronous allowed e n) s).stream key = s.stream key ++ [e] ∧
      ∃ p q, reduceRunEvent p e = .ok q ∧
        (after (appendSynchronous allowed e n) s).projections key = some q ∧
        (s.projections key = some p ∨ s.stream key = [])) := by
  unfold after
  rcases appendSynchronous_cases allowed e n s with ⟨x, hx⟩ | ⟨-, hx⟩ | ⟨next, -, -, -, hn, hx⟩
  · rw [hx]
    exact .inl ⟨rfl, rfl⟩
  · rw [hx]
    exact .inl ⟨rfl, rfl⟩
  · rw [hx]
    have hps : (s.stored e next).projections =
        fun k => if k = e.key then some next else s.projections k := by
      unfold EventStore.stored
      split <;> rfl
    by_cases hk : key = e.key
    · right
      refine ⟨hk.symm, by rw [h.arrays.stored_stream, if_pos hk], ?_⟩
      subst hk
      unfold nextProjection at hn
      split at hn
      · rename_i p hp
        exact ⟨p, next, hn, by simp [hps], .inl hp⟩
      · split at hn
        · cases hn
        · rename_i hlen
          cases hi : initialProjection e with
          | error x =>
              rw [hi] at hn
              cases hn
          | ok p =>
              rw [hi] at hn
              exact ⟨p, next, hn, by simp [hps],
                .inr (List.length_eq_zero_iff.mp (not_not.mp hlen))⟩
    · left
      exact ⟨by rw [h.arrays.stored_stream, if_neg hk], by simp [hps, hk]⟩

theorem append_grows (h : EventStoreState.Sound ⟨s, []⟩) (allowed : RunEvent → Bool)
    (e : RunEvent) (n : Int) (key : StreamKey) :
    s.stream key <+: (after (appendSynchronous allowed e n) s).stream key := by
  rcases append_stream h allowed e n key with ⟨hs, -⟩ | ⟨-, hs, -⟩
  · rw [hs]
  · rw [hs]
    exact List.prefix_append _ _

/-- The last event of a run that is over ended it. -/
theorem last_endsRun {events : List RunEvent} {p : RunProjection}
    (h : rebuild events = .ok (some p)) (hp : p.status.terminal = true) :
    ∃ init last, events = init ++ [last] ∧ last.endsRun = true := by
  obtain ⟨first, rest, q, hs, hq, hfold⟩ := rebuild_some h
  obtain ⟨init, last, hl⟩ : ∃ init last, events = init ++ [last] :=
    ⟨events.dropLast, events.getLast (by rw [hs]; simp),
      (List.dropLast_append_getLast (by rw [hs]; simp)).symm⟩
  refine ⟨init, last, hl, ?_⟩
  rw [hl, List.foldlM_append] at hfold
  obtain ⟨m, -, hfold⟩ := Durable.bind_eq_ok.mp hfold
  obtain ⟨p', hr, hfold⟩ := Durable.bind_eq_ok.mp hfold
  cases hfold
  obtain ⟨hfoldable, rfl⟩ := reduceRunEvent_ok.mp hr
  rw [fold_status] at hp
  unfold RunEvent.endsRun
  cases hn : nextStatusFor last.payload with
  | none =>
      rw [hn, Option.getD_none, hfoldable.alive] at hp
      cases hp
  | some st =>
      rw [hn] at hp
      exact hp

end Appends

/-! ### Reading -/

/-- The events after a sequence number are the stream without its beginning. -/
theorem filter_sequence {events : List RunEvent} {n k : Nat}
    (h : ∀ {i e}, events[i]? = some e → e.sequence = k + i + 1) :
    events.filter (·.sequence > n) = events.drop (n - k) := by
  induction events generalizing k with
  | nil => simp
  | cons e events ih =>
      have he : e.sequence = k + 1 := h (i := 0) (by simp)
      have hrest : events.filter (·.sequence > n) = events.drop (n - (k + 1)) := by
        refine ih fun {i x} hx => ?_
        have := h (i := i + 1) (e := x) (by simpa using hx)
        omega
      by_cases hn : k + 1 > n
      · have h₀ : n - k = 0 := by omega
        have h₁ : n - (k + 1) = 0 := by omega
        rw [List.filter_cons_of_pos (by simpa [he] using hn), hrest, h₀, h₁]
        simp
      · have h₀ : n - k = (n - (k + 1)) + 1 := by omega
        rw [List.filter_cons_of_neg (by simpa [he] using hn), hrest, h₀, List.drop_succ_cons]

section Follow

variable {allowed : RunEvent → Bool} {key : StreamKey} {scope : RunProjection → Bool}
  {may : Reader → RunEvent → Prop} {afterSequence : Nat} {s : EventStore} {r : Reader}

/-- After a read everything there is has been yielded. -/
theorem Follows.read_yielded (h : Follows key afterSequence (s, r)) :
    (r.read (s.stream key)).yielded = (s.stream key).drop afterSequence := by
  obtain ⟨rest, hr⟩ := h.yielded
  have hf : (s.stream key).filter (·.sequence > r.cursor) = rest := by
    rw [filter_sequence (k := 0) fun he => by have := h.sound.coherent.sequence he; omega,
      h.cursor, Nat.sub_zero, ← List.drop_drop, ← hr]
    simp
  show r.yielded ++ _ = _
  rw [hf, hr]

theorem Follows.read_cursor (h : Follows key afterSequence (s, r)) :
    (r.read (s.stream key)).cursor =
      afterSequence + (r.read (s.stream key)).yielded.length := by
  have hf : (s.stream key).filter (·.sequence > r.cursor) = (s.stream key).drop r.cursor :=
    filter_sequence (k := 0) fun he => by have := h.sound.coherent.sequence he; omega
  show ((((s.stream key).filter (·.sequence > r.cursor)).getLast?).map _).getD _ =
    afterSequence + (r.yielded ++ (s.stream key).filter (·.sequence > r.cursor)).length
  rw [hf]
  have hc : r.cursor = afterSequence + r.yielded.length := h.cursor
  cases hl : ((s.stream key).drop r.cursor).getLast? with
  | none =>
      rw [List.getLast?_eq_none_iff.mp hl]
      simpa using hc
  | some last =>
      rw [List.getLast?_drop] at hl
      split at hl
      · cases hl
      · rename_i hlen
        rw [List.getLast?_eq_getElem?] at hl
        have hseq := h.sound.coherent.sequence hl
        simp only [Option.map_some, Option.getD_some, List.length_append, List.length_drop]
        omega

theorem Follows.step (h : Follows key afterSequence (s, r)) {y : EventStore × Reader}
    (hs : FollowStep allowed key scope may (s, r) y) : Follows key afterSequence y := by
  have append : ∀ e n, Follows key afterSequence (after (appendSynchronous allowed e n) s, r) :=
    fun e n => ⟨h.sound.append allowed e n,
      h.yielded.trans (List.IsPrefix.drop (append_grows h.sound allowed e n key) _), h.cursor⟩
  cases hs with
  | append e n => exact append e n
  | appendFenced active lease e n =>
      rcases appendFenced_cases allowed active lease e n s with ⟨x, hx⟩ | hx
      · have hsame : after (EventStore.appendFenced allowed active lease e n) s = s := by
          unfold after
          rw [hx]
        rw [hsame]
        exact h
      · have hsame : after (EventStore.appendFenced allowed active lease e n) s =
            after (appendSynchronous allowed e n) s := by
          unfold after
          rw [hx]
        rw [hsame]
        exact append e n
  | read hr =>
      exact ⟨h.sound, h.read_yielded ▸ List.prefix_refl _, h.read_cursor⟩
  | «open» | abort | finish | again | abortSleep | throw => exact ⟨h.sound, h.yielded, h.cursor⟩

/-- Where the reader would end now, or has ended, it has yielded everything. -/
structure Settles (key : StreamKey) (afterSequence : Nat) (x : EventStore × Reader) : Prop
    extends Follows key afterSequence x where
  checking : ∀ {observed p}, x.2.phase = .checking observed → x.1.projections key = some p →
    p.status.terminal = true → x.2.yielded = (x.1.stream key).drop afterSequence
  ended : x.2.phase = .ended false → (∃ p, x.1.projections key = some p ∧
    p.status.terminal = true) ∧ x.2.yielded = (x.1.stream key).drop afterSequence

theorem Settles.append (h : Settles key afterSequence (s, r)) {e : RunEvent} (n : Int)
    (hm : Undisturbed key r e) :
    Settles key afterSequence (after (appendSynchronous allowed e n) s, r) := by
  have hf : Follows key afterSequence (after (appendSynchronous allowed e n) s, r) :=
    h.toFollows.step (.append e n trivial :
      FollowStep allowed key (fun _ => true) (fun _ _ => True) _ _)
  rcases append_stream h.sound allowed e n key with ⟨hs, hp⟩ | ⟨hk, hs, p, q, hq, hq', hp⟩
  · refine ⟨hf, fun {observed p} hr hpr ht => ?_, fun hr => ?_⟩
    · rw [hp] at hpr
      rw [hs]
      exact h.checking hr hpr ht
    · rw [hs, hp]
      exact h.ended hr
  · obtain ⟨hfold, rfl⟩ := reduceRunEvent_ok.mp hq
    refine ⟨hf, fun {observed p'} hr hpr ht => ?_, fun hr => ?_⟩
    · -- the event was appended between the two reads, so it does not end the run
      exfalso
      rw [hq'] at hpr
      cases hpr
      have he : e.endsRun = false := by
        cases hb : e.endsRun with
        | false => rfl
        | true => exact absurd hr (hm hk hb observed)
      rw [fold_status] at ht
      unfold RunEvent.endsRun at he
      cases hn : nextStatusFor e.payload with
      | none =>
          rw [hn, Option.getD_none, hfold.alive] at ht
          cases ht
      | some st =>
          rw [hn] at he ht
          simp only [Option.any_some] at he
          rw [Option.getD_some, he] at ht
          cases ht
    · -- nothing is appended to a run that is over
      exfalso
      obtain ⟨⟨p', hp', ht⟩, -⟩ := h.ended hr
      rcases hp with hp | hp
      · replace hp' : s.projections key = some p' := hp'
        rw [hp] at hp'
        cases hp'
        rw [hfold.alive] at ht
        cases ht
      · have hreb := h.sound.coherent.projection hp'
        replace hp : s.stream key = [] := hp
        rw [hp] at hreb
        cases hreb

theorem Settles.step (h : Settles key afterSequence (s, r)) {y : EventStore × Reader}
    (hs : FollowStep allowed key scope (Undisturbed key) (s, r) y) :
    Settles key afterSequence y := by
  have hf := h.toFollows.step hs
  cases hs with
  | append e n hm => exact h.append n hm
  | appendFenced active lease e n hm =>
      rcases appendFenced_cases allowed active lease e n s with ⟨x, hx⟩ | hx
      · have hsame : after (EventStore.appendFenced allowed active lease e n) s = s := by
          unfold after
          rw [hx]
        rw [hsame]
        exact h
      · have hsame : after (EventStore.appendFenced allowed active lease e n) s =
            after (appendSynchronous allowed e n) s := by
          unfold after
          rw [hx]
        rw [hsame]
        exact h.append n hm
  | read hr => exact ⟨hf, fun _ _ _ => h.read_yielded, fun hr => (by cases hr)⟩
  | finish hr hp hsc ht => exact ⟨hf, fun hr => (by cases hr), fun _ => ⟨⟨_, hp, ht⟩, h.checking hr hp ht⟩⟩
  | «open» | abort | again | abortSleep | throw =>
      exact ⟨hf, fun hr => (by cases hr), fun hr => (by cases hr)⟩

/-- What a consumer of the events may count on: they come in order and without a gap, and when
the reader ends by itself none is missing and the last one ended the run. -/
structure Complete (key : StreamKey) (afterSequence : Nat) (x : EventStore × Reader) : Prop where
  gapless : ∀ {i e}, x.2.yielded[i]? = some e →
    e.sequence = afterSequence + 1 + i ∧ e ∈ x.1.stream key
  last : x.2.phase = .ended false → ∃ last, (x.1.stream key).getLast? = some last ∧
    last.endsRun = true ∧ (afterSequence < last.sequence → x.2.yielded.getLast? = some last)
  all : x.2.phase = .ended false → ∀ e ∈ x.1.stream key, afterSequence < e.sequence →
    e ∈ x.2.yielded

theorem Follows.gapless {x : EventStore × Reader} (h : Follows key afterSequence x) {i : Nat}
    {e : RunEvent} (he : x.2.yielded[i]? = some e) :
    e.sequence = afterSequence + 1 + i ∧ e ∈ x.1.stream key := by
  obtain ⟨rest, hr⟩ := h.yielded
  have hd : ((x.1.stream key).drop afterSequence)[i]? = some e := by
    rw [← hr, List.getElem?_append_left (List.getElem?_eq_some_iff.mp he).1]
    exact he
  rw [List.getElem?_drop] at hd
  refine ⟨?_, List.mem_of_getElem? hd⟩
  have := h.sound.coherent.sequence hd
  omega

theorem Settles.complete {x : EventStore × Reader} (h : Settles key afterSequence x) :
    Complete key afterSequence x where
  gapless := h.gapless
  last hr := by
    obtain ⟨⟨p, hp, ht⟩, hy⟩ := h.ended hr
    obtain ⟨init, last, hs, hl⟩ := last_endsRun (h.sound.coherent.projection hp) ht
    replace hs : x.1.stream key = init ++ [last] := hs
    refine ⟨last, by rw [hs]; simp, hl, fun hlt => ?_⟩
    have hseq : last.sequence = init.length + 1 :=
      h.sound.coherent.sequence (show (x.1.stream key)[init.length]? = some last by rw [hs]; simp)
    rw [hy, hs, List.drop_append_of_le_length (by omega)]
    simp
  all hr e he hlt := by
    obtain ⟨-, hy⟩ := h.ended hr
    obtain ⟨i, hi, hie⟩ := List.mem_iff_getElem.mp he
    have hget : (x.1.stream key)[i]? = some e := by rw [List.getElem?_eq_getElem hi, hie]
    have hseq : e.sequence = i + 1 := h.sound.coherent.sequence hget
    rw [hy]
    refine List.mem_of_getElem? (i := i - afterSequence) ?_
    rw [List.getElem?_drop, show afterSequence + (i - afterSequence) = i by omega]
    exact hget

/-- A run of a reader and of other workers. -/
abbrev FollowSteps (allowed : RunEvent → Bool) (key : StreamKey) (scope : RunProjection → Bool)
    (may : Reader → RunEvent → Prop) : EventStore × Reader → EventStore × Reader → Prop :=
  Relation.ReflTransGen (FollowStep allowed key scope may)

/-- **A reader that is not disturbed misses nothing.** -/
theorem follow_complete (allowed : RunEvent → Bool) (key : StreamKey)
    (scope : RunProjection → Bool) (afterSequence : Nat) (calls : List EventStoreCall)
    (hc : initial.AllIntact allowed calls) {x : EventStore × Reader}
    (h : FollowSteps allowed key scope (Undisturbed key)
      ((initial.run allowed calls).store, .start afterSequence) x) :
    Complete key afterSequence x := by
  suffices hx : Settles key afterSequence x from hx.complete
  induction h with
  | refl =>
      have hs := sound_initial.run hc
      exact ⟨⟨⟨hs.coherent, hs.arrays, nofun⟩, List.nil_prefix, rfl⟩, fun hr => (by cases hr),
        fun hr => (by cases hr)⟩
  | tail _ hs ih => exact ih.step hs

end Follow

/-- A run that is cancelled after it was accepted. -/
def cancelledEvent : RunEvent :=
  { acceptedEvent with
    eventId := "event-2"
    sequence := 2
    payload := .RunCancelled none "user_requested" "actor" }

/-- A run that is over before it is followed. -/
theorem follow_complete_cancelled :
    initial.AllIntact (fun _ => true) [.append acceptedEvent 0, .append cancelledEvent 1] ∧
      ∃ x, FollowSteps (fun _ => true) ("tenant", "run") (fun _ => true)
        (Undisturbed ("tenant", "run"))
        ((initial.run (fun _ => true) [.append acceptedEvent 0, .append cancelledEvent 1]).store,
          .start 0) x ∧
        x.2.phase = .ended false ∧ Complete ("tenant", "run") 0 x := by
  refine ⟨⟨trivial, trivial, trivial⟩, ?_⟩
  have hsteps := Relation.ReflTransGen.refl
    (r := FollowStep (fun _ => true) ("tenant", "run") (fun _ => true)
      (Undisturbed ("tenant", "run")))
    (a := ((initial.run (fun _ => true) [.append acceptedEvent 0,
      .append cancelledEvent 1]).store, Reader.start 0))
    |>.tail (.open rfl rfl rfl) |>.tail (.read rfl) |>.tail (.finish rfl rfl rfl rfl)
  exact ⟨_, hsteps, rfl, follow_complete (fun _ => true) ("tenant", "run") (fun _ => true) 0
    [.append acceptedEvent 0, .append cancelledEvent 1] ⟨trivial, trivial, trivial⟩ hsteps⟩

/-- An event that ends the run between the two reads is lost. -/
theorem follow_loses_terminal_event :
    ¬ ∀ (allowed : RunEvent → Bool) (key : StreamKey) (scope : RunProjection → Bool)
      (afterSequence : Nat) (calls : List EventStoreCall), initial.AllIntact allowed calls →
      ∀ x, FollowSteps allowed key scope (fun _ _ => True)
        ((initial.run allowed calls).store, .start afterSequence) x →
        Complete key afterSequence x := by
  intro h
  have hsteps := Relation.ReflTransGen.refl
    (r := FollowStep (fun _ => true) ("tenant", "run") (fun _ => true) fun _ _ => True)
    (a := ((initial.run (fun _ => true) [.append acceptedEvent 0]).store, Reader.start 0))
    |>.tail (.open rfl rfl rfl) |>.tail (.read rfl)
    |>.tail (.append cancelledEvent 1 trivial) |>.tail (.finish rfl rfl rfl rfl)
  have hc := h _ _ _ 0 [.append acceptedEvent 0] ⟨trivial, trivial⟩ _ hsteps
  have hmem : cancelledEvent ∈ [acceptedEvent] :=
    hc.all rfl cancelledEvent (List.mem_cons_of_mem _ (List.mem_singleton.mpr rfl)) (by decide)
  exact absurd hmem (by decide)

end Pactmark
