import Pactmark.Stores.EventStoreCoherence

/-!
# Stores — the tenants of an event store

What the tenants of one `MemoryEventStore` see of each other.  Streams and projections are kept
under the tenant; the index of event ids is one for all.

* `Agree`: two stores have the same data of a tenant.
* `Untouched`: the data of all other tenants is as it was.
* `append_answer`: what an append answers depends on the data of its tenant, and on whether another
  tenant holds the id of the event.
* `tenant_isolation`: the operations of a tenant, in any two stores that agree on it.
* `held_elsewhere_refused`: an id another tenant holds is refused.
-/

namespace Pactmark

namespace EventStore

/-- `read`, from the state of the store it starts in. -/
def read (s : EventStore) (key : StreamKey) (afterSequence : Int) :
    Except Thrown (List RunEvent) :=
  if ¬ safeSequence afterSequence then .error (kafError .KAF_SCHEMA_INVALID)
  else .ok ((s.stream key).filter fun event => decide (afterSequence < event.sequence))

/-- `getProjection`. -/
def getProjection (s : EventStore) (key : StreamKey) : Option RunProjection :=
  s.projections key

/-- What an operation answers or throws. -/
def answer {α : Type} (op : Op α) (s : EventStore) : Except Thrown α :=
  match op s with
  | .ok a _ => .ok a
  | .error e _ => .error e

open EventStoreState (after)

variable {T : String} {s s' : EventStore} {allowed : RunEvent → Bool} {event : RunEvent} {n : Int}

/-- The stores have the same data of the tenant: its streams, its projections, and its entries of
the index. -/
structure Agree (T : String) (s s' : EventStore) : Prop where
  streams : ∀ runId, s.stream (T, runId) = s'.stream (T, runId)
  projections : ∀ runId, s.projections (T, runId) = s'.projections (T, runId)
  index : ∀ id runId e,
    s.eventsById id = some ((T, runId), e) ↔ s'.eventsById id = some ((T, runId), e)

/-- The data of all other tenants is as it was. -/
structure Untouched (T : String) (s s' : EventStore) : Prop where
  streams : ∀ key, key.1 ≠ T → s'.stream key = s.stream key
  projections : ∀ key, key.1 ≠ T → s'.projections key = s.projections key
  index : ∀ id key e, key.1 ≠ T →
    (s'.eventsById id = some (key, e) ↔ s.eventsById id = some (key, e))

/-- An event of another tenant has the id. -/
def HeldElsewhere (T : String) (s : EventStore) (id : String) : Prop :=
  ∃ key e, s.eventsById id = some (key, e) ∧ key.1 ≠ T

/-- An operation of the tenant answers the same in both stores, leaves them in agreement, and leaves
the other tenants alone. -/
structure Isolated {α : Type} (T : String) (op : Op α) (s s' : EventStore) : Prop where
  answer : answer op s = answer op s'
  agree : Agree T (after op s) (after op s')
  untouched : Untouched T s (after op s)
  untouched' : Untouched T s' (after op s')

theorem Agree.refl (s : EventStore) : Agree T s s :=
  ⟨fun _ => rfl, fun _ => rfl, fun _ _ _ => Iff.rfl⟩

theorem Agree.symm (h : Agree T s s') : Agree T s' s :=
  ⟨fun runId => (h.streams runId).symm, fun runId => (h.projections runId).symm,
    fun id runId e => (h.index id runId e).symm⟩

theorem Untouched.refl (s : EventStore) : Untouched T s s :=
  ⟨fun _ _ => rfl, fun _ _ => rfl, fun _ _ _ _ => Iff.rfl⟩

/-- What one tenant does is not seen by another. -/
theorem Untouched.agree (h : Untouched T s s') {T' : String} (hne : T' ≠ T) : Agree T' s s' :=
  ⟨fun runId => (h.streams (T', runId) hne).symm, fun runId => (h.projections (T', runId) hne).symm,
    fun id runId e => (h.index id (T', runId) e hne).symm⟩

/-! ### Appending -/

/-- The arrays of the streams are their own. -/
def Own (s : EventStore) : Prop :=
  ∀ {key ref}, s.streams key = some ref → ref.2 = key ∧ ref.1 < s.next

/-- Storing an event leaves the other tenants alone. -/
theorem stored_untouched (hown : Own s) (hfresh : s.eventsById event.eventId = none)
    (next : RunProjection) : Untouched event.tenantId s (s.stored event next) := by
  have hne : ∀ key : StreamKey, key.1 ≠ event.tenantId → key ≠ event.key := by
    rintro key h rfl
    exact h rfl
  constructor
  · intro key h
    rw [stored_stream hown, if_neg (hne key h)]
  · intro key h
    rw [stored_projections]
    exact if_neg (hne key h)
  · intro id key e h
    rw [stored_eventsById]
    dsimp only
    split
    · rename_i hid
      subst hid
      rw [hfresh]
      simp only [Option.some.injEq, Prod.mk.injEq, reduceCtorEq, iff_false, not_and]
      rintro rfl
      exact absurd rfl h
    · exact Iff.rfl

/-- **An append leaves the other tenants alone.** -/
theorem append_untouched (hown : Own s) (allowed : RunEvent → Bool) (event : RunEvent) (n : Int) :
    Untouched event.tenantId s (after (appendSynchronous allowed event n) s) := by
  unfold EventStoreState.after
  rcases appendSynchronous_cases allowed event n s with
    ⟨e, h⟩ | ⟨-, h⟩ | ⟨next, -, hfresh, -, -, h⟩
  · rw [h]
    exact .refl s
  · rw [h]
    exact .refl s
  · rw [h]
    exact stored_untouched hown hfresh next

/-- Storing the same event in both stores. -/
theorem Agree.stored (h : Agree T s s') (hown : Own s) (hown' : Own s') (event : RunEvent)
    (next : RunProjection) : Agree T (s.stored event next) (s'.stored event next) := by
  constructor
  · intro runId
    rw [stored_stream hown, stored_stream hown', h.streams]
  · intro runId
    rw [stored_projections, stored_projections]
    dsimp only
    rw [h.projections]
  · intro id runId e
    rw [stored_eventsById, stored_eventsById]
    dsimp only
    split
    · exact Iff.rfl
    · exact h.index id runId e

theorem Agree.nextProjection (h : Agree T s s') (hT : event.tenantId = T) :
    s.nextProjection event = s'.nextProjection event := by
  subst hT
  unfold EventStore.nextProjection
  rw [show s.projections event.key = s'.projections event.key from h.projections _,
    show s.stream event.key = s'.stream event.key from h.streams _]

/-- What the index of both stores has under an id that no other tenant holds, or that another holds
in both. -/
theorem Agree.index_cases (h : Agree T s s') (id : String)
    (hheld : HeldElsewhere T s id ↔ HeldElsewhere T s' id) :
    s.eventsById id = s'.eventsById id ∨ (HeldElsewhere T s id ∧ HeldElsewhere T s' id) := by
  by_cases hs : HeldElsewhere T s id
  · exact .inr ⟨hs, hheld.mp hs⟩
  have hs' : ¬ HeldElsewhere T s' id := fun h' => hs (hheld.mpr h')
  refine .inl ?_
  cases hid : s.eventsById id with
  | some found =>
    obtain ⟨⟨tenantId, runId⟩, e⟩ := found
    obtain rfl : tenantId = T := by
      by_contra hne
      exact hs ⟨_, e, hid, hne⟩
    exact ((h.index id runId e).mp hid).symm
  | none =>
    cases hid' : s'.eventsById id with
    | none => rfl
    | some found =>
      obtain ⟨⟨tenantId, runId⟩, e⟩ := found
      obtain rfl : tenantId = T := by
        by_contra hne
        exact hs' ⟨_, e, hid', hne⟩
      rw [(h.index id runId e).mpr hid'] at hid
      cases hid

/-- An id that another tenant holds is refused, once the guard and the sequence are accepted. -/
theorem held_elsewhere_refused (hT : event.tenantId = T) (h : HeldElsewhere T s event.eventId)
    (allowed : RunEvent → Bool) (n : Int) :
    appendSynchronous allowed event n s =
      .error (if allowed event = false then kafError .KAF_STORAGE_SECURITY_PROFILE
        else if safeSequence n = false then kafError .KAF_SCHEMA_INVALID
        else conflict "event_id_reused") s := by
  obtain ⟨key, e, hid, hne⟩ := h
  have hkey : ¬ (key = event.key ∧ e = event) := by
    rintro ⟨rfl, -⟩
    exact hne hT
  rw [appendSynchronous_eq]
  cases allowed event with
  | false => rfl
  | true =>
    cases safeSequence n with
    | false => rfl
    | true => simp only [hid, hkey, reduceCtorEq, ↓reduceIte]

/-- **An append of a tenant**, in two stores that agree on it. -/
theorem Agree.append (h : Agree T s s') (hown : Own s) (hown' : Own s')
    (hT : event.tenantId = T) (allowed : RunEvent → Bool) (n : Int)
    (hheld : HeldElsewhere T s event.eventId ↔ HeldElsewhere T s' event.eventId) :
    Isolated T (appendSynchronous allowed event n) s s' := by
  have huntouched := append_untouched hown allowed event n
  have huntouched' := append_untouched hown' allowed event n
  rw [hT] at huntouched huntouched'
  suffices hboth : answer (appendSynchronous allowed event n) s =
      answer (appendSynchronous allowed event n) s' ∧
      Agree T (after (appendSynchronous allowed event n) s)
        (after (appendSynchronous allowed event n) s') from
    ⟨hboth.1, hboth.2, huntouched, huntouched'⟩
  unfold answer EventStoreState.after
  rcases h.index_cases event.eventId hheld with hid | ⟨hs, hs'⟩
  · rw [appendSynchronous_eq, appendSynchronous_eq, ← hid,
      ← show s.stream event.key = s'.stream event.key by rw [RunEvent.key, hT]; exact h.streams _,
      ← h.nextProjection hT]
    -- every branch answers the same; only the last one writes
    cases allowed event with
    | false => exact ⟨rfl, h⟩
    | true =>
    cases safeSequence n with
    | false => exact ⟨rfl, h⟩
    | true =>
    cases s.eventsById event.eventId with
    | some found =>
      obtain ⟨key, duplicate⟩ := found
      by_cases hsame : key = event.key ∧ duplicate = event
      · simp only [hsame, and_self, reduceCtorEq, ↓reduceIte]
        exact ⟨trivial, h⟩
      · simp only [hsame, reduceCtorEq, ↓reduceIte]
        exact ⟨trivial, h⟩
    | none =>
      by_cases hsequence : ((s.stream event.key).length : Int) ≠ n ∨
          (event.sequence : Int) ≠ n + 1
      · simp only [hsequence, reduceCtorEq, ↓reduceIte]
        exact ⟨trivial, h⟩
      · simp only [hsequence, reduceCtorEq, ↓reduceIte]
        cases s.nextProjection event with
        | error e => exact ⟨rfl, h⟩
        | ok next => exact ⟨rfl, h.stored hown hown' event next⟩
  · rw [held_elsewhere_refused hT hs, held_elsewhere_refused hT hs']
    exact ⟨rfl, h⟩

/-- A fenced append of a tenant. -/
theorem Agree.appendFenced (h : Agree T s s') (hown : Own s) (hown' : Own s')
    (hT : event.tenantId = T) (allowed : RunEvent → Bool) (active : Except Thrown Unit)
    (lease : StreamKey) (n : Int)
    (hheld : HeldElsewhere T s event.eventId ↔ HeldElsewhere T s' event.eventId) :
    Isolated T (EventStore.appendFenced allowed active lease event n) s s' := by
  have happend := h.append hown hown' hT allowed n hheld
  have hrefused : ∀ e, EventStore.appendFenced allowed active lease event n s = .error e s →
      EventStore.appendFenced allowed active lease event n s' = .error e s' →
      Isolated T (EventStore.appendFenced allowed active lease event n) s s' := by
    intro e hs hs'
    constructor
    · unfold EventStore.answer
      rw [hs, hs']
    · unfold EventStoreState.after
      rw [hs, hs']
      exact h
    · unfold EventStoreState.after
      rw [hs]
      exact .refl s
    · unfold EventStoreState.after
      rw [hs']
      exact .refl s'
  cases active with
  | error e => exact hrefused e rfl rfl
  | ok =>
    cases hallowed : allowed event with
    | false =>
      refine hrefused (kafError .KAF_STORAGE_SECURITY_PROFILE) ?_ ?_ <;>
        simp [EventStore.appendFenced, hallowed]
    | true =>
      by_cases hlease : event.key = lease
      · have heq : EventStore.appendFenced allowed (.ok ()) lease event n =
            appendSynchronous allowed event n := by
          funext t
          simp [EventStore.appendFenced, hallowed, hlease]
        rw [heq]
        exact happend
      · refine hrefused (kafError .KAF_RUNTIME_EVENT_BINDING) ?_ ?_ <;>
          simp [EventStore.appendFenced, hallowed, hlease]

/-! ### Rebuilding a projection -/

theorem rebuildProjection_untouched (runId : String) (s : EventStore) :
    Untouched T s (after (rebuildProjection (T, runId)) s) := by
  unfold EventStoreState.after
  rw [rebuildProjection_eq]
  cases rebuild (s.stream (T, runId)) with
  | error e => exact .refl s
  | ok found =>
    cases found with
    | none => exact .refl s
    | some projection =>
      refine ⟨fun _ _ => rfl, fun key hne => if_neg ?_, fun _ _ _ _ => Iff.rfl⟩
      rintro rfl
      exact hne rfl

/-- **A rebuild of a tenant**, in two stores that agree on it. -/
theorem Agree.rebuildProjection (h : Agree T s s') (runId : String) :
    Isolated T (EventStore.rebuildProjection (T, runId)) s s' := by
  suffices hboth : EventStore.answer (EventStore.rebuildProjection (T, runId)) s =
      EventStore.answer (EventStore.rebuildProjection (T, runId)) s' ∧
      Agree T (after (EventStore.rebuildProjection (T, runId)) s)
        (after (EventStore.rebuildProjection (T, runId)) s') from
    ⟨hboth.1, hboth.2, rebuildProjection_untouched runId s, rebuildProjection_untouched runId s'⟩
  unfold EventStore.answer EventStoreState.after
  rw [rebuildProjection_eq, rebuildProjection_eq, h.streams]
  cases rebuild (s'.stream (T, runId)) with
  | error e => exact ⟨rfl, h⟩
  | ok found =>
    cases found with
    | none => exact ⟨rfl, h⟩
    | some projection =>
      refine ⟨rfl, h.streams, fun runId' => ?_, h.index⟩
      dsimp only
      rw [h.projections]

end EventStore

namespace EventStoreState

open EventStore

/-! ### Runs -/

/-- The arrays of the store and of the snapshots are their own, whatever was restored. -/
structure Owned (s : EventStoreState) : Prop where
  store : Own s.store
  snapshots : ∀ sn ∈ s.snapshots, ∀ {key ref}, sn.streams key = some ref →
    ref.2 = key ∧ ref.1 < s.store.next

theorem Owned.append {s : EventStoreState} (h : Owned s) (allowed : RunEvent → Bool)
    (event : RunEvent) (n : Int) :
    Owned { s with store := after (appendSynchronous allowed event n) s.store } := by
  unfold after
  rcases appendSynchronous_cases allowed event n s.store with
    ⟨e, hrun⟩ | ⟨-, hrun⟩ | ⟨next, -, -, -, -, hrun⟩
  · rw [hrun]
    exact h
  · rw [hrun]
    exact h
  · rw [hrun]
    have hle := stored_next_le s.store event next
    constructor
    · intro key ref href
      dsimp only at href ⊢
      rw [stored_streams] at href
      split at href
      · rename_i hkey
        obtain rfl := Option.some.inj href
        subst hkey
        cases hstream : s.store.streams event.key with
        | none =>
          refine ⟨rfl, ?_⟩
          simp only [EventStore.stored, hstream]
          exact Nat.lt_succ_self _
        | some ref =>
          obtain ⟨hkey, hlt⟩ := h.store hstream
          exact ⟨hkey, Nat.lt_of_lt_of_le hlt hle⟩
      · obtain ⟨hkey, hlt⟩ := h.store href
        exact ⟨hkey, Nat.lt_of_lt_of_le hlt hle⟩
    · intro sn hsn key ref href
      obtain ⟨hkey, hlt⟩ := h.snapshots sn hsn href
      exact ⟨hkey, Nat.lt_of_lt_of_le hlt hle⟩

theorem Owned.step {s : EventStoreState} (h : Owned s) (allowed : RunEvent → Bool)
    (call : EventStoreCall) : Owned (s.step allowed call) := by
  cases call with
  | append event n => exact h.append allowed event n
  | appendFenced active lease event n =>
    show Owned { s with
      store := after (EventStore.appendFenced allowed active lease event n) s.store }
    unfold after
    rcases appendFenced_cases allowed active lease event n s.store with ⟨e, hrun⟩ | hrun
    · rw [hrun]
      exact h
    · rw [hrun]
      have happend := h.append allowed event n
      unfold after at happend
      exact happend
  | dropProjection key => exact ⟨h.store, h.snapshots⟩
  | rebuildProjection key =>
    show Owned { s with store := after (EventStore.rebuildProjection key) s.store }
    unfold after
    rw [rebuildProjection_eq]
    cases rebuild (s.store.stream key) with
    | error e => exact h
    | ok found =>
      cases found with
      | none => exact h
      | some projection => exact ⟨h.store, h.snapshots⟩
  | transactionSnapshot =>
    have hnext : ∀ {m : Nat}, m < s.store.next → m < s.store.next + 1 := Nat.lt_succ_of_lt
    constructor
    · intro key ref href
      obtain ⟨hkey, hlt⟩ := h.store href
      exact ⟨hkey, hnext hlt⟩
    · intro sn hsn key ref href
      rcases List.mem_append.mp hsn with hsn | hsn
      · obtain ⟨hkey, hlt⟩ := h.snapshots sn hsn href
        exact ⟨hkey, hnext hlt⟩
      · rw [List.mem_singleton.mp hsn] at href
        obtain ⟨old, -, rfl⟩ := Option.map_eq_some_iff.mp href
        exact ⟨rfl, Nat.lt_succ_self _⟩
  | transactionRestore n =>
    unfold EventStoreState.step
    dsimp only
    split
    · rename_i sn hsn
      exact ⟨fun href => h.snapshots sn (List.mem_of_getElem? hsn) href, h.snapshots⟩
    · exact h

theorem Owned.run {s : EventStoreState} (h : Owned s) (allowed : RunEvent → Bool)
    (calls : List EventStoreCall) : Owned (s.run allowed calls) := by
  induction calls generalizing s with
  | nil => exact h
  | cons call calls ih => exact ih (h.step allowed call)

theorem owned_initial : Owned initial :=
  ⟨fun h => (by cases h), fun _ h => absurd h List.not_mem_nil⟩

/-- Coherent stores that have the same streams and projections of a tenant have the same entries of
its index. -/
theorem agree_of_coherent {T : String} {s s' : EventStore} (h : s.Coherent) (h' : s'.Coherent)
    (hstreams : ∀ runId, s.stream (T, runId) = s'.stream (T, runId))
    (hprojections : ∀ runId, s.projections (T, runId) = s'.projections (T, runId)) :
    Agree T s s' where
  streams := hstreams
  projections := hprojections
  index id runId e := by
    rw [h.index, h'.index, hstreams]

/-- **The tenants of a store**, after any two sequences of calls. -/
theorem tenant_isolation (allowed : RunEvent → Bool) (T : String)
    (calls calls' : List EventStoreCall) :
    -- where every restored snapshot is intact, streams and projections are all the data there is
    (initial.AllIntact allowed calls → initial.AllIntact allowed calls' →
      (∀ runId, (initial.run allowed calls).store.stream (T, runId) =
        (initial.run allowed calls').store.stream (T, runId)) →
      (∀ runId, (initial.run allowed calls).store.projections (T, runId) =
        (initial.run allowed calls').store.projections (T, runId)) →
      Agree T (initial.run allowed calls).store (initial.run allowed calls').store) ∧
    -- the operations of the tenant answer the same in both stores, and leave the others alone
    (Agree T (initial.run allowed calls).store (initial.run allowed calls').store →
      (∀ runId n, read (initial.run allowed calls).store (T, runId) n =
        read (initial.run allowed calls').store (T, runId) n) ∧
      (∀ runId, getProjection (initial.run allowed calls).store (T, runId) =
        getProjection (initial.run allowed calls').store (T, runId)) ∧
      (∀ runId, Isolated T (rebuildProjection (T, runId)) (initial.run allowed calls).store
        (initial.run allowed calls').store) ∧
      ∀ event n, event.tenantId = T →
        (HeldElsewhere T (initial.run allowed calls).store event.eventId ↔
          HeldElsewhere T (initial.run allowed calls').store event.eventId) →
        Isolated T (appendSynchronous allowed event n) (initial.run allowed calls).store
          (initial.run allowed calls').store ∧
        ∀ active lease, Isolated T (appendFenced allowed active lease event n)
          (initial.run allowed calls).store (initial.run allowed calls').store) ∧
    -- an append leaves the others alone, whoever holds its id
    (∀ event n, event.tenantId = T →
      Untouched T (initial.run allowed calls).store
        (after (appendSynchronous allowed event n) (initial.run allowed calls).store)) ∧
    -- an id that another tenant holds is refused
    ∀ event n, event.tenantId = T →
      HeldElsewhere T (initial.run allowed calls).store event.eventId →
      appendSynchronous allowed event n (initial.run allowed calls).store =
        .error (if allowed event = false then kafError .KAF_STORAGE_SECURITY_PROFILE
          else if safeSequence n = false then kafError .KAF_SCHEMA_INVALID
          else conflict "event_id_reused") (initial.run allowed calls).store := by
  have hown : Own (initial.run allowed calls).store := (owned_initial.run allowed calls).store
  have hown' : Own (initial.run allowed calls').store := (owned_initial.run allowed calls').store
  refine ⟨fun hintact hintact' hstreams hprojections => ?_, fun h => ?_, fun event n hT => ?_,
    fun event n hT hheld => held_elsewhere_refused hT hheld allowed n⟩
  · exact agree_of_coherent (sound_initial.run hintact).coherent
      (sound_initial.run hintact').coherent hstreams hprojections
  · refine ⟨fun runId n => ?_, h.projections, h.rebuildProjection, fun event n hT hheld => ?_⟩
    · unfold EventStore.read
      rw [h.streams]
    · exact ⟨h.append hown hown' hT allowed n hheld,
        fun active lease => h.appendFenced hown hown' hT allowed active lease n hheld⟩
  · subst hT
    exact append_untouched hown allowed event n

/-- The first event of another tenant, under the id of `acceptedEvent`. -/
def otherEvent : RunEvent :=
  { acceptedEvent with tenantId := "other" }

/-- A tenant appends its first event where another has appended one under another id. -/
theorem tenant_isolation_other :
    Isolated "tenant"
      (appendSynchronous (fun _ => true) { acceptedEvent with eventId := "event-3" } 0)
      (initial.run (fun _ => true) [.append otherEvent 0]).store
      (initial.run (fun _ => true) []).store := by
  have huntouched : Untouched "other" (initial.run (fun _ => true) []).store
      (initial.run (fun _ => true) [.append otherEvent 0]).store :=
    append_untouched owned_initial.store (fun _ => true) otherEvent 0
  have hagree : Agree "tenant" (initial.run (fun _ => true) [.append otherEvent 0]).store
      (initial.run (fun _ => true) []).store := (huntouched.agree (by decide)).symm
  refine (((tenant_isolation (fun _ => true) "tenant" [.append otherEvent 0] []).2.1 hagree).2.2.2
    { acceptedEvent with eventId := "event-3" } 0 rfl ⟨?_, ?_⟩).1
  · rintro ⟨key, e, hid, -⟩
    have hnone : (initial.run (fun _ => true) [.append otherEvent 0]).store.eventsById "event-3" =
        none := rfl
    cases hnone.symm.trans hid
  · rintro ⟨key, e, hid, -⟩
    cases hid

/-- The event of a tenant is refused because another tenant has an event under its id. -/
theorem event_id_held_elsewhere :
    ¬ ∀ (allowed : RunEvent → Bool) (T : String) (calls calls' : List EventStoreCall),
      (∀ runId, (initial.run allowed calls).store.stream (T, runId) =
        (initial.run allowed calls').store.stream (T, runId)) →
      (∀ runId, (initial.run allowed calls).store.projections (T, runId) =
        (initial.run allowed calls').store.projections (T, runId)) →
      ∀ event n, event.tenantId = T →
        answer (appendSynchronous allowed event n) (initial.run allowed calls).store =
          answer (appendSynchronous allowed event n) (initial.run allowed calls').store := by
  intro h
  have huntouched : Untouched "other" (initial.run (fun _ => true) []).store
      (initial.run (fun _ => true) [.append otherEvent 0]).store :=
    append_untouched owned_initial.store (fun _ => true) otherEvent 0
  have hagree : Agree "tenant" (initial.run (fun _ => true) []).store
      (initial.run (fun _ => true) [.append otherEvent 0]).store := huntouched.agree (by decide)
  have hsame := h (fun _ => true) "tenant" [] [.append otherEvent 0] hagree.streams
    hagree.projections acceptedEvent 0 rfl
  have hok := congrArg (fun answer => answer.toOption) hsame
  revert hok
  decide

end EventStoreState

end Pactmark
