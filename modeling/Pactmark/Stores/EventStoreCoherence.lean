import Pactmark.Durable.Operations
import Pactmark.Stores.EventStore
import Pactmark.Protocol.Stream

/-!
# Stores — coherence of the event store

`EventStore.Coherent` is what the three maps of the store say of each other: every stream is
numbered from one and begins with `RunAccepted`, the index has exactly the events of the streams,
and a projection is the fold of its stream.

Every call keeps it but one: a snapshot that is restored hands its arrays to the store, later
appends grow them in place, and then the snapshot is no longer what was taken.  `Intact` says
that this has not happened to a snapshot, and `run_coherent` that a store whose callers restore
only intact snapshots stays coherent.
-/

namespace Pactmark

open Durable

namespace EventStore

/-! ### What an append does -/

/-- The store with the event in its stream, in the index and in the projection. -/
def stored (s : EventStore) (event : RunEvent) (next : RunProjection) : EventStore :=
  EventStore.index
    (match s.streams event.key with
    | some ref => s.push ref event
    | none => (s.allocate event.key).push (s.next, event.key) event) event next

theorem store_run (s : EventStore) (event : RunEvent) (next : RunProjection) :
    store event next s = .ok () (s.stored event next) := by
  unfold store stored
  cases h : s.streams event.key with
  | none => simp [h]
  | some ref => simp [h]

/-- `appendSynchronous`, case by case. -/
theorem appendSynchronous_eq (allowed : RunEvent → Bool) (event : RunEvent) (n : Int)
    (s : EventStore) :
    appendSynchronous allowed event n s =
      if allowed event = false then .error (kafError .KAF_STORAGE_SECURITY_PROFILE) s
      else if safeSequence n = false then .error (kafError .KAF_SCHEMA_INVALID) s
      else
        match s.eventsById event.eventId with
        | some (key, duplicate) =>
            if key = event.key ∧ duplicate = event then .ok (duplicate.sequence, true) s
            else .error (conflict "event_id_reused") s
        | none =>
            if (s.stream event.key).length ≠ n ∨ (event.sequence : Int) ≠ n + 1 then
              .error (conflict "event_sequence") s
            else
              match s.nextProjection event with
              | .error e => .error e s
              | .ok next => .ok (event.sequence, false) (s.stored event next) := by
  unfold appendSynchronous
  cases ha : allowed event with
  | false => rfl
  | true =>
    cases hn : safeSequence n with
    | false => rfl
    | true =>
      cases hid : s.eventsById event.eventId with
      | some found =>
        obtain ⟨key, duplicate⟩ := found
        by_cases hd : key = event.key ∧ duplicate = event
        · simp [hid, hd]
        · simp [hid, hd]
      | none =>
        by_cases hs : ((s.stream event.key).length : Int) ≠ n ∨ (event.sequence : Int) ≠ n + 1
        · simp [hid, hs]
        · cases hp : s.nextProjection event with
          | error e => simp [hid, hs, hp]
          | ok next => simp [hid, hs, hp, store_run]

/-- **An append throws, replays or stores.**  In the first two cases it leaves the store as it
was. -/
theorem appendSynchronous_cases (allowed : RunEvent → Bool) (event : RunEvent) (n : Int)
    (s : EventStore) :
    (∃ x, appendSynchronous allowed event n s = .error x s) ∨
    (s.eventsById event.eventId = some (event.key, event) ∧
      appendSynchronous allowed event n s = .ok (event.sequence, true) s) ∨
    (∃ next, allowed event = true ∧ s.eventsById event.eventId = none ∧
      event.sequence = (s.stream event.key).length + 1 ∧ s.nextProjection event = .ok next ∧
      appendSynchronous allowed event n s =
        .ok (event.sequence, false) (s.stored event next)) := by
  rw [appendSynchronous_eq]
  cases ha : allowed event with
  | false => exact .inl ⟨_, rfl⟩
  | true =>
    cases hn : safeSequence n with
    | false => exact .inl ⟨_, rfl⟩
    | true =>
      cases hid : s.eventsById event.eventId with
      | some found =>
        obtain ⟨key, duplicate⟩ := found
        by_cases hd : key = event.key ∧ duplicate = event
        · obtain ⟨rfl, rfl⟩ := hd
          exact .inr (.inl ⟨rfl, by simp⟩)
        · exact .inl ⟨conflict "event_id_reused", by simp [hd]⟩
      | none =>
        by_cases hs : ((s.stream event.key).length : Int) ≠ n ∨ (event.sequence : Int) ≠ n + 1
        · exact .inl ⟨conflict "event_sequence", by simp [hs]⟩
        · cases hp : s.nextProjection event with
          | error x => exact .inl ⟨x, by simp [hs]⟩
          | ok next =>
            refine .inr (.inr ⟨next, rfl, rfl, ?_, rfl, by simp [hs]⟩)
            push Not at hs
            omega

theorem appendFenced_cases (allowed : RunEvent → Bool) (active : Except Thrown Unit)
    (lease : StreamKey) (event : RunEvent) (n : Int) (s : EventStore) :
    (∃ x, appendFenced allowed active lease event n s = .error x s) ∨
      appendFenced allowed active lease event n s = appendSynchronous allowed event n s := by
  unfold appendFenced
  cases active with
  | error x => exact .inl ⟨x, rfl⟩
  | ok u =>
      by_cases ha : allowed event = true
      · by_cases hl : event.key = lease
        · right
          simp [ha, hl]
        · exact .inl ⟨kafError .KAF_RUNTIME_EVENT_BINDING, by simp [ha, hl]⟩
      · exact .inl ⟨kafError .KAF_STORAGE_SECURITY_PROFILE, by simp [ha]⟩

/-! ### Rebuilding a projection -/

theorem rebuildProjection_eq (key : StreamKey) (s : EventStore) :
    rebuildProjection key s =
      match rebuild (s.stream key) with
      | .error e => .error e s
      | .ok none => .ok none s
      | .ok (some projection) =>
          .ok (some projection) { s with
            projections := fun k => if k = key then some projection else s.projections k } := by
  unfold rebuildProjection
  cases h : rebuild (s.stream key) with
  | error e => simp [h]
  | ok found =>
    cases found with
    | none => simp [h]
    | some projection => simp [h]

theorem rebuild_some {events : List RunEvent} {p : RunProjection}
    (h : rebuild events = .ok (some p)) : ∃ first rest q, events = first :: rest ∧
      initialProjection first = .ok q ∧ events.foldlM reduceRunEvent q = .ok p := by
  cases events with
  | nil => cases h
  | cons first rest =>
      obtain ⟨q, hq, h⟩ := bind_eq_ok.mp h
      obtain ⟨p', hp, h⟩ := bind_eq_ok.mp h
      cases h
      exact ⟨first, rest, q, rfl, hq, hp⟩

theorem rebuild_first {e : RunEvent} {p q : RunProjection} (hp : initialProjection e = .ok p)
    (hq : reduceRunEvent p e = .ok q) : rebuild [e] = .ok (some q) := by
  simp [rebuild, hp, hq, bind, Except.bind, pure, Except.pure, Functor.map, Except.map]

theorem rebuild_concat {events : List RunEvent} {e : RunEvent} {p q : RunProjection}
    (h : rebuild events = .ok (some p)) (hq : reduceRunEvent p e = .ok q) :
    rebuild (events ++ [e]) = .ok (some q) := by
  obtain ⟨first, rest, p₀, rfl, hfirst, hfold⟩ := rebuild_some h
  have hfold' : (first :: rest ++ [e]).foldlM reduceRunEvent p₀ = .ok q := by
    rw [List.foldlM_append, hfold]
    simp [hq, bind, Except.bind, pure, Except.pure]
  simp only [List.cons_append, rebuild, hfirst, bind, Except.bind]
  simp only [List.cons_append] at hfold'
  rw [hfold']
  rfl

theorem initialProjection_ok {e : RunEvent} {p : RunProjection}
    (h : initialProjection e = .ok p) : e.eventType = .RunAccepted := by
  unfold initialProjection at h
  split at h
  · rename_i hp
    simp [RunEvent.eventType, hp, EventPayload.eventType]
  · cases h

/-! ### Coherence -/

/-- What the streams, the index and the projections say of each other. -/
structure CoherentMaps (streams : StreamKey → List RunEvent)
    (eventsById : String → Option (StreamKey × RunEvent))
    (projections : StreamKey → Option RunProjection) : Prop where
  sequence : ∀ {key i e}, (streams key)[i]? = some e → e.sequence = i + 1
  folds : ∀ {key}, streams key ≠ [] → ∃ p, rebuild (streams key) = .ok (some p)
  projection : ∀ {key p}, projections key = some p → rebuild (streams key) = .ok (some p)
  index : ∀ {id key e}, eventsById id = some (key, e) ↔ e ∈ streams key ∧ e.eventId = id
  key : ∀ {key e}, e ∈ streams key → e.key = key
  distinct : ∀ {key}, (streams key).Pairwise (·.eventId ≠ ·.eventId)

/-- The maps of the store agree. -/
def Coherent (s : EventStore) : Prop :=
  CoherentMaps s.stream s.eventsById s.projections

section Maps

variable {streams : StreamKey → List RunEvent}
  {eventsById : String → Option (StreamKey × RunEvent)}
  {projections : StreamKey → Option RunProjection}

/-- An event in its stream, in the index and in the projection. -/
theorem CoherentMaps.append (h : CoherentMaps streams eventsById projections) {e : RunEvent}
    {next : RunProjection} (fresh : eventsById e.eventId = none)
    (hseq : e.sequence = (streams e.key).length + 1)
    (hnext : rebuild (streams e.key ++ [e]) = .ok (some next)) :
    CoherentMaps (fun k => if k = e.key then streams k ++ [e] else streams k)
      (fun id => if id = e.eventId then some (e.key, e) else eventsById id)
      (fun k => if k = e.key then some next else projections k) where
  sequence {key i x} hx := by
    split at hx
    · rename_i hk
      rw [List.getElem?_append] at hx
      split at hx
      · exact h.sequence hx
      · rename_i hi
        have hi' : i = (streams key).length := by
          have := (List.getElem?_eq_some_iff.mp hx).1
          simp only [List.length_singleton] at this
          omega
        subst hi'
        simp only [Nat.sub_self, List.getElem?_cons_zero, Option.some.injEq] at hx
        rw [← hx, hseq, hk]
    · exact h.sequence hx
  folds {key} hne := by
    split at hne
    · rename_i hk
      simp only [hk, if_true]
      exact ⟨next, hnext⟩
    · rename_i hk
      simp only [hk, if_false]
      exact h.folds hne
  projection {key p} hp := by
    split at hp
    · rename_i hk
      cases hp
      simp only [hk, if_true]
      exact hnext
    · rename_i hk
      simp only [hk, if_false]
      exact h.projection hp
  index {id key x} := by
    by_cases hid : id = e.eventId
    · subst hid
      simp only [if_true, Option.some.injEq, Prod.mk.injEq]
      constructor
      · rintro ⟨rfl, rfl⟩
        simp
      · rintro ⟨hx, hxid⟩
        have absent : x ∉ streams key := fun hm => by
          have := h.index.mpr ⟨hm, hxid⟩
          rw [fresh] at this
          cases this
        split at hx
        · rename_i hk
          rcases List.mem_append.mp hx with hx | hx
          · exact absurd hx absent
          · exact ⟨hk.symm, (List.mem_singleton.mp hx).symm⟩
        · exact absurd hx absent
    · simp only [hid, if_false]
      rw [h.index]
      constructor
      · rintro ⟨hm, rfl⟩
        refine ⟨?_, rfl⟩
        split
        · exact List.mem_append_left _ hm
        · exact hm
      · rintro ⟨hx, rfl⟩
        refine ⟨?_, rfl⟩
        split at hx
        · rcases List.mem_append.mp hx with hx | hx
          · exact hx
          · rw [List.mem_singleton.mp hx] at hid
            exact absurd rfl hid
        · exact hx
  key {key x} hx := by
    split at hx
    · rename_i hk
      rcases List.mem_append.mp hx with hx | hx
      · exact h.key hx
      · rw [List.mem_singleton.mp hx, hk]
    · exact h.key hx
  distinct {key} := by
    split
    · rw [List.pairwise_append]
      refine ⟨h.distinct, List.pairwise_singleton _ _, fun x hx y hy => ?_⟩
      rw [List.mem_singleton.mp hy]
      intro hid
      have := h.index.mpr ⟨hx, hid⟩
      rw [fresh] at this
      cases this
    · exact h.distinct

/-- Projections may be dropped. -/
theorem CoherentMaps.drop (h : CoherentMaps streams eventsById projections) (key : StreamKey) :
    CoherentMaps streams eventsById fun k => if k = key then none else projections k where
  sequence := h.sequence
  folds := h.folds
  projection {k p} hp := by
    split at hp
    · cases hp
    · exact h.projection hp
  index := h.index
  key := h.key
  distinct := h.distinct

theorem CoherentMaps.rebuilt (h : CoherentMaps streams eventsById projections) {key : StreamKey}
    {p : RunProjection} (hp : rebuild (streams key) = .ok (some p)) :
    CoherentMaps streams eventsById fun k => if k = key then some p else projections k where
  sequence := h.sequence
  folds := h.folds
  projection {k q} hq := by
    split at hq
    · rename_i hk
      cases hq
      rw [hk]
      exact hp
    · exact h.projection hq
  index := h.index
  key := h.key
  distinct := h.distinct

end Maps

/-- What `nextProjection` computes is what a rebuild would. -/
theorem Coherent.next {s : EventStore} (h : s.Coherent) {e : RunEvent} {next : RunProjection}
    (hn : s.nextProjection e = .ok next) :
    rebuild (s.stream e.key ++ [e]) = .ok (some next) := by
  unfold nextProjection at hn
  split at hn
  · rename_i previous hp
    exact rebuild_concat (h.projection hp) hn
  · split at hn
    · cases hn
    · rename_i hlen
      have hnil : s.stream e.key = [] := List.length_eq_zero_iff.mp (not_not.mp hlen)
      cases hi : initialProjection e with
      | error x =>
          rw [hi] at hn
          cases hn
      | ok p =>
          rw [hi] at hn
          rw [hnil]
          exact rebuild_first hi hn

/-! ### Arrays -/

/-- The arrays of the store are its own, and numbered. -/
structure Arrays (s : EventStore) : Prop where
  own : ∀ {key ref}, s.streams key = some ref → ref.2 = key ∧ ref.1 < s.next
  numbered : ∀ {ref i e}, (s.heap ref)[i]? = some e → e.sequence = i + 1

/-- Arrays only grow. -/
structure Grows (s s' : EventStore) : Prop where
  next : s.next ≤ s'.next
  heap : ∀ ref : ArrayRef, ref.1 < s.next → s.heap ref <+: s'.heap ref

theorem Grows.refl (s : EventStore) : Grows s s :=
  ⟨Nat.le_refl _, fun _ _ => List.prefix_refl _⟩

theorem stored_streams (s : EventStore) (e : RunEvent) (next : RunProjection) (k : StreamKey) :
    (s.stored e next).streams k =
      if k = e.key then some ((s.streams e.key).getD (s.next, e.key)) else s.streams k := by
  unfold stored
  cases h : s.streams e.key with
  | none =>
      by_cases hk : k = e.key <;> simp [index, push, allocate, hk]
  | some ref =>
      by_cases hk : k = e.key
      · subst hk
        simp [index, push, h]
      · simp [index, push, hk]

theorem stored_heap_new {s : EventStore} {e : RunEvent} (next : RunProjection)
    (h : s.streams e.key = none) (ref : ArrayRef) :
    (s.stored e next).heap ref = if ref = (s.next, e.key) then [e] else s.heap ref := by
  unfold stored
  rw [h]
  simp only [index, push, allocate]
  split <;> simp

theorem stored_heap_old {s : EventStore} {e : RunEvent} (next : RunProjection) {old : ArrayRef}
    (h : s.streams e.key = some old) (ref : ArrayRef) :
    (s.stored e next).heap ref = if ref = old then s.heap ref ++ [e] else s.heap ref := by
  unfold stored
  rw [h]
  rfl

theorem stored_eventsById (s : EventStore) (e : RunEvent) (next : RunProjection) :
    (s.stored e next).eventsById =
      fun id => if id = e.eventId then some (e.key, e) else s.eventsById id := by
  unfold stored
  split <;> rfl

theorem stored_projections (s : EventStore) (e : RunEvent) (next : RunProjection) :
    (s.stored e next).projections =
      fun k => if k = e.key then some next else s.projections k := by
  unfold stored
  split <;> rfl

theorem stored_next_le (s : EventStore) (e : RunEvent) (next : RunProjection) :
    s.next ≤ (s.stored e next).next := by
  unfold stored
  cases s.streams e.key with
  | none => exact Nat.le_succ _
  | some ref => exact Nat.le_refl _

theorem stored_grows (s : EventStore) (e : RunEvent) (next : RunProjection) :
    Grows s (s.stored e next) := by
  refine ⟨stored_next_le s e next, fun ref hlt => ?_⟩
  cases h : s.streams e.key with
  | none =>
      rw [stored_heap_new next h]
      split
      · rename_i hr
        rw [hr] at hlt
        exact absurd hlt (Nat.lt_irrefl _)
      · exact List.prefix_refl _
  | some old =>
      rw [stored_heap_old next h]
      split
      · exact List.prefix_append _ _
      · exact List.prefix_refl _

/-- The stream of the event has it at its end, and no other stream changes. -/
theorem stored_stream {s : EventStore}
    (own : ∀ {key ref}, s.streams key = some ref → ref.2 = key ∧ ref.1 < s.next) (e : RunEvent)
    (next : RunProjection) (k : StreamKey) :
    (s.stored e next).stream k = if k = e.key then s.stream k ++ [e] else s.stream k := by
  simp only [stream, stored_streams]
  cases hs : s.streams e.key with
  | none =>
      by_cases hk : k = e.key
      · subst hk
        simp [hs, stored_heap_new next hs]
      · simp only [hk, if_false]
        cases hk' : s.streams k with
        | none => rfl
        | some ref =>
            have hlt := (own hk').2
            simp only [Option.elim_some, stored_heap_new next hs]
            rw [if_neg]
            rintro rfl
            exact Nat.lt_irrefl _ hlt
  | some old =>
      by_cases hk : k = e.key
      · subst hk
        simp [hs, stored_heap_old next hs]
      · simp only [hk, if_false]
        cases hk' : s.streams k with
        | none => rfl
        | some ref =>
            simp only [Option.elim_some, stored_heap_old next hs]
            rw [if_neg]
            rintro rfl
            exact hk ((own hk').1.symm.trans (own hs).1)

theorem Arrays.stored_stream {s : EventStore} (h : s.Arrays) (e : RunEvent)
    (next : RunProjection) (k : StreamKey) :
    (s.stored e next).stream k = if k = e.key then s.stream k ++ [e] else s.stream k :=
  EventStore.stored_stream h.own e next k

theorem Arrays.stored {s : EventStore} (h : s.Arrays) {e : RunEvent} (next : RunProjection)
    (hseq : e.sequence = (s.stream e.key).length + 1) : (s.stored e next).Arrays where
  own {key ref} hr := by
    have hle := stored_next_le s e next
    rw [stored_streams] at hr
    split at hr
    · rename_i hk
      cases hs : s.streams e.key with
      | none =>
          rw [hs] at hr
          cases hr
          refine ⟨hk.symm, ?_⟩
          simp [EventStore.stored, hs, index, push, allocate]
      | some old =>
          rw [hs] at hr
          cases hr
          obtain ⟨h₁, h₂⟩ := h.own hs
          exact ⟨h₁.trans hk.symm, Nat.lt_of_lt_of_le h₂ hle⟩
    · obtain ⟨h₁, h₂⟩ := h.own hr
      exact ⟨h₁, Nat.lt_of_lt_of_le h₂ hle⟩
  numbered {ref i x} hx := by
    cases hs : s.streams e.key with
    | none =>
        rw [stored_heap_new next hs] at hx
        split at hx
        · have hlen : s.stream e.key = [] := by simp [stream, hs]
          obtain ⟨hi, hxe⟩ := List.getElem?_eq_some_iff.mp hx
          have hi₀ : i = 0 := by simpa using hi
          subst hi₀
          rw [← hxe, List.getElem_cons_zero, hseq, hlen]
          rfl
        · exact h.numbered hx
    | some old =>
        rw [stored_heap_old next hs] at hx
        split at hx
        · rename_i href
          rw [List.getElem?_append] at hx
          split at hx
          · exact h.numbered hx
          · rename_i hi
            have hi' : i = (s.heap ref).length := by
              have := (List.getElem?_eq_some_iff.mp hx).1
              simp only [List.length_singleton] at this
              omega
            subst hi'
            simp only [Nat.sub_self, List.getElem?_cons_zero, Option.some.injEq] at hx
            rw [← hx, hseq]
            simp [stream, hs, href]
        · exact h.numbered hx

/-! ### Snapshots -/

/-- What was copied into a snapshot is still in its arrays. -/
def Taken (s : EventStore) (sn : EventStoreSnapshot) : Prop :=
  ∃ taken : StreamKey → List RunEvent, CoherentMaps taken sn.eventsById sn.projections ∧
    ∀ key, match sn.streams key with
      | none => taken key = []
      | some ref => ref.2 = key ∧ ref.1 < s.next ∧ taken key <+: s.heap ref

/-- The arrays of the snapshot hold nothing that its index does not have: no event has been
appended to them since the snapshot was taken. -/
def Intact (s : EventStore) (sn : EventStoreSnapshot) : Prop :=
  ∀ key ref, sn.streams key = some ref → ∀ e ∈ s.heap ref,
    sn.eventsById e.eventId = some (key, e)

theorem Taken.mono {s s' : EventStore} {sn : EventStoreSnapshot} (h : Taken s sn)
    (hg : Grows s s') : Taken s' sn := by
  obtain ⟨taken, hc, hs⟩ := h
  refine ⟨taken, hc, fun key => ?_⟩
  have hk := hs key
  split at hk
  · exact hk
  · obtain ⟨h₁, h₂, h₃⟩ := hk
    exact ⟨h₁, Nat.lt_of_lt_of_le h₂ hg.next, h₃.trans (hg.heap _ h₂)⟩

/-- An array of an intact snapshot is what was copied. -/
theorem Intact.array {s : EventStore} {sn : EventStoreSnapshot} {taken : StreamKey → List RunEvent}
    {key : StreamKey} {ref : ArrayRef} (hi : Intact s sn) (ha : s.Arrays)
    (hc : CoherentMaps taken sn.eventsById sn.projections) (hr : sn.streams key = some ref)
    (hp : taken key <+: s.heap ref) : s.heap ref = taken key := by
  obtain ⟨extra, he⟩ := hp
  cases extra with
  | nil => simpa using he.symm
  | cons x extra =>
      exfalso
      have hget : (s.heap ref)[(taken key).length]? = some x := by rw [← he]; simp
      have hx : x.sequence = (taken key).length + 1 := ha.numbered hget
      have hm : x ∈ taken key :=
        (hc.index.mp (hi key ref hr x (List.mem_of_getElem? hget))).1
      obtain ⟨i, hlt, hxi⟩ := List.mem_iff_getElem.mp hm
      have hxs : x.sequence = i + 1 :=
        hc.sequence (by rw [List.getElem?_eq_getElem hlt, hxi])
      omega

end EventStore

/-! ### Whole runs -/

namespace EventStoreState

open EventStore

/-- The invariant of a store and the snapshots of it. -/
structure Sound (s : EventStoreState) : Prop where
  coherent : s.store.Coherent
  arrays : s.store.Arrays
  snapshots : ∀ sn ∈ s.snapshots, Taken s.store sn

/-- The call restores an intact snapshot, if it restores one. -/
def RestoresIntact (s : EventStoreState) : EventStoreCall → Prop
  | .transactionRestore n => ∀ sn, s.snapshots[n]? = some sn → Intact s.store sn
  | _ => True

theorem sound_initial : Sound initial where
  coherent := by
    refine ⟨fun h => ?_, fun h => absurd rfl h, nofun, ?_, fun h => ?_, List.Pairwise.nil⟩
    · cases h
    · simp [initial, empty, EventStore.stream]
    · cases h
  arrays := ⟨nofun, fun h => by cases h⟩
  snapshots := nofun

theorem Sound.appended {s : EventStoreState} (h : Sound s) {e : RunEvent} {next : RunProjection}
    (fresh : s.store.eventsById e.eventId = none)
    (hseq : e.sequence = (s.store.stream e.key).length + 1)
    (hnext : s.store.nextProjection e = .ok next) :
    Sound { s with store := s.store.stored e next } where
  coherent := by
    have hc := CoherentMaps.append h.coherent fresh hseq (h.coherent.next hnext)
    have hstream : (s.store.stored e next).stream =
        fun k => if k = e.key then s.store.stream k ++ [e] else s.store.stream k :=
      funext (h.arrays.stored_stream e next)
    show CoherentMaps (s.store.stored e next).stream (s.store.stored e next).eventsById
      (s.store.stored e next).projections
    rw [hstream, stored_eventsById, stored_projections]
    exact hc
  arrays := h.arrays.stored next hseq
  snapshots sn hsn := (h.snapshots sn hsn).mono (stored_grows _ _ _)

theorem Sound.append {s : EventStoreState} (h : Sound s) (allowed : RunEvent → Bool)
    (e : RunEvent) (n : Int) :
    Sound { s with store := after (appendSynchronous allowed e n) s.store } := by
  unfold after
  rcases appendSynchronous_cases allowed e n s.store with ⟨x, hx⟩ | ⟨-, hx⟩ | ⟨next, -, h₁, h₂, h₃, hx⟩
  · rw [hx]
    exact h
  · rw [hx]
    exact h
  · rw [hx]
    exact h.appended h₁ h₂ h₃

theorem Sound.snapshot {s : EventStoreState} (h : Sound s) (allowed : RunEvent → Bool) :
    Sound (s.step allowed .transactionSnapshot) := by
  have hheap : ∀ ref : ArrayRef, ref.1 < s.store.next →
      (if ref.1 = s.store.next then s.store.stream ref.2 else s.store.heap ref) =
        s.store.heap ref := fun ref hlt => if_neg (Nat.ne_of_lt hlt)
  have hstream : ∀ key, ((s.store.streams key).elim [] fun ref =>
      if ref.1 = s.store.next then s.store.stream ref.2 else s.store.heap ref) =
        s.store.stream key := by
    intro key
    unfold stream
    cases hk : s.store.streams key with
    | none => rfl
    | some ref => exact hheap ref (h.arrays.own hk).2
  refine ⟨?_, ⟨fun {key ref} hr => ?_, fun {ref i e} he => ?_⟩, fun sn hsn => ?_⟩
  · have hstream' : (s.step allowed .transactionSnapshot).store.stream = s.store.stream :=
      funext hstream
    show CoherentMaps _ s.store.eventsById s.store.projections
    rw [hstream']
    exact h.coherent
  · obtain ⟨h₁, h₂⟩ := h.arrays.own hr
    exact ⟨h₁, Nat.lt_succ_of_lt h₂⟩
  · replace he : (if ref.1 = s.store.next then s.store.stream ref.2 else s.store.heap ref)[i]? =
      some e := he
    split at he
    · exact h.coherent.sequence he
    · exact h.arrays.numbered he
  · rcases List.mem_append.mp hsn with hsn | hsn
    · refine (h.snapshots sn hsn).mono ⟨Nat.le_succ _, fun ref hlt => ?_⟩
      have hheap' : (s.step allowed .transactionSnapshot).store.heap ref = s.store.heap ref :=
        hheap ref hlt
      exact hheap'.symm ▸ List.prefix_refl _
    · rw [List.mem_singleton.mp hsn]
      refine ⟨s.store.stream, h.coherent, fun key => ?_⟩
      cases hk : s.store.streams key with
      | none => simp [stream, hk]
      | some ref =>
          have hheap' : (s.step allowed .transactionSnapshot).store.heap (s.store.next, key) =
            s.store.stream key := if_pos rfl
          simp only [hk, Option.map_some]
          exact ⟨trivial, Nat.lt_succ_self _, hheap'.symm ▸ List.prefix_refl _⟩

theorem Sound.restore {s : EventStoreState} (h : Sound s) {sn : EventStoreSnapshot}
    (hm : sn ∈ s.snapshots) (hi : Intact s.store sn) :
    Sound { s with store := after (transactionRestore sn) s.store } := by
  obtain ⟨taken, hc, ht⟩ := h.snapshots sn hm
  have hstream : (fun key => (sn.streams key).elim [] s.store.heap) = taken := by
    funext key
    have hk := ht key
    cases hr : sn.streams key with
    | none =>
        rw [hr] at hk
        exact hk.symm
    | some ref =>
        rw [hr] at hk
        exact hi.array h.arrays hc hr hk.2.2
  refine ⟨?_, ⟨fun {key ref} hr => ?_, h.arrays.numbered⟩, fun x hx =>
    (h.snapshots x hx).mono ⟨Nat.le_refl _, fun _ _ => List.prefix_refl _⟩⟩
  · show CoherentMaps (fun key => (sn.streams key).elim [] s.store.heap) sn.eventsById
      sn.projections
    rw [hstream]
    exact hc
  · have hk := ht key
    replace hr : sn.streams key = some ref := hr
    rw [hr] at hk
    exact ⟨hk.1, hk.2.1⟩

theorem Sound.rebuild {s : EventStoreState} (h : Sound s) (key : StreamKey) :
    Sound { s with store := after (rebuildProjection key) s.store } := by
  unfold after
  rw [rebuildProjection_eq]
  cases hp : EventStore.rebuild (s.store.stream key) with
  | error e => exact h
  | ok out =>
      cases out with
      | none => exact h
      | some p =>
          exact ⟨CoherentMaps.rebuilt h.coherent hp, ⟨h.arrays.own, h.arrays.numbered⟩,
            fun sn hsn => (h.snapshots sn hsn).mono ⟨Nat.le_refl _, fun _ _ => List.prefix_refl _⟩⟩

/-- **Every call keeps the store coherent, unless it restores a snapshot that is not intact.** -/
theorem Sound.step {s : EventStoreState} (h : Sound s) (allowed : RunEvent → Bool)
    {call : EventStoreCall} (hc : s.RestoresIntact call) : Sound (s.step allowed call) := by
  cases call with
  | append e n => exact h.append allowed e n
  | appendFenced active lease e n =>
      simp only [EventStoreState.step, after]
      rcases appendFenced_cases allowed active lease e n s.store with ⟨x, hx⟩ | hx
      · rw [hx]
        exact h
      · rw [hx]
        exact h.append allowed e n
  | dropProjection key =>
      exact ⟨CoherentMaps.drop h.coherent key, ⟨h.arrays.own, h.arrays.numbered⟩,
        fun sn hsn => (h.snapshots sn hsn).mono ⟨Nat.le_refl _, fun _ _ => List.prefix_refl _⟩⟩
  | rebuildProjection key => exact h.rebuild key
  | transactionSnapshot => exact h.snapshot allowed
  | transactionRestore n =>
      simp only [EventStoreState.step]
      split
      · rename_i sn hsn
        exact h.restore (List.mem_of_getElem? hsn) (hc sn hsn)
      · exact h

/-- Every restore among the calls is of an intact snapshot. -/
def AllIntact (allowed : RunEvent → Bool) : EventStoreState → List EventStoreCall → Prop
  | _, [] => True
  | s, call :: calls => s.RestoresIntact call ∧ AllIntact allowed (s.step allowed call) calls

theorem Sound.run {allowed : RunEvent → Bool} {calls : List EventStoreCall} {s : EventStoreState}
    (h : Sound s) (hc : s.AllIntact allowed calls) : Sound (s.run allowed calls) := by
  induction calls generalizing s with
  | nil => exact h
  | cons call calls ih => exact ih (h.step allowed hc.1) hc.2

/-- The guard let every event of the store and of the snapshots pass. -/
structure Guarded (allowed : RunEvent → Bool) (s : EventStoreState) : Prop where
  store : ∀ {id key e}, s.store.eventsById id = some (key, e) → allowed e = true
  snapshots : ∀ sn ∈ s.snapshots, ∀ {id key e}, sn.eventsById id = some (key, e) →
    allowed e = true

theorem Guarded.append {allowed : RunEvent → Bool} {s : EventStoreState} (h : Guarded allowed s)
    (e : RunEvent) (n : Int) :
    Guarded allowed { s with store := after (appendSynchronous allowed e n) s.store } := by
  refine ⟨fun {id key x} hx => ?_, h.snapshots⟩
  unfold after at hx
  rcases appendSynchronous_cases allowed e n s.store with ⟨_, he⟩ | ⟨-, he⟩ | ⟨next, ha, -, -, -, he⟩
  · rw [he] at hx
    exact h.store hx
  · rw [he] at hx
    exact h.store hx
  · rw [he] at hx
    have hids : (s.store.stored e next).eventsById =
        fun id => if id = e.eventId then some (e.key, e) else s.store.eventsById id := by
      unfold EventStore.stored
      split <;> rfl
    simp only [hids] at hx
    split at hx
    · cases hx
      exact ha
    · exact h.store hx

theorem Guarded.step {allowed : RunEvent → Bool} {s : EventStoreState} (h : Guarded allowed s)
    (call : EventStoreCall) : Guarded allowed (s.step allowed call) := by
  cases call with
  | append e n => exact h.append e n
  | appendFenced active lease e n =>
      simp only [EventStoreState.step, after]
      rcases appendFenced_cases allowed active lease e n s.store with ⟨x, hx⟩ | hx
      · rw [hx]
        exact h
      · rw [hx]
        exact h.append e n
  | dropProjection key => exact ⟨h.store, h.snapshots⟩
  | rebuildProjection key =>
      refine ⟨fun {id k e} he => ?_, h.snapshots⟩
      have hids : s.store.eventsById id = some (k, e) → allowed e = true := h.store
      refine hids ?_
      simp only [EventStoreState.step, after, rebuildProjection_eq] at he
      cases hp : EventStore.rebuild (s.store.stream key) with
      | error x =>
          rw [hp] at he
          exact he
      | ok out =>
          rw [hp] at he
          cases out <;> exact he
  | transactionSnapshot =>
      refine ⟨h.store, fun sn hsn => ?_⟩
      rcases List.mem_append.mp hsn with hsn | hsn
      · exact h.snapshots sn hsn
      · rw [List.mem_singleton.mp hsn]
        exact h.store
  | transactionRestore n =>
      simp only [EventStoreState.step]
      split
      · rename_i sn hsn
        exact ⟨h.snapshots sn (List.mem_of_getElem? hsn), h.snapshots⟩
      · exact h

theorem Guarded.run {allowed : RunEvent → Bool} {calls : List EventStoreCall}
    {s : EventStoreState} (h : Guarded allowed s) : Guarded allowed (s.run allowed calls) := by
  induction calls generalizing s with
  | nil => exact h
  | cons call calls ih => exact ih (h.step call)

/-! ### What a caller sees -/

/-- The streams are numbered and begin with `RunAccepted`, the projections are the folds of the
streams, a failed append changes nothing, and neither does the append of an event the store
has. -/
structure Faithful (allowed : RunEvent → Bool) (s : EventStore) : Prop where
  numbered : ∀ {key i e}, (s.stream key)[i]? = some e → e.sequence = i + 1
  distinct : ∀ {key}, (s.stream key).Pairwise (·.eventId ≠ ·.eventId)
  accepted : ∀ {key e}, (s.stream key).head? = some e → e.eventType = .RunAccepted
  projection : ∀ {key p}, s.projections key = some p →
    EventStore.rebuild (s.stream key) = .ok (some p)
  throws : ∀ {e n x s'}, appendSynchronous allowed e n s = .error x s' → s' = s
  throwsFenced : ∀ {active lease e n x s'},
    EventStore.appendFenced allowed active lease e n s = .error x s' → s' = s
  replays : ∀ {key e n}, e ∈ s.stream key → safeSequence n = true →
    appendSynchronous allowed e n s = .ok (e.sequence, true) s
  replaysFenced : ∀ {key e n}, e ∈ s.stream key → safeSequence n = true →
    EventStore.appendFenced allowed (.ok ()) key e n s = .ok (e.sequence, true) s

theorem appendSynchronous_throws {allowed : RunEvent → Bool} {s s' : EventStore} {e : RunEvent}
    {n : Int} {x : Thrown} (h : appendSynchronous allowed e n s = .error x s') : s' = s := by
  rcases appendSynchronous_cases allowed e n s with ⟨y, hy⟩ | ⟨-, hy⟩ | ⟨_, -, -, -, -, hy⟩
  · rw [hy] at h
    cases h
    rfl
  · rw [hy] at h
    cases h
  · rw [hy] at h
    cases h

/-- An event the index has is replayed. -/
theorem appendSynchronous_replays {allowed : RunEvent → Bool} {s : EventStore} {e : RunEvent}
    {n : Int} (hid : s.eventsById e.eventId = some (e.key, e)) (ha : allowed e = true)
    (hn : safeSequence n = true) :
    appendSynchronous allowed e n s = .ok (e.sequence, true) s := by
  rw [appendSynchronous_eq]
  simp [ha, hn, hid]

theorem Sound.faithful {allowed : RunEvent → Bool} {s : EventStoreState} (h : Sound s)
    (hg : Guarded allowed s) : Faithful allowed s.store where
  numbered := h.coherent.sequence
  distinct := h.coherent.distinct
  accepted {key e} he := by
    have hne : s.store.stream key ≠ [] := by
      intro hnil
      rw [hnil] at he
      cases he
    obtain ⟨p, hp⟩ := h.coherent.folds hne
    obtain ⟨first, rest, q, hs, hq, -⟩ := rebuild_some hp
    rw [hs] at he
    cases he
    exact initialProjection_ok hq
  projection := h.coherent.projection
  throws := appendSynchronous_throws
  throwsFenced {active lease e n x s'} hx := by
    rcases appendFenced_cases allowed active lease e n s.store with ⟨y, hy⟩ | hy
    · rw [hy] at hx
      cases hx
      rfl
    · rw [hy] at hx
      exact appendSynchronous_throws hx
  replays {key e n} he hn := by
    have hid := h.coherent.index.mpr ⟨he, rfl⟩
    refine appendSynchronous_replays ?_ (hg.store hid) hn
    rw [hid, h.coherent.key he]
  replaysFenced {key e n} he hn := by
    have hid := h.coherent.index.mpr ⟨he, rfl⟩
    have hkey := h.coherent.key he
    have ha := hg.store hid
    have hr : appendSynchronous allowed e n s.store = .ok (e.sequence, true) s.store :=
      appendSynchronous_replays (by rw [hid, hkey]) ha hn
    simp [EventStore.appendFenced, ha, hkey, hr]

/-- **A store whose callers restore only intact snapshots is faithful.** -/
theorem run_faithful (allowed : RunEvent → Bool) (calls : List EventStoreCall)
    (hc : initial.AllIntact allowed calls) : Faithful allowed (initial.run allowed calls).store :=
  (sound_initial.run hc).faithful (Guarded.run ⟨nofun, nofun⟩)

section Witness

/-- The first event of a run. -/
def acceptedEvent : RunEvent where
  eventId := "event-1"
  runId := "run"
  tenantId := "tenant"
  sequence := 1
  occurredAt := 0
  correlationId := "run"
  dataClass := .internal
  executionDefinition := .agent "agent" "1" "definition"
  executionDefinitionDigest := "definition"
  payload := .RunAccepted "work-order" "binding" []

/-- The second event of a run. -/
def plannedEvent : RunEvent :=
  { acceptedEvent with
    eventId := "event-2"
    sequence := 2
    payload := .PlanningStarted "step-1" }

/-- The snapshot after one event, rolled back to once. -/
theorem run_faithful_restored_once :
    initial.AllIntact (fun _ => true)
      [.append acceptedEvent 0, .transactionSnapshot, .append plannedEvent 1,
        .transactionRestore 0] ∧
    Faithful (fun _ => true) (initial.run (fun _ => true)
      [.append acceptedEvent 0, .transactionSnapshot, .append plannedEvent 1,
        .transactionRestore 0]).store := by
  have hc : initial.AllIntact (fun _ => true)
      [.append acceptedEvent 0, .transactionSnapshot, .append plannedEvent 1,
        .transactionRestore 0] := by
    refine ⟨trivial, trivial, trivial, ?_, trivial⟩
    intro sn hsn key ref hr e he
    cases hsn
    by_cases hk : key = ("tenant", "run")
    · subst hk
      cases hr
      cases he with
      | head => rfl
      | tail _ h => cases h
    · replace hr : Option.map (fun _ => (1, key))
        (if key = ("tenant", "run") then some (0, ("tenant", "run")) else none) = some ref := hr
      rw [if_neg hk] at hr
      cases hr
  exact ⟨hc, run_faithful (fun _ => true) _ hc⟩

/-- A snapshot that is restored, appended to and restored again has a stream its projection knows
nothing of. -/
theorem restored_twice_not_faithful :
    ¬ ∀ (allowed : RunEvent → Bool) (calls : List EventStoreCall),
      Faithful allowed (initial.run allowed calls).store := by
  intro h
  have hp : EventStore.rebuild [acceptedEvent, plannedEvent] =
      .ok (some ((createRunProjection (acceptedEvent.run "work-order" "binding")).fold
        acceptedEvent)) :=
    @Faithful.projection _ _ (h (fun _ => true) [.append acceptedEvent 0, .transactionSnapshot,
      .transactionRestore 0, .append plannedEvent 1, .transactionRestore 0]) ("tenant", "run") _
      rfl
  have hlast := congrArg (·.toOption.join.map (·.lastSequence)) hp
  exact absurd hlast (by decide)

end Witness

end EventStoreState

end Pactmark
