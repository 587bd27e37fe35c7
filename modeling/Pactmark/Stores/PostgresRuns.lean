import Mathlib.Data.List.Sort
import Pactmark.Durable.Locking
import Pactmark.Durable.Runs
import Pactmark.Stores.EventStoreCoherence

/-!
# Stores — the truth of runs in Postgres

The transactions that write `pactmark_run_events` and `pactmark_run_projections`: those of
`PostgresRunCommandUnitOfWork`, which flush the events and projections that a command or a
transition has staged, and those of `PostgresEventStore`.

Every statement is one step at READ COMMITTED: it sees what is committed and what its own
transaction has written, waits while another transaction holds a lock it needs, and keeps its locks
to the end of the transaction.  What a transaction computes between two statements belongs to the
first of them.  A transaction may be rolled back at any time, also for a reason that is not
modelled.

* `Going`: how far a transaction is, and what it has written so far.
* `Coherent.step`: what every step keeps, if a rebuild that writes has read the events that are
  committed by then.
* `run_truth_coherent`: what holds of every interleaving of such steps.
-/

namespace Pactmark

open Durable

/-- The key of the run of a projection. -/
def RunProjection.key (p : RunProjection) : StreamKey :=
  (p.tenantId, p.runId)

/-! ### Tables and transactions -/

/-- `pactmark_run_events` and `pactmark_run_projections`. -/
structure RunTables where
  events : List RunEvent
  projections : StreamKey → Option RunProjection

/-- What a transaction locks: by `pg_advisory_xact_lock` the scope of a command or a run, by
`FOR UPDATE` or a write a row. -/
inductive RunLock where
  | scope (digest : Digest)
  | run (key : StreamKey)
  | event (key : StreamKey) (sequence : Nat)
  | eventId (tenantId eventId : String)
  | projection (key : StreamKey)
  deriving DecidableEq

/-- The statement that a transaction makes next, with what it goes on with. -/
inductive RunProgram where
  | lock (lock : RunLock) (rest : RunProgram)
  | assertTransitionFence (key : StreamKey) (rest : RunProgram)
  /-- `#flushRunState`: the tail and the event for each event that is staged, the projection and
  the upsert where its projection is staged too. -/
  | tail (base : Option RunProjection) (event : RunEvent) (projected : Bool)
      (rest : List (RunEvent × Bool))
  | insert (next : RunProjection) (event : RunEvent) (projected : Bool)
      (rest : List (RunEvent × Bool))
  | projection (next : RunProjection) (rest : List (RunEvent × Bool))
  | upsert (next : RunProjection) (rest : List (RunEvent × Bool))
  /-- `appendInternal`. -/
  | duplicate (event : RunEvent) (expectedSequence : Nat)
  | position (event : RunEvent) (expectedSequence : Nat)
  | reduce (event : RunEvent) (actual : Nat)
  | append (next : RunProjection) (event : RunEvent)
  /-- `rebuildProjection`. -/
  | select (key : StreamKey)
  | replace (key : StreamKey) (parsed : List RunEvent) (projection : RunProjection)
  /-- `dropProjection`. -/
  | delete (key : StreamKey)
  /-- Nothing but `COMMIT`. -/
  | finished

/-- The run whose projection a rebuild writes next, and the events it has read. -/
def RunProgram.replaces : RunProgram → Option (StreamKey × List RunEvent)
  | .replace key parsed _ => some (key, parsed)
  | _ => none

/-- An open transaction. -/
structure RunTransaction where
  program : RunProgram
  events : List RunEvent
  projections : OrderedMap StreamKey (Option RunProjection)
  locks : List RunLock

/-- The tables, the open transactions, and every projection that was ever committed. -/
structure RunDatabase where
  tables : RunTables
  transactions : OrderedMap Nat RunTransaction
  observed : List (StreamKey × RunProjection)

namespace RunTables

/-- The events of a run. -/
def eventsOfRun (events : List RunEvent) (key : StreamKey) : List RunEvent :=
  events.filter fun event => event.key = key

/-- `ORDER BY sequence`. -/
def ordered (events : List RunEvent) (key : StreamKey) : List RunEvent :=
  (eventsOfRun events key).insertionSort fun a b => a.sequence ≤ b.sequence

/-- `ORDER BY sequence DESC LIMIT 1`, or 0. -/
def tail (events : List RunEvent) (key : StreamKey) : Nat :=
  ((eventsOfRun events key).map (·.sequence)).foldr max 0

/-- `reduceRunEvent` of the projection of the events before, or of the initial one. -/
def reduceFrom (base : Option RunProjection) (event : RunEvent) : Except Thrown RunProjection :=
  match base with
  | some projection => reduceRunEvent projection event
  | none => do
      let projection ← EventStore.initialProjection event
      reduceRunEvent projection event

/-- The primary key or the identity of an event is taken. -/
def violates (events : List RunEvent) (event : RunEvent) : Bool :=
  events.any fun stored =>
    stored.key = event.key ∧ stored.sequence = event.sequence ∨
      stored.tenantId = event.tenantId ∧ stored.eventId = event.eventId

end RunTables

namespace RunTransaction

open RunTables

/-- The events that a statement sees. -/
def seen (t : RunTransaction) (tables : RunTables) : List RunEvent :=
  tables.events ++ t.events

/-- The projection that a statement sees. -/
def seenProjection (t : RunTransaction) (tables : RunTables) (key : StreamKey) :
    Option RunProjection :=
  (t.projections.get key).getD (tables.projections key)

/-- The program that flushes the events, each with whether its projection is staged. -/
def flush (base : Option RunProjection) : List (RunEvent × Bool) → RunProgram
  | [] => .finished
  | (event, projected) :: rest => .tail base event projected rest

/-- What follows an event: its projection, if it is staged, and that of the last event is. -/
def flushAfter (next : RunProjection) (projected : Bool) (rest : List (RunEvent × Bool)) :
    RunProgram :=
  if projected = true ∨ rest = [] then .projection next rest else flush (some next) rest

/-- The transaction after it has written a row of the projections. -/
def write (t : RunTransaction) (key : StreamKey) (projection : Option RunProjection)
    (program : RunProgram) : RunTransaction :=
  { t with projections := t.projections.set key projection, program }

/-- The transaction after it has inserted an event. -/
def insert (t : RunTransaction) (event : RunEvent) (program : RunProgram) : RunTransaction :=
  { t with events := t.events ++ [event], program }

/-- The rows that the insertion of an event locks. -/
def insertLocks (event : RunEvent) : List RunLock :=
  [.event event.key event.sequence, .eventId event.tenantId event.eventId]

/-- **A statement**: the locks it needs and what it leaves, or `none` if the transaction throws. -/
def statement (t : RunTransaction) (tables : RunTables) :
    Option (List RunLock × RunTransaction) :=
  match t.program with
  | .lock lock rest => some ([lock], { t with program := rest })
  | .assertTransitionFence key rest =>
      match t.seenProjection tables key with
      | none => none
      | some _ => some ([.projection key], { t with program := rest })
  | .tail base event projected rest =>
      match reduceFrom base event with
      | .error _ => none
      | .ok next =>
          let sequence := RunTables.tail (t.seen tables) event.key
          if sequence + 1 ≠ event.sequence then none
          else
            some (if sequence = 0 then [] else [.event event.key sequence],
              { t with program := .insert next event projected rest })
  | .insert next event projected rest =>
      if violates (t.seen tables) event then none
      else some (insertLocks event, t.insert event (flushAfter next projected rest))
  | .projection next rest =>
      match t.seenProjection tables next.key with
      | none => some ([], { t with program := .upsert next rest })
      | some previous =>
          if next.lastSequence ≤ previous.lastSequence then none
          else some ([.projection next.key], { t with program := .upsert next rest })
  | .upsert next rest =>
      some ([.projection next.key], t.write next.key (some next) (flush (some next) rest))
  | .duplicate event expectedSequence =>
      match (t.seen tables).find? fun stored =>
          stored.tenantId = event.tenantId ∧ stored.eventId = event.eventId with
      | some stored => if stored = event then some ([], { t with program := .finished }) else none
      | none => some ([], { t with program := .position event expectedSequence })
  | .position event expectedSequence =>
      let actual := RunTables.tail (t.seen tables) event.key
      if actual ≠ expectedSequence ∨ event.sequence ≠ expectedSequence + 1 then none
      else some ([], { t with program := .reduce event actual })
  | .reduce event actual =>
      match t.seenProjection tables event.key with
      | none =>
          if actual ≠ 0 then none
          else
            match reduceFrom none event with
            | .error _ => none
            | .ok next => some ([], { t with program := .append next event })
      | some previous =>
          match reduceFrom (some previous) event with
          | .error _ => none
          | .ok next =>
              some ([.projection event.key], { t with program := .append next event })
  | .append next event =>
      if violates (t.seen tables) event then none
      else some (insertLocks event, t.insert event (.upsert next []))
  | .select key =>
      let parsed := ordered (t.seen tables) key
      match EventStore.rebuild parsed with
      | .error _ => none
      | .ok none => some ([], { t with program := .finished })
      | .ok (some projection) => some ([], { t with program := .replace key parsed projection })
  | .replace key _ projection =>
      some ([.projection key], t.write key (some projection) .finished)
  | .delete key =>
      match t.seenProjection tables key with
      | none => some ([], { t with program := .finished })
      | some _ => some ([.projection key], t.write key none .finished)
  | .finished => some ([], t)

end RunTransaction

/-! ### Interleavings -/

/-- What a transaction is begun for.  A command and a transition have read a projection, or found
none, and stage events, some of them with the projection that is reduced from it, and the last one
always. -/
inductive RunWork where
  | command (scope : Digest) (base : Option (StreamKey × RunProjection))
      (events : List (RunEvent × Bool))
  | transition (key : StreamKey) (base : Option (StreamKey × RunProjection))
      (events : List (RunEvent × Bool))
  | append (event : RunEvent) (expectedSequence : Nat)
  | rebuildProjection (key : StreamKey)
  | dropProjection (key : StreamKey)

/-- The program of a transaction. -/
def RunWork.program : RunWork → RunProgram
  | .command scope base events =>
      .lock (.scope scope) (RunTransaction.flush (base.map (·.2)) events)
  | .transition key base events =>
      .lock (.run key)
        (.assertTransitionFence key (RunTransaction.flush (base.map (·.2)) events))
  | .append event expectedSequence => .lock (.run event.key) (.duplicate event expectedSequence)
  | .rebuildProjection key => .lock (.run key) (.select key)
  | .dropProjection key => .delete key

/-- The projection that the work has read. -/
def RunWork.read : RunWork → Option (StreamKey × RunProjection)
  | .command _ base _ | .transition _ base _ => base
  | _ => none

/-- A step of a transaction. -/
inductive RunStep where
  | begin (id : Nat) (work : RunWork)
  | statement (id : Nat)
  | commit (id : Nat)
  | rollback (id : Nat)

namespace RunDatabase

/-- Empty tables. -/
def start : RunDatabase :=
  ⟨⟨[], fun _ => none⟩, .empty, []⟩

/-- Another open transaction holds one of the locks. -/
def waits (s : RunDatabase) (id : Nat) (locks : List RunLock) : Bool :=
  s.transactions.waits (·.locks) id locks

/-- The tables with what a transaction has written. -/
def committed (tables : RunTables) (t : RunTransaction) : RunTables where
  events := tables.events ++ t.events
  projections key := (t.projections.get key).getD (tables.projections key)

/-- What a step leaves.  One that has to wait, or is not one of an open transaction, leaves the
database as it is. -/
def step (s : RunDatabase) : RunStep → RunDatabase
  | .begin id work =>
      if s.transactions.has id = false ∧ work.read.all fun x => x ∈ s.observed then
        { s with transactions := s.transactions.set id ⟨work.program, [], .empty, []⟩ }
      else s
  | .statement id =>
      match s.transactions.get id with
      | none => s
      | some t =>
          match t.statement s.tables with
          | none => { s with transactions := s.transactions.delete id }
          | some (locks, next) =>
              if s.waits id locks then s
              else
                { s with
                  transactions := s.transactions.set id { next with locks := t.locks ++ locks } }
  | .commit id =>
      match s.transactions.get id with
      | none => s
      | some t =>
          match t.program with
          | .finished =>
              { tables := committed s.tables t
                transactions := s.transactions.delete id
                observed :=
                  s.observed ++ t.projections.entries.filterMap fun x => x.2.map (x.1, ·) }
          | _ => s
  | .rollback id => { s with transactions := s.transactions.delete id }

/-- What a sequence of steps leaves. -/
def after (steps : List RunStep) : RunDatabase :=
  steps.foldl step start

/-- **The condition** on a step: a rebuild that writes has read the events that are committed. -/
def Meets (s : RunDatabase) : RunStep → Prop
  | .statement id => ∀ t ∈ s.transactions.get id, ∀ read ∈ t.program.replaces,
      s.waits id [.projection read.1] = false →
        RunTables.eventsOfRun s.tables.events read.1 = read.2
  | _ => True

instance (s : RunDatabase) : DecidablePred s.Meets
  | .statement id =>
      inferInstanceAs (Decidable (∀ t ∈ s.transactions.get id, ∀ read ∈ t.program.replaces,
        s.waits id [.projection read.1] = false →
          RunTables.eventsOfRun s.tables.events read.1 = read.2))
  | .begin _ _ | .commit _ | .rollback _ => .isTrue trivial

end RunDatabase

/-! ### Folding events -/

namespace RunTables

open EventStore (rebuild)

theorem eventsOfRun_append (events more : List RunEvent) (key : StreamKey) :
    eventsOfRun (events ++ more) key = eventsOfRun events key ++ eventsOfRun more key :=
  List.filter_append _ _

theorem mem_eventsOfRun {events : List RunEvent} {key : StreamKey} {event : RunEvent} :
    event ∈ eventsOfRun events key ↔ event ∈ events ∧ event.key = key := by
  simp [eventsOfRun]

theorem eventsOfRun_eq_self {events : List RunEvent} {key : StreamKey}
    (h : ∀ event ∈ events, event.key = key) : eventsOfRun events key = events :=
  List.filter_eq_self.mpr fun event hevent => decide_eq_true (h event hevent)

theorem eventsOfRun_eq_nil {events : List RunEvent} {key key' : StreamKey}
    (h : ∀ event ∈ events, event.key = key) (hne : key ≠ key') : eventsOfRun events key' = [] :=
  List.filter_eq_nil_iff.mpr fun event hevent => by
    rw [decide_eq_true_eq, h event hevent]
    exact hne

theorem reduceRunEvent_key {p q : RunProjection} {event : RunEvent}
    (h : reduceRunEvent p event = .ok q) :
    event.key = p.key ∧ q.key = p.key ∧ event.sequence = p.lastSequence + 1 ∧
      q.lastSequence = event.sequence := by
  obtain ⟨hfoldable, rfl⟩ := reduceRunEvent_ok.mp h
  simp only [RunEvent.key, RunProjection.key, hfoldable.tenant, hfoldable.run, fold_runId,
    fold_tenantId, fold_lastSequence, hfoldable.sequence, and_self]

theorem initialProjection_key {p : RunProjection} {event : RunEvent}
    (h : EventStore.initialProjection event = .ok p) :
    p.key = event.key ∧ p.lastSequence = 0 := by
  unfold EventStore.initialProjection at h
  split at h
  · split at h
    · obtain rfl := Except.ok.inj h
      exact ⟨rfl, rfl⟩
    · cases h
  · cases h

theorem rebuild_of_foldlM {first : RunEvent} {rest : List RunEvent} {p q : RunProjection}
    (hp : EventStore.initialProjection first = .ok p)
    (hq : (first :: rest).foldlM reduceRunEvent p = .ok q) :
    rebuild (first :: rest) = .ok (some q) := by
  rw [rebuild, hp]
  change some <$> (first :: rest).foldlM reduceRunEvent p = _
  rw [hq]
  rfl

/-- Only the events of a run that has none are folded to no projection. -/
theorem rebuild_eq_none {events : List RunEvent} (h : rebuild events = .ok none) :
    events = [] := by
  cases events with
  | nil => rfl
  | cons first rest =>
    obtain ⟨p, -, h⟩ := bind_eq_ok.mp h
    obtain ⟨q, -, h⟩ := bind_eq_ok.mp h
    cases h

/-- **One more event** is folded into the projection of the events before it. -/
theorem rebuild_snoc_iff {events : List RunEvent} {event : RunEvent} {q : RunProjection} :
    rebuild (events ++ [event]) = .ok (some q) ↔
      ∃ base, rebuild events = .ok base ∧ reduceFrom base event = .ok q := by
  constructor
  · intro h
    obtain ⟨first, rest, p, heq, hfirst, hfold⟩ := EventStore.rebuild_some h
    rw [List.foldlM_append] at hfold
    obtain ⟨base, hbase, hlast⟩ := bind_eq_ok.mp hfold
    rw [List.foldlM_cons] at hlast
    obtain ⟨q', hreduce, hq⟩ := bind_eq_ok.mp hlast
    obtain rfl := Except.ok.inj hq
    cases events with
    | nil =>
      obtain ⟨rfl, rfl⟩ := List.cons.inj heq
      obtain rfl := Except.ok.inj hbase
      exact ⟨none, rfl, bind_eq_ok.mpr ⟨p, hfirst, hreduce⟩⟩
    | cons first' rest' =>
      obtain ⟨rfl, -⟩ := List.cons.inj heq
      exact ⟨some base, rebuild_of_foldlM hfirst hbase, hreduce⟩
  · rintro ⟨base, hbase, hreduce⟩
    cases base with
    | none =>
      obtain rfl := rebuild_eq_none hbase
      obtain ⟨p, hfirst, hreduce⟩ := bind_eq_ok.mp hreduce
      exact EventStore.rebuild_first hfirst hreduce
    | some p => exact EventStore.rebuild_concat hbase hreduce

/-- **The events that are folded** are those of one run, numbered from one. -/
theorem rebuild_spec {events : List RunEvent} {p : RunProjection}
    (h : rebuild events = .ok (some p)) :
    (∀ event ∈ events, event.key = p.key) ∧ p.lastSequence = events.length ∧
      ∀ i event, events[i]? = some event → event.sequence = i + 1 := by
  induction events using List.reverseRecOn generalizing p with
  | nil => cases h
  | append_singleton events event ih =>
    obtain ⟨base, hbase, hreduce⟩ := rebuild_snoc_iff.mp h
    -- the events before are numbered up to their length, and this one follows them
    have hspec : (∀ e ∈ events, e.key = event.key) ∧ event.sequence = events.length + 1 ∧
        p.key = event.key ∧ p.lastSequence = event.sequence ∧
        ∀ i e, events[i]? = some e → e.sequence = i + 1 := by
      cases base with
      | none =>
        obtain rfl := rebuild_eq_none hbase
        obtain ⟨q, hfirst, hreduce⟩ := bind_eq_ok.mp hreduce
        obtain ⟨hq, hlast⟩ := initialProjection_key hfirst
        obtain ⟨-, hp, hsequence, hnext⟩ := reduceRunEvent_key hreduce
        exact ⟨by simp, by simp [hsequence, hlast], hp.trans hq, hnext, by simp⟩
      | some q =>
        obtain ⟨hkeys, hlast, hsequences⟩ := ih hbase
        obtain ⟨hkey, hp, hsequence, hnext⟩ := reduceRunEvent_key hreduce
        exact ⟨fun e he => (hkeys e he).trans hkey.symm, by rw [hsequence, hlast],
          hp.trans hkey.symm, hnext, hsequences⟩
    obtain ⟨hkeys, hsequence, hkey, hnext, hsequences⟩ := hspec
    refine ⟨fun e he => ?_, by rw [hnext, hsequence, List.length_append, List.length_singleton],
      fun i e he => ?_⟩
    · rcases List.mem_append.mp he with he | he
      · exact (hkeys e he).trans hkey.symm
      · rw [List.mem_singleton.mp he, hkey]
    · rw [List.getElem?_append] at he
      split at he
      · exact hsequences i e he
      · rename_i hi
        have hlt := (List.getElem?_eq_some_iff.mp he).1
        obtain rfl : i = events.length := by
          simp only [List.length_singleton] at hlt
          omega
        simp only [Nat.sub_self, List.getElem?_cons_zero, Option.some.injEq] at he
        rw [← he, hsequence]

end RunTables

/-! ### How far a transaction is -/

section Going

open RunTables
open EventStore (rebuild)

variable (tables : RunTables) (t : RunTransaction)

/-- A projection is what the first events of a run are folded to. -/
def Based (key : StreamKey) (base : Option RunProjection) : Prop :=
  ∃ m ≤ (eventsOfRun tables.events key).length,
    rebuild ((eventsOfRun tables.events key).take m) = .ok base

/-- The projection of an event is reduced from what the first events of its run are folded to. -/
def Reduced (event : RunEvent) (next : RunProjection) : Prop :=
  ∃ base, Based tables event.key base ∧ reduceFrom base event = .ok next

variable {tables} in
/-- The run of an event is that of the projection it is reduced from. -/
theorem Based.reduced {key : StreamKey} {base : Option RunProjection} {event : RunEvent}
    {next : RunProjection} (h : Based tables key base)
    (hreduce : reduceFrom base event = .ok next) : Reduced tables event next := by
  obtain ⟨m, hm, hbase⟩ := h
  refine ⟨base, ?_, hreduce⟩
  cases base with
  | none => exact ⟨0, Nat.zero_le _, rfl⟩
  | some p =>
    obtain ⟨hkeys, -⟩ := rebuild_spec hbase
    obtain ⟨first, rest, -, heq, -⟩ := EventStore.rebuild_some hbase
    have hfirst : first ∈ (eventsOfRun tables.events key).take m := by simp [heq]
    have hkey : event.key = key := by
      rw [(reduceRunEvent_key hreduce).1, ← hkeys first hfirst]
      exact (mem_eventsOfRun.mp (List.mem_of_mem_take hfirst)).2
    rw [hkey]
    exact ⟨m, hm, hbase⟩

/-- What is known of the next statement of a transaction that has written nothing. -/
def Reading : RunProgram → Prop
  | .lock _ rest | .assertTransitionFence _ rest => Reading rest
  | .tail base _ _ _ => ∃ key, Based tables key base
  | .insert next event _ _ | .append next event => Reduced tables event next
  | .replace _ parsed projection => rebuild parsed = .ok (some projection)
  | .projection _ _ | .upsert _ _ => False
  | _ => True

/-- The transaction has inserted events of one run, and with them the events of the run are folded
to the projection. -/
structure Wrote (p : RunProjection) : Prop where
  nonempty : t.events ≠ []
  folds : rebuild (eventsOfRun tables.events p.key ++ t.events) = .ok (some p)
  projection : ∀ key projection, t.projections.get key = some projection → key = p.key

/-- The transaction has inserted the events up to those of a projection, and flushes the next. -/
def Flushing (p : RunProjection) (program : RunProgram) : Prop :=
  (∃ event projected rest, program = .tail (some p) event projected rest) ∨
    ∃ next event projected rest, program = .insert next event projected rest ∧
      reduceRunEvent p event = .ok next

/-- **How far a transaction is.** -/
inductive Going : Prop where
  | ready (hevents : t.events = []) (hprojections : ∀ key, t.projections.get key = none)
      (hready : Reading tables t.program)
  | writing {next : RunProjection} (hwrote : Wrote tables t next)
      (hprogram : (∃ rest, t.program = .projection next rest ∨ t.program = .upsert next rest) ∨
        Flushing next t.program)
  | stored {p : RunProjection} (hwrote : Wrote tables t p)
      (hstored : t.projections.get p.key = some (some p))
      (hprogram : t.program = .finished ∨ Flushing p t.program)
  | closed (hevents : t.events = []) (hprogram : t.program = .finished)
      (hfolds : ∀ key p, t.projections.get key = some (some p) →
        rebuild (eventsOfRun tables.events key) = .ok (some p))

/-- The rows that a transaction has written are locked. -/
structure Held : Prop where
  event : ∀ event ∈ t.events, .event event.key event.sequence ∈ t.locks
  projection : ∀ key projection, t.projections.get key = some projection →
    .projection key ∈ t.locks

end Going

/-! ### What a statement does to its transaction -/

section Statement

open RunTables
open EventStore (rebuild)

variable {tables : RunTables} {t next : RunTransaction} {locks : List RunLock}

/-- An event that violates nothing comes after all events that are seen of its run, if its
projection was reduced from the first of them. -/
theorem Reduced.all {event : RunEvent} {p : RunProjection} (h : Reduced tables event p)
    (hfolds : ∀ key, ∃ base, rebuild (eventsOfRun tables.events key) = .ok base)
    (hnew : violates tables.events event = false) :
    rebuild (eventsOfRun tables.events event.key ++ [event]) = .ok (some p) := by
  obtain ⟨base, ⟨m, hm, hbase⟩, hreduce⟩ := h
  have hfirst := rebuild_snoc_iff.mpr ⟨base, hbase, hreduce⟩
  obtain ⟨-, hlast, hsequences⟩ := rebuild_spec hfirst
  have hsequence : event.sequence = m + 1 := by
    have := hsequences m event (by simp [List.length_take, Nat.min_eq_left hm])
    exact this
  rcases Nat.lt_or_eq_of_le hm with hlt | rfl
  · -- the event after the first ones is stored, and has the same sequence
    have hstored := List.getElem?_eq_getElem hlt
    obtain ⟨hmem, hkey⟩ := mem_eventsOfRun.mp (List.mem_of_getElem? hstored)
    obtain ⟨all, hall⟩ := hfolds event.key
    cases all with
    | none =>
      rw [rebuild_eq_none hall] at hlt
      exact absurd hlt (Nat.not_lt_zero m)
    | some q =>
      have hsame := ((rebuild_spec hall).2.2 m _ hstored).trans hsequence.symm
      have hviolates : violates tables.events event = true :=
        List.any_eq_true.mpr ⟨_, hmem, decide_eq_true (.inl ⟨hkey, hsame⟩)⟩
      rw [hnew] at hviolates
      cases hviolates
  · rw [List.take_length] at hfirst
    exact hfirst

/-- A transaction inserts its first event. -/
theorem Reduced.wrote {event : RunEvent} {p : RunProjection} (h : Reduced tables event p)
    (hfolds : ∀ key, ∃ base, rebuild (eventsOfRun tables.events key) = .ok base)
    (hnew : violates tables.events event = false) (hevents : t.events = [])
    (hprojections : ∀ key, t.projections.get key = none) (program : RunProgram) :
    Wrote tables (t.insert event program) p := by
  have hall := h.all hfolds hnew
  obtain ⟨hkeys, -⟩ := rebuild_spec hall
  have hkey : event.key = p.key := hkeys event (by simp)
  refine ⟨by simp [RunTransaction.insert], ?_, fun key projection hget => ?_⟩
  · rw [hkey] at hall
    simpa [RunTransaction.insert, hevents] using hall
  · rw [RunTransaction.insert, hprojections] at hget
    cases hget

/-- A transaction that has written inserts the next event. -/
theorem Wrote.insert {event : RunEvent} {p q : RunProjection} (h : Wrote tables t p)
    (hreduce : reduceRunEvent p event = .ok q) (program : RunProgram) :
    Wrote tables (t.insert event program) q := by
  obtain ⟨-, hkey, -⟩ := reduceRunEvent_key hreduce
  refine ⟨by simp [RunTransaction.insert], ?_, fun key projection hget => ?_⟩
  · rw [hkey, RunTransaction.insert, ← List.append_assoc]
    exact rebuild_snoc_iff.mpr ⟨some p, h.folds, hreduce⟩
  · rw [hkey]
    exact h.projection key projection hget

/-- A transaction that has written goes on. -/
theorem Wrote.goes_on {p : RunProjection} (h : Wrote tables t p) (program : RunProgram) :
    Wrote tables { t with program } p :=
  ⟨h.nonempty, h.folds, h.projection⟩

/-- A transaction that has written upserts the projection. -/
theorem Wrote.stores {p : RunProjection} (h : Wrote tables t p) (rest : List (RunEvent × Bool)) :
    Going tables (t.write p.key (some p) (RunTransaction.flush (some p) rest)) := by
  refine .stored (p := p) ⟨h.nonempty, h.folds, fun key projection hget => ?_⟩
    (OrderedMap.get_set_self _ _ _) ?_
  · rw [RunTransaction.write, OrderedMap.get_set] at hget
    split at hget
    · assumption
    · exact h.projection key projection hget
  · cases rest with
    | nil => exact .inl rfl
    | cons event rest => exact .inr (.inl ⟨event.1, event.2, rest, rfl⟩)

/-- A transaction goes on after it has inserted an event. -/
theorem Wrote.flushes {p : RunProjection} (h : Wrote tables t p) {projected : Bool}
    {rest : List (RunEvent × Bool)}
    (hprogram : t.program = RunTransaction.flushAfter p projected rest) : Going tables t := by
  refine .writing h ?_
  rw [hprogram, RunTransaction.flushAfter]
  split
  · exact .inl ⟨rest, .inl rfl⟩
  · rename_i hrest
    cases rest with
    | nil => exact absurd (.inr rfl) hrest
    | cons event rest => exact .inr (.inl ⟨event.1, event.2, rest, rfl⟩)

/-- **A statement of a transaction that has written nothing.** -/
theorem Reading.statement (hready : Reading tables t.program) (hevents : t.events = [])
    (hprojections : ∀ key, t.projections.get key = none)
    (hfolds : ∀ key, ∃ base, rebuild (eventsOfRun tables.events key) = .ok base)
    (hprojection : ∀ key p, tables.projections key = some p →
      rebuild (eventsOfRun tables.events key) = .ok (some p))
    (hmeets : ∀ key parsed p, t.program = .replace key parsed p →
      eventsOfRun tables.events key = parsed)
    (hs : t.statement tables = some (locks, next)) : Going tables next := by
  have hseen : t.seen tables = tables.events := by
    rw [RunTransaction.seen, hevents, List.append_nil]
  have hseenProjection : ∀ key, t.seenProjection tables key = tables.projections key := by
    intro key
    rw [RunTransaction.seenProjection, hprojections, Option.getD_none]
  have hgoes : ∀ program, Reading tables program → Going tables { t with program } :=
    fun program hready => .ready hevents hprojections hready
  unfold RunTransaction.statement at hs
  cases hprogram : t.program with
  | lock lock rest =>
    rw [hprogram] at hs hready
    obtain ⟨-, rfl⟩ := Prod.mk.inj (Option.some.inj hs)
    exact hgoes _ hready
  | assertTransitionFence key rest =>
    rw [hprogram] at hs hready
    dsimp only at hs
    split at hs
    · cases hs
    · obtain ⟨-, rfl⟩ := Prod.mk.inj (Option.some.inj hs)
      exact hgoes _ hready
  | tail base event projected rest =>
    rw [hprogram] at hs hready
    dsimp only at hs
    split at hs
    · cases hs
    rename_i p hreduce
    split at hs
    · cases hs
    obtain ⟨-, rfl⟩ := Prod.mk.inj (Option.some.inj hs)
    obtain ⟨key, hbased⟩ := hready
    exact hgoes _ (hbased.reduced hreduce)
  | insert p event projected rest =>
    rw [hprogram] at hs hready
    dsimp only at hs
    rw [hseen] at hs
    split at hs
    · cases hs
    rename_i hnew
    obtain ⟨-, rfl⟩ := Prod.mk.inj (Option.some.inj hs)
    exact (Reduced.wrote hready hfolds (Bool.not_eq_true _ ▸ hnew) hevents hprojections _).flushes
      rfl
  | projection p rest => exact (hprogram ▸ hready : Reading tables (.projection p rest)).elim
  | upsert p rest => exact (hprogram ▸ hready : Reading tables (.upsert p rest)).elim
  | duplicate event expectedSequence =>
    rw [hprogram] at hs
    dsimp only at hs
    split at hs
    · split at hs
      · obtain ⟨-, rfl⟩ := Prod.mk.inj (Option.some.inj hs)
        exact hgoes _ trivial
      · cases hs
    · obtain ⟨-, rfl⟩ := Prod.mk.inj (Option.some.inj hs)
      exact hgoes _ trivial
  | position event expectedSequence =>
    rw [hprogram] at hs
    dsimp only at hs
    split at hs
    · cases hs
    · obtain ⟨-, rfl⟩ := Prod.mk.inj (Option.some.inj hs)
      exact hgoes _ trivial
  | reduce event actual =>
    rw [hprogram] at hs
    dsimp only at hs
    rw [hseenProjection] at hs
    split at hs
    · split at hs
      · cases hs
      split at hs
      · cases hs
      rename_i p hreduce
      obtain ⟨-, rfl⟩ := Prod.mk.inj (Option.some.inj hs)
      exact hgoes _ ⟨none, ⟨0, Nat.zero_le _, rfl⟩, hreduce⟩
    · rename_i previous hprevious
      split at hs
      · cases hs
      rename_i p hreduce
      obtain ⟨-, rfl⟩ := Prod.mk.inj (Option.some.inj hs)
      refine hgoes _ ⟨some previous, ⟨_, le_rfl, ?_⟩, hreduce⟩
      rw [List.take_length]
      exact hprojection _ _ hprevious
  | append p event =>
    rw [hprogram] at hs hready
    dsimp only at hs
    rw [hseen] at hs
    split at hs
    · cases hs
    rename_i hnew
    obtain ⟨-, rfl⟩ := Prod.mk.inj (Option.some.inj hs)
    exact .writing (Reduced.wrote hready hfolds (Bool.not_eq_true _ ▸ hnew) hevents
      hprojections _) (.inl ⟨[], .inr rfl⟩)
  | select key =>
    rw [hprogram] at hs
    dsimp only at hs
    split at hs
    · cases hs
    · obtain ⟨-, rfl⟩ := Prod.mk.inj (Option.some.inj hs)
      exact hgoes _ trivial
    · rename_i p hparsed
      obtain ⟨-, rfl⟩ := Prod.mk.inj (Option.some.inj hs)
      exact hgoes _ hparsed
  | replace key parsed p =>
    rw [hprogram] at hs hready
    obtain ⟨-, rfl⟩ := Prod.mk.inj (Option.some.inj hs)
    refine .closed hevents rfl fun k q hget => ?_
    rw [RunTransaction.write, OrderedMap.get_set] at hget
    split at hget
    · rename_i hk
      obtain rfl := Option.some.inj (Option.some.inj hget)
      rw [hk, hmeets key parsed p hprogram]
      exact hready
    · rw [hprojections] at hget
      cases hget
  | delete key =>
    rw [hprogram] at hs
    dsimp only at hs
    split at hs
    · obtain ⟨-, rfl⟩ := Prod.mk.inj (Option.some.inj hs)
      exact hgoes _ trivial
    · obtain ⟨-, rfl⟩ := Prod.mk.inj (Option.some.inj hs)
      refine .closed hevents rfl fun k q hget => ?_
      rw [RunTransaction.write, OrderedMap.get_set] at hget
      split at hget
      · cases hget
      · rw [hprojections] at hget
        cases hget
  | finished =>
    rw [hprogram] at hs
    obtain ⟨-, rfl⟩ := Prod.mk.inj (Option.some.inj hs)
    exact .ready hevents hprojections (by rw [hprogram]; trivial)

/-- **A statement of a transaction that has inserted an event** and writes its projection next. -/
theorem Wrote.statement {p : RunProjection} {rest : List (RunEvent × Bool)}
    (hwrote : Wrote tables t p)
    (hprogram : t.program = .projection p rest ∨ t.program = .upsert p rest)
    (hs : t.statement tables = some (locks, next)) : Going tables next := by
  have hgoes : Going tables { t with program := .upsert p rest } :=
    .writing (hwrote.goes_on _) (.inl ⟨rest, .inr rfl⟩)
  unfold RunTransaction.statement at hs
  rcases hprogram with hprogram | hprogram
  · rw [hprogram] at hs
    dsimp only at hs
    split at hs
    · obtain ⟨-, rfl⟩ := Prod.mk.inj (Option.some.inj hs)
      exact hgoes
    · split at hs
      · cases hs
      · obtain ⟨-, rfl⟩ := Prod.mk.inj (Option.some.inj hs)
        exact hgoes
  · rw [hprogram] at hs
    obtain ⟨-, rfl⟩ := Prod.mk.inj (Option.some.inj hs)
    exact hwrote.stores rest

/-- **A statement of a transaction that flushes the next event**: it is about to insert it, or has
inserted it. -/
theorem Wrote.flushing {p : RunProjection} (hwrote : Wrote tables t p)
    (hprogram : Flushing p t.program) (hs : t.statement tables = some (locks, next)) :
    (∃ program, next = { t with program } ∧ Flushing p program) ∨ Going tables next := by
  unfold RunTransaction.statement at hs
  obtain ⟨event, projected, rest, hprogram⟩ | ⟨q, event, projected, rest, hprogram, hreduce⟩ :=
    hprogram
  · rw [hprogram] at hs
    dsimp only at hs
    split at hs
    · cases hs
    rename_i q hreduce
    split at hs
    · cases hs
    obtain ⟨-, rfl⟩ := Prod.mk.inj (Option.some.inj hs)
    exact .inl ⟨_, rfl, .inr ⟨q, event, projected, rest, rfl, hreduce⟩⟩
  · rw [hprogram] at hs
    dsimp only at hs
    split at hs
    · cases hs
    obtain ⟨-, rfl⟩ := Prod.mk.inj (Option.some.inj hs)
    exact .inr ((hwrote.insert hreduce _).flushes rfl)

/-- **A statement of a transaction**, wherever it is. -/
theorem Going.statement (hgoing : Going tables t)
    (hfolds : ∀ key, ∃ base, rebuild (eventsOfRun tables.events key) = .ok base)
    (hprojection : ∀ key p, tables.projections key = some p →
      rebuild (eventsOfRun tables.events key) = .ok (some p))
    (hmeets : ∀ key parsed p, t.program = .replace key parsed p →
      eventsOfRun tables.events key = parsed)
    (hs : t.statement tables = some (locks, next)) : Going tables next := by
  cases hgoing with
  | ready hevents hprojections hready =>
    exact hready.statement hevents hprojections hfolds hprojection hmeets hs
  | writing hwrote hprogram =>
    rcases hprogram with ⟨rest, hprogram⟩ | hprogram
    · exact hwrote.statement hprogram hs
    obtain ⟨program, rfl, hflushing⟩ | hgoing := hwrote.flushing hprogram hs
    · exact .writing (hwrote.goes_on program) (.inr hflushing)
    · exact hgoing
  | stored hwrote hstored hprogram =>
    rcases hprogram with hprogram | hprogram
    · unfold RunTransaction.statement at hs
      rw [hprogram] at hs
      obtain ⟨-, rfl⟩ := Prod.mk.inj (Option.some.inj hs)
      exact .stored hwrote hstored (.inl hprogram)
    obtain ⟨program, rfl, hflushing⟩ | hgoing := hwrote.flushing hprogram hs
    · exact .stored (hwrote.goes_on program) hstored (.inr hflushing)
    · exact hgoing
  | closed hevents hprogram hover =>
    unfold RunTransaction.statement at hs
    rw [hprogram] at hs
    obtain ⟨-, rfl⟩ := Prod.mk.inj (Option.some.inj hs)
    exact .closed hevents hprogram hover

/-- How far a transaction is does not depend on its locks. -/
theorem Going.with_locks (hgoing : Going tables t) (locks : List RunLock) :
    Going tables { t with locks } := by
  cases hgoing with
  | ready hevents hprojections hready => exact .ready hevents hprojections hready
  | writing hwrote hprogram =>
    exact .writing ⟨hwrote.nonempty, hwrote.folds, hwrote.projection⟩ hprogram
  | stored hwrote hstored hprogram =>
    exact .stored ⟨hwrote.nonempty, hwrote.folds, hwrote.projection⟩ hstored hprogram
  | closed hevents hprogram hover => exact .closed hevents hprogram hover

/-- **What a statement writes**: nothing, an event or a row of the projections. -/
theorem RunTransaction.statement_writes (hs : t.statement tables = some (locks, next)) :
    (next.events = t.events ∧ next.projections = t.projections) ∨
      (∃ event, next.events = t.events ++ [event] ∧ next.projections = t.projections ∧
        locks = insertLocks event) ∨
      ∃ key projection, next.events = t.events ∧
        next.projections = t.projections.set key projection ∧ locks = [.projection key] := by
  have hunchanged : ∀ {held : List RunLock} {program : RunProgram},
      some (held, { t with program }) = some (locks, next) →
        next.events = t.events ∧ next.projections = t.projections := by
    intro held program h
    obtain ⟨-, rfl⟩ := Prod.mk.inj (Option.some.inj h)
    exact ⟨rfl, rfl⟩
  have hinserted : ∀ {event : RunEvent} {program : RunProgram},
      some (insertLocks event, t.insert event program) = some (locks, next) →
        ∃ event, next.events = t.events ++ [event] ∧ next.projections = t.projections ∧
          locks = insertLocks event := by
    intro event program h
    obtain ⟨rfl, rfl⟩ := Prod.mk.inj (Option.some.inj h)
    exact ⟨event, rfl, rfl, rfl⟩
  have hwritten : ∀ {key : StreamKey} {projection : Option RunProjection} {program : RunProgram},
      some ([.projection key], t.write key projection program) = some (locks, next) →
        ∃ key projection, next.events = t.events ∧
          next.projections = t.projections.set key projection ∧ locks = [.projection key] := by
    intro key projection program h
    obtain ⟨rfl, rfl⟩ := Prod.mk.inj (Option.some.inj h)
    exact ⟨key, projection, rfl, rfl, rfl⟩
  unfold RunTransaction.statement at hs
  dsimp only at hs
  repeat' split at hs
  all_goals
    first
    | cases hs
      done
    | exact .inl (hunchanged hs)
    | exact .inr (.inl (hinserted hs))
    | exact .inr (.inr (hwritten hs))

/-- A statement locks what it writes. -/
theorem Held.statement (hheld : Held t) (hs : t.statement tables = some (locks, next)) :
    Held { next with locks := t.locks ++ locks } := by
  obtain ⟨hevents, hprojections⟩ | ⟨event, hevents, hprojections, rfl⟩ |
    ⟨key, projection, hevents, hprojections, rfl⟩ := RunTransaction.statement_writes hs
  · refine ⟨fun e he => ?_, fun k q hget => ?_⟩
    · exact List.mem_append_left _ (hheld.event e (hevents ▸ he))
    · exact List.mem_append_left _ (hheld.projection k q (hprojections ▸ hget))
  · refine ⟨fun e he => ?_, fun k q hget => ?_⟩
    · rw [hevents] at he
      rcases List.mem_append.mp he with he | he
      · exact List.mem_append_left _ (hheld.event e he)
      · rw [List.mem_singleton.mp he]
        exact List.mem_append_right _ List.mem_cons_self
    · exact List.mem_append_left _ (hheld.projection k q (hprojections ▸ hget))
  · refine ⟨fun e he => ?_, fun k q hget => ?_⟩
    · exact List.mem_append_left _ (hheld.event e (hevents ▸ he))
    · rw [hprojections, OrderedMap.get_set] at hget
      split at hget
      · rename_i hk
        rw [hk]
        exact List.mem_append_right _ List.mem_cons_self
      · exact List.mem_append_left _ (hheld.projection k q hget)

end Statement

/-! ### What a commit does to the others -/

section Commit

open RunTables RunDatabase
open EventStore (rebuild)

variable {tables : RunTables} {t t' : RunTransaction}

/-- The events that a transaction has inserted are those of one run. -/
theorem Wrote.key {p : RunProjection} (h : Wrote tables t p) :
    ∀ event ∈ t.events, event.key = p.key := fun event hevent =>
  (rebuild_spec h.folds).1 event (List.mem_append_right _ hevent)

/-- The first event that a transaction has inserted follows the committed events of its run. -/
theorem Wrote.first {p : RunProjection} (h : Wrote tables t p) :
    ∃ event ∈ t.events, event.key = p.key ∧
      event.sequence = (eventsOfRun tables.events p.key).length + 1 := by
  cases hevents : t.events with
  | nil => exact absurd hevents h.nonempty
  | cons event rest =>
    refine ⟨event, List.mem_cons_self, h.key event (hevents ▸ List.mem_cons_self), ?_⟩
    refine (rebuild_spec h.folds).2.2 _ event ?_
    rw [List.getElem?_append_right le_rfl, Nat.sub_self, hevents]
    rfl

/-- Of the runs, only that of the projection gets the events of the transaction. -/
theorem Wrote.eventsOfRun {p : RunProjection} (h : Wrote tables t p) (key : StreamKey) :
    eventsOfRun t.events key = if p.key = key then t.events else [] := by
  split
  · rename_i hkey
    exact eventsOfRun_eq_self fun event hevent => (h.key event hevent).trans hkey
  · rename_i hkey
    exact eventsOfRun_eq_nil h.key hkey

/-- A transaction that has inserted an event and not its projection is not finished. -/
theorem not_finished {p : RunProjection}
    (h : (∃ rest, t.program = .projection p rest ∨ t.program = .upsert p rest) ∨
      Flushing p t.program) : t.program ≠ .finished := by
  obtain ⟨rest, h | h⟩ | ⟨event, projected, rest, h⟩ | ⟨q, event, projected, rest, h, -⟩ := h
  all_goals
    rw [h]
    exact nofun

/-- **What a transaction commits**: no event of the run, or events that with the committed ones are
folded to the projection that it commits. -/
theorem Going.commits (h : Going tables t) (hprogram : t.program = .finished) (key : StreamKey) :
    eventsOfRun t.events key = [] ∨
      ∃ p, p.key = key ∧ Wrote tables t p ∧ t.projections.get key = some (some p) := by
  cases h with
  | ready hevents | closed hevents => exact .inl (by rw [hevents]; rfl)
  | writing _ hnext => exact absurd hprogram (not_finished hnext)
  | @stored p hwrote hstored =>
    rw [hwrote.eventsOfRun]
    split
    · rename_i hkey
      exact .inr ⟨p, hkey, hwrote, hkey ▸ hstored⟩
    · exact .inl rfl

/-- **The projection that a transaction commits** is what the events are folded to after it. -/
theorem Going.commits_fold (h : Going tables t) (hprogram : t.program = .finished)
    {key : StreamKey} {p : RunProjection} (hget : t.projections.get key = some (some p)) :
    rebuild (eventsOfRun (committed tables t).events key) = .ok (some p) := by
  rw [committed, eventsOfRun_append]
  cases h with
  | ready _ hprojections =>
    rw [hprojections] at hget
    cases hget
  | writing _ hnext => exact absurd hprogram (not_finished hnext)
  | @stored q hwrote hstored =>
    obtain rfl := hwrote.projection _ _ hget
    obtain rfl := Option.some.inj (Option.some.inj (hstored.symm.trans hget))
    rw [hwrote.eventsOfRun, if_pos rfl]
    exact hwrote.folds
  | closed hevents _ hfolds =>
    rw [hevents]
    exact (List.append_nil _).symm ▸ hfolds key p hget

/-- What was read before is still what the first events of the run are folded to. -/
theorem Based.committed {key : StreamKey} {base : Option RunProjection}
    (h : Based tables key base) (t : RunTransaction) : Based (committed tables t) key base := by
  obtain ⟨m, hm, hbase⟩ := h
  have happend : RunTables.eventsOfRun (RunDatabase.committed tables t).events key =
      RunTables.eventsOfRun tables.events key ++ RunTables.eventsOfRun t.events key :=
    eventsOfRun_append _ _ _
  refine ⟨m, ?_, ?_⟩
  · rw [happend, List.length_append]
    exact hm.trans (Nat.le_add_right _ _)
  · rw [happend, List.take_append_of_le_length hm]
    exact hbase

theorem Reading.committed {program : RunProgram} (h : Reading tables program) (t : RunTransaction) :
    Reading (committed tables t) program := by
  induction program with
  | lock _ _ ih | assertTransitionFence _ _ ih => exact ih h
  | tail base event projected rest =>
    obtain ⟨key, hbase⟩ := h
    exact ⟨key, hbase.committed t⟩
  | insert | append =>
    obtain ⟨base, hbase, hreduce⟩ := h
    exact ⟨base, hbase.committed t, hreduce⟩
  | projection | upsert => exact h
  | replace => exact h
  | duplicate | position | reduce | select | delete | finished => trivial

/-- Two transactions that hold no lock in common have not both inserted events of one run. -/
theorem Wrote.apart {p q : RunProjection} (h : Wrote tables t p) (h' : Wrote tables t' q)
    (hheld : Held t) (hheld' : Held t') (hapart : ∀ lock ∈ t.locks, lock ∉ t'.locks) :
    p.key ≠ q.key := by
  intro hkey
  obtain ⟨event, hevent, hkey₁, hsequence⟩ := h.first
  obtain ⟨event', hevent', hkey₂, hsequence'⟩ := h'.first
  refine hapart _ (hheld.event event hevent) ?_
  rw [hkey₁, hsequence, hkey, ← hsequence', ← hkey₂]
  exact hheld'.event event' hevent'

theorem Wrote.committed {q : RunProjection} (h' : Wrote tables t' q) (h : Going tables t)
    (hprogram : t.program = .finished) (hheld : Held t) (hheld' : Held t')
    (hapart : ∀ lock ∈ t.locks, lock ∉ t'.locks) : Wrote (committed tables t) t' q := by
  have hnone : RunTables.eventsOfRun t.events q.key = [] := by
    obtain hnone | ⟨p, hkey, hwrote, -⟩ := h.commits hprogram q.key
    · exact hnone
    · exact absurd hkey (hwrote.apart h' hheld hheld' hapart)
  refine ⟨h'.nonempty, ?_, h'.projection⟩
  rw [RunDatabase.committed, eventsOfRun_append, hnone, List.append_nil]
  exact h'.folds

/-- **Another transaction commits.** -/
theorem Going.committed (h' : Going tables t') (h : Going tables t)
    (hprogram : t.program = .finished) (hheld : Held t) (hheld' : Held t')
    (hapart : ∀ lock ∈ t.locks, lock ∉ t'.locks) : Going (committed tables t) t' := by
  cases h' with
  | ready hevents hprojections hready =>
    exact .ready hevents hprojections (hready.committed t)
  | writing hwrote hnext =>
    exact .writing (hwrote.committed h hprogram hheld hheld' hapart) hnext
  | stored hwrote hstored hnext =>
    exact .stored (hwrote.committed h hprogram hheld hheld' hapart) hstored hnext
  | closed hevents hnext hfolds =>
    refine .closed hevents hnext fun key p hget => ?_
    obtain hnone | ⟨q, -, -, hq⟩ := h.commits hprogram key
    · rw [RunDatabase.committed, eventsOfRun_append, hnone, List.append_nil]
      exact hfolds key p hget
    · -- both have written the row of the projection
      exact absurd (hheld'.projection _ _ hget) (hapart _ (hheld.projection _ _ hq))

end Commit

namespace RunDatabase

open RunTables
open EventStore (rebuild)

/-- **The invariant.** -/
structure Coherent (s : RunDatabase) : Prop where
  folds : ∀ key, ∃ base, rebuild (eventsOfRun s.tables.events key) = .ok base
  projection : ∀ key p, s.tables.projections key = some p →
    rebuild (eventsOfRun s.tables.events key) = .ok (some p)
  observed : ∀ x ∈ s.observed, Based s.tables x.1 (some x.2)
  going : ∀ id t, s.transactions.get id = some t → Going s.tables t
  held : ∀ id t, s.transactions.get id = some t → Held t
  exclusive : s.transactions.Exclusive (·.locks)

theorem coherent_start : Coherent start where
  folds _ := ⟨none, rfl⟩
  projection _ _ h := nomatch h
  observed _ h := absurd h List.not_mem_nil
  going _ _ h := nomatch h
  held _ _ h := nomatch h
  exclusive := OrderedMap.exclusive_empty

/-- A transaction begins with nothing written. -/
theorem reading_program {tables : RunTables} {work : RunWork}
    (hread : ∀ x, work.read = some x → Based tables x.1 (some x.2)) :
    Reading tables work.program := by
  have hflush : ∀ (base : Option (StreamKey × RunProjection)) (events : List (RunEvent × Bool)),
      (∀ x, base = some x → Based tables x.1 (some x.2)) →
        Reading tables (RunTransaction.flush (base.map (·.2)) events) := by
    intro base events hbase
    cases events with
    | nil => trivial
    | cons event rest =>
      cases base with
      | none => exact ⟨event.1.key, 0, Nat.zero_le _, rfl⟩
      | some x => exact ⟨x.1, hbase x rfl⟩
  cases work with
  | command scope base events => exact hflush base events hread
  | transition key base events => exact hflush base events hread
  | append event expectedSequence => trivial
  | rebuildProjection key => trivial
  | dropProjection key => trivial

section Steps

variable {s : RunDatabase}

theorem Coherent.begin (h : Coherent s) (id : Nat) (work : RunWork) :
    Coherent (s.step (.begin id work)) := by
  unfold step
  dsimp only
  split
  · rename_i hbegin
    have hready : Reading s.tables work.program := by
      refine reading_program fun x hx => h.observed x ?_
      simpa [hx] using hbegin.2
    refine ⟨h.folds, h.projection, h.observed, fun i t ht => ?_, fun i t ht => ?_,
      h.exclusive.set fun _ _ _ _ hlock => absurd hlock List.not_mem_nil⟩
    · rw [OrderedMap.get_set] at ht
      split at ht
      · obtain rfl := Option.some.inj ht
        exact .ready rfl (fun _ => rfl) hready
      · exact h.going i t ht
    · rw [OrderedMap.get_set] at ht
      split at ht
      · obtain rfl := Option.some.inj ht
        exact ⟨fun _ he => absurd he List.not_mem_nil, by rintro _ _ ⟨⟩⟩
      · exact h.held i t ht
  · exact h

/-- A transaction is gone with all that it has written. -/
theorem Coherent.rollback (h : Coherent s) (id : Nat) :
    Coherent { s with transactions := s.transactions.delete id } :=
  ⟨h.folds, h.projection, h.observed,
    fun i t ht => h.going i t (OrderedMap.get_of_delete ht).2,
    fun i t ht => h.held i t (OrderedMap.get_of_delete ht).2, h.exclusive.delete id⟩

theorem Coherent.statement (h : Coherent s) {id : Nat} (hmeets : s.Meets (.statement id)) :
    Coherent (s.step (.statement id)) := by
  unfold step
  dsimp only
  split
  · exact h
  rename_i t ht
  split
  · exact h.rollback id
  rename_i locks next hs
  split
  · exact h
  rename_i hwaits
  rw [Bool.not_eq_true] at hwaits
  have hread : ∀ key parsed p, t.program = .replace key parsed p →
      eventsOfRun s.tables.events key = parsed := by
    intro key parsed p hprogram
    refine hmeets t ht (key, parsed) (by rw [hprogram]; rfl) ?_
    unfold RunTransaction.statement at hs
    rw [hprogram] at hs
    obtain ⟨rfl, -⟩ := Prod.mk.inj (Option.some.inj hs)
    exact hwaits
  have hnext := (h.going id t ht).statement h.folds h.projection hread hs
  refine ⟨h.folds, h.projection, h.observed, fun i t' ht' => ?_, fun i t' ht' => ?_,
    h.exclusive.set (h.exclusive.free ht hwaits)⟩
  · rw [OrderedMap.get_set] at ht'
    split at ht'
    · obtain rfl := Option.some.inj ht'
      exact hnext.with_locks _
    · exact h.going i t' ht'
  · rw [OrderedMap.get_set] at ht'
    split at ht'
    · obtain rfl := Option.some.inj ht'
      exact (h.held id t ht).statement hs
    · exact h.held i t' ht'

theorem Coherent.commit (h : Coherent s) (id : Nat) : Coherent (s.step (.commit id)) := by
  unfold step
  dsimp only
  split
  · exact h
  rename_i t ht
  split
  swap
  · exact h
  rename_i hprogram
  have hgoing := h.going id t ht
  refine ⟨fun key => ?_, fun key p hp => ?_, fun x hx => ?_, fun i t' ht' => ?_,
    fun i t' ht' => h.held i t' (OrderedMap.get_of_delete ht').2, h.exclusive.delete id⟩
  · obtain hnone | ⟨p, -, -, hp⟩ := hgoing.commits hprogram key
    · rw [committed, eventsOfRun_append, hnone, List.append_nil]
      exact h.folds key
    · exact ⟨some p, hgoing.commits_fold hprogram hp⟩
  · unfold committed at hp
    dsimp only at hp
    cases hget : t.projections.get key with
    | some projection =>
      rw [hget] at hp
      exact hgoing.commits_fold hprogram (hget.trans (congrArg some hp))
    | none =>
      rw [hget] at hp
      obtain hnone | ⟨q, -, -, hq⟩ := hgoing.commits hprogram key
      · rw [committed, eventsOfRun_append, hnone, List.append_nil]
        exact h.projection key p hp
      · rw [hget] at hq
        cases hq
  · rcases List.mem_append.mp hx with hx | hx
    · exact (h.observed x hx).committed t
    · obtain ⟨y, hy, hsome⟩ := List.mem_filterMap.mp hx
      obtain ⟨p, hp, rfl⟩ := Option.map_eq_some_iff.mp hsome
      refine ⟨_, le_rfl, ?_⟩
      rw [List.take_length]
      refine hgoing.commits_fold hprogram (OrderedMap.get_eq_some_iff.mpr ?_)
      rw [← hp]
      exact hy
  · obtain ⟨hne, ht'⟩ := OrderedMap.get_of_delete ht'
    refine (h.going i t' ht').committed hgoing hprogram (h.held id t ht) (h.held i t' ht')
      fun lock hlock hlock' => hne ?_
    exact h.exclusive i id t' t lock ht' ht hlock' hlock

/-- **Every step.** -/
theorem Coherent.step (h : Coherent s) {step : RunStep} (hmeets : s.Meets step) :
    Coherent (s.step step) := by
  cases step with
  | begin id work => exact h.begin id work
  | statement id => exact h.statement hmeets
  | commit id => exact h.commit id
  | rollback id => exact h.rollback id

end Steps

theorem coherent_after {steps : List RunStep} (hsteps : Along RunDatabase.step start Meets steps) :
    Coherent (after steps) :=
  hsteps.invariant coherent_start fun _ _ h hmeets => h.step hmeets

/-- Events that are numbered from one are in the order of their numbers. -/
theorem ordered_eq {events : List RunEvent} {key : StreamKey}
    (h : ∀ i event, (eventsOfRun events key)[i]? = some event → event.sequence = i + 1) :
    ordered events key = eventsOfRun events key := by
  refine List.Pairwise.insertionSort_eq (List.pairwise_iff_getElem.mpr fun i j hi hj hij => ?_)
  rw [h i _ (List.getElem?_eq_getElem hi), h j _ (List.getElem?_eq_getElem hj)]
  exact Nat.succ_le_succ hij.le

/-- **The truth of runs.**  If every rebuild that writes has read the events that are committed by
then, the events of every run are numbered from one without a gap, and its projection, if there is
one, is what they are folded to: in every state, whatever transactions are open. -/
theorem run_truth_coherent {steps : List RunStep}
    (hsteps : Along RunDatabase.step start Meets steps) (key : StreamKey) :
    let tables := (after steps).tables
    (ordered tables.events key).map (·.sequence) =
        List.range' 1 (ordered tables.events key).length ∧
      ∀ p, tables.projections key = some p →
        rebuild (ordered tables.events key) = .ok (some p) := by
  have h := coherent_after hsteps
  have hsequences : ∀ i event, (eventsOfRun (after steps).tables.events key)[i]? = some event →
      event.sequence = i + 1 := by
    obtain ⟨base, hbase⟩ := h.folds key
    cases base with
    | none =>
      rw [rebuild_eq_none hbase]
      exact fun i event hevent => nomatch hevent
    | some p => exact (rebuild_spec hbase).2.2
  dsimp only
  rw [ordered_eq hsequences]
  refine ⟨List.ext_getElem? fun i => ?_, h.projection key⟩
  rw [List.getElem?_map]
  cases hevent : (eventsOfRun (after steps).tables.events key)[i]? with
  | none =>
    have hlength := List.getElem?_eq_none_iff.mp hevent
    exact (List.getElem?_eq_none (by rw [List.length_range']; exact hlength)).symm
  | some event =>
    have hlength := (List.getElem?_eq_some_iff.mp hevent).1
    rw [List.getElem?_range' hlength, Option.map_some, hsequences i event hevent, Nat.one_mul,
      Nat.add_comm]

section Witness

open EventStoreState (acceptedEvent plannedEvent)

/-- A transaction that makes its statements one after the other and commits. -/
def alone (id : Nat) (work : RunWork) (statements : Nat) : List RunStep :=
  .begin id work :: List.replicate statements (.statement id) ++ [.commit id]

/-- A command that accepts the run. -/
def acceptingCommand : List RunStep :=
  alone 0 (.command "commands" none [(acceptedEvent, true)]) 5

/-- A command that has read the projection of the accepted run, and plans its first step. -/
def planningWork : RunWork :=
  .command "commands" (((after acceptingCommand).tables.projections acceptedEvent.key).map
    (acceptedEvent.key, ·)) [(plannedEvent, true)]

/-- The run is accepted, planned and rebuilt, one after the other. -/
theorem run_truth_coherent_rebuilt :
    let steps := acceptingCommand ++ alone 1 planningWork 5 ++
      alone 2 (.rebuildProjection acceptedEvent.key) 3
    let tables := (after steps).tables
    (ordered tables.events acceptedEvent.key).map (·.sequence) =
        List.range' 1 (ordered tables.events acceptedEvent.key).length ∧
      ∀ p, tables.projections acceptedEvent.key = some p →
        rebuild (ordered tables.events acceptedEvent.key) = .ok (some p) :=
  run_truth_coherent (by decide +kernel) acceptedEvent.key

/-- A rebuild reads the first event, a command commits the second one with its projection, and the
rebuild writes that of the first. -/
def staleRebuild : List RunStep :=
  acceptingCommand ++
    [.begin 1 (.rebuildProjection acceptedEvent.key), .statement 1, .statement 1] ++
    alone 2 planningWork 5 ++ [.statement 1, .commit 1]

/-- No transaction is open, and the projection is not what the events are folded to. -/
theorem stale_rebuild_regresses :
    (after staleRebuild).transactions.entries = [] ∧
      ¬ ∀ p, (after staleRebuild).tables.projections acceptedEvent.key = some p →
        rebuild (ordered (after staleRebuild).tables.events acceptedEvent.key) = .ok (some p) := by
  refine ⟨List.isEmpty_iff.mp (by decide +kernel), fun h => ?_⟩
  have hstored : ((after staleRebuild).tables.projections acceptedEvent.key).map
      (·.lastSequence) = some 1 := by
    decide +kernel
  have hlength : (ordered (after staleRebuild).tables.events acceptedEvent.key).length = 2 := by
    decide +kernel
  obtain ⟨p, hp, hlast⟩ := Option.map_eq_some_iff.mp hstored
  have hfold := (rebuild_spec (h p hp)).2.1
  rw [hlength, hlast] at hfold
  exact absurd hfold (by decide)

end Witness

end RunDatabase

end Pactmark
