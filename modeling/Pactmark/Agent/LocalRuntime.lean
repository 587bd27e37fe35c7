import Pactmark.Durable.Runs
import Pactmark.Protocol.Replay
import Pactmark.Runtime.Kernel
import Pactmark.Stores.Leases

/-!
# Agent — the local runtime

`start` and `wait` of the facade of `createLocalRuntime` in `agent/src/runtime.ts`, with the part
of `execute` of `runtime/src/runtime.ts` around the body of an execution: the status it reads, the
lease it takes and gives back.  A start that is replayed answers the stored run, and executes it
once more.  The facade keeps one promise for a run; an execution that is fulfilled, and a wait that
ends, delete whatever promise is there.

One run is followed, from one await to the next.  What the body of an execution appends is any
sequence of events the reducer and the stores accept.

* `advance_stores`: an execution changes the run only while its body runs.
* `Phase.Quiet.advance`: what a replay does once the first execution is over.
* `Peaceful.step`, `replay_harmless`: when a replay does no harm.
* `replay_rejects_wait`: a wait that a replay makes fail.
-/

namespace Pactmark

open Durable

/-- The statuses in which `execute` parks a run. -/
def RunStatus.parks : RunStatus → Bool
  | .waiting_for_input | .waiting_for_approval | .suspended => true
  | _ => false

/-- What the stores hold of a run, and the record of the command that started it.  With an event
stands which execution has appended it, if it was not the start. -/
structure RunStores where
  command : Option String
  leases : MemoryRunLeaseStore
  events : List (Option Nat × RunEvent)
  projection : Option RunProjection

/-- `leaseHolderId` and `leaseTtlMs` of the kernel. -/
structure LeaseConfig where
  leaseHolderId : String
  leaseTtlMs : Int

namespace LocalRuntime

/-! ### One execution -/

/-- Where a call of `execute` is: before its first step, with the projection it has read, in its
body, at the `finally` block with the result of the body, and at its end. -/
inductive Phase where
  | scheduled
  | checked (projection : RunProjection)
  | executing (lease : FencedLease)
  | releasing (lease : FencedLease) (result : Except Thrown ExecutionStatus)
  | settled (result : Except Thrown ExecutionStatus)

/-- What an execution goes on with.  `checks` is what the authority, or the work order and the
registry throw there; `generated` is a lease identity, and `now` what the clock answers.  The body
appends an event to the projection it has. -/
inductive ExecutionEvent where
  | read (checks : Except Thrown Unit)
  | acquire (checks : Except Thrown Unit) (now : ClockReading) (generated : Except Thrown String)
  | renew (now : ClockReading)
  | append (projection : RunProjection) (event : RunEvent)
  | finish (result : Except Thrown ExecutionStatus)
  | release

/-- `getRun`. -/
def getRun (checks : Except Thrown Unit) (stores : RunStores) : Except Thrown RunProjection :=
  match checks with
  | .error e => .error e
  | .ok () =>
      match stores.projection with
      | none => .error (kafError .KAF_STORAGE_NOT_FOUND)
      | some projection => .ok projection

variable (config : LeaseConfig)

/-- What the `i`th execution does next. -/
def advance (i : Nat) (stores : RunStores) : Phase → ExecutionEvent → Phase × RunStores
  | .scheduled, .read checks =>
      match getRun checks stores with
      | .error e => (.settled (.error e), stores)
      | .ok projection =>
          if projection.status.terminal then
            (.settled (.ok projection.status.toExecutionStatus), stores)
          else (.checked projection, stores)
  | .checked projection, .acquire checks now generated =>
      match checks with
      | .error e => (.settled (.error e), stores)
      | .ok () =>
          match stores.leases.acquire projection.tenantId projection.runId config.leaseHolderId
              config.leaseTtlMs now generated with
          | (.error e, leases) => (.settled (.error e), { stores with leases })
          | (.ok none, leases) =>
              (.settled (.error (kafError .KAF_STORAGE_CONCURRENCY_CONFLICT)),
                { stores with leases })
          | (.ok (some lease), leases) =>
              if projection.status.parks then
                (.releasing lease (.ok .parked), { stores with leases })
              else (.executing lease, { stores with leases })
  | .executing lease, .renew now =>
      match stores.leases.renew lease config.leaseTtlMs now with
      | (.error _, leases) => (.executing lease, { stores with leases })
      | (.ok renewed, leases) => (.executing renewed, { stores with leases })
  | .executing lease, .append projection event =>
      match reduceRunEvent projection event with
      | .error _ => (.executing lease, stores)
      | .ok next =>
          if event.sequence = stores.events.length + 1 then
            (.executing lease,
              { stores with
                events := stores.events ++ [(some i, event)]
                projection := some next })
          else (.executing lease, stores)
  | .executing lease, .finish result => (.releasing lease result, stores)
  | .releasing lease result, .release =>
      match stores.leases.release lease with
      | (.error e, leases) => (.settled (.error e), { stores with leases })
      | (.ok (), leases) => (.settled result, { stores with leases })
  | phase, _ => (phase, stores)

/-- The lease store grants a run's lease: the arguments of `acquire` are in order, and no lease of
the run is active that is not over. -/
def Granted (leases : MemoryRunLeaseStore) (projection : RunProjection) (now : ClockReading)
    (generated : Except Thrown String) : Prop :=
  ∃ nowMs leaseId lease,
    MemoryRunLeaseStore.acquireInstant projection.tenantId projection.runId config.leaseHolderId
      config.leaseTtlMs now = .ok nowMs ∧
    leases.held (projection.tenantId, projection.runId) nowMs = false ∧
    generated = .ok leaseId ∧ now.iso = true ∧
    MemoryRunLeaseStore.parseLease
      { leaseId
        tenantId := projection.tenantId
        runId := projection.runId
        holderId := config.leaseHolderId
        fencingToken := leases.lastFencingToken (projection.tenantId, projection.runId) + 1
        acquiredAt := nowMs
        expiresAt := nowMs + config.leaseTtlMs
        state := .active } = .ok lease

variable {config} {i : Nat} {stores : RunStores} {phase : Phase} {event : ExecutionEvent}

/-- **A lease that is granted** is one the schema accepts. -/
theorem acquire_granted {projection : RunProjection} {now : ClockReading}
    {generated : Except Thrown String}
    (h : Granted config stores.leases projection now generated) :
    ∃ lease leases, lease.parses = true ∧
      stores.leases.acquire projection.tenantId projection.runId config.leaseHolderId
        config.leaseTtlMs now generated = (.ok (some lease), leases) := by
  obtain ⟨nowMs, leaseId, lease, hinstant, hheld, rfl, hiso, hparse⟩ := h
  have hparses : lease.parses = true := by
    have heq := MemoryRunLeaseStore.parseLease_ok hparse
    unfold MemoryRunLeaseStore.parseLease at hparse
    split at hparse
    · cases hparse
    split at hparse
    · rename_i hparses
      rw [heq]
      exact hparses
    · cases hparse
  refine ⟨lease, _, hparses, Prod.ext ?_ rfl⟩
  simp [MemoryRunLeaseStore.acquire, hinstant, hheld, hiso, hparse]

/-- **A lease that is still the stored one** is released. -/
theorem release_current {leases : MemoryRunLeaseStore} {lease : FencedLease}
    (hparses : lease.parses = true) (h : leases.current lease ≠ none) :
    ∃ leases', leases.release lease = (.ok (), leases') := by
  obtain ⟨current, hcurrent⟩ := Option.ne_none_iff_exists'.mp h
  simp [MemoryRunLeaseStore.release, MemoryRunLeaseStore.parseInput, hparses, hcurrent]

@[simp] theorem advance_settled (result : Except Thrown ExecutionStatus) :
    advance config i stores (.settled result) event = (.settled result, stores) := by
  cases event <;> rfl

/-- An execution whose body runs. -/
def Phase.isExecuting : Phase → Bool
  | .executing _ => true
  | _ => false

variable (config i stores event) in
/-- **Only the body** of an execution changes the run. -/
theorem advance_stores (h : phase.isExecuting = false) :
    (advance config i stores phase event).2.events = stores.events ∧
      (advance config i stores phase event).2.projection = stores.projection := by
  unfold advance
  split
  · split
    · exact ⟨rfl, rfl⟩
    · split <;> exact ⟨rfl, rfl⟩
  · split
    · exact ⟨rfl, rfl⟩
    · split
      · exact ⟨rfl, rfl⟩
      · exact ⟨rfl, rfl⟩
      · split <;> exact ⟨rfl, rfl⟩
  · cases h
  · cases h
  · cases h
  · split <;> exact ⟨rfl, rfl⟩
  · exact ⟨rfl, rfl⟩

variable (config i stores phase event) in
/-- The record of the command stays, and every event is of before or the execution's own. -/
theorem advance_events :
    (advance config i stores phase event).2.command = stores.command ∧
      ∀ x ∈ (advance config i stores phase event).2.events, x ∈ stores.events ∨ x.1 = some i := by
  have hkeep : ∀ x ∈ stores.events, x ∈ stores.events ∨ x.1 = some i := fun x hx => .inl hx
  unfold advance
  split
  · split
    · exact ⟨rfl, hkeep⟩
    · split <;> exact ⟨rfl, hkeep⟩
  · split
    · exact ⟨rfl, hkeep⟩
    · split
      · exact ⟨rfl, hkeep⟩
      · exact ⟨rfl, hkeep⟩
      · split <;> exact ⟨rfl, hkeep⟩
  · split <;> exact ⟨rfl, hkeep⟩
  · split
    · exact ⟨rfl, hkeep⟩
    · split
      · -- The event is appended.
        refine ⟨rfl, fun x hx => ?_⟩
        rcases List.mem_append.mp hx with hx | hx
        · exact .inl hx
        · rw [List.mem_singleton.mp hx]
          exact .inr rfl
      · exact ⟨rfl, hkeep⟩
  · exact ⟨rfl, hkeep⟩
  · split <;> exact ⟨rfl, hkeep⟩
  · exact ⟨rfl, hkeep⟩

/-- A run stays known. -/
theorem advance_projection (h : stores.projection ≠ none) :
    (advance config i stores phase event).2.projection ≠ none := by
  by_cases hexecuting : phase.isExecuting = true
  · cases phase with
    | executing lease =>
      cases event with
      | append projection event =>
        simp only [advance]
        split
        · exact h
        · split
          · exact Option.some_ne_none _
          · exact h
      | renew now =>
        simp only [advance]
        split <;> exact h
      | read checks | acquire checks now generated | finish result | release => exact h
    | scheduled | checked projection | releasing lease result | settled result =>
      cases hexecuting
  · rw [(advance_stores config i stores event (eq_false_of_ne_true hexecuting)).2]
    exact h

/-! ### The execution of a replay -/

/-- The run is over or parked. -/
def RunStores.AtRest (stores : RunStores) : Prop :=
  ∃ projection, stores.projection = some projection ∧
    (projection.status.terminal = true ∨ projection.status.parks = true)

/-- What the execution of a replay may not meet: `first` says that the first execution is over.
It reads a run that is over or parked, is granted the lease, and has it when it gives it back. -/
def Phase.Undisturbed (config : LeaseConfig) (first : Prop) (stores : RunStores) :
    Phase → ExecutionEvent → Prop
  | .scheduled, .read checks => first ∧ checks = .ok () ∧ RunStores.AtRest stores
  | .checked projection, .acquire checks now generated =>
      checks = .ok () ∧ Granted config stores.leases projection now generated
  | .releasing lease _, .release => stores.leases.current lease ≠ none
  | _, _ => True

/-- How far the execution of a replay gets that is not disturbed: it is parked, or has found the
run over. -/
def Phase.Quiet (first : Prop) : Phase → Prop
  | .scheduled => True
  | .checked projection => first ∧ projection.status.parks = true
  | .executing _ => False
  | .releasing lease result => first ∧ lease.parses = true ∧ result = .ok .parked
  | .settled result => first ∧ ∃ status, result = .ok status

theorem Phase.Quiet.not_executing {first : Prop} (h : phase.Quiet first) :
    phase.isExecuting = false := by
  cases phase with
  | executing lease => exact h.elim
  | scheduled | checked projection | releasing lease result | settled result => rfl

theorem Phase.Quiet.mono {first first' : Prop} (h : phase.Quiet first) (hf : first → first') :
    phase.Quiet first' := by
  cases phase with
  | scheduled => trivial
  | checked projection => exact ⟨hf h.1, h.2⟩
  | executing lease => exact h
  | releasing lease result => exact ⟨hf h.1, h.2⟩
  | settled result => exact ⟨hf h.1, h.2⟩

/-- **A replay that is not disturbed** stays quiet. -/
theorem Phase.Quiet.advance {first : Prop} (h : phase.Quiet first)
    (hu : phase.Undisturbed config first stores event) :
    (advance config i stores phase event).1.Quiet first := by
  cases phase with
  | scheduled =>
    cases event with
    | read checks =>
      obtain ⟨hfirst, rfl, projection, hprojection, hrest⟩ := hu
      simp only [LocalRuntime.advance, getRun, hprojection]
      by_cases hterminal : projection.status.terminal = true
      · rw [if_pos hterminal]
        exact ⟨hfirst, _, rfl⟩
      · rw [if_neg hterminal]
        exact ⟨hfirst, hrest.resolve_left hterminal⟩
    | acquire checks now generated | renew now | append projection event | finish result
    | release => trivial
  | checked projection =>
    cases event with
    | acquire checks now generated =>
      obtain ⟨rfl, hgranted⟩ := hu
      obtain ⟨lease, leases, hparses, hacquired⟩ := acquire_granted hgranted
      simp only [LocalRuntime.advance, hacquired, h.2, if_true]
      exact ⟨h.1, hparses, rfl⟩
    | read checks | renew now | append projection event | finish result | release => exact h
  | executing lease => exact h.elim
  | releasing lease result =>
    cases event with
    | release =>
      obtain ⟨leases, hreleased⟩ := release_current h.2.1 hu
      simp only [LocalRuntime.advance, hreleased]
      exact ⟨h.1, _, h.2.2⟩
    | read checks | acquire checks now generated | renew now | append projection event
    | finish result => exact h
  | settled result =>
    rw [advance_settled]
    exact h

end LocalRuntime

/-! ### The facade -/

/-- A call of `execute`, and whether the facade has seen it settle. -/
structure LocalRuntime.Execution where
  phase : LocalRuntime.Phase
  handled : Bool

/-- Where a call of `wait` is: it awaits an execution, or reads the run, or has ended. -/
inductive LocalRuntime.Wait where
  | awaiting (i : Nat)
  | reading
  | ended (result : Except Thrown RunProjection)

/-- The facade of a run: the calls of `execute` in order, the entry of the run in `executions`,
what the replays of the start have answered, and the waits. -/
structure LocalRuntime where
  stores : RunStores
  executed : List LocalRuntime.Execution
  executions : Option Nat
  replays : List (Except Thrown String)
  waits : List LocalRuntime.Wait

namespace LocalRuntime

/-- What happens next.  `checks` is what the authority and the window of the command throw; a start
that is the first has the run and its first event made for it. -/
inductive FacadeEvent where
  | start (checks : Except Thrown Unit) (run : Run) (acceptedEvent : RunEvent)
  | execution (i : Nat) (event : ExecutionEvent)
  | handler (i : Nat)
  | wait
  | settle (w : Nat)
  | getRun (w : Nat) (checks : Except Thrown Unit)

/-- A runtime in which the run was not started. -/
def init (leases : MemoryRunLeaseStore) : LocalRuntime where
  stores := ⟨none, leases, [], none⟩
  executed := []
  executions := none
  replays := []
  waits := []

/-- What follows `kernel.start`: one more execution, whose promise is the one that is kept. -/
def launch (s : LocalRuntime) : LocalRuntime :=
  { s with
    executed := s.executed ++ [⟨.scheduled, false⟩]
    executions := some s.executed.length }

/-- `start`. -/
def start (s : LocalRuntime) (checks : Except Thrown Unit) (run : Run)
    (acceptedEvent : RunEvent) : LocalRuntime :=
  match s.stores.command, checks with
  | some _, .error e => { s with replays := s.replays ++ [.error e] }
  | some runId, .ok () => launch { s with replays := s.replays ++ [.ok runId] }
  | none, .error _ => s
  | none, .ok () =>
      match reduceRunEvent (createRunProjection run) acceptedEvent with
      | .error _ => s
      | .ok projection =>
          launch
            { s with
              stores :=
                { s.stores with
                  command := some run.runId
                  events := [(none, acceptedEvent)]
                  projection := some projection } }

/-- What a step of the `i`th execution leaves. -/
def progress (config : LeaseConfig) (s : LocalRuntime) (i : Nat) (execution : Execution)
    (event : ExecutionEvent) : LocalRuntime :=
  { s with
    stores := (advance config i s.stores execution.phase event).2
    executed := s.executed.set i
      { execution with phase := (advance config i s.stores execution.phase event).1 } }

/-- What one step does. -/
def step (config : LeaseConfig) (s : LocalRuntime) : FacadeEvent → LocalRuntime
  | .start checks run acceptedEvent => s.start checks run acceptedEvent
  | .execution i event =>
      match s.executed[i]? with
      | none => s
      | some execution => s.progress config i execution event
  | .handler i =>
      match s.executed[i]? with
      | some ⟨.settled (.ok status), false⟩ =>
          { s with
            executed := s.executed.set i ⟨.settled (.ok status), true⟩
            executions := none }
      | _ => s
  | .wait =>
      match s.stores.command, s.executions with
      | none, _ => s
      | some _, some i => { s with waits := s.waits ++ [.awaiting i] }
      | some _, none => { s with waits := s.waits ++ [.reading] }
  | .settle w =>
      match s.waits[w]? with
      | some (.awaiting i) =>
          match (s.executed[i]?).map Execution.phase with
          | some (.settled (.ok _)) =>
              { s with executions := none, waits := s.waits.set w .reading }
          | some (.settled (.error e)) =>
              { s with executions := none, waits := s.waits.set w (.ended (.error e)) }
          | _ => s
      | _ => s
  | .getRun w checks =>
      match s.waits[w]? with
      | some .reading =>
          { s with waits := s.waits.set w (.ended (LocalRuntime.getRun checks s.stores)) }
      | _ => s

/-- Where the first execution is. -/
def first (s : LocalRuntime) : Option Phase :=
  (s.executed[0]?).map Execution.phase

/-- The first execution is over. -/
def FirstSettled (s : LocalRuntime) : Prop :=
  ∃ result, s.first = some (.settled result)

/-- What a wait has come to: the run as it is after the first execution, or what the first
execution has thrown itself. -/
def Wait.Fair (s : LocalRuntime) : Wait → Prop
  | .awaiting _ => True
  | .reading => s.FirstSettled
  | .ended (.ok projection) => s.FirstSettled ∧ s.stores.projection = some projection
  | .ended (.error e) => s.first = some (.settled (.error e))

/-- **The replays have done no harm**: they have answered the stored run, every event is of the
start or of the first execution, and every wait that has ended has seen the first execution end. -/
structure Harmless (s : LocalRuntime) : Prop where
  replays : ∀ answer ∈ s.replays, ∃ runId, s.stores.command = some runId ∧ answer = .ok runId
  events : ∀ x ∈ s.stores.events, ∀ i, x.1 = some i → i = 0
  waits : ∀ w ∈ s.waits, w.Fair s

/-- A step that does not disturb a replay: a replay passes the checks of the start, its execution
meets what `Phase.Undisturbed` asks for, and a wait may read the run. -/
def Undisturbed (config : LeaseConfig) (s : LocalRuntime) : FacadeEvent → Prop
  | .start checks _ _ => s.stores.command ≠ none → checks = .ok ()
  | .execution i event =>
      i ≠ 0 → ∀ execution, s.executed[i]? = some execution →
        execution.phase.Undisturbed config s.FirstSettled s.stores event
  | .getRun _ checks => checks = .ok ()
  | _ => True

/-- **The invariant**: the executions of the replays are quiet, the run is known as soon as one
is there, and the entry of the run is missing only after the first execution. -/
structure Peaceful (s : LocalRuntime) : Prop extends Harmless s where
  later : ∀ i execution, i ≠ 0 → s.executed[i]? = some execution →
    execution.phase.Quiet s.FirstSettled
  known : s.stores.command ≠ none → s.stores.projection ≠ none
  started : s.stores.command = none → s.executed = []
  entry : s.stores.command ≠ none → s.executions = none → s.FirstSettled

theorem peaceful_init (leases : MemoryRunLeaseStore) : Peaceful (init leases) where
  replays answer h := absurd h List.not_mem_nil
  events x h := absurd h List.not_mem_nil
  waits w h := absurd h List.not_mem_nil
  later i execution _ h := absurd h (by simp [init])
  known h := absurd rfl h
  started _ := rfl
  entry h := absurd rfl h

variable {config : LeaseConfig} {s s' : LocalRuntime} {w : Wait} {i : Nat} {event : ExecutionEvent}
  {e : FacadeEvent}

/-- A wait stays fair when the first execution, once it is over, stays as it is and so does the
run. -/
theorem Wait.Fair.mono (h : w.Fair s)
    (hfirst : ∀ result, s.first = some (.settled result) → s'.first = some (.settled result))
    (hrun : s.FirstSettled → s'.stores.projection = s.stores.projection) : w.Fair s' := by
  cases w with
  | awaiting i => trivial
  | reading =>
    obtain ⟨result, hresult⟩ := h
    exact ⟨result, hfirst result hresult⟩
  | ended result =>
    cases result with
    | ok projection =>
      obtain ⟨⟨result, hresult⟩, hprojection⟩ := h
      exact ⟨⟨result, hfirst result hresult⟩, (hrun ⟨result, hresult⟩).trans hprojection⟩
    | error e => exact hfirst _ h

/-- An execution that is over, of a replay or not, is over after the first one. -/
theorem Peaceful.settled (h : Peaceful s) {execution : Execution}
    {result : Except Thrown ExecutionStatus} (hi : s.executed[i]? = some execution)
    (hsettled : execution.phase = .settled result) :
    s.FirstSettled ∧ ∀ e, result = .error e → s.first = some (.settled (.error e)) := by
  by_cases hfirst : i = 0
  · subst hfirst
    have hphase : s.first = some (.settled result) := by simp [first, hi, hsettled]
    exact ⟨⟨result, hphase⟩, fun e he => he ▸ hphase⟩
  · have hquiet := h.later i execution hfirst hi
    rw [hsettled] at hquiet
    obtain ⟨hover, status, rfl⟩ := hquiet
    exact ⟨hover, nofun⟩

theorem first_launch {result : Except Thrown ExecutionStatus}
    (h : s.first = some (.settled result)) : s.launch.first = some (.settled result) := by
  unfold first at h ⊢
  cases hs : s.executed with
  | nil => simp [hs] at h
  | cons execution rest => simpa [launch, hs] using h

/-- The executions after a start: those of before, and one that is not under way. -/
theorem launched {execution : Execution} (h : s.launch.executed[i]? = some execution) :
    s.executed[i]? = some execution ∨ i = s.executed.length ∧ execution.phase = .scheduled := by
  have happend : (s.executed ++ [⟨.scheduled, false⟩])[i]? = some execution := h
  rw [List.getElem?_append] at happend
  split at happend
  · exact .inl happend
  · rename_i hge
    cases hi : i - s.executed.length with
    | zero =>
      rw [hi] at happend
      obtain rfl := Option.some.inj happend
      exact .inr ⟨by omega, rfl⟩
    | succ n =>
      rw [hi] at happend
      cases happend

/-- **A start that is replayed.** -/
theorem Peaceful.launch {runId : String} (h : Peaceful s)
    (hcommand : s.stores.command = some runId) :
    Peaceful (launch { s with replays := s.replays ++ [.ok runId] }) where
  replays answer ha := by
    rcases List.mem_append.mp ha with ha | ha
    · exact h.replays answer ha
    · exact ⟨runId, hcommand, List.mem_singleton.mp ha⟩
  events := h.events
  waits w hw := (h.waits w hw).mono (fun _ hf => first_launch (s := s) hf) fun _ => rfl
  later i execution hi hexecution := by
    rcases launched (s := s) hexecution with hold | ⟨-, hscheduled⟩
    · exact (h.later i execution hi hold).mono fun ⟨r, hr⟩ => ⟨r, first_launch (s := s) hr⟩
    · rw [hscheduled]
      trivial
  known := h.known
  started hnone := by
    rw [show s.stores.command = none from hnone] at hcommand
    cases hcommand
  entry _ hnone := by cases hnone

/-- **The first start.** -/
theorem Peaceful.begin (h : Peaceful s) (hcommand : s.stores.command = none) (runId : String)
    (acceptedEvent : RunEvent) (projection : RunProjection) :
    Peaceful (LocalRuntime.launch
      { s with
        stores :=
          { s.stores with
            command := some runId
            events := [(none, acceptedEvent)]
            projection := some projection } }) where
  replays answer ha := by
    obtain ⟨runId', hrunId', -⟩ := h.replays answer ha
    rw [hcommand] at hrunId'
    cases hrunId'
  events x hx i hi := by
    rw [List.mem_singleton.mp hx] at hi
    cases hi
  waits w hw := by
    have hfirst : ∀ result, s.first ≠ some (.settled result) := by
      simp [first, h.started hcommand]
    exact (h.waits w hw).mono (fun r hr => absurd hr (hfirst r)) fun ⟨r, hr⟩ => absurd hr (hfirst r)
  later i execution hi hexecution := by
    rcases launched hexecution with hold | ⟨hlast, -⟩
    · simp [h.started hcommand] at hold
    · simp [h.started hcommand] at hlast
      exact absurd hlast hi
  known _ := Option.some_ne_none _
  started hnone := by cases hnone
  entry _ hnone := by cases hnone

/-- **A step of an execution.** -/
theorem Peaceful.advance (h : Peaceful s) {execution : Execution}
    (hexecution : s.executed[i]? = some execution)
    (hu : i ≠ 0 → execution.phase.Undisturbed config s.FirstSettled s.stores event) :
    Peaceful (s.progress config i execution event) := by
  have hlt : i < s.executed.length := (List.getElem?_eq_some_iff.mp hexecution).1
  obtain ⟨hcommand, hevents⟩ := advance_events config i s.stores execution.phase event
  -- Once the first execution is over, no body runs.
  have hbody : i ≠ 0 ∨ s.FirstSettled → execution.phase.isExecuting = false := by
    intro hcase
    by_cases hi : i = 0
    · subst hi
      obtain ⟨result, hresult⟩ := hcase.resolve_left (fun hne => hne rfl)
      simp only [first, hexecution, Option.map_some] at hresult
      rw [Option.some.inj hresult]
      rfl
    · exact (h.later i execution hi hexecution).not_executing
  have hfirst : ∀ result, s.first = some (.settled result) →
      (s.progress config i execution event).first = some (.settled result) := by
    intro result hresult
    unfold first progress
    by_cases hi : i = 0
    · subst hi
      simp only [first, hexecution, Option.map_some] at hresult
      dsimp only
      rw [List.getElem?_set_self hlt, Option.some.inj hresult, advance_settled]
      rfl
    · rw [List.getElem?_set_ne hi]
      exact hresult
  exact {
    replays := fun answer ha => by
      obtain ⟨runId, hrunId, rfl⟩ := h.replays answer ha
      exact ⟨runId, hcommand.trans hrunId, rfl⟩
    events := fun x hx j hj => by
      rcases hevents x hx with hold | hown
      · exact h.events x hold j hj
      · obtain rfl := Option.some.inj (hown.symm.trans hj)
        by_contra hi
        have hsame := (advance_stores config i s.stores event (hbody (.inl hi))).1
        exact hi (h.events x (hsame ▸ hx) i hj)
    waits := fun w hw => (h.waits w hw).mono hfirst fun hsettled =>
      (advance_stores config i s.stores event (hbody (.inr hsettled))).2
    later := fun j execution' hj hj' => by
      have hover : s.FirstSettled → (s.progress config i execution event).FirstSettled :=
        fun ⟨r, hr⟩ => ⟨r, hfirst r hr⟩
      by_cases hji : i = j
      · subst hji
        have hset := List.getElem?_set_self (a := { execution with
          phase := (LocalRuntime.advance config i s.stores execution.phase event).1 }) hlt
        obtain rfl := Option.some.inj (hset.symm.trans hj')
        exact ((h.later i execution hj hexecution).advance (hu hj)).mono hover
      · have hold : s.executed[j]? = some execution' := by
          rw [← List.getElem?_set_ne hji]
          exact hj'
        exact (h.later j execution' hj hold).mono hover
    known := fun hne => advance_projection (h.known fun hnone => hne (hcommand.trans hnone))
    started := fun hnone => by
      rw [h.started (hcommand.symm.trans hnone)] at hexecution
      cases hexecution
    entry := fun hne hnone => by
      obtain ⟨r, hr⟩ := h.entry (fun hnone' => hne (hcommand.trans hnone')) hnone
      exact ⟨r, hfirst r hr⟩ }

/-- **A step of the facade** changes no phase, drops the entry only after the first execution, and
lets the waits be fair. -/
theorem Peaceful.frame (h : Peaceful s) {executed : List Execution} {executions : Option Nat}
    {waits : List Wait}
    (hphases : executed.map Execution.phase = s.executed.map Execution.phase)
    (hentry : s.stores.command ≠ none → executions = none → s.FirstSettled)
    (hwaits : ∀ w ∈ waits, w.Fair s) :
    Peaceful { s with executed, executions, waits } := by
  have hphase : ∀ j : Nat,
      (executed[j]?).map Execution.phase = (s.executed[j]?).map Execution.phase := by
    intro j
    rw [← List.getElem?_map, hphases, List.getElem?_map]
  have hfirst : ∀ result, s.first = some (.settled result) →
      first { s with executed, executions, waits } = some (.settled result) :=
    fun result hr => (hphase 0).trans hr
  have hover : s.FirstSettled → FirstSettled { s with executed, executions, waits } :=
    fun ⟨r, hr⟩ => ⟨r, hfirst r hr⟩
  exact {
    replays := h.replays
    events := h.events
    waits := fun w hw => (hwaits w hw).mono hfirst fun _ => rfl
    later := fun j execution hj hj' => by
      have heq := hphase j
      rw [show executed[j]? = some execution from hj'] at heq
      obtain ⟨old, hold, hsame⟩ := Option.map_eq_some_iff.mp heq.symm
      rw [← hsame]
      exact (h.later j old hj hold).mono hover
    known := h.known
    started := fun hnone => by
      rw [h.started hnone] at hphases
      exact List.map_eq_nil_iff.mp hphases
    entry := fun hne hnone => hover (hentry hne hnone) }

/-- **What one step keeps.** -/
theorem Peaceful.step (h : Peaceful s) (hu : Undisturbed config s e) :
    Peaceful (s.step config e) := by
  cases e with
  | start checks run acceptedEvent =>
    simp only [LocalRuntime.step, LocalRuntime.start]
    split
    · rename_i hcommand
      have hchecks := hu (by simp [hcommand])
      cases hchecks
    · rename_i hcommand
      exact h.launch hcommand
    · exact h
    · rename_i hcommand
      split
      · exact h
      · exact h.begin hcommand _ _ _
  | execution i event =>
    simp only [LocalRuntime.step]
    split
    · exact h
    · rename_i execution hexecution
      exact h.advance hexecution fun hi => hu hi execution hexecution
  | handler i =>
    simp only [LocalRuntime.step]
    split
    · rename_i status hexecution
      refine h.frame ?_ (fun _ _ => (h.settled hexecution rfl).1) h.waits
      rw [List.map_set]
      refine List.ext_getElem? fun j => ?_
      by_cases hj : i = j
      · subst hj
        have hlt := (List.getElem?_eq_some_iff.mp hexecution).1
        rw [List.getElem?_set_self (by simpa using hlt), List.getElem?_map, hexecution]
        rfl
      · rw [List.getElem?_set_ne hj]
    · exact h
  | wait =>
    simp only [LocalRuntime.step]
    split
    · exact h
    · refine h.frame rfl h.entry fun w hw => ?_
      rcases List.mem_append.mp hw with hw | hw
      · exact h.waits w hw
      · rw [List.mem_singleton.mp hw]
        trivial
    · rename_i hcommand hnone
      refine h.frame rfl h.entry fun w hw => ?_
      rcases List.mem_append.mp hw with hw | hw
      · exact h.waits w hw
      · rw [List.mem_singleton.mp hw]
        exact h.entry (by simp [hcommand]) hnone
  | settle w =>
    simp only [LocalRuntime.step]
    split
    · split
      · rename_i i _ status hphase
        obtain ⟨execution, hexecution, hsettled⟩ := Option.map_eq_some_iff.mp hphase
        have hover := h.settled hexecution hsettled
        refine h.frame rfl (fun _ _ => hover.1) fun w' hw' => ?_
        rcases List.mem_or_eq_of_mem_set hw' with hw' | rfl
        · exact h.waits w' hw'
        · exact hover.1
      · rename_i i _ error hphase
        obtain ⟨execution, hexecution, hsettled⟩ := Option.map_eq_some_iff.mp hphase
        have hover := h.settled hexecution hsettled
        refine h.frame rfl (fun _ _ => hover.1) fun w' hw' => ?_
        rcases List.mem_or_eq_of_mem_set hw' with hw' | rfl
        · exact h.waits w' hw'
        · exact hover.2 error rfl
      · exact h
    · exact h
  | getRun w checks =>
    simp only [LocalRuntime.step]
    split
    · rename_i hreading
      have hover : s.FirstSettled := h.waits _ (List.mem_of_getElem? hreading)
      have hcommand : s.stores.command ≠ none := by
        intro hnone
        obtain ⟨result, hresult⟩ := hover
        simp [first, h.started hnone] at hresult
      obtain ⟨projection, hprojection⟩ := Option.ne_none_iff_exists'.mp (h.known hcommand)
      obtain rfl : checks = .ok () := hu
      refine h.frame rfl h.entry fun w' hw' => ?_
      rcases List.mem_or_eq_of_mem_set hw' with hw' | rfl
      · exact h.waits w' hw'
      · simp only [LocalRuntime.getRun, hprojection]
        exact ⟨hover, hprojection⟩
    · exact h

/-- **A replay does no harm** in a run whose steps do not disturb it. -/
theorem replay_harmless (config : LeaseConfig) (leases : MemoryRunLeaseStore)
    (steps : List FacadeEvent)
    (h : Along (step config) (init leases) (Undisturbed config) steps) :
    Harmless (steps.foldl (step config) (init leases)) :=
  (h.invariant (peaceful_init leases) fun _ _ hs hu => Peaceful.step hs hu).toHarmless

section Witness

/-- A local runtime. -/
def localConfig : LeaseConfig := ⟨"local-runtime", 30000⟩

/-- The start of `createdRun`, and every replay of it. -/
def startOnce : FacadeEvent :=
  .start (.ok ()) createdRun (nthEvent 1 (.RunAccepted "order" someDigest []))

/-- The run is started again while the first execution holds its lease. -/
def replayedDuring : List FacadeEvent :=
  [startOnce, .execution 0 (.read (.ok ())),
    .execution 0 (.acquire (.ok ()) ⟨some 0, true⟩ (.ok "lease-1")), startOnce,
    .execution 1 (.read (.ok ())),
    .execution 1 (.acquire (.ok ()) ⟨some 1, true⟩ (.ok "lease-2")), .wait, .settle 0]

/-- The wait is told of a conflict, and the first execution goes on. -/
theorem replay_rejects_wait :
    (∃ lease, (replayedDuring.foldl (step localConfig) (init .empty)).first =
        some (.executing lease)) ∧
      (replayedDuring.foldl (step localConfig) (init .empty)).waits =
        [.ended (.error (kafError .KAF_STORAGE_CONCURRENCY_CONFLICT))] ∧
      ¬ Harmless (replayedDuring.foldl (step localConfig) (init .empty)) := by
  refine ⟨⟨_, rfl⟩, rfl, fun h => ?_⟩
  have hwait := h.waits (.ended (.error (kafError .KAF_STORAGE_CONCURRENCY_CONFLICT)))
    (List.mem_singleton.mpr rfl)
  cases hwait

/-- The projection of `createdRun` after some payloads. -/
def projectionAfter (payloads : List EventPayload) : RunProjection :=
  (eventsOf payloads).foldl RunProjection.fold (createRunProjection createdRun)

/-- The run is started again when the first execution has parked it. -/
def replayedAfter : List FacadeEvent :=
  [startOnce, .execution 0 (.read (.ok ())),
    .execution 0 (.acquire (.ok ()) ⟨some 0, true⟩ (.ok "lease-1")),
    .execution 0 (.append (projectionAfter [.RunAccepted "order" someDigest []])
      (nthEvent 2 (.PlanningStarted "step"))),
    .execution 0 (.append
      (projectionAfter [.RunAccepted "order" someDigest [], .PlanningStarted "step"])
      (nthEvent 3 (.RunSuspended "step" .planning "model_call_outcome_unknown" none))),
    .execution 0 (.finish (.ok .parked)), .execution 0 .release, .handler 0, startOnce,
    .execution 1 (.read (.ok ())),
    .execution 1 (.acquire (.ok ()) ⟨some 1, true⟩ (.ok "lease-2")), .wait,
    .execution 1 .release, .settle 0, .getRun 0 (.ok ())]

/-- The wait is told that the run is parked. -/
theorem replay_harmless_after :
    (replayedAfter.foldl (step localConfig) (init .empty)).waits =
        [.ended (.ok (projectionAfter [.RunAccepted "order" someDigest [],
          .PlanningStarted "step",
          .RunSuspended "step" .planning "model_call_outcome_unknown" none]))] ∧
      Harmless (replayedAfter.foldl (step localConfig) (init .empty)) := by
  refine ⟨rfl, replay_harmless localConfig .empty replayedAfter ?_⟩
  unfold replayedAfter
  refine along_cons.mpr ⟨fun _ => rfl, ?_⟩
  refine along_cons.mpr ⟨fun h => absurd rfl h, ?_⟩
  refine along_cons.mpr ⟨fun h => absurd rfl h, ?_⟩
  refine along_cons.mpr ⟨fun h => absurd rfl h, ?_⟩
  refine along_cons.mpr ⟨fun h => absurd rfl h, ?_⟩
  refine along_cons.mpr ⟨fun h => absurd rfl h, ?_⟩
  refine along_cons.mpr ⟨fun h => absurd rfl h, ?_⟩
  refine along_cons.mpr ⟨trivial, ?_⟩
  refine along_cons.mpr ⟨fun _ => rfl, ?_⟩
  refine along_cons.mpr ⟨fun _ execution h => ?_, ?_⟩
  · obtain rfl := Option.some.inj h
    exact ⟨⟨_, rfl⟩, rfl, _, rfl, .inr rfl⟩
  refine along_cons.mpr ⟨fun _ execution h => ?_, ?_⟩
  · obtain rfl := Option.some.inj h
    exact ⟨rfl, 1, "lease-2", _, rfl, rfl, rfl, rfl, rfl⟩
  refine along_cons.mpr ⟨trivial, ?_⟩
  refine along_cons.mpr ⟨fun _ execution h => ?_, ?_⟩
  · obtain rfl := Option.some.inj h
    exact nofun
  refine along_cons.mpr ⟨trivial, along_cons.mpr ⟨rfl, along_nil⟩⟩

end Witness

end LocalRuntime

end Pactmark
