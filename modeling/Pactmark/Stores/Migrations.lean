import Mathlib
import Pactmark.Core.Serialization
import Pactmark.Core.Values

/-!
# Stores — migrations of the schema

`PostgresMigrationManager` of `store-postgres/src/migrations.ts`: any number of managers migrate
one database at once, each with the migrations of its own deployment.  A transaction takes the
advisory lock, reads what is applied, applies what is missing and commits; it may fail at every
statement, and then leaves nothing.  The statements of one migration with the insert of its row
are one step.  The database sorts versions by their code units, and a digest may be any function.

* `Sound.step`: what every step keeps.
* `migrations_once`: what holds of every interleaving.
* `migrations_in_order`: of managers whose migrations are the first ones of one list.
-/

namespace Pactmark

open JsString (lit)

/-- `PostgresMigration`. -/
structure PostgresMigration where
  version : JsString
  description : JsString
  reversibleSafe : Bool
  up : List JsString
  down : List JsString
  deriving DecidableEq

/-- A row of `pactmark_schema_migrations`. -/
structure MigrationRow where
  version : JsString
  migration_digest : Digest
  deriving DecidableEq

namespace PostgresMigrations

/-- What `migrate` throws: `KAF_SCHEMA_INVALID` with its path and issue,
`applied_migration_digest_changed` or the reason of a migration that does not fit, with the
version, or what the database throws. -/
inductive MigrationError where
  | schemaInvalid (path issue : String)
  | digestChanged (version : JsString)
  | incompatible (reason : String) (version : JsString)
  | database (message : String) (isError : Bool)
  | uniqueViolation
  deriving DecidableEq

/-- `migrations.at(-1)?.version ?? "000"`. -/
def lastVersion (versions : List JsString) : JsString :=
  versions.getLast?.getD (lit "000")

/-- The check of the constructor. -/
def construct (migrations : List PostgresMigration) : Except MigrationError Unit :=
  let versions := migrations.map (·.version)
  if versions.Nodup ∧ versions.IsChain (· < ·) then .ok ()
  else .error (.schemaInvalid "migrations" "versions_not_strictly_increasing")

/-- `knownTarget` of `migrate`. -/
def target (migrations : List PostgresMigration) (targetVersion : Option JsString) :
    Except MigrationError JsString :=
  let knownTarget := targetVersion.getD (lastVersion (migrations.map (·.version)))
  if knownTarget ≠ lit "000" ∧ ¬ migrations.any (·.version = knownTarget) then
    .error (.schemaInvalid "targetVersion" "unknown")
  else .ok knownTarget

variable (migrationDigest : PostgresMigration → Digest)

/-- `validateAppliedMigrations`: what is thrown, if anything. -/
def validateAppliedMigrations (applied : List MigrationRow) (migrations : List PostgresMigration) :
    Option MigrationError :=
  applied.findSome? fun row =>
    match migrations.find? (·.version = row.version) with
    | none => some (.schemaInvalid "schema_migrations" "unknown_applied_version")
    | some migration =>
        if row.migration_digest ≠ migrationDigest migration then
          some (.digestChanged row.version)
        else none

/-- `SELECT version,migration_digest FROM pactmark_schema_migrations ORDER BY version`. -/
def select (rows : List MigrationRow) : List MigrationRow :=
  rows.mergeSort fun a b => decide (a.version ≤ b.version)

/-- What `migrate` applies when it has read what is applied. -/
def plan (migrations : List PostgresMigration) (knownTarget : JsString)
    (applied : List MigrationRow) : Except MigrationError (List PostgresMigration) :=
  match validateAppliedMigrations migrationDigest applied migrations with
  | some e => .error e
  | none =>
      if knownTarget < lastVersion (applied.map (·.version)) then
        .error (.schemaInvalid "targetVersion" "unsafe_downgrade_not_supported")
      else
        .ok ((migrations.takeWhile (·.version ≤ knownTarget)).filter fun migration =>
          decide (migration.version ∉ applied.map (·.version)))

/-- `status`. -/
def status (rows : List MigrationRow) (migrations : List PostgresMigration) :
    Except MigrationError (JsString × List JsString) :=
  match validateAppliedMigrations migrationDigest (select rows) migrations with
  | some e => .error e
  | none =>
      .ok (lastVersion ((select rows).map (·.version)),
        (migrations.filter fun migration =>
          decide (migration.version ∉ (select rows).map (·.version))).map (·.version))

/-- How far a `migrate` is: it waits for the lock, has it, applies what is left, or has ended. -/
inductive MigratePhase where
  | waiting
  | locked
  | applying (done left : List PostgresMigration)
  | ended (answer : Except MigrationError Unit)

/-- It holds the advisory lock. -/
def MigratePhase.holds : MigratePhase → Bool
  | .locked => true
  | .applying _ _ => true
  | _ => false

/-- A `migrate`. -/
structure MigrateCall where
  migrations : List PostgresMigration
  knownTarget : JsString
  phase : MigratePhase

/-- The table, what was executed and committed, in order, and the calls. -/
structure MigrationDatabase where
  rows : List MigrationRow
  executed : List PostgresMigration
  calls : List MigrateCall

/-- A step of a manager. -/
inductive MigrationStep where
  | migrate (migrations : List PostgresMigration) (targetVersion : Option JsString)
  /-- `SELECT pg_advisory_xact_lock(..)`, which waits while another transaction has the lock. -/
  | lock (call : Nat)
  | select (call : Nat)
  /-- `applyMigration`, with the error of its statements, if they fail: its message, and whether it
  is an `Error`. -/
  | apply (call : Nat) (failure : Option (String × Bool))
  | commit (call : Nat)
  /-- The connection is lost. -/
  | abort (call : Nat) (message : String)

/-- The row of a migration. -/
def row (migration : PostgresMigration) : MigrationRow :=
  ⟨migration.version, migrationDigest migration⟩

/-- `message.includes(part)`. -/
def includes (message part : String) : Bool :=
  decide (part.toList <:+: message.toList)

/-- The `catch` of `applyMigration`. -/
def translate (migration : PostgresMigration) (message : String) (isError : Bool) :
    MigrationError :=
  if isError ∧
      (includes message "PACTMARK_MIGRATION_006_INCOMPATIBLE_POPULATED_SKELETON_TABLES" ∨
        includes message "PACTMARK_MIGRATION_007_INCOMPATIBLE_UNBOUND_WAKEUPS") then
    .incompatible
      (if includes message "MIGRATION_007" then "migration_007_incompatible_unbound_wakeups"
      else "migration_006_incompatible_populated_skeleton_tables") migration.version
  else .database message isError

namespace MigrationDatabase

/-- A database without a schema. -/
def start : MigrationDatabase :=
  ⟨[], [], []⟩

/-- A call is in another phase. -/
def moved (s : MigrationDatabase) (i : Nat) (c : MigrateCall) (phase : MigratePhase) :
    MigrationDatabase :=
  { s with calls := s.calls.set i { c with phase } }

/-- One step. -/
def step (s : MigrationDatabase) : MigrationStep → MigrationDatabase
  | .migrate migrations targetVersion =>
      let phase :=
        match construct migrations, target migrations targetVersion with
        | .error e, _ => MigratePhase.ended (.error e)
        | .ok (), .error e => .ended (.error e)
        | .ok (), .ok _ => .waiting
      let knownTarget := targetVersion.getD (lastVersion (migrations.map (·.version)))
      { s with calls := s.calls ++ [⟨migrations, knownTarget, phase⟩] }
  | .lock i =>
      match s.calls[i]? with
      | some ⟨migrations, knownTarget, .waiting⟩ =>
          if s.calls.any (·.phase.holds) then s
          else s.moved i ⟨migrations, knownTarget, .waiting⟩ .locked
      | _ => s
  | .select i =>
      match s.calls[i]? with
      | some ⟨migrations, knownTarget, .locked⟩ =>
          match plan migrationDigest migrations knownTarget (PostgresMigrations.select s.rows) with
          | .ok left => s.moved i ⟨migrations, knownTarget, .locked⟩ (.applying [] left)
          | .error e => s.moved i ⟨migrations, knownTarget, .locked⟩ (.ended (.error e))
      | _ => s
  | .apply i failure =>
      match s.calls[i]? with
      | some ⟨migrations, knownTarget, .applying done (migration :: left)⟩ =>
          let c : MigrateCall := ⟨migrations, knownTarget, .applying done (migration :: left)⟩
          match failure with
          | some (message, isError) =>
              s.moved i c (.ended (.error (translate migration message isError)))
          | none =>
              if migration.version ∈ s.rows.map (·.version) ++ done.map (·.version) then
                s.moved i c (.ended (.error .uniqueViolation))
              else s.moved i c (.applying (done ++ [migration]) left)
      | _ => s
  | .commit i =>
      match s.calls[i]? with
      | some ⟨migrations, knownTarget, .applying done []⟩ =>
          { (s.moved i ⟨migrations, knownTarget, .applying done []⟩ (.ended (.ok ()))) with
            rows := s.rows ++ done.map (row migrationDigest)
            executed := s.executed ++ done }
      | _ => s
  | .abort i message =>
      match s.calls[i]? with
      | some ⟨_, _, .ended _⟩ => s
      | some c => s.moved i c (.ended (.error (.database message true)))
      | none => s

/-- What steps leave. -/
def run (steps : List MigrationStep) : MigrationDatabase :=
  steps.foldl (step migrationDigest) start

end MigrationDatabase

/-! ### What is applied -/

variable {migrationDigest} {migrations left : List PostgresMigration} {knownTarget : JsString}
  {applied : List MigrationRow} {s : MigrationDatabase}

/-- Versions grow along a list of migrations. -/
def Increasing (migrations : List PostgresMigration) : Prop :=
  migrations.Pairwise fun a b => a.version < b.version

theorem construct_ok (h : construct migrations = .ok ()) : Increasing migrations := by
  unfold construct at h
  dsimp only at h
  split at h
  · rename_i hversions
    exact List.pairwise_map.mp (List.isChain_iff_pairwise.mp hversions.2)
  · cases h

theorem Increasing.nodup (h : Increasing migrations) : (migrations.map (·.version)).Nodup :=
  List.pairwise_map.mpr (h.imp fun hlt => ne_of_lt hlt)

/-- The loop over the migrations reaches those up to the target. -/
theorem Increasing.mem_takeWhile (h : Increasing migrations) {migration : PostgresMigration} :
    migration ∈ migrations.takeWhile (·.version ≤ knownTarget) ↔
      migration ∈ migrations ∧ migration.version ≤ knownTarget := by
  constructor
  · intro hmem
    have hle := List.mem_takeWhile_imp hmem
    exact ⟨(List.takeWhile_sublist _).subset hmem, of_decide_eq_true hle⟩
  · rintro ⟨hmem, hle⟩
    induction migrations with
    | nil => cases hmem
    | cons first rest ih =>
        obtain ⟨hfirst, hrest⟩ := List.pairwise_cons.mp h
        have hfirst' : first.version ≤ knownTarget := by
          rcases List.mem_cons.mp hmem with rfl | hmem
          · exact hle
          · exact (hfirst migration hmem).le.trans hle
        simp only [List.takeWhile_cons, hfirst', decide_true, if_true]
        rcases List.mem_cons.mp hmem with rfl | hmem
        · exact List.mem_cons_self
        · exact List.mem_cons_of_mem _ (ih hrest hmem)

/-- What is applied is known. -/
theorem validate_none (h : validateAppliedMigrations migrationDigest applied migrations = none)
    {r : MigrationRow} (hr : r ∈ applied) :
    ∃ migration ∈ migrations, r = row migrationDigest migration := by
  have hrow := List.findSome?_eq_none_iff.mp h r hr
  split at hrow
  · cases hrow
  · rename_i migration hfind
    split at hrow
    · cases hrow
    · rename_i hdigest
      have hselected := List.find?_some hfind
      have hversion := of_decide_eq_true hselected
      refine ⟨migration, List.mem_of_find?_eq_some hfind, ?_⟩
      rw [not_not] at hdigest
      rw [row, hversion, ← hdigest]

/-- What `plan` has checked, and what is left to apply. -/
theorem plan_ok (h : plan migrationDigest migrations knownTarget applied = .ok left) :
    (∀ r ∈ applied, ∃ migration ∈ migrations, r = row migrationDigest migration) ∧
      left = (migrations.takeWhile (·.version ≤ knownTarget)).filter fun migration =>
        decide (migration.version ∉ applied.map (·.version)) := by
  unfold plan at h
  split at h
  · cases h
  · rename_i hvalid
    split at h
    · cases h
    · exact ⟨fun r hr => validate_none hvalid hr, (Except.ok.inj h).symm⟩

theorem mem_select {rows : List MigrationRow} {r : MigrationRow} : r ∈ select rows ↔ r ∈ rows :=
  List.mem_mergeSort

/-! ### The invariant -/

/-- What holds in every state. -/
structure Sound (migrationDigest : PostgresMigration → Digest) (s : MigrationDatabase) : Prop where
  rows : s.rows = s.executed.map (row migrationDigest)
  once : (s.executed.map (·.version)).Nodup
  exclusive : ∀ (i j : Nat) (c d : MigrateCall), s.calls[i]? = some c → s.calls[j]? = some d →
    c.phase.holds → d.phase.holds → i = j
  increasing : ∀ c ∈ s.calls, (∀ e, c.phase ≠ .ended (.error e)) → Increasing c.migrations
  applying : ∀ c ∈ s.calls, ∀ done left, c.phase = .applying done left →
    plan migrationDigest c.migrations c.knownTarget (select s.rows) = .ok (done ++ left)
  complete : ∀ c ∈ s.calls, c.phase = .ended (.ok ()) → ∀ migration ∈ c.migrations,
    migration.version ≤ c.knownTarget → row migrationDigest migration ∈ s.rows
  unviolated : ∀ c ∈ s.calls, c.phase ≠ .ended (.error .uniqueViolation)

theorem sound_start : Sound migrationDigest .start where
  rows := rfl
  once := List.nodup_nil
  exclusive i j c d hc := by cases hc
  increasing c hc := by cases hc
  applying c hc := by cases hc
  complete c hc := by cases hc
  unviolated c hc := by cases hc

/-- A call that goes on, without a change of the tables. -/
theorem Sound.moved (h : Sound migrationDigest s) {i : Nat} {c : MigrateCall}
    (hc : s.calls[i]? = some c) (phase : MigratePhase)
    (hholds : phase.holds → c.phase.holds ∨ ∀ d ∈ s.calls, d.phase.holds = false)
    (hincreasing : (∀ e, phase ≠ .ended (.error e)) → Increasing c.migrations)
    (happlying : ∀ done left, phase = .applying done left →
      plan migrationDigest c.migrations c.knownTarget (select s.rows) = .ok (done ++ left))
    (hended : phase ≠ .ended (.ok ()) ∧ phase ≠ .ended (.error .uniqueViolation)) :
    Sound migrationDigest (s.moved i c phase) := by
  have hset : ∀ d ∈ s.calls.set i { c with phase }, d ∈ s.calls ∨ d = { c with phase } :=
    fun d hd => List.mem_or_eq_of_mem_set hd
  refine ⟨h.rows, h.once, fun j k d e hd he hdh heh => ?_, fun d hd hphase => ?_,
    fun d hd done left hphase => ?_, fun d hd hphase => ?_, fun d hd hphase => ?_⟩
  · have hother : ∀ j d, (s.moved i c phase).calls[j]? = some d → d.phase.holds → j ≠ i →
        s.calls[j]? = some d := by
      intro j d hd _ hj
      rwa [MigrationDatabase.moved, List.getElem?_set_ne (Ne.symm hj)] at hd
    have hself : ∀ d, (s.moved i c phase).calls[i]? = some d → d.phase.holds → phase.holds := by
      intro d hd hdh
      rw [MigrationDatabase.moved,
        List.getElem?_set_self (List.getElem?_eq_some_iff.mp hc).1] at hd
      rw [← Option.some.inj hd] at hdh
      exact hdh
    -- Of two calls that hold the lock one is this one, which held it before or takes it from none.
    have hone : ∀ j d, (s.moved i c phase).calls[j]? = some d → d.phase.holds → j ≠ i →
        phase.holds → False := by
      intro j d hd hdh hj hphase
      have hd' := hother j d hd hdh hj
      rcases hholds hphase with hcheld | hnone
      · exact hj (h.exclusive j i d c hd' hc hdh hcheld)
      · rw [hnone d (List.mem_of_getElem? hd')] at hdh
        cases hdh
    by_cases hj : j = i
    · subst hj
      by_contra hk
      exact hone k e he heh (Ne.symm hk) (hself d hd hdh)
    · by_cases hk : k = i
      · subst hk
        exact absurd (hself e he heh) fun hphase => hone j d hd hdh hj hphase
      · exact h.exclusive j k d e (hother j d hd hdh hj) (hother k e he heh hk) hdh heh
  · rcases hset d hd with hd | rfl
    · exact h.increasing d hd hphase
    · exact hincreasing hphase
  · rcases hset d hd with hd | rfl
    · exact h.applying d hd done left hphase
    · exact happlying done left hphase
  · rcases hset d hd with hd | rfl
    · exact h.complete d hd hphase
    · exact absurd hphase hended.1
  · rcases hset d hd with hd | rfl
    · exact h.unviolated d hd hphase
    · exact absurd hphase hended.2

/-- A call that fails. -/
theorem Sound.failed (h : Sound migrationDigest s) {i : Nat} {c : MigrateCall}
    (hc : s.calls[i]? = some c) {e : MigrationError} (he : e ≠ .uniqueViolation) :
    Sound migrationDigest (s.moved i c (.ended (.error e))) := by
  refine h.moved hc _ (by rintro ⟨⟩) (fun hphase => absurd rfl (hphase e)) (by rintro _ _ ⟨⟩)
    ⟨by rintro ⟨⟩, fun hphase => he ?_⟩
  cases hphase
  rfl

/-- The versions of the rows are those of what was executed. -/
theorem Sound.versions (h : Sound migrationDigest s) :
    s.rows.map (·.version) = s.executed.map (·.version) := by
  rw [h.rows, List.map_map]
  rfl

theorem Sound.mem_versions (h : Sound migrationDigest s) {version : JsString} :
    version ∈ (select s.rows).map (·.version) ↔ version ∈ s.executed.map (·.version) := by
  rw [← h.versions, List.mem_map, List.mem_map]
  exact exists_congr fun r => and_congr_left' mem_select

/-- What is left to apply has other versions than what was executed and than itself. -/
theorem Sound.planned (h : Sound migrationDigest s) {c : MigrateCall} (hc : c ∈ s.calls)
    {done left : List PostgresMigration} (hphase : c.phase = .applying done left) :
    (s.executed.map (·.version) ++ (done ++ left).map (·.version)).Nodup := by
  have hincreasing := h.increasing c hc (by
    intro e he
    rw [hphase] at he
    cases he)
  obtain ⟨-, hleft⟩ := plan_ok (h.applying c hc done left hphase)
  rw [hleft]
  refine List.nodup_append.mpr ⟨h.once, ?_, ?_⟩
  · exact hincreasing.nodup.sublist
      ((List.filter_sublist.trans (List.takeWhile_sublist _)).map _)
  · rintro version hexecuted _ hmem rfl
    obtain ⟨migration, hmem, hversion⟩ := List.mem_map.mp hmem
    have hfresh := of_decide_eq_true (List.mem_filter.mp hmem).2
    rw [hversion] at hfresh
    exact hfresh (h.mem_versions.mpr hexecuted)

/-- **A migration is applied.** -/
theorem Sound.apply (h : Sound migrationDigest s) (i : Nat) (failure : Option (String × Bool)) :
    Sound migrationDigest (s.step migrationDigest (.apply i failure)) := by
  dsimp only [MigrationDatabase.step]
  split
  · rename_i migrations knownTarget done migration left hc
    have hmem := List.mem_of_getElem? hc
    split
    · rename_i message isError
      refine h.failed hc ?_
      unfold translate
      split <;> rintro ⟨⟩
    · have hfresh : migration.version ∉ s.rows.map (·.version) ++ done.map (·.version) := by
        have hnodup := h.planned hmem rfl
        rw [h.versions]
        rw [List.map_append, List.map_cons, ← List.append_assoc] at hnodup
        exact fun hin => (List.disjoint_of_nodup_append hnodup) hin List.mem_cons_self
      rw [if_neg hfresh]
      refine h.moved hc _ (fun _ => .inl rfl) (fun _ => h.increasing _ hmem (by rintro e ⟨⟩)) ?_
        ⟨by rintro ⟨⟩, by rintro ⟨⟩⟩
      rintro done' left' hphase
      cases hphase
      rw [List.append_assoc]
      exact h.applying _ hmem _ _ rfl
  · exact h

/-- **A transaction is committed.** -/
theorem Sound.commit (h : Sound migrationDigest s) (i : Nat) :
    Sound migrationDigest (s.step migrationDigest (.commit i)) := by
  dsimp only [MigrationDatabase.step]
  split
  · rename_i migrations knownTarget done hc
    have hmem := List.mem_of_getElem? hc
    have hplan := h.applying _ hmem done [] rfl
    rw [List.append_nil] at hplan
    obtain ⟨hknown, hdone⟩ := plan_ok hplan
    have hincreasing := h.increasing _ hmem (by rintro e ⟨⟩)
    have hset : ∀ d ∈ s.calls.set i ⟨migrations, knownTarget, .ended (.ok ())⟩,
        d ∈ s.calls ∨ d = ⟨migrations, knownTarget, .ended (.ok ())⟩ :=
      fun d hd => List.mem_or_eq_of_mem_set hd
    have hother : ∀ (j : Nat) (d : MigrateCall),
        (s.calls.set i ⟨migrations, knownTarget, .ended (.ok ())⟩)[j]? = some d →
          d.phase.holds → False := by
      intro j d hd hdh
      rw [List.getElem?_set] at hd
      split at hd
      · split at hd
        · rw [← Option.some.inj hd] at hdh
          cases hdh
        · cases hd
      · rename_i hij
        exact hij (h.exclusive i j _ d hc hd rfl hdh)
    refine ⟨?_, ?_, fun j k d e hd _ hdh _ => (hother j d hd hdh).elim, fun d hd hphase => ?_,
      fun d hd done' left' hphase => ?_, fun d hd hphase migration hm hle => ?_,
      fun d hd hphase => ?_⟩
    · simp only [h.rows, List.map_append]
    · have hnodup := h.planned hmem rfl
      rw [List.append_nil] at hnodup
      simpa only [List.map_append] using hnodup
    · rcases hset d hd with hd | rfl
      · exact h.increasing d hd hphase
      · exact hincreasing
    · obtain ⟨j, hj⟩ := List.getElem?_of_mem hd
      refine (hother j d hj ?_).elim
      rw [hphase]
      rfl
    · rcases hset d hd with hd | rfl
      · exact List.mem_append_left _ (h.complete d hd hphase migration hm hle)
      · dsimp only at hm hle ⊢
        by_cases happlied : migration.version ∈ (select s.rows).map (·.version)
        · -- A row of that version is known, and no other migration has the version.
          refine List.mem_append_left _ ?_
          obtain ⟨r, hr, hversion⟩ := List.mem_map.mp happlied
          obtain ⟨other, hother, rfl⟩ := hknown r hr
          have hsame : other = migration :=
            List.inj_on_of_nodup_map hincreasing.nodup hother hm hversion
          rw [← hsame]
          exact mem_select.mp hr
        · refine List.mem_append_right _ (List.mem_map_of_mem ?_)
          rw [hdone]
          exact List.mem_filter.mpr ⟨hincreasing.mem_takeWhile.mpr ⟨hm, hle⟩,
            decide_eq_true happlied⟩
    · rcases hset d hd with hd | rfl
      · exact h.unviolated d hd hphase
      · cases hphase
  · exact h

/-- **One step.** -/
theorem Sound.step (h : Sound migrationDigest s) (call : MigrationStep) :
    Sound migrationDigest (s.step migrationDigest call) := by
  cases call with
  | migrate migrations targetVersion =>
      have hnew : ∀ d ∈ (s.step migrationDigest (.migrate migrations targetVersion)).calls,
          d ∈ s.calls ∨ (d.phase = .waiting ∧ Increasing d.migrations) ∨
            ∃ path issue, d.phase = .ended (.error (.schemaInvalid path issue)) := by
        intro d hd
        rcases List.mem_append.mp hd with hd | hd
        · exact .inl hd
        · rw [List.mem_singleton.mp hd]
          dsimp only
          cases hconstruct : construct migrations with
          | error e =>
              refine .inr (.inr ?_)
              unfold construct at hconstruct
              dsimp only at hconstruct
              split at hconstruct
              · cases hconstruct
              · cases hconstruct
                exact ⟨_, _, rfl⟩
          | ok u =>
              cases htarget : target migrations targetVersion with
              | error e =>
                  refine .inr (.inr ?_)
                  unfold target at htarget
                  dsimp only at htarget
                  split at htarget
                  · cases htarget
                    exact ⟨_, _, rfl⟩
                  · cases htarget
              | ok knownTarget => exact .inr (.inl ⟨rfl, construct_ok hconstruct⟩)
      refine ⟨h.rows, h.once, fun j k d e hd he hdh heh => ?_, fun d hd hphase => ?_,
        fun d hd done left hphase => ?_, fun d hd hphase => ?_, fun d hd hphase => ?_⟩
      · have hold : ∀ (j : Nat) (d : MigrateCall),
            (s.step migrationDigest (.migrate migrations targetVersion)).calls[j]? = some d →
              d.phase.holds → s.calls[j]? = some d := by
          intro j d hd hdh
          by_cases hj : j < s.calls.length
          · exact (List.getElem?_append_left hj).symm.trans hd
          · -- The call that is new does not hold the lock.
            have hlast : d ∈ (s.step migrationDigest (.migrate migrations targetVersion)).calls :=
              List.mem_of_getElem? hd
            dsimp only [MigrationDatabase.step] at hd
            rw [List.getElem?_append_right (Nat.not_lt.mp hj)] at hd
            have hd' := List.mem_singleton.mp (List.mem_of_getElem? hd)
            rw [hd'] at hdh
            dsimp only at hdh
            split at hdh <;> cases hdh
        exact h.exclusive j k d e (hold j d hd hdh) (hold k e he heh) hdh heh
      · rcases hnew d hd with hd | ⟨-, hincreasing⟩ | ⟨path, issue, hended⟩
        · exact h.increasing d hd hphase
        · exact hincreasing
        · exact absurd hended (hphase _)
      · rcases hnew d hd with hd | ⟨hwaiting, -⟩ | ⟨path, issue, hended⟩
        · exact h.applying d hd done left hphase
        · rw [hphase] at hwaiting
          cases hwaiting
        · rw [hphase] at hended
          cases hended
      · rcases hnew d hd with hd | ⟨hwaiting, -⟩ | ⟨path, issue, hended⟩
        · exact h.complete d hd hphase
        · rw [hphase] at hwaiting
          cases hwaiting
        · rw [hphase] at hended
          cases hended
      · rcases hnew d hd with hd | ⟨hwaiting, -⟩ | ⟨path, issue, hended⟩
        · exact h.unviolated d hd hphase
        · rw [hphase] at hwaiting
          cases hwaiting
        · rw [hphase] at hended
          cases hended
  | lock i =>
      dsimp only [MigrationDatabase.step]
      split
      · rename_i migrations knownTarget hc
        split
        · exact h
        · rename_i hfree
          have hmem := List.mem_of_getElem? hc
          refine h.moved hc _ (fun _ => .inr fun d hd => ?_)
            (fun _ => h.increasing _ hmem (by rintro e ⟨⟩)) (by rintro _ _ ⟨⟩)
            ⟨by rintro ⟨⟩, by rintro ⟨⟩⟩
          exact Bool.eq_false_iff.mpr fun hheld => hfree (List.any_eq_true.mpr ⟨d, hd, hheld⟩)
      · exact h
  | select i =>
      dsimp only [MigrationDatabase.step]
      split
      · rename_i migrations knownTarget hc
        have hmem := List.mem_of_getElem? hc
        split
        · rename_i left hplan
          refine h.moved hc _ (fun _ => .inl rfl) (fun _ => h.increasing _ hmem (by rintro e ⟨⟩)) ?_
            ⟨by rintro ⟨⟩, by rintro ⟨⟩⟩
          rintro done' left' hphase
          cases hphase
          exact hplan
        · rename_i e hplan
          refine h.failed hc ?_
          rintro rfl
          unfold plan at hplan
          split at hplan
          · rename_i e hinvalid
            cases hplan
            obtain ⟨r, -, hr⟩ := List.exists_of_findSome?_eq_some hinvalid
            split at hr
            · cases hr
            · split at hr <;> cases hr
          · split at hplan <;> cases hplan
      · exact h
  | apply i failure => exact h.apply i failure
  | commit i => exact h.commit i
  | abort i message =>
      dsimp only [MigrationDatabase.step]
      split
      · exact h
      · rename_i c hended hc
        exact h.failed hc (by rintro ⟨⟩)
      · exact h

theorem sound_run (steps : List MigrationStep) :
    Sound migrationDigest (.run migrationDigest steps) := by
  induction steps using List.reverseRecOn with
  | nil => exact sound_start
  | append_singleton steps call ih =>
      rw [MigrationDatabase.run, List.foldl_append]
      exact ih.step call

/-- What was committed: no migration was executed twice, the table says which ones were, a
`migrate` that succeeded has left none of its own out, and none has met a unique constraint. -/
structure Migrated (migrationDigest : PostgresMigration → Digest) (s : MigrationDatabase) :
    Prop where
  once : (s.executed.map (·.version)).Nodup
  rows : s.rows = s.executed.map (row migrationDigest)
  complete : ∀ c ∈ s.calls, c.phase = .ended (.ok ()) → ∀ migration ∈ c.migrations,
    migration.version ≤ c.knownTarget → row migrationDigest migration ∈ s.rows
  unviolated : ∀ c ∈ s.calls, c.phase ≠ .ended (.error .uniqueViolation)

/-- **Whatever the interleaving** of managers with migrations of their own, every migration is
executed once at most, and all that a manager has asked for when its `migrate` succeeds. -/
theorem migrations_once (migrationDigest : PostgresMigration → Digest)
    (steps : List MigrationStep) : Migrated migrationDigest (.run migrationDigest steps) where
  once := (sound_run steps).once
  rows := (sound_run steps).rows
  complete := (sound_run steps).complete
  unviolated := (sound_run steps).unviolated

/-! ### One list of migrations -/

/-- Deployments of one list, old and new: what is executed are its first migrations. -/
structure InOrder (all : List PostgresMigration) (s : MigrationDatabase) : Prop where
  executed : s.executed <+: all
  calls : ∀ c ∈ s.calls, c.migrations <+: all

/-- What is left to apply comes next in the list. -/
theorem InOrder.planned {all : List PostgresMigration} (h : InOrder all s)
    (hs : Sound migrationDigest s) {c : MigrateCall} (hc : c ∈ s.calls)
    {done : List PostgresMigration} (hphase : c.phase = .applying done []) :
    s.executed ++ done <+: all := by
  have hincreasing := hs.increasing c hc (by
    intro e he
    rw [hphase] at he
    cases he)
  have hplan := hs.applying c hc done [] hphase
  rw [List.append_nil] at hplan
  obtain ⟨-, rfl⟩ := plan_ok hplan
  have htaken : c.migrations.takeWhile (·.version ≤ c.knownTarget) <+: all :=
    (List.takeWhile_prefix _).trans (h.calls c hc)
  have hnodup : ((c.migrations.takeWhile (·.version ≤ c.knownTarget)).map (·.version)).Nodup :=
    hincreasing.nodup.sublist ((List.takeWhile_sublist _).map _)
  generalize c.migrations.takeWhile (·.version ≤ c.knownTarget) = taken at htaken hnodup ⊢
  rcases List.prefix_or_prefix_of_prefix h.executed htaken with ⟨rest, rfl⟩ | hbefore
  · -- What was executed is passed over, and the rest is applied.
    rw [List.map_append] at hnodup
    have hpassed : s.executed.filter (fun m =>
        decide (m.version ∉ (select s.rows).map (·.version))) = [] := by
      rw [List.filter_eq_nil_iff]
      intro m hm hfresh
      exact of_decide_eq_true hfresh (hs.mem_versions.mpr (List.mem_map_of_mem hm))
    have hrest : rest.filter (fun m =>
        decide (m.version ∉ (select s.rows).map (·.version))) = rest := by
      rw [List.filter_eq_self]
      intro m hm
      refine decide_eq_true fun happlied => ?_
      exact (List.disjoint_of_nodup_append hnodup) (hs.mem_versions.mp happlied)
        (List.mem_map_of_mem hm)
    rw [List.filter_append, hpassed, hrest, List.nil_append]
    exact htaken
  · have hpassed : taken.filter (fun m =>
        decide (m.version ∉ (select s.rows).map (·.version))) = [] := by
      rw [List.filter_eq_nil_iff]
      intro m hm hfresh
      exact of_decide_eq_true hfresh
        (hs.mem_versions.mpr (List.mem_map_of_mem (hbefore.subset hm)))
    rw [hpassed, List.append_nil]
    exact h.executed

/-- What a step does to the calls, and to what was executed. -/
theorem step_executed (s : MigrationDatabase) (call : MigrationStep) :
    ((s.step migrationDigest call).executed = s.executed ∨
      ∃ c ∈ s.calls, ∃ done, c.phase = .applying done [] ∧
        (s.step migrationDigest call).executed = s.executed ++ done) ∧
    ∀ c ∈ (s.step migrationDigest call).calls,
      (∃ d ∈ s.calls, c.migrations = d.migrations) ∨
        ∃ targetVersion, call = .migrate c.migrations targetVersion := by
  have hmoved : ∀ (i : Nat) (c : MigrateCall) (phase : MigratePhase), s.calls[i]? = some c →
      (s.moved i c phase).executed = s.executed ∧
        ∀ d ∈ (s.moved i c phase).calls, ∃ d' ∈ s.calls, d.migrations = d'.migrations := by
    intro i c phase hc
    refine ⟨rfl, fun d hd => ?_⟩
    rcases List.mem_or_eq_of_mem_set hd with hd | rfl
    · exact ⟨d, hd, rfl⟩
    · exact ⟨c, List.mem_of_getElem? hc, rfl⟩
  have hsame : (s.executed = s.executed ∨ ∃ c ∈ s.calls, ∃ done, c.phase = .applying done [] ∧
      s.executed = s.executed ++ done) ∧ ∀ c ∈ s.calls,
        (∃ d ∈ s.calls, c.migrations = d.migrations) ∨
          ∃ targetVersion, call = .migrate c.migrations targetVersion :=
    ⟨.inl rfl, fun c hc => .inl ⟨c, hc, rfl⟩⟩
  cases call with
  | migrate migrations targetVersion =>
      refine ⟨.inl rfl, fun c hc => ?_⟩
      rcases List.mem_append.mp hc with hc | hc
      · exact .inl ⟨c, hc, rfl⟩
      · rw [List.mem_singleton.mp hc]
        exact .inr ⟨targetVersion, rfl⟩
  | lock i =>
      dsimp only [MigrationDatabase.step]
      split
      · rename_i hc
        split
        · exact hsame
        · exact (hmoved i _ _ hc).imp .inl fun hall c hc => .inl (hall c hc)
      · exact hsame
  | select i =>
      dsimp only [MigrationDatabase.step]
      split
      · rename_i hc
        split <;> exact (hmoved i _ _ hc).imp .inl fun hall c hc => .inl (hall c hc)
      · exact hsame
  | apply i failure =>
      dsimp only [MigrationDatabase.step]
      split
      · rename_i hc
        split
        · exact (hmoved i _ _ hc).imp .inl fun hall c hc => .inl (hall c hc)
        · split <;> exact (hmoved i _ _ hc).imp .inl fun hall c hc => .inl (hall c hc)
      · exact hsame
  | commit i =>
      dsimp only [MigrationDatabase.step]
      split
      · rename_i done hc
        refine ⟨.inr ⟨_, List.mem_of_getElem? hc, done, rfl, rfl⟩, fun c hc' => .inl ?_⟩
        exact (hmoved i _ (.ended (.ok ())) hc).2 c hc'
      · exact hsame
  | abort i message =>
      dsimp only [MigrationDatabase.step]
      split
      · exact hsame
      · rename_i hc
        exact (hmoved i _ _ hc).imp .inl fun hall c hc => .inl (hall c hc)
      · exact hsame

theorem InOrder.step {all : List PostgresMigration} (h : InOrder all s)
    (hs : Sound migrationDigest s) (call : MigrationStep)
    (hcall : ∀ migrations targetVersion, call = .migrate migrations targetVersion →
      migrations <+: all) : InOrder all (s.step migrationDigest call) := by
  obtain ⟨hexecuted, hcalls⟩ := @step_executed migrationDigest s call
  refine ⟨?_, fun c hc => ?_⟩
  · rcases hexecuted with hsame | ⟨c, hc, done, hphase, hdone⟩
    · rw [hsame]
      exact h.executed
    · rw [hdone]
      exact h.planned hs hc hphase
  · rcases hcalls c hc with ⟨d, hd, hsame⟩ | ⟨targetVersion, hnew⟩
    · rw [hsame]
      exact h.calls d hd
    · exact hcall _ _ hnew

/-- What the database has is the current version of the first migrations of a list, and the
others are pending. -/
theorem status_of_prefix {all executed : List PostgresMigration} (hall : Increasing all)
    (h : executed <+: all) :
    status migrationDigest (executed.map (row migrationDigest)) all =
      .ok (lastVersion (executed.map (·.version)),
        (all.drop executed.length).map (·.version)) := by
  obtain ⟨rest, rfl⟩ := h
  obtain ⟨hexecuted, -, -⟩ := List.pairwise_append.mp hall
  have hselect : select (executed.map (row migrationDigest)) =
      executed.map (row migrationDigest) := by
    refine List.mergeSort_of_pairwise (List.pairwise_map.mpr (hexecuted.imp ?_))
    exact fun hlt => decide_eq_true hlt.le
  have hversions : (executed.map (row migrationDigest)).map (·.version) =
      executed.map (·.version) := by
    rw [List.map_map]
    rfl
  have hnodup := hall.nodup
  rw [List.map_append] at hnodup
  have hvalid : validateAppliedMigrations migrationDigest (executed.map (row migrationDigest))
      (executed ++ rest) = none := by
    refine List.findSome?_eq_none_iff.mpr fun r hr => ?_
    obtain ⟨m, hm, rfl⟩ := List.mem_map.mp hr
    cases hfind : (executed ++ rest).find? (·.version = (row migrationDigest m).version) with
    | none =>
        have := List.find?_eq_none.mp hfind m (List.mem_append_left _ hm)
        exact absurd (decide_eq_true rfl) this
    | some other =>
        have hselected := List.find?_some hfind
        have hsame : other = m := List.inj_on_of_nodup_map hall.nodup
          (List.mem_of_find?_eq_some hfind) (List.mem_append_left _ hm)
          (of_decide_eq_true hselected)
        rw [hsame]
        exact if_neg (not_not.mpr rfl)
  have hpassed : executed.filter (fun m =>
      decide (m.version ∉ executed.map (·.version))) = [] := by
    rw [List.filter_eq_nil_iff]
    exact fun m hm hfresh => of_decide_eq_true hfresh (List.mem_map_of_mem hm)
  have hrest : rest.filter (fun m => decide (m.version ∉ executed.map (·.version))) = rest := by
    rw [List.filter_eq_self]
    exact fun m hm => decide_eq_true fun happlied =>
      (List.disjoint_of_nodup_append hnodup) happlied (List.mem_map_of_mem hm)
  unfold status
  rw [hselect, hvalid, hversions, List.filter_append, hpassed, hrest, List.nil_append,
    List.drop_left]

/-- **Managers of one list**, some of which know only its first migrations: whatever the
interleaving, what is executed are the first migrations of the list in their order, and `status`
says which one is the last and which ones are pending. -/
theorem migrations_in_order (migrationDigest : PostgresMigration → Digest)
    (all : List PostgresMigration) (hall : construct all = .ok ()) (steps : List MigrationStep)
    (hsteps : ∀ migrations targetVersion, .migrate migrations targetVersion ∈ steps →
      migrations <+: all) :
    (MigrationDatabase.run migrationDigest steps).executed <+: all ∧
      status migrationDigest (MigrationDatabase.run migrationDigest steps).rows all =
        .ok (lastVersion ((MigrationDatabase.run migrationDigest steps).executed.map (·.version)),
          (all.drop (MigrationDatabase.run migrationDigest steps).executed.length).map
            (·.version)) := by
  have h : InOrder all (MigrationDatabase.run migrationDigest steps) := by
    induction steps using List.reverseRecOn with
    | nil =>
        refine ⟨List.nil_prefix, fun c hc => ?_⟩
        cases hc
    | append_singleton steps call ih =>
        rw [MigrationDatabase.run, List.foldl_append]
        have hbefore := ih fun m t hm => hsteps m t (List.mem_append_left _ hm)
        refine hbefore.step (sound_run steps) call ?_
        rintro m t rfl
        exact hsteps m t (List.mem_append_right _ List.mem_cons_self)
  refine ⟨h.executed, ?_⟩
  rw [(sound_run steps).rows]
  exact status_of_prefix (construct_ok hall) h.executed

section Witness

/-- Two migrations. -/
def twoMigrations : List PostgresMigration :=
  [⟨lit "001", lit "first", false, [lit "CREATE TABLE a ()"], []⟩,
    ⟨lit "002", lit "second", false, [lit "CREATE TABLE b ()"], []⟩]

/-- An old manager knows the first one only; a new one waits for it and applies the second one. -/
def twoManagers : List MigrationStep :=
  [.migrate (twoMigrations.take 1) none, .migrate twoMigrations none, .lock 0, .lock 1, .select 0,
    .apply 0 none, .commit 0, .lock 1, .select 1, .apply 1 none, .commit 1]

theorem migrations_in_order_two :
    (MigrationDatabase.run (fun _ => "") twoManagers).executed <+: twoMigrations ∧
      status (fun _ => "") (MigrationDatabase.run (fun _ => "") twoManagers).rows twoMigrations =
        .ok (lastVersion ((MigrationDatabase.run (fun _ => "") twoManagers).executed.map
            (·.version)),
          (twoMigrations.drop (MigrationDatabase.run (fun _ => "") twoManagers).executed.length).map
            (·.version)) := by
  refine migrations_in_order _ twoMigrations (by decide) twoManagers fun m t hm => ?_
  simp only [twoManagers, List.mem_cons, MigrationStep.migrate.injEq, reduceCtorEq, or_false,
    List.not_mem_nil] at hm
  rcases hm with ⟨rfl, -⟩ | ⟨rfl, -⟩
  · exact List.take_prefix 1 twoMigrations
  · exact List.prefix_rfl

end Witness

end PostgresMigrations

end Pactmark
