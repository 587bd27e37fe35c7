import Pactmark.Durable.Runs
import Pactmark.Worker.QueueSafety

/-!
# Worker — stale recovery

`recoverStale` updates the lease of the run of every stale wakeup, and throws if that lease is not
the one the wakeup was claimed under.

* `Bound`: every claimed wakeup is bound to the lease of its run, and no other wakeup of the run is
  claimed.
* `recoverRows_ok`: then the loop of `recoverStale` recovers every row.
* `recoverStale_succeeds`: so it is after every run in which no claim takes a wakeup of a run that
  has a wakeup still claimed.
* `recoverStale_throws`: a second wakeup of the run, claimed after the lease of the first expired
  and before it was recovered, makes recovery throw.
-/

namespace Pactmark

open Durable

namespace Worker

variable {C : QueueContext} {t t' : Tables} {c c' : WorkerWakeupClaim}

/-! ### Claimed wakeups and their leases -/

/-- Every claimed wakeup is bound to the lease of its run, and is the only one of its run. -/
structure Bound (t : Tables) : Prop where
  lease : ∀ key w, t.wakeups.get key = some w → w.state = .claimed →
    ∃ l, t.leases.get w.runKey = some l ∧ BoundTo w l
  single : ∀ key w key' w', t.wakeups.get key = some w → t.wakeups.get key' = some w' →
    w.state = .claimed → w'.state = .claimed → w.runKey = w'.runKey → key = key'

/-- No wakeup of the run is claimed. -/
def Free (t : Tables) (run : StreamKey) : Prop :=
  ∀ key w, t.wakeups.get key = some w → w.state = .claimed → w.runKey ≠ run

theorem Bound.others (h : Bound t) {key : WakeupKey} {w : WakeupRow}
    (hw : t.wakeups.get key = some w) (hclaimed : w.state = .claimed) :
    ∀ k v, t.wakeups.get k = some v → v.state = .claimed → k ≠ key → v.runKey ≠ w.runKey :=
  fun k v hv hc hne hrun => hne (h.single k v key w hv hw hc hclaimed hrun)

/-- **A wakeup and the lease of its run change**, where no other wakeup of the run is claimed. -/
theorem Bound.update (h : Bound t) {key : WakeupKey} {run : StreamKey} {w' : WakeupRow}
    {l' : LeaseRow} (hrun : w'.runKey = run)
    (hothers : ∀ k v, t.wakeups.get k = some v → v.state = .claimed → k ≠ key → v.runKey ≠ run)
    (hbound : w'.state = .claimed → BoundTo w' l') :
    Bound ⟨t.wakeups.set key w', t.leases.set run l'⟩ := by
  have hcases : ∀ k v, (t.wakeups.set key w').get k = some v →
      (k = key ∧ v = w') ∨ (k ≠ key ∧ t.wakeups.get k = some v) := by
    intro k v hv
    rw [OrderedMap.get_set] at hv
    split at hv
    · rename_i hk
      exact .inl ⟨hk, (Option.some.inj hv).symm⟩
    · rename_i hk
      exact .inr ⟨hk, hv⟩
  constructor
  · intro k v hv hclaimed
    rcases hcases k v hv with ⟨rfl, rfl⟩ | ⟨hne, hv⟩
    · rw [hrun]
      exact ⟨l', OrderedMap.get_set_self _ _ _, hbound hclaimed⟩
    · obtain ⟨l, hl, hl'⟩ := h.lease k v hv hclaimed
      refine ⟨l, ?_, hl'⟩
      exact (OrderedMap.get_set_of_ne _ _ (hothers k v hv hclaimed hne)).trans hl
  · intro k v k' v' hv hv' hclaimed hclaimed' heq
    rcases hcases k v hv with ⟨rfl, rfl⟩ | ⟨hne, hold⟩ <;>
      rcases hcases k' v' hv' with ⟨rfl, rfl⟩ | ⟨hne', hold'⟩
    · rfl
    · exact absurd (heq.symm.trans hrun) (hothers k' v' hold' hclaimed' hne')
    · exact absurd (heq.trans hrun) (hothers k v hold hclaimed hne)
    · exact h.single k v k' v' hold hold' hclaimed hclaimed' heq

/-- A wakeup that is not claimed is stored under a fresh key. -/
theorem Bound.enqueue (h : Bound t) {key : WakeupKey} {w' : WakeupRow}
    (hstate : w'.state ≠ .claimed) : Bound { t with wakeups := t.wakeups.set key w' } := by
  have hold : ∀ k v, (t.wakeups.set key w').get k = some v → v.state = .claimed →
      t.wakeups.get k = some v := by
    intro k v hv hclaimed
    rw [OrderedMap.get_set] at hv
    split at hv
    · obtain rfl := Option.some.inj hv
      exact absurd hclaimed hstate
    · exact hv
  constructor
  · exact fun k v hv hclaimed => h.lease k v (hold k v hv hclaimed) hclaimed
  · exact fun k v k' v' hv hv' hclaimed hclaimed' =>
      h.single k v k' v' (hold k v hv hclaimed) (hold k' v' hv' hclaimed') hclaimed hclaimed'

/-! ### Recovering -/

/-- A claimed wakeup that is bound to its lease is recovered. -/
theorem recoverRow_ok (h : Bound t) (now : Int) {row : WakeupRow}
    (hrow : t.wakeups.get row.key = some row) (hclaimed : row.state = .claimed) :
    ∃ row' l', recoverRow now t row =
        .ok ⟨t.wakeups.set row.key row', t.leases.set row.runKey l'⟩ ∧
      row'.state = .pending ∧ row'.runKey = row.runKey := by
  obtain ⟨l, hl, hid, htoken, hholder, hstate⟩ := h.lease row.key row hrow hclaimed
  refine
    ⟨{ row with
        state := .pending
        availableAt := now
        claimedBy := none
        claimedUntil := none
        claimLeaseId := none
        releaseReasonCode := some "KAF_STORAGE_LEASE_EXPIRED" },
      { l with state := .expired, expiresAt := min l.expiresAt now }, ?_, rfl, rfl⟩
  simp [recoverRow, Tables.updateLease, hl, hid, htoken, hholder, hstate, Tables.updateWakeup,
    hrow, hclaimed, orConflict, bind, Except.bind]

/-- **The loop of `recoverStale`** recovers claimed wakeups, by induction on them. -/
theorem recoverRows_ok (h : Bound t) (now : Int) {rows : List WakeupRow}
    (hrows : ∀ row ∈ rows, t.wakeups.get row.key = some row ∧ row.state = .claimed)
    (hnodup : (rows.map WakeupRow.key).Nodup) :
    ∃ t', recoverRows now rows t = .ok t' ∧ Bound t' ∧
      (∀ row ∈ rows, ∃ w, t'.wakeups.get row.key = some w ∧ w.state = .pending) ∧
      ∀ key, key ∉ rows.map WakeupRow.key → t'.wakeups.get key = t.wakeups.get key := by
  induction rows generalizing t with
  | nil =>
    exact ⟨t, rfl, h, fun _ hrow => absurd hrow List.not_mem_nil, fun _ _ => rfl⟩
  | cons row rest ih =>
    rw [List.map_cons, List.nodup_cons] at hnodup
    obtain ⟨hfresh, hnodup⟩ := hnodup
    obtain ⟨hrow, hclaimed⟩ := hrows row List.mem_cons_self
    obtain ⟨row', l', hok, hpending, hrun⟩ := recoverRow_ok h now hrow hclaimed
    have hbound : Bound ⟨t.wakeups.set row.key row', t.leases.set row.runKey l'⟩ :=
      h.update hrun (h.others hrow hclaimed) fun hc => by rw [hpending] at hc; cases hc
    -- the rows that are left have other keys
    have hrest : ∀ r ∈ rest, (t.wakeups.set row.key row').get r.key = some r ∧
        r.state = .claimed := by
      intro r hr
      obtain ⟨hget, hc⟩ := hrows r (List.mem_cons_of_mem _ hr)
      refine ⟨(OrderedMap.get_set_of_ne _ _ fun heq => hfresh ?_).trans hget, hc⟩
      exact heq ▸ List.mem_map_of_mem hr
    obtain ⟨t', hok', hbound', hrecovered, hothers⟩ := ih hbound hrest hnodup
    refine ⟨t', ?_, hbound', fun r hr => ?_, fun key hkey => ?_⟩
    · simp only [recoverRows, hok, bind, Except.bind, hok']
    · rcases List.mem_cons.mp hr with rfl | hr
      · refine ⟨row', ?_, hpending⟩
        rw [hothers _ hfresh]
        exact OrderedMap.get_set_self _ _ _
      · exact hrecovered r hr
    · rw [List.map_cons, List.mem_cons, not_or] at hkey
      rw [hothers key hkey.2]
      exact OrderedMap.get_set_of_ne _ _ hkey.1

theorem mem_values_iff {m : OrderedMap WakeupKey WakeupRow} {row : WakeupRow} :
    row ∈ m.values ↔ ∃ key, m.get key = some row := by
  simp only [OrderedMap.values, List.mem_map, OrderedMap.get_eq_some_iff, Prod.exists,
    exists_eq_right]

theorem mem_staleRows {allowedTenants : List String} {now : Int} {row : WakeupRow} :
    row ∈ staleRows C allowedTenants now t ↔
      (∃ key, t.wakeups.get key = some row) ∧ stale allowedTenants now row = true := by
  rw [staleRows, List.mem_insertionSort, List.mem_filter, mem_values_iff]

theorem staleRows_nodup (h : Legal t) (allowedTenants : List String) (now : Int) :
    ((staleRows C allowedTenants now t).map WakeupRow.key).Nodup := by
  have hkeys : t.wakeups.values.map WakeupRow.key = t.wakeups.entries.map Prod.fst := by
    rw [OrderedMap.values, List.map_map]
    refine List.map_congr_left fun x hx => ?_
    exact h.keyed x.1 x.2 (OrderedMap.get_eq_some_iff.mpr hx)
  rw [staleRows, ((List.perm_insertionSort _ _).map WakeupRow.key).nodup_iff]
  refine (List.filter_sublist.map WakeupRow.key).nodup ?_
  rw [hkeys]
  exact t.wakeups.nodup

/-- **Stale recovery succeeds** where every claimed wakeup is bound to its lease. -/
theorem recoverStale_ok (h : Bound t) (hlegal : Legal t) (allowedTenants : List String)
    (now : Int) :
    ∃ count t', recoverStale C allowedTenants now t = .ok (count, t') ∧ Bound t' ∧
      ∀ key w, t.wakeups.get key = some w → stale allowedTenants now w = true →
        ∃ w', t'.wakeups.get key = some w' ∧ w'.state = .pending := by
  have hrows : ∀ row ∈ staleRows C allowedTenants now t,
      t.wakeups.get row.key = some row ∧ row.state = .claimed := by
    intro row hrow
    obtain ⟨⟨key, hkey⟩, hstale⟩ := mem_staleRows.mp hrow
    rw [hlegal.keyed key row hkey]
    exact ⟨hkey, (of_decide_eq_true hstale).1⟩
  obtain ⟨t', hok, hbound, hrecovered, -⟩ :=
    recoverRows_ok h now hrows (staleRows_nodup hlegal allowedTenants now)
  refine ⟨(staleRows C allowedTenants now t).length, t', ?_, hbound, fun key w hw hstale => ?_⟩
  · simp only [recoverStale, hok, bind, Except.bind, pure, Except.pure]
  · obtain ⟨w', hw', hpending⟩ := hrecovered w (mem_staleRows.mpr ⟨⟨key, hw⟩, hstale⟩)
    rw [hlegal.keyed key w hw] at hw'
    exact ⟨w', hw', hpending⟩

/-! ### The other transactions -/

theorem Safe.held_key {q : Queue} (h : Safe q) (hc : c ∈ q.held) : c.lease.key = runKey c := by
  obtain ⟨c₀, hc₀, heq⟩ := h.held c hc
  obtain ⟨-, hrun, -, hkey⟩ := handOut_eq heq
  rw [hkey, hrun]
  exact h.lease_key c₀ hc₀

theorem bindsWakeup_run (h : Legal t) {w : WakeupRow} (hw : t.wakeups.get (wakeupKey c) = some w)
    (hbinds : bindsWakeup c w = true) : w.runKey = runKey c := by
  obtain ⟨hrun, -⟩ := of_decide_eq_true hbinds
  have htenant := (Prod.mk.inj (h.keyed _ w hw)).1
  rw [WakeupRow.runKey, htenant, hrun]
  rfl

theorem Bound.leaves (h : Bound t) (hlegal : Legal t) (hkey : c.lease.key = runKey c)
    {state : WakeupState} (hstate : state ≠ .claimed) (hleaves : Leaves c state t t') :
    Bound t' := by
  obtain ⟨w, w', l, l', hw, hbinds, -, -, -, hrun, -, hw', rfl⟩ := hleaves
  have hrunKey : w.runKey = c.lease.key := (bindsWakeup_run hlegal hw hbinds).trans hkey.symm
  refine h.update (hrun.trans hrunKey) ?_ fun hc => absurd (hw'.symm.trans hc) hstate
  rw [← hrunKey]
  exact h.others hw (bindsWakeup_token hbinds).1

theorem Bound.renews (h : Bound t) (hlegal : Legal t) (hkey : c.lease.key = runKey c)
    (hrenews : Renews c c' t t') : Bound t' := by
  obtain ⟨-, w, claimedUntil, l, expiresAt, hw, hbinds, hl, -, rfl⟩ := hrenews
  have hclaimed := (bindsWakeup_token hbinds).1
  have hrunKey : w.runKey = c.lease.key := (bindsWakeup_run hlegal hw hbinds).trans hkey.symm
  refine h.update hrunKey ?_ fun _ => ?_
  · rw [← hrunKey]
    exact h.others hw hclaimed
  · obtain ⟨x, hx, hbound⟩ := h.lease _ w hw hclaimed
    obtain rfl : l = x := by
      rw [hrunKey] at hx
      exact Option.some.inj (hl.symm.trans hx)
    exact hbound

/-- **The loop of `claim`** keeps the bindings, if the runs it may claim have no claimed wakeup. -/
theorem claimRows_bound {holderId : String} {leaseTtlMs now : Int}
    {joined : WakeupRow → Option WorkOrderRow} {rows : List WakeupRow}
    {claimedRuns : List StreamKey} {claims : List WorkerWakeupClaim} (h : Bound t)
    (hlegal : Legal t) (hfree : ∀ row ∈ rows, row.runKey ∈ claimedRuns ∨ Free t row.runKey)
    (hok : claimRows C holderId leaseTtlMs now joined rows claimedRuns t = .ok (claims, t')) :
    Bound t' := by
  induction rows generalizing claimedRuns t claims with
  | nil =>
    obtain ⟨rfl, rfl⟩ := Prod.mk.inj (Except.ok.inj hok)
    exact h
  | cons row rest ih =>
    have hskip : claimRows C holderId leaseTtlMs now joined rest claimedRuns t = .ok (claims, t') →
        Bound t' :=
      ih h hlegal fun r hr => hfree r (List.mem_cons_of_mem _ hr)
    unfold claimRows at hok
    split at hok
    · exact hskip hok
    split at hok
    · exact hskip hok
    rename_i hrun
    split at hok
    · cases hok
    · exact hskip hok
    rename_i head t₁ hhead
    obtain ⟨⟨tail, t₂⟩, hrest, hok⟩ := bind_eq_ok.mp hok
    obtain ⟨rfl, rfl⟩ := Prod.mk.inj (Except.ok.inj hok)
    have htakes := claimRow_takes hlegal hhead
    have hrow : Free t row.runKey := (hfree row List.mem_cons_self).resolve_left hrun
    obtain ⟨w', l', hbound, hrunKey, rfl⟩ := htakes.tables
    refine ih (h.update hrunKey (fun k v hv hc _ => hrow k v hv hc) fun _ => hbound)
      htakes.proceeds.legal (fun r hr => ?_) hrest
    -- the run of this candidate is claimed now, the others are as free as before
    by_cases heq : r.runKey = row.runKey
    · exact .inl (heq ▸ List.mem_cons_self)
    · rcases hfree r (List.mem_cons_of_mem _ hr) with hmem | hfree
      · exact .inl (List.mem_cons_of_mem _ hmem)
      · refine .inr fun k v hv hc => ?_
        dsimp only at hv
        rw [OrderedMap.get_set] at hv
        split at hv
        · obtain rfl := Option.some.inj hv
          rw [hrunKey]
          exact Ne.symm heq
        · exact hfree k v hv hc

/-- A claim that does not throw takes no wakeup of a run that has one still claimed. -/
def ClaimsFree (C : QueueContext) (q : Queue) (call : Nat × QueueCall) : Prop :=
  ∀ allowedTenants holderId limit leaseTtlMs joined q',
    call.2 = .claim allowedTenants holderId limit leaseTtlMs joined →
    (q.elapse call.1).transaction C call.2 = .ok q' →
    ∀ row ∈ candidates C allowedTenants limit joined (q.now + call.1) q.tables,
      Free q.tables row.runKey

theorem Bound.transaction {q q' : Queue} {elapsed : Nat} {call : QueueCall} (h : Bound q.tables)
    (hsafe : Safe q) (hfree : ClaimsFree C q (elapsed, call))
    (hok : (q.elapse elapsed).transaction C call = .ok q') : Bound q'.tables := by
  have hlegal := hsafe.legal
  cases transaction_committed hok with
  | enqueue hfresh => exact h.enqueue fun hc => by cases hc
  | @recoverStale allowedTenants t₁ hrows =>
    obtain ⟨count, t', hrecovered, hbound, -⟩ :=
      recoverStale_ok (C := C) h hlegal allowedTenants (q.elapse elapsed).now
    obtain ⟨t₂, hrows', hrecovered⟩ := bind_eq_ok.mp hrecovered
    obtain ⟨-, rfl⟩ := Prod.mk.inj (Except.ok.inj hrecovered)
    obtain rfl := Except.ok.inj (hrows.symm.trans hrows')
    exact hbound
  | @claim allowedTenants holderId _ limit leaseTtlMs joined _ _ hrows =>
    have hcandidates := hfree allowedTenants holderId limit leaseTtlMs joined _ rfl hok
    exact claimRows_bound h hlegal (fun row hrow => .inr (hcandidates row hrow)) hrows
  | missing hnone => exact h
  | renew hc hrenewed =>
    exact h.renews hlegal (hsafe.held_key (List.mem_of_getElem? hc)) (renew_renews hrenewed)
  | complete hc hcompleted =>
    exact h.leaves hlegal (hsafe.held_key (List.mem_of_getElem? hc)) (by decide)
      (complete_leaves hcompleted)
  | release hc hreleased =>
    exact h.leaves hlegal (hsafe.held_key (List.mem_of_getElem? hc)) (by decide)
      (release_leaves hreleased)

/-- **One transaction** keeps the bindings. -/
theorem Bound.step {q : Queue} {call : Nat × QueueCall} (h : Bound q.tables) (hsafe : Safe q)
    (hfree : ClaimsFree C q call) : Bound (q.step C call).tables := by
  unfold Queue.step
  split
  · rename_i q' hok
    exact h.transaction hsafe hfree hok
  · exact h

theorem bound_start : Bound Queue.start.tables where
  lease _ _ hw := by cases hw
  single _ _ _ _ hw := by cases hw

/-- **Stale recovery succeeds** after every run in which no claim takes a wakeup of a run that has
one still claimed. -/
theorem recoverStale_succeeds (C : QueueContext) {calls : List (Nat × QueueCall)}
    (h : Along (Queue.step C) Queue.start (ClaimsFree C) calls) (elapsed : Nat)
    (allowedTenants : List String) :
    ∃ count t', recoverStale C allowedTenants ((Queue.after C calls).now + elapsed)
        (Queue.after C calls).tables = .ok (count, t') ∧
      ∀ key w, (Queue.after C calls).tables.wakeups.get key = some w → w.state = .claimed →
        (∃ claimedUntil, w.claimedUntil = some claimedUntil ∧
          claimedUntil ≤ (Queue.after C calls).now + elapsed) →
        w.tenantId ∈ allowedTenants →
        ∃ w', t'.wakeups.get key = some w' ∧ w'.state = .pending := by
  have hkept : Safe (Queue.after C calls) ∧ Bound (Queue.after C calls).tables :=
    h.invariant (P := fun q => Safe q ∧ Bound q.tables) ⟨safe_start, bound_start⟩
      fun q call hq hfree => ⟨hq.1.step call, hq.2.step hq.1 hfree⟩
  obtain ⟨hsafe, hbound⟩ := hkept
  obtain ⟨count, t', hok, -, hrecovered⟩ := recoverStale_ok (C := C) hbound hsafe.legal
    allowedTenants ((Queue.after C calls).now + elapsed)
  refine ⟨count, t', hok, fun key w hw hclaimed huntil htenant => hrecovered key w hw ?_⟩
  obtain ⟨claimedUntil, hsome, hle⟩ := huntil
  rw [stale, hsome, Option.any_some]
  exact decide_eq_true ⟨hclaimed, decide_eq_true hle, htenant⟩

/-! ### Two wakeups of one run -/

/-- A digest that is the text itself, and texts in no order. -/
def plainContext : QueueContext where
  collation _ _ := true
  requestDigest request := request.deduplicationKey
  executionDefinitionDigest _ := "definition"
  claimDigest receiptId nextAttempt :=
    receiptId ++ "/" ++ String.ofList (List.replicate nextAttempt '1')

/-- A wakeup of a run, available from the start. -/
def wakeupOf (tenantId runId wakeupId : String) : NewWakeup where
  tenantId
  runId
  wakeupId
  delegation := some
    { tenantId
      runId
      reason := .run_accepted
      notBefore := ⟨"1970-01-01T00:00:00.000Z", 0⟩
      deduplicationKey := wakeupId
      payload := "\x7b\x7d" }
  requestDigest := wakeupId
  workOrderId := "order"
  availableAt := 0

/-- The work order of every run. -/
def workOrderOf (_ : WakeupRow) : Option WorkOrderRow :=
  some
    { principal := some ⟨.user, "principal"⟩
      workOrderBindingDigest := "binding"
      executionDefinition := some (.agent "agent" "1" "digest")
      executionDefinitionDigest := "definition"
      purpose := some ⟨"purpose", "1"⟩
      resourceScopeCeiling := some [] }

/-- A wakeup is claimed for a second. -/
def claimOne (tenantId : String) : QueueCall :=
  .claim [tenantId] "holder" 1 1000 workOrderOf

/-- One wakeup, claimed and left, is recovered later on. -/
theorem recoverStale_succeeds_left :
    ∃ count t', recoverStale plainContext ["tenant"]
        ((Queue.after plainContext
          [(0, .enqueue (wakeupOf "tenant" "run" "first")), (0, claimOne "tenant")]).now +
            (2000000 : Nat))
        (Queue.after plainContext
          [(0, .enqueue (wakeupOf "tenant" "run" "first")), (0, claimOne "tenant")]).tables =
            .ok (count, t') ∧
      ∃ w, t'.wakeups.get ("tenant", "first") = some w ∧ w.state = .pending := by
  have halong : Along (Queue.step plainContext) Queue.start (ClaimsFree plainContext)
      (([] ++ [(0, .enqueue (wakeupOf "tenant" "run" "first"))]) ++ [(0, claimOne "tenant")]) := by
    refine along_snoc.mpr ⟨along_snoc.mpr ⟨along_nil, ?_⟩, ?_⟩
    · intro allowedTenants holderId limit leaseTtlMs joined q' hcall
      cases hcall
    · intro allowedTenants holderId limit leaseTtlMs joined q' _ _ row _ key w hw hclaimed
      have hset : ((OrderedMap.empty : OrderedMap WakeupKey WakeupRow).set
          (wakeupOf "tenant" "run" "first").row.key
          (wakeupOf "tenant" "run" "first").row).get key = some w := hw
      rw [OrderedMap.get_set] at hset
      split at hset
      · obtain rfl := Option.some.inj hset
        cases hclaimed
      · cases hset
  obtain ⟨count, t', hok, hrecovered⟩ :=
    recoverStale_succeeds plainContext halong 2000000 ["tenant"]
  refine ⟨count, t', hok, ?_⟩
  have hstored : ∃ w, (Queue.after plainContext
      [(0, .enqueue (wakeupOf "tenant" "run" "first")), (0, claimOne "tenant")]).tables.wakeups.get
        ("tenant", "first") = some w ∧ w.state = .claimed ∧ w.claimedUntil = some 1000000 ∧
          w.tenantId = "tenant" := by
    refine ⟨_, rfl, ?_, ?_, ?_⟩ <;> decide +kernel
  obtain ⟨w, hw, hclaimed, huntil, htenant⟩ := hstored
  exact hrecovered _ w hw hclaimed ⟨1000000, huntil, by decide⟩ (by simp [htenant])

/-- The second wakeup of a run is claimed after the lease of the first expired: recovery throws for
every tenant. -/
theorem recoverStale_throws :
    ¬ ∀ (C : QueueContext) (calls : List (Nat × QueueCall)) (elapsed : Nat)
        (allowedTenants : List String),
      ∃ recovered, recoverStale C allowedTenants ((Queue.after C calls).now + elapsed)
        (Queue.after C calls).tables = .ok recovered := by
  intro h
  obtain ⟨recovered, hok⟩ := h plainContext
    [(0, .enqueue (wakeupOf "tenant" "run" "first")),
      (0, .enqueue (wakeupOf "tenant" "run" "second")),
      (0, .enqueue (wakeupOf "other" "run" "third")),
      (0, claimOne "tenant"), (0, claimOne "other"), (2000000, claimOne "tenant")] 0
    ["tenant", "other"]
  have hthrows : _ = true := congrArg (fun result => result.toOption.isSome) hok
  revert hthrows
  decide +kernel

end Worker

end Pactmark
