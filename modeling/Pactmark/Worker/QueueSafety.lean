import Pactmark.Durable.Operations
import Pactmark.Durable.Snapshots
import Pactmark.Worker.Queue

/-!
# Worker — the queue is safe

What holds of every sequence of transactions.

* `Evolves`: what every transaction does to the tables: rows stay, tokens do not decrease, and a
  completed wakeup stays as it is.
* `Claims`: what the loop of `claim` hands out.
* `Safe`: the invariant that relates every claim ever handed out to the rows; `Safe.step`.
* `queue_safety`: what follows from it.
-/

namespace Pactmark

open Durable

namespace Worker

variable {C : QueueContext} {t t' t'' : Tables} {c c' : WorkerWakeupClaim}

/-! ### What a statement does -/

theorem updateWakeup_eq_some {key : WakeupKey} {finds : WakeupRow → Bool}
    {sets : WakeupRow → WakeupRow} (h : t.updateWakeup key finds sets = some t') :
    ∃ row, t.wakeups.get key = some row ∧ finds row = true ∧
      t' = { t with wakeups := t.wakeups.set key (sets row) } := by
  unfold Tables.updateWakeup at h
  split at h
  · rename_i row hrow
    split at h
    · rename_i hfinds
      exact ⟨row, hrow, hfinds, (Option.some.inj h).symm⟩
    · cases h
  · cases h

theorem updateLease_eq_some {key : StreamKey} {finds : LeaseRow → Bool}
    {sets : LeaseRow → LeaseRow} {l : LeaseRow}
    (h : t.updateLease key finds sets = some (l, t')) :
    ∃ row, t.leases.get key = some row ∧ finds row = true ∧ l = sets row ∧
      t' = { t with leases := t.leases.set key (sets row) } := by
  unfold Tables.updateLease at h
  split at h
  · rename_i row hrow
    split at h
    · rename_i hfinds
      obtain ⟨rfl, rfl⟩ := Prod.mk.inj (Option.some.inj h)
      exact ⟨row, hrow, hfinds, rfl, rfl⟩
    · cases h
  · cases h

theorem orConflict_ok {α : Type} {result : Option α} {reason : String} {value : α}
    (h : orConflict result reason = .ok value) : result = some value := by
  unfold orConflict at h
  split at h
  · exact congrArg some (Except.ok.inj h)
  · cases h

theorem parseLease_ok {key : StreamKey} {row : LeaseRow} {lease : FencedLease}
    (h : parseLease key row = .ok lease) :
    lease.key = key ∧ lease.fencingToken = row.fencingToken ∧ lease.leaseId = row.leaseId ∧
      lease.holderId = row.holderId := by
  simp only [parseLease] at h
  split at h
  · obtain rfl := Except.ok.inj h
    exact ⟨rfl, rfl, rfl, rfl⟩
  · cases h

theorem parseClaim_ok {row : WakeupRow} {workOrder : WorkOrderRow} {lease : FencedLease}
    (h : parseClaim C row workOrder lease = .ok c) :
    wakeupKey c = row.key ∧ runKey c = row.runKey ∧ c.lease = lease := by
  unfold parseClaim at h
  split at h
  · cases h
  split at h
  · cases h
  rename_i request hbinding
  simp only [ne_eq, not_or, not_not] at hbinding
  obtain ⟨htenant, hrun, -⟩ := hbinding
  split at h
  · cases h
  split at h
  · cases h
  split at h
  · obtain rfl := Except.ok.inj h
    simp only [wakeupKey, runKey, WakeupRow.key, WakeupRow.runKey, htenant, hrun, and_self]
  · cases h

/-! ### What every transaction does to the tables -/

/-- Rows stay where they are, tokens do not decrease, and a completed wakeup stays as it is. -/
structure Evolves (t t' : Tables) : Prop where
  wakeups : ∀ key w, t.wakeups.get key = some w → ∃ w', t'.wakeups.get key = some w' ∧
    w'.key = w.key ∧ w'.runKey = w.runKey ∧ w.claimFencingToken ≤ w'.claimFencingToken ∧
    (w.state = .completed → w' = w)
  leases : ∀ key l, t.leases.get key = some l → ∃ l', t'.leases.get key = some l' ∧
    l.fencingToken ≤ l'.fencingToken

theorem Evolves.refl (t : Tables) : Evolves t t :=
  ⟨fun _ w hw => ⟨w, hw, rfl, rfl, le_rfl, fun _ => rfl⟩, fun _ l hl => ⟨l, hl, le_rfl⟩⟩

theorem Evolves.trans (h : Evolves t t') (h' : Evolves t' t'') : Evolves t t'' where
  wakeups key w hw := by
    obtain ⟨w', hw', hkey, hrun, htoken, hcompleted⟩ := h.wakeups key w hw
    obtain ⟨w'', hw'', hkey', hrun', htoken', hcompleted'⟩ := h'.wakeups key w' hw'
    refine ⟨w'', hw'', hkey'.trans hkey, hrun'.trans hrun, htoken.trans htoken', fun hc => ?_⟩
    obtain rfl := hcompleted hc
    exact hcompleted' hc
  leases key l hl := by
    obtain ⟨l', hl', htoken⟩ := h.leases key l hl
    obtain ⟨l'', hl'', htoken'⟩ := h'.leases key l' hl'
    exact ⟨l'', hl'', htoken.trans htoken'⟩

theorem Evolves.setWakeup {key : WakeupKey} {w w' : WakeupRow} (hw : t.wakeups.get key = some w)
    (hkey : w'.key = w.key) (hrun : w'.runKey = w.runKey)
    (htoken : w.claimFencingToken ≤ w'.claimFencingToken) (hstate : w.state ≠ .completed) :
    Evolves t { t with wakeups := t.wakeups.set key w' } where
  wakeups k v hv := by
    rw [OrderedMap.get_set]
    split
    · rename_i hk
      obtain rfl : w = v := Option.some.inj (hw.symm.trans (hk ▸ hv))
      exact ⟨w', rfl, hkey, hrun, htoken, fun hc => absurd hc hstate⟩
    · exact ⟨v, hv, rfl, rfl, le_rfl, fun _ => rfl⟩
  leases _ l hl := ⟨l, hl, le_rfl⟩

theorem Evolves.setLease {key : StreamKey} {l' : LeaseRow}
    (htoken : ∀ l, t.leases.get key = some l → l.fencingToken ≤ l'.fencingToken) :
    Evolves t { t with leases := t.leases.set key l' } where
  wakeups _ w hw := ⟨w, hw, rfl, rfl, le_rfl, fun _ => rfl⟩
  leases k l hl := by
    rw [OrderedMap.get_set]
    split
    · rename_i hk
      exact ⟨l', rfl, htoken l (hk ▸ hl)⟩
    · exact ⟨l, hl, le_rfl⟩

/-- A wakeup is stored under its key, is not cancelled, and its token is not greater than that of
the lease of its run. -/
structure Legal (t : Tables) : Prop where
  keyed : ∀ key w, t.wakeups.get key = some w → w.key = key
  uncancelled : ∀ key w, t.wakeups.get key = some w → w.state ≠ .cancelled
  fenced : ∀ key w, t.wakeups.get key = some w → w.claimFencingToken = 0 ∨
    ∃ l, t.leases.get w.runKey = some l ∧ w.claimFencingToken ≤ l.fencingToken

theorem Legal.setLease (h : Legal t) {key : StreamKey} {l' : LeaseRow}
    (htoken : ∀ l, t.leases.get key = some l → l.fencingToken ≤ l'.fencingToken) :
    Legal { t with leases := t.leases.set key l' } where
  keyed := h.keyed
  uncancelled := h.uncancelled
  fenced k w hw := by
    rcases h.fenced k w hw with hzero | ⟨l, hl, hle⟩
    · exact .inl hzero
    · obtain ⟨l'', hl'', hle'⟩ := (Evolves.setLease htoken).leases _ l hl
      exact .inr ⟨l'', hl'', hle.trans hle'⟩

theorem Legal.setWakeup (h : Legal t) {key : WakeupKey} {w' : WakeupRow} (hkey : w'.key = key)
    (hstate : w'.state ≠ .cancelled)
    (hfence : w'.claimFencingToken = 0 ∨
      ∃ l, t.leases.get w'.runKey = some l ∧ w'.claimFencingToken ≤ l.fencingToken) :
    Legal { t with wakeups := t.wakeups.set key w' } := by
  have hcases : ∀ k v, (t.wakeups.set key w').get k = some v →
      (k = key ∧ v = w') ∨ t.wakeups.get k = some v := by
    intro k v hv
    rw [OrderedMap.get_set] at hv
    split at hv
    · rename_i hk
      exact .inl ⟨hk, (Option.some.inj hv).symm⟩
    · exact .inr hv
  constructor
  · intro k v hv
    rcases hcases k v hv with ⟨rfl, rfl⟩ | hv
    · exact hkey
    · exact h.keyed k v hv
  · intro k v hv
    rcases hcases k v hv with ⟨rfl, rfl⟩ | hv
    · exact hstate
    · exact h.uncancelled k v hv
  · intro k v hv
    rcases hcases k v hv with ⟨rfl, rfl⟩ | hv
    · exact hfence
    · exact h.fenced k v hv

/-- Nothing becomes completed. -/
def Calm (t t' : Tables) : Prop :=
  ∀ key w', t'.wakeups.get key = some w' → w'.state = .completed → t.wakeups.get key = some w'

theorem Calm.trans (h : Calm t t') (h' : Calm t' t'') : Calm t t'' :=
  fun key w hw hc => h key w (h' key w hw hc) hc

theorem Calm.setWakeup {key : WakeupKey} {w' : WakeupRow} (hstate : w'.state ≠ .completed) :
    Calm t { t with wakeups := t.wakeups.set key w' } := by
  intro k v hv hc
  dsimp only at hv
  rw [OrderedMap.get_set] at hv
  split at hv
  · obtain rfl := Option.some.inj hv
    exact absurd hc hstate
  · exact hv

/-- What every transaction but `complete` does to legal tables. -/
structure Proceeds (t t' : Tables) : Prop where
  evolves : Evolves t t'
  legal : Legal t'
  calm : Calm t t'

theorem Proceeds.refl (h : Legal t) : Proceeds t t :=
  ⟨.refl t, h, fun _ _ hw _ => hw⟩

theorem Proceeds.trans (h : Proceeds t t') (h' : Proceeds t' t'') : Proceeds t t'' :=
  ⟨h.evolves.trans h'.evolves, h'.legal, h.calm.trans h'.calm⟩

theorem Proceeds.setLease (h : Legal t) (key : StreamKey) (l' : LeaseRow)
    (htoken : ∀ l, t.leases.get key = some l → l.fencingToken ≤ l'.fencingToken) :
    Proceeds t { t with leases := t.leases.set key l' } :=
  ⟨.setLease htoken, h.setLease htoken, fun _ _ hw _ => hw⟩

theorem Proceeds.setWakeup (h : Legal t) {key : WakeupKey} {w w' : WakeupRow}
    (hw : t.wakeups.get key = some w) (hkey : w'.key = w.key) (hrun : w'.runKey = w.runKey)
    (htoken : w.claimFencingToken ≤ w'.claimFencingToken) (hstate : w.state ≠ .completed)
    (hstate' : w'.state = .pending ∨ w'.state = .claimed)
    (hfence : w'.claimFencingToken = w.claimFencingToken ∨
      ∃ l, t.leases.get w.runKey = some l ∧ w'.claimFencingToken ≤ l.fencingToken) :
    Proceeds t { t with wakeups := t.wakeups.set key w' } where
  evolves := .setWakeup hw hkey hrun htoken hstate
  legal := by
    refine h.setWakeup (hkey.trans (h.keyed key w hw)) ?_ ?_
    · rcases hstate' with h | h <;> rw [h] <;> decide
    · rcases hfence with heq | hfence
      · rw [heq, hrun]
        exact h.fenced key w hw
      · rw [hrun]
        exact .inr hfence
  calm := .setWakeup (by rcases hstate' with h | h <;> rw [h] <;> decide)

/-! ### Recovering -/

theorem recoverRow_proceeds {now : Int} {row : WakeupRow} (h : Legal t)
    (hok : recoverRow now t row = .ok t') : Proceeds t t' := by
  obtain ⟨⟨l, t₁⟩, hlease, hok⟩ := bind_eq_ok.mp hok
  obtain ⟨lease, hstored, -, rfl, rfl⟩ := updateLease_eq_some (orConflict_ok hlease)
  have hfirst := Proceeds.setLease h row.runKey
    { lease with state := .expired, expiresAt := min lease.expiresAt now }
    (fun l hl => by
      obtain rfl : lease = l := Option.some.inj (hstored.symm.trans hl)
      exact le_rfl)
  obtain ⟨stored, hwakeup, hfinds, rfl⟩ := updateWakeup_eq_some (orConflict_ok hok)
  obtain ⟨-, hclaimed, -⟩ := of_decide_eq_true hfinds
  exact hfirst.trans (.setWakeup hfirst.legal hwakeup rfl rfl le_rfl (by rw [hclaimed]; decide)
    (.inl rfl) (.inl rfl))

theorem recoverRows_proceeds {now : Int} {rows : List WakeupRow} (h : Legal t)
    (hok : recoverRows now rows t = .ok t') : Proceeds t t' := by
  induction rows generalizing t with
  | nil =>
    obtain rfl := Except.ok.inj hok
    exact .refl h
  | cons row rest ih =>
    obtain ⟨t₁, hrow, hok⟩ := bind_eq_ok.mp hok
    have hfirst := recoverRow_proceeds h hrow
    exact hfirst.trans (ih hfirst.legal hok)

/-! ### Claiming -/

/-- A claim that is handed out: its token is greater than that of the lease of its run, which it
becomes, and its wakeup carries it. -/
structure HandedOut (t t' : Tables) (c : WorkerWakeupClaim) : Prop where
  lease_key : c.lease.key = runKey c
  greater : ∀ l, t.leases.get (runKey c) = some l → l.fencingToken < c.lease.fencingToken
  lease : ∃ l', t'.leases.get (runKey c) = some l' ∧ l'.fencingToken = c.lease.fencingToken
  wakeup : ∃ w, t'.wakeups.get (wakeupKey c) = some w ∧ w.runKey = runKey c ∧
    w.claimFencingToken = c.lease.fencingToken

/-- What the loop of `claim` does after the runs it has claimed already. -/
structure Claims (rows : List WakeupRow) (claimedRuns : List StreamKey) (t t' : Tables)
    (claims : List WorkerWakeupClaim) : Prop where
  proceeds : Proceeds t t'
  handed : ∀ c ∈ claims, HandedOut t t' c
  rows : ∀ c ∈ claims, ∃ row ∈ rows, row.runKey = runKey c
  distinct : claims.Pairwise fun a b => runKey a ≠ runKey b
  others : ∀ c ∈ claims, runKey c ∉ claimedRuns
  leases : ∀ key ∈ claimedRuns, t'.leases.get key = t.leases.get key
  wakeups : ∀ key w, t.wakeups.get key = some w → w.runKey ∈ claimedRuns →
    t'.wakeups.get key = some w

theorem acquireLease_eq_some {holderId : String} {leaseTtlMs now : Int} {row : WakeupRow}
    {l' : LeaseRow} (h : acquireLease C holderId leaseTtlMs now t row = some (l', t')) :
    t' = { t with leases := t.leases.set row.runKey l' } ∧
      (l'.holderId = holderId ∧ l'.state = .active) ∧
      ∀ l, t.leases.get row.runKey = some l → l.fencingToken < l'.fencingToken := by
  simp only [acquireLease] at h
  split at h
  · rename_i hnone
    obtain ⟨rfl, rfl⟩ := Prod.mk.inj (Option.some.inj h)
    exact ⟨rfl, ⟨rfl, rfl⟩, fun l hl => by rw [hnone] at hl; cases hl⟩
  · rename_i lease hlease
    split at h
    · obtain ⟨rfl, rfl⟩ := Prod.mk.inj (Option.some.inj h)
      refine ⟨rfl, ⟨rfl, rfl⟩, fun l hl => ?_⟩
      obtain rfl : lease = l := Option.some.inj (hlease.symm.trans hl)
      exact Nat.lt_succ_self _
    · cases h

/-- The claim of a wakeup is that of a lease which is not released. -/
def BoundTo (w : WakeupRow) (l : LeaseRow) : Prop :=
  w.claimLeaseId = some l.leaseId ∧ w.claimFencingToken = l.fencingToken ∧
    w.claimedBy = some l.holderId ∧ (l.state = .active ∨ l.state = .expired)

/-- What claiming one candidate does: the rows of other runs stay. -/
structure Takes (row : WakeupRow) (t t' : Tables) (c : WorkerWakeupClaim) : Prop where
  proceeds : Proceeds t t'
  handed : HandedOut t t' c
  run : runKey c = row.runKey
  tables : ∃ w' l', BoundTo w' l' ∧ w'.runKey = row.runKey ∧
    t' = ⟨t.wakeups.set row.key w', t.leases.set row.runKey l'⟩
  leases : ∀ key, key ≠ row.runKey → t'.leases.get key = t.leases.get key
  wakeups : ∀ key w, t.wakeups.get key = some w → w.runKey ≠ row.runKey →
    t'.wakeups.get key = some w

theorem claimRow_takes {holderId : String} {leaseTtlMs now : Int} {row : WakeupRow}
    {workOrder : WorkOrderRow} (h : Legal t)
    (hok : claimRow C holderId leaseTtlMs now t row workOrder = .ok (some (c, t'))) :
    Takes row t t' c := by
  unfold claimRow at hok
  split at hok
  · cases hok
  rename_i l' t₁ hacquired
  obtain ⟨lease, hlease, hok⟩ := bind_eq_ok.mp hok
  obtain ⟨t₂, hmarked, hok⟩ := bind_eq_ok.mp hok
  obtain ⟨head, hhead, hok⟩ := bind_eq_ok.mp hok
  obtain ⟨rfl, rfl⟩ := Prod.mk.inj (Option.some.inj (Except.ok.inj hok))
  obtain ⟨rfl, ⟨hholder, hactive⟩, hgreater⟩ := acquireLease_eq_some hacquired
  obtain ⟨hleaseKey, htoken, hleaseId, -⟩ := parseLease_ok hlease
  obtain ⟨hkey, hrunKey, rfl⟩ := parseClaim_ok hhead
  obtain ⟨stored, hstored, hfinds, rfl⟩ := updateWakeup_eq_some (orConflict_ok hmarked)
  obtain ⟨hrunId, hpending, -⟩ := of_decide_eq_true hfinds
  have hstoredKey := h.keyed _ stored hstored
  have hstoredRun : stored.runKey = row.runKey := by
    rw [WakeupRow.runKey, WakeupRow.runKey, hrunId, (Prod.mk.inj hstoredKey).1]
  have hlease : (t.leases.set row.runKey l').get row.runKey = some l' :=
    OrderedMap.get_set_self _ _ _
  -- the wakeup gets the token of the new lease, which is greater than its own
  have hle : stored.claimFencingToken ≤ head.lease.fencingToken := by
    rw [htoken]
    rcases h.fenced _ stored hstored with hzero | ⟨l, hl, hle⟩
    · rw [hzero]
      exact Nat.zero_le _
    · exact hle.trans (hgreater l (hstoredRun ▸ hl)).le
  have hacquire := Proceeds.setLease h row.runKey l' fun l hl => (hgreater l hl).le
  refine
    { proceeds := hacquire.trans (.setWakeup hacquire.legal hstored rfl rfl hle
        (by rw [hpending]; decide) (.inr rfl) (.inr ⟨l', ?_, htoken.le⟩))
      handed :=
        { lease_key := hleaseKey.trans hrunKey.symm
          greater := fun l hl => htoken ▸ hgreater l (hrunKey ▸ hl)
          lease := ⟨l', by rw [hrunKey]; exact hlease, htoken.symm⟩
          wakeup := by
            rw [hkey, hrunKey]
            exact ⟨_, OrderedMap.get_set_self _ _ _, hstoredRun, rfl⟩ }
      run := hrunKey
      tables := by
        refine ⟨_, l', ⟨?_, htoken, ?_, .inl hactive⟩, ?_, rfl⟩
        · exact congrArg some hleaseId
        · exact congrArg some hholder.symm
        · exact hstoredRun
      leases := fun key hne => OrderedMap.get_set_of_ne _ _ hne
      wakeups := fun key w hw hne => ?_ }
  · rw [hstoredRun]
    exact hlease
  · refine (OrderedMap.get_set_of_ne _ _ ?_).trans hw
    rintro rfl
    obtain rfl : stored = w := Option.some.inj (hstored.symm.trans hw)
    exact hne hstoredRun

/-- **The loop of `claim`**, by induction on the candidates. -/
theorem claimRows_claims {holderId : String} {leaseTtlMs now : Int}
    {joined : WakeupRow → Option WorkOrderRow} {rows : List WakeupRow}
    {claimedRuns : List StreamKey} {claims : List WorkerWakeupClaim} (h : Legal t)
    (hok : claimRows C holderId leaseTtlMs now joined rows claimedRuns t = .ok (claims, t')) :
    Claims rows claimedRuns t t' claims := by
  induction rows generalizing claimedRuns t claims with
  | nil =>
    obtain ⟨rfl, rfl⟩ := Prod.mk.inj (Except.ok.inj hok)
    exact
      { proceeds := .refl h
        handed := fun _ hc => absurd hc List.not_mem_nil
        rows := fun _ hc => absurd hc List.not_mem_nil
        distinct := .nil
        others := fun _ hc => absurd hc List.not_mem_nil
        leases := fun _ _ => rfl
        wakeups := fun _ _ hw _ => hw }
  | cons row rest ih =>
    have hskip : claimRows C holderId leaseTtlMs now joined rest claimedRuns t = .ok (claims, t') →
        Claims (row :: rest) claimedRuns t t' claims := by
      intro hrest
      have hclaims := ih h hrest
      refine { hclaims with rows := fun c hc => ?_ }
      obtain ⟨r, hr, hrun⟩ := hclaims.rows c hc
      exact ⟨r, List.mem_cons_of_mem _ hr, hrun⟩
    unfold claimRows at hok
    split at hok
    · exact hskip hok
    split at hok
    · exact hskip hok
    rename_i hrun
    split at hok
    · cases hok
    · exact hskip hok
    rename_i head t₁ hhead
    obtain ⟨⟨tail, t₂⟩, hrest, hok⟩ := bind_eq_ok.mp hok
    obtain ⟨rfl, rfl⟩ := Prod.mk.inj (Except.ok.inj hok)
    have htakes := claimRow_takes h hhead
    have htail := ih htakes.proceeds.legal hrest
    -- the runs claimed so far are not those of the rest
    have hfresh : ∀ c ∈ tail, runKey c ≠ row.runKey := fun c hc heq =>
      htail.others c hc (heq ▸ List.mem_cons_self)
    refine
      { proceeds := htakes.proceeds.trans htail.proceeds
        handed := ?_
        rows := ?_
        distinct := ?_
        others := ?_
        leases := ?_
        wakeups := ?_ }
    · intro c hc
      rcases List.mem_cons.mp hc with rfl | hc
      · obtain ⟨l', hl', htoken⟩ := htakes.handed.lease
        obtain ⟨w, hw, hwrun, hwtoken⟩ := htakes.handed.wakeup
        exact
          { lease_key := htakes.handed.lease_key
            greater := htakes.handed.greater
            lease := ⟨l', by rw [htail.leases _ (by rw [htakes.run]; exact List.mem_cons_self), hl'],
              htoken⟩
            wakeup := ⟨w, htail.wakeups _ w hw
              (by rw [hwrun, htakes.run]; exact List.mem_cons_self), hwrun, hwtoken⟩ }
      · have hc' := htail.handed c hc
        refine { hc' with greater := fun l hl => hc'.greater l ?_ }
        rw [htakes.leases _ (hfresh c hc)]
        exact hl
    · intro c hc
      rcases List.mem_cons.mp hc with rfl | hc
      · exact ⟨row, List.mem_cons_self, htakes.run.symm⟩
      · obtain ⟨r, hr, hrun⟩ := htail.rows c hc
        exact ⟨r, List.mem_cons_of_mem _ hr, hrun⟩
    · refine List.pairwise_cons.mpr ⟨fun c hc => ?_, htail.distinct⟩
      rw [htakes.run]
      exact Ne.symm (hfresh c hc)
    · intro c hc
      rcases List.mem_cons.mp hc with rfl | hc
      · rw [htakes.run]
        exact hrun
      · exact fun hmem => htail.others c hc (List.mem_cons_of_mem _ hmem)
    · intro key hkey
      rw [htail.leases key (List.mem_cons_of_mem _ hkey), htakes.leases]
      rintro rfl
      exact hrun hkey
    · intro key w hw hkey
      refine htail.wakeups key w (htakes.wakeups key w hw ?_) (List.mem_cons_of_mem _ hkey)
      intro heq
      exact hrun (heq ▸ hkey)

/-! ### The methods that take a claim -/

/-- What a claim keeps from when it was handed out: its wakeup, its run, and the lease with its
token. -/
def handOut (c : WorkerWakeupClaim) :
    WakeupKey × StreamKey × String × String × String × String × Nat :=
  (wakeupKey c, runKey c, c.lease.identity)

theorem handOut_eq (h : handOut c = handOut c') :
    wakeupKey c = wakeupKey c' ∧ runKey c = runKey c' ∧
      c.lease.fencingToken = c'.lease.fencingToken ∧ c.lease.key = c'.lease.key := by
  simp only [handOut, FencedLease.identity, Prod.mk.injEq] at h
  obtain ⟨hwakeup, hrun, -, htenant, hrunId, -, htoken⟩ := h
  refine ⟨hwakeup, hrun, htoken, ?_⟩
  rw [FencedLease.key, FencedLease.key, htenant, hrunId]

theorem bindsWakeup_token {w : WakeupRow} (h : bindsWakeup c w = true) :
    w.state = .claimed ∧ w.claimFencingToken = c.lease.fencingToken := by
  simp only [bindsWakeup, decide_eq_true_eq] at h
  exact ⟨h.2.2.2.1, h.2.2.2.2.2.2⟩

theorem bindsLease_token {l : LeaseRow} (h : bindsLease c l = true) :
    l.leaseId = c.lease.leaseId ∧ l.holderId = c.lease.holderId ∧
      l.fencingToken = c.lease.fencingToken := by
  simp only [bindsLease, decide_eq_true_eq] at h
  exact ⟨h.1, h.2.1, h.2.2.1⟩

/-- A wakeup gives its claim up for a state, and the lease of the claim is released. -/
def Leaves (c : WorkerWakeupClaim) (state : WakeupState) (t t' : Tables) : Prop :=
  ∃ w w' l l', t.wakeups.get (wakeupKey c) = some w ∧ bindsWakeup c w = true ∧
    t.leases.get c.lease.key = some l ∧ l'.fencingToken = l.fencingToken ∧
    w'.key = w.key ∧ w'.runKey = w.runKey ∧ w'.claimFencingToken = w.claimFencingToken ∧
    w'.state = state ∧
    t' = ⟨t.wakeups.set (wakeupKey c) w', t.leases.set c.lease.key l'⟩

theorem releaseExactLease_ok {now : Int} (h : releaseExactLease t c now = .ok t') :
    ∃ l l', t.leases.get c.lease.key = some l ∧ l'.fencingToken = l.fencingToken ∧
      t' = { t with leases := t.leases.set c.lease.key l' } := by
  have hupdated := orConflict_ok h
  rw [Option.map_eq_some_iff] at hupdated
  obtain ⟨⟨l', t₁⟩, hupdated, rfl⟩ := hupdated
  obtain ⟨l, hl, -, rfl, rfl⟩ := updateLease_eq_some hupdated
  exact ⟨l, { l with state := .released, expiresAt := min l.expiresAt now }, hl, rfl, rfl⟩

theorem complete_leaves {allowedTenants : List String} {status : ClaimResultStatus}
    {completedAt now : Int} (hok : complete allowedTenants c status completedAt now t = .ok t') :
    Leaves c .completed t t' := by
  obtain ⟨-, -, hok⟩ := bind_eq_ok.mp hok
  obtain ⟨t₁, hmarked, hok⟩ := bind_eq_ok.mp hok
  obtain ⟨w, hw, hbound, rfl⟩ := updateWakeup_eq_some (orConflict_ok hmarked)
  obtain ⟨l, l', hl, htoken, rfl⟩ := releaseExactLease_ok hok
  refine ⟨w, _, l, l', hw, hbound, hl, htoken, ?_, ?_, ?_, ?_, rfl⟩
  all_goals rfl

theorem release_leaves {allowedTenants : List String} {retryAt now : Int} {reasonCode : String}
    (hok : release allowedTenants c retryAt reasonCode now t = .ok t') :
    Leaves c .pending t t' := by
  obtain ⟨-, -, hok⟩ := bind_eq_ok.mp hok
  split at hok
  · cases hok
  obtain ⟨t₁, hmarked, hok⟩ := bind_eq_ok.mp hok
  obtain ⟨w, hw, hbound, rfl⟩ := updateWakeup_eq_some (orConflict_ok hmarked)
  obtain ⟨l, l', hl, htoken, rfl⟩ := releaseExactLease_ok hok
  refine ⟨w, _, l, l', hw, hbound, hl, htoken, ?_, ?_, ?_, ?_, rfl⟩
  all_goals rfl

theorem Leaves.evolves {state : WakeupState} (h : Leaves c state t t') : Evolves t t' := by
  obtain ⟨w, w', l, l', hw, hbound, hl, hl', hkey, hrun, htoken, -, rfl⟩ := h
  have hfirst : Evolves t { t with wakeups := t.wakeups.set (wakeupKey c) w' } :=
    .setWakeup hw hkey hrun htoken.ge (by rw [(bindsWakeup_token hbound).1]; decide)
  refine hfirst.trans (.setLease fun x hx => ?_)
  obtain rfl : l = x := Option.some.inj (hl.symm.trans hx)
  exact hl'.ge

theorem Leaves.legal {state : WakeupState} (h : Leaves c state t t') (hlegal : Legal t)
    (hstate : state ≠ .cancelled) : Legal t' := by
  obtain ⟨w, w', l, l', hw, -, hl, hl', hkey, hrun, htoken, rfl, rfl⟩ := h
  have hfirst : Legal { t with wakeups := t.wakeups.set (wakeupKey c) w' } := by
    refine hlegal.setWakeup (hkey.trans (hlegal.keyed _ w hw)) hstate ?_
    rw [htoken, hrun]
    exact hlegal.fenced _ w hw
  refine hfirst.setLease fun x hx => ?_
  obtain rfl : l = x := Option.some.inj (hl.symm.trans hx)
  exact hl'.ge

theorem Leaves.bound {state : WakeupState} (h : Leaves c state t t') :
    ∃ w, t.wakeups.get (wakeupKey c) = some w ∧ bindsWakeup c w = true := by
  obtain ⟨w, -, -, -, hw, hbound, -⟩ := h
  exact ⟨w, hw, hbound⟩

theorem Leaves.others {state : WakeupState} (h : Leaves c state t t') {key : WakeupKey}
    (hkey : key ≠ wakeupKey c) : t'.wakeups.get key = t.wakeups.get key := by
  obtain ⟨w, w', l, l', -, -, -, -, -, -, -, -, rfl⟩ := h
  exact OrderedMap.get_set_of_ne _ _ hkey

theorem Leaves.proceeds (h : Leaves c .pending t t') (hlegal : Legal t) : Proceeds t t' where
  evolves := h.evolves
  legal := h.legal hlegal (by decide)
  calm key v hv hc := by
    by_cases hkey : key = wakeupKey c
    · obtain ⟨w, w', l, l', -, -, -, -, -, -, -, hstate, rfl⟩ := h
      rw [hkey, OrderedMap.get_set_self] at hv
      obtain rfl := Option.some.inj hv
      rw [hstate] at hc
      cases hc
    · rwa [h.others hkey] at hv

/-- What a renewal does: the wakeup and the lease of the claim last longer. -/
def Renews (c c' : WorkerWakeupClaim) (t t' : Tables) : Prop :=
  handOut c' = handOut c ∧
    ∃ w claimedUntil l expiresAt, t.wakeups.get (wakeupKey c) = some w ∧
      bindsWakeup c w = true ∧ t.leases.get c.lease.key = some l ∧ bindsLease c l = true ∧
      t' = ⟨t.wakeups.set (wakeupKey c) { w with claimedUntil },
        t.leases.set c.lease.key { l with expiresAt }⟩

theorem renew_renews {allowedTenants : List String} {leaseTtlMs now : Int}
    (hok : renew allowedTenants c leaseTtlMs now t = .ok (c', t')) : Renews c c' t t' := by
  obtain ⟨-, -, hok⟩ := bind_eq_ok.mp hok
  split at hok
  · cases hok
  obtain ⟨⟨row, t₁⟩, hupdated, hok⟩ := bind_eq_ok.mp hok
  obtain ⟨lease, hlease, hok⟩ := bind_eq_ok.mp hok
  obtain ⟨t₂, hmarked, hok⟩ := bind_eq_ok.mp hok
  obtain ⟨rfl, rfl⟩ := Prod.mk.inj (Except.ok.inj hok)
  obtain ⟨l, hl, hfinds, rfl, rfl⟩ := updateLease_eq_some (orConflict_ok hupdated)
  obtain ⟨hbinds, -⟩ := of_decide_eq_true hfinds
  obtain ⟨hid, hholder, htoken⟩ := bindsLease_token hbinds
  obtain ⟨hkey, hleaseToken, hleaseId, hleaseHolder⟩ := parseLease_ok hlease
  obtain ⟨w, hw, hfinds, rfl⟩ := updateWakeup_eq_some (orConflict_ok hmarked)
  obtain ⟨hbound, -⟩ := of_decide_eq_true hfinds
  refine ⟨?_, w, _, l, _, hw, hbound, hl, hbinds, rfl⟩
  simp only [handOut, wakeupKey, runKey, FencedLease.identity, Prod.mk.injEq, true_and]
  exact ⟨hleaseId.trans hid, (Prod.mk.inj hkey).1, (Prod.mk.inj hkey).2,
    hleaseHolder.trans hholder, hleaseToken.trans htoken⟩

theorem Renews.proceeds (h : Renews c c' t t') (hlegal : Legal t) : Proceeds t t' := by
  obtain ⟨-, w, claimedUntil, l, expiresAt, hw, hbound, hl, -, rfl⟩ := h
  have hclaimed := (bindsWakeup_token hbound).1
  have hlengthen := Proceeds.setLease hlegal c.lease.key { l with expiresAt } fun x hx => by
    obtain rfl : l = x := Option.some.inj (hl.symm.trans hx)
    exact le_rfl
  exact hlengthen.trans (.setWakeup hlengthen.legal hw rfl rfl le_rfl
    (by rw [hclaimed]; decide) (.inr hclaimed) (.inl rfl))

theorem Renews.bound (h : Renews c c' t t') :
    ∃ l, t.leases.get c.lease.key = some l ∧ bindsLease c l = true := by
  obtain ⟨-, -, -, l, -, -, -, hl, hbinds, -⟩ := h
  exact ⟨l, hl, hbinds⟩

/-! ### The invariant -/

/-- Every claim ever handed out is fenced by the rows, the tokens of a run increase, and what
workers hold was handed out. -/
structure Safe (q : Queue) : Prop where
  legal : Legal q.tables
  lease_key : ∀ c ∈ q.handed, c.lease.key = runKey c
  lease : ∀ c ∈ q.handed, ∃ l, q.tables.leases.get (runKey c) = some l ∧
    c.lease.fencingToken ≤ l.fencingToken
  wakeup : ∀ c ∈ q.handed, ∃ w, q.tables.wakeups.get (wakeupKey c) = some w ∧
    w.runKey = runKey c ∧ c.lease.fencingToken ≤ w.claimFencingToken
  increasing : q.handed.Pairwise fun a b =>
    runKey a = runKey b → a.lease.fencingToken < b.lease.fencingToken
  held : ∀ c ∈ q.held, ∃ c₀ ∈ q.handed, handOut c = handOut c₀

theorem safe_start : Safe Queue.start where
  legal := ⟨fun _ _ hw => (by cases hw), fun _ _ hw => (by cases hw), fun _ _ hw => (by cases hw)⟩
  lease_key _ hc := absurd hc List.not_mem_nil
  lease _ hc := absurd hc List.not_mem_nil
  wakeup _ hc := absurd hc List.not_mem_nil
  increasing := .nil
  held _ hc := absurd hc List.not_mem_nil

/-- The claims handed out stay fenced while the tables evolve. -/
theorem Safe.evolves {q : Queue} (h : Safe q) (hevolves : Evolves q.tables t') (hlegal : Legal t')
    {now : Int} {held : List WorkerWakeupClaim}
    (hheld : ∀ c ∈ held, ∃ c₀ ∈ q.handed, handOut c = handOut c₀) :
    Safe ⟨now, t', q.handed, held⟩ where
  legal := hlegal
  lease_key := h.lease_key
  lease c hc := by
    obtain ⟨l, hl, hle⟩ := h.lease c hc
    obtain ⟨l', hl', hle'⟩ := hevolves.leases _ l hl
    exact ⟨l', hl', hle.trans hle'⟩
  wakeup c hc := by
    obtain ⟨w, hw, hrun, hle⟩ := h.wakeup c hc
    obtain ⟨w', hw', -, hrun', hle', -⟩ := hevolves.wakeups _ w hw
    exact ⟨w', hw', hrun'.trans hrun, hle.trans hle'⟩
  increasing := h.increasing
  held := hheld

theorem Safe.elapse {q : Queue} (h : Safe q) (elapsed : Nat) : Safe (q.elapse elapsed) :=
  h.evolves (.refl _) h.legal h.held

/-- A batch of claims is handed out. -/
theorem Safe.claims {q : Queue} (h : Safe q) {rows : List WakeupRow}
    {claims : List WorkerWakeupClaim} (hclaims : Claims rows [] q.tables t' claims) :
    Safe { q with tables := t', handed := q.handed ++ claims, held := q.held ++ claims } := by
  have hbefore : Safe { q with tables := t' } :=
    h.evolves hclaims.proceeds.evolves hclaims.proceeds.legal h.held
  constructor
  · exact hclaims.proceeds.legal
  · intro c hc
    rcases List.mem_append.mp hc with hc | hc
    · exact h.lease_key c hc
    · exact (hclaims.handed c hc).lease_key
  · intro c hc
    rcases List.mem_append.mp hc with hc | hc
    · exact hbefore.lease c hc
    · obtain ⟨l, hl, htoken⟩ := (hclaims.handed c hc).lease
      exact ⟨l, hl, htoken.ge⟩
  · intro c hc
    rcases List.mem_append.mp hc with hc | hc
    · exact hbefore.wakeup c hc
    · obtain ⟨w, hw, hrun, htoken⟩ := (hclaims.handed c hc).wakeup
      exact ⟨w, hw, hrun, htoken.ge⟩
  · refine List.pairwise_append.mpr ⟨h.increasing, ?_, fun a ha b hb hrun => ?_⟩
    · exact hclaims.distinct.imp fun hne heq => absurd heq hne
    · obtain ⟨l, hl, hle⟩ := h.lease a ha
      exact lt_of_le_of_lt hle ((hclaims.handed b hb).greater l (hrun ▸ hl))
  · intro c hc
    rcases List.mem_append.mp hc with hc | hc
    · obtain ⟨c₀, hc₀, heq⟩ := h.held c hc
      exact ⟨c₀, List.mem_append_left _ hc₀, heq⟩
    · exact ⟨c, List.mem_append_right _ hc, rfl⟩

/-- A wakeup is enqueued under a fresh key. -/
theorem Proceeds.enqueue (h : Legal t) (wakeup : NewWakeup)
    (hfresh : t.wakeups.get wakeup.row.key = none) :
    Proceeds t { t with wakeups := t.wakeups.set wakeup.row.key wakeup.row } where
  evolves :=
    { wakeups := fun key w hw => by
        refine ⟨w, (OrderedMap.get_set_of_ne _ _ ?_).trans hw, rfl, rfl, le_rfl, fun _ => rfl⟩
        rintro rfl
        rw [hfresh] at hw
        cases hw
      leases := fun _ l hl => ⟨l, hl, le_rfl⟩ }
  legal := h.setWakeup rfl (fun hc => by cases hc) (.inl rfl)
  calm := .setWakeup fun hc => by cases hc

theorem claimable_of_mem {allowedTenants : List String} {limit : Nat} {now : Int}
    {joined : WakeupRow → Option WorkOrderRow} {row : WakeupRow}
    (h : row ∈ candidates C allowedTenants limit joined now t) :
    claimable allowedTenants joined now t row = true :=
  (List.mem_filter.mp ((List.mem_insertionSort _).mp (List.mem_of_mem_take h))).2

/-- The claim that a transaction takes. -/
def QueueCall.takes (held : List WorkerWakeupClaim) : QueueCall → Option WorkerWakeupClaim
  | .renew _ n _ => held[n]?
  | .complete _ n _ _ => held[n]?
  | .release _ n _ _ => held[n]?
  | .enqueue _ => none
  | .recoverStale _ => none
  | .claim .. => none

/-- **What a transaction does** that does not throw. -/
structure Transacts (q : Queue) (call : QueueCall) (q' : Queue) : Prop where
  evolves : Evolves q.tables q'.tables
  safe : Safe q'
  handed : ∃ claims, q'.handed = q.handed ++ claims ∧
    (claims.Pairwise fun a b => runKey a ≠ runKey b) ∧
    ∀ c ∈ claims, ∀ l, q.tables.leases.get (runKey c) = some l → l.state = .active →
      l.expiresAt ≤ q.now
  completed : ∀ key w, q'.tables.wakeups.get key = some w → w.state = .completed →
    q.tables.wakeups.get key = some w ∨
      ∃ allowedTenants n status completedAt c,
        call = .complete allowedTenants n status completedAt ∧ q.held[n]? = some c ∧
        wakeupKey c = key ∧ ∃ v, q.tables.wakeups.get key = some v ∧ bindsWakeup c v = true
  bound : ∀ c, call.takes q.held = some c →
    (∃ w, q.tables.wakeups.get (wakeupKey c) = some w ∧ bindsWakeup c w = true) ∨
      ∃ l, q.tables.leases.get c.lease.key = some l ∧ bindsLease c l = true

theorem handed_none (q : Queue) : ∃ claims, q.handed = q.handed ++ claims ∧
    (claims.Pairwise fun a b => runKey a ≠ runKey b) ∧
    ∀ c ∈ claims, ∀ l, q.tables.leases.get (runKey c) = some l → l.state = .active →
      l.expiresAt ≤ q.now :=
  ⟨[], (List.append_nil _).symm, .nil, fun _ hc => absurd hc List.not_mem_nil⟩

/-- A transaction that names no claim. -/
theorem Transacts.refl {q : Queue} (h : Safe q) {call : QueueCall}
    (hcall : call.takes q.held = none) : Transacts q call q where
  evolves := .refl _
  safe := h
  handed := handed_none q
  completed _ _ hw _ := .inl hw
  bound c hc := by rw [hcall] at hc; cases hc

/-- A transaction that proceeds and hands nothing out. -/
theorem Transacts.proceeds {q : Queue} (h : Safe q) {call : QueueCall}
    (hp : Proceeds q.tables t') {held : List WorkerWakeupClaim}
    (hheld : ∀ c ∈ held, ∃ c₀ ∈ q.handed, handOut c = handOut c₀)
    (hbound : ∀ c, call.takes q.held = some c →
      (∃ w, q.tables.wakeups.get (wakeupKey c) = some w ∧ bindsWakeup c w = true) ∨
        ∃ l, q.tables.leases.get c.lease.key = some l ∧ bindsLease c l = true) :
    Transacts q call { q with tables := t', held } where
  evolves := hp.evolves
  safe := h.evolves hp.evolves hp.legal hheld
  handed := handed_none q
  completed key w hw hc := .inl (hp.calm key w hw hc)
  bound := hbound

theorem claim_ok {allowedTenants : List String} {holderId : String} {limit : Nat}
    {leaseTtlMs now : Int} {joined : WakeupRow → Option WorkOrderRow}
    {result : List WorkerWakeupClaim × Tables}
    (hok : claim C allowedTenants holderId limit leaseTtlMs joined now t = .ok result) :
    ∃ holder, claimRows C holder leaseTtlMs now joined
      (candidates C allowedTenants limit joined now t) [] t = .ok result := by
  unfold claim at hok
  split at hok
  · cases hok
  rename_i holder _
  split at hok
  · cases hok
  exact ⟨holder, hok⟩

/-- **A transaction that did not throw**, with the loop or the method that it ran. -/
inductive Committed (C : QueueContext) (q : Queue) : QueueCall → Queue → Prop where
  | enqueue {wakeup : NewWakeup} (hfresh : q.tables.wakeups.get wakeup.row.key = none) :
      Committed C q (.enqueue wakeup)
        { q with
          tables := { q.tables with
            wakeups := q.tables.wakeups.set wakeup.row.key wakeup.row } }
  | recoverStale {allowedTenants : List String} {t' : Tables}
      (h : recoverRows q.now (staleRows C allowedTenants q.now q.tables) q.tables = .ok t') :
      Committed C q (.recoverStale allowedTenants) { q with tables := t' }
  | claim {allowedTenants : List String} {holderId holder : String} {limit : Nat}
      {leaseTtlMs : Int} {joined : WakeupRow → Option WorkOrderRow}
      {claims : List WorkerWakeupClaim} {t' : Tables}
      (h : claimRows C holder leaseTtlMs q.now joined
        (candidates C allowedTenants limit joined q.now q.tables) [] q.tables = .ok (claims, t')) :
      Committed C q (.claim allowedTenants holderId limit leaseTtlMs joined)
        { q with tables := t', handed := q.handed ++ claims, held := q.held ++ claims }
  | missing {call : QueueCall} (h : call.takes q.held = none) : Committed C q call q
  | renew {allowedTenants : List String} {n : Nat} {leaseTtlMs : Int} {c c' : WorkerWakeupClaim}
      {t' : Tables} (hc : q.held[n]? = some c)
      (h : renew allowedTenants c leaseTtlMs q.now q.tables = .ok (c', t')) :
      Committed C q (.renew allowedTenants n leaseTtlMs)
        { q with tables := t', held := q.held ++ [c'] }
  | complete {allowedTenants : List String} {n : Nat} {status : ClaimResultStatus}
      {completedAt : Int} {c : WorkerWakeupClaim} {t' : Tables} (hc : q.held[n]? = some c)
      (h : complete allowedTenants c status completedAt q.now q.tables = .ok t') :
      Committed C q (.complete allowedTenants n status completedAt) { q with tables := t' }
  | release {allowedTenants : List String} {n : Nat} {retryAt : Int} {reasonCode : String}
      {c : WorkerWakeupClaim} {t' : Tables} (hc : q.held[n]? = some c)
      (h : release allowedTenants c retryAt reasonCode q.now q.tables = .ok t') :
      Committed C q (.release allowedTenants n retryAt reasonCode) { q with tables := t' }

theorem transaction_committed {q q' : Queue} {call : QueueCall}
    (hok : q.transaction C call = .ok q') : Committed C q call q' := by
  cases call with
  | enqueue wakeup =>
    simp only [Queue.transaction] at hok
    split at hok
    · cases hok
    · rename_i hfresh
      obtain rfl := Except.ok.inj hok
      exact .enqueue hfresh
  | recoverStale allowedTenants =>
    obtain ⟨result, hresult, hok⟩ := bind_eq_ok.mp hok
    obtain ⟨t', hrows, hresult⟩ := bind_eq_ok.mp hresult
    obtain rfl := Except.ok.inj hresult
    obtain rfl := Except.ok.inj hok
    exact .recoverStale hrows
  | claim allowedTenants holderId limit leaseTtlMs joined =>
    obtain ⟨⟨claims, t'⟩, hclaims, hok⟩ := bind_eq_ok.mp hok
    obtain ⟨holder, hrows⟩ := claim_ok hclaims
    obtain rfl := Except.ok.inj hok
    exact .claim hrows
  | renew allowedTenants n leaseTtlMs =>
    simp only [Queue.transaction] at hok
    split at hok
    · rename_i hnone
      obtain rfl := Except.ok.inj hok
      exact .missing hnone
    rename_i c hc
    obtain ⟨⟨c', t'⟩, hrenewed, hok⟩ := bind_eq_ok.mp hok
    obtain rfl := Except.ok.inj hok
    exact .renew hc hrenewed
  | complete allowedTenants n status completedAt =>
    simp only [Queue.transaction] at hok
    split at hok
    · rename_i hnone
      obtain rfl := Except.ok.inj hok
      exact .missing hnone
    rename_i c hc
    obtain ⟨t', hcompleted, hok⟩ := bind_eq_ok.mp hok
    obtain rfl := Except.ok.inj hok
    exact .complete hc hcompleted
  | release allowedTenants n retryAt reasonCode =>
    simp only [Queue.transaction] at hok
    split at hok
    · rename_i hnone
      obtain rfl := Except.ok.inj hok
      exact .missing hnone
    rename_i c hc
    obtain ⟨t', hreleased, hok⟩ := bind_eq_ok.mp hok
    obtain rfl := Except.ok.inj hok
    exact .release hc hreleased

theorem transaction_transacts {q q' : Queue} (h : Safe q) {call : QueueCall}
    (hok : q.transaction C call = .ok q') : Transacts q call q' := by
  cases transaction_committed hok with
  | enqueue hfresh =>
    exact .proceeds h (.enqueue h.legal _ hfresh) h.held fun _ hc => by cases hc
  | recoverStale hrows =>
    exact .proceeds h (recoverRows_proceeds h.legal hrows) h.held fun _ hc => by cases hc
  | @claim _ _ _ _ _ _ claims t' hrows =>
    have hclaims := claimRows_claims h.legal hrows
    exact
      { evolves := hclaims.proceeds.evolves
        safe := h.claims hclaims
        handed := by
          refine ⟨claims, rfl, hclaims.distinct, fun c hc l hl hactive => ?_⟩
          obtain ⟨row, hrow, hrun⟩ := hclaims.rows c hc
          obtain ⟨-, -, -, -, hfree⟩ := of_decide_eq_true (claimable_of_mem hrow)
          rw [hrun, hl, Option.any_some, decide_eq_true_eq] at hfree
          exact not_lt.mp fun hlt => hfree ⟨hactive, hlt⟩
        completed := fun key w hw hc => .inl (hclaims.proceeds.calm key w hw hc)
        bound := fun _ hc => by cases hc }
  | missing hnone => exact .refl h hnone
  | @renew _ _ _ c renewed t' hc hrenewed =>
    have hrenews := renew_renews hrenewed
    refine .proceeds h (hrenews.proceeds h.legal) (fun c' hc' => ?_) fun c' hc' => ?_
    · rcases List.mem_append.mp hc' with hc' | hc'
      · exact h.held c' hc'
      · obtain rfl := List.mem_singleton.mp hc'
        rw [hrenews.1]
        exact h.held c (List.mem_of_getElem? hc)
    · obtain rfl : c = c' := Option.some.inj (hc.symm.trans hc')
      exact .inr hrenews.bound
  | @complete allowedTenants n status completedAt c t' hc hcompleted =>
    have hleaves := complete_leaves hcompleted
    exact
      { evolves := hleaves.evolves
        safe := h.evolves hleaves.evolves (hleaves.legal h.legal (by decide)) h.held
        handed := handed_none q
        completed := fun key w hw _ => by
          by_cases hkey : key = wakeupKey c
          · subst hkey
            exact .inr ⟨allowedTenants, n, status, completedAt, c, rfl, hc, rfl, hleaves.bound⟩
          · rw [hleaves.others hkey] at hw
            exact .inl hw
        bound := fun c' hc' => by
          obtain rfl : c = c' := Option.some.inj (hc.symm.trans hc')
          exact .inl hleaves.bound }
  | @release _ _ _ _ c t' hc hreleased =>
    have hleaves := release_leaves hreleased
    refine .proceeds h (hleaves.proceeds h.legal) h.held fun c' hc' => ?_
    obtain rfl : c = c' := Option.some.inj (hc.symm.trans hc')
    exact .inl hleaves.bound

/-! ### Runs -/

/-- **One transaction** keeps the invariant. -/
theorem Safe.step {q : Queue} (h : Safe q) (call : Nat × QueueCall) : Safe (q.step C call) := by
  unfold Queue.step
  split
  · rename_i q' hok
    exact (transaction_transacts (h.elapse call.1) hok).safe
  · exact h.elapse call.1

theorem step_evolves {q : Queue} (h : Safe q) (call : Nat × QueueCall) :
    Evolves q.tables (q.step C call).tables := by
  unfold Queue.step
  split
  · rename_i q' hok
    exact (transaction_transacts (h.elapse call.1) hok).evolves
  · exact .refl _

theorem foldl_safe {q : Queue} (h : Safe q) (calls : List (Nat × QueueCall)) :
    Safe (calls.foldl (Queue.step C) q) ∧
      Evolves q.tables (calls.foldl (Queue.step C) q).tables := by
  induction calls generalizing q with
  | nil => exact ⟨h, .refl _⟩
  | cons call rest ih =>
    obtain ⟨hsafe, hevolves⟩ := ih (h.step (C := C) call)
    exact ⟨hsafe, (step_evolves h call).trans hevolves⟩

theorem after_safe (calls : List (Nat × QueueCall)) : Safe (Queue.after C calls) :=
  (foldl_safe safe_start calls).1

/-! ### What follows -/

/-- The lease of a claim is active and has not expired. -/
def Leased (q : Queue) (c : WorkerWakeupClaim) : Prop :=
  ∃ l, q.tables.leases.get (runKey c) = some l ∧ bindsLease c l = true ∧ q.now < l.expiresAt

/-- A later claim of its wakeup was handed out. -/
def Superseded (q : Queue) (c : WorkerWakeupClaim) : Prop :=
  ∃ before c₀ later, q.handed = before ++ c₀ :: later ∧ handOut c = handOut c₀ ∧
    ∃ c₁ ∈ later, wakeupKey c₁ = wakeupKey c

/-- It is the claim of its wakeup that was handed out last. -/
def MostRecent (q : Queue) (c : WorkerWakeupClaim) : Prop :=
  ∃ before c₀ later, q.handed = before ++ c₀ :: later ∧ handOut c = handOut c₀ ∧
    ∀ c₁ ∈ later, wakeupKey c₁ ≠ wakeupKey c

/-- What the rows say of a claim that is superseded: greater tokens. -/
theorem Safe.superseded {q : Queue} (h : Safe q) (hc : Superseded q c) :
    (∀ w, q.tables.wakeups.get (wakeupKey c) = some w → bindsWakeup c w = false) ∧
      ∀ l, q.tables.leases.get c.lease.key = some l → bindsLease c l = false := by
  obtain ⟨before, c₀, later, hhanded, hhandOut, c₁, hc₁, hkey⟩ := hc
  obtain ⟨hwakeup, -, htoken, hleaseKey⟩ := handOut_eq hhandOut
  have hmem₀ : c₀ ∈ q.handed := by rw [hhanded]; simp
  have hmem₁ : c₁ ∈ q.handed := by rw [hhanded]; simp [hc₁]
  obtain ⟨w₀, hw₀, hrun₀, -⟩ := h.wakeup c₀ hmem₀
  obtain ⟨w₁, hw₁, hrun₁, hle⟩ := h.wakeup c₁ hmem₁
  -- both claims are of one wakeup, so of one run
  obtain rfl : w₀ = w₁ := by
    rw [hkey, hwakeup, hw₀] at hw₁
    exact Option.some.inj hw₁
  have hrun : runKey c₀ = runKey c₁ := hrun₀.symm.trans hrun₁
  have hlt : c₀.lease.fencingToken < c₁.lease.fencingToken := by
    have hincreasing := h.increasing
    rw [hhanded, List.pairwise_append] at hincreasing
    exact (List.pairwise_cons.mp hincreasing.2.1).1 c₁ hc₁ hrun
  constructor
  · intro w hw
    refine Bool.eq_false_iff.mpr fun hbinds => ?_
    obtain rfl : w₀ = w := by
      rw [hwakeup, hw₀] at hw
      exact Option.some.inj hw
    have := (bindsWakeup_token hbinds).2
    omega
  · intro l hl
    refine Bool.eq_false_iff.mpr fun hbinds => ?_
    obtain ⟨l₁, hl₁, hle₁⟩ := h.lease c₁ hmem₁
    obtain rfl : l₁ = l := by
      rw [hleaseKey, h.lease_key c₀ hmem₀, hrun, hl₁] at hl
      exact Option.some.inj hl
    have := (bindsLease_token hbinds).2.2
    omega

/-- A claim that the row of its wakeup carries is the most recent one. -/
theorem Safe.mostRecent {q : Queue} (h : Safe q) (hc : c ∈ q.held) {w : WakeupRow}
    (hw : q.tables.wakeups.get (wakeupKey c) = some w) (hbinds : bindsWakeup c w = true) :
    MostRecent q c := by
  obtain ⟨c₀, hc₀, hhandOut⟩ := h.held c hc
  obtain ⟨before, later, hhanded⟩ := List.append_of_mem hc₀
  refine ⟨before, c₀, later, hhanded, hhandOut, fun c₁ hc₁ hkey => ?_⟩
  have hfalse := (h.superseded ⟨before, c₀, later, hhanded, hhandOut, c₁, hc₁, hkey⟩).1 w hw
  rw [hbinds] at hfalse
  cases hfalse

/-- **The queue is safe**, after any sequence of transactions. -/
theorem queue_safety (C : QueueContext) (calls : List (Nat × QueueCall)) :
    -- the tokens of the claims of a run increase
    ((Queue.after C calls).handed.Pairwise fun a b =>
      runKey a = runKey b → a.lease.fencingToken < b.lease.fencingToken) ∧
    -- every wakeup that is not completed is pending or claimed
    (∀ key w, (Queue.after C calls).tables.wakeups.get key = some w →
      w.state = .pending ∨ w.state = .claimed ∨ w.state = .completed) ∧
    -- none is lost later on, and a completed one stays as it is
    (∀ later key w, (Queue.after C calls).tables.wakeups.get key = some w →
      ∃ w', (Queue.after C (calls ++ later)).tables.wakeups.get key = some w' ∧
        w'.runKey = w.runKey ∧ (w.state = .completed → w' = w)) ∧
    ∀ elapsed call,
      -- no claim is handed out while the lease of another of its run is active
      (∃ claims, (Queue.after C (calls ++ [(elapsed, call)])).handed =
          (Queue.after C calls).handed ++ claims ∧
        (claims.Pairwise fun a b => runKey a ≠ runKey b) ∧
        ∀ c ∈ claims, ∀ c₀ ∈ (Queue.after C calls).held, runKey c₀ = runKey c →
          ¬ Leased ((Queue.after C calls).elapse elapsed) c₀) ∧
      -- a wakeup is completed through its most recent claim
      (∀ key w, (Queue.after C (calls ++ [(elapsed, call)])).tables.wakeups.get key = some w →
        w.state = .completed → (Queue.after C calls).tables.wakeups.get key = some w ∨
          ∃ allowedTenants n status completedAt c,
            call = .complete allowedTenants n status completedAt ∧
            (Queue.after C calls).held[n]? = some c ∧ wakeupKey c = key ∧
            MostRecent (Queue.after C calls) c) ∧
      -- an older claim changes nothing
      (∀ c, call.takes (Queue.after C calls).held = some c → Superseded (Queue.after C calls) c →
        Queue.after C (calls ++ [(elapsed, call)]) = (Queue.after C calls).elapse elapsed) ∧
      -- nor does a transaction that throws
      ∀ e, ((Queue.after C calls).elapse elapsed).transaction C call = .error e →
        Queue.after C (calls ++ [(elapsed, call)]) = (Queue.after C calls).elapse elapsed := by
  have hsafe : Safe (Queue.after C calls) := after_safe calls
  refine ⟨hsafe.increasing, fun key w hw => ?_, fun later key w hw => ?_, fun elapsed call => ?_⟩
  · have := hsafe.legal.uncancelled key w hw
    cases hstate : w.state with
    | pending => exact .inl rfl
    | claimed => exact .inr (.inl rfl)
    | completed => exact .inr (.inr rfl)
    | cancelled => exact absurd hstate this
  · rw [Queue.after, List.foldl_append]
    obtain ⟨w', hw', -, hrun, -, hcompleted⟩ :=
      (foldl_safe (C := C) hsafe later).2.wakeups key w hw
    exact ⟨w', hw', hrun, hcompleted⟩
  have hlast : Queue.after C (calls ++ [(elapsed, call)]) =
      (Queue.after C calls).step C (elapsed, call) := by
    simp [Queue.after]
  rw [hlast]
  generalize Queue.after C calls = q at hsafe
  cases hok : (q.elapse elapsed).transaction C call with
  | error e =>
    have hstep : q.step C (elapsed, call) = q.elapse elapsed := by
      simp only [Queue.step, hok]
    rw [hstep]
    exact ⟨⟨[], (List.append_nil _).symm, .nil, fun _ hc => absurd hc List.not_mem_nil⟩,
      fun _ _ hw _ => .inl hw, fun _ _ _ => rfl, fun _ _ => rfl⟩
  | ok q' =>
    have hstep : q.step C (elapsed, call) = q' := by
      simp only [Queue.step, hok]
    rw [hstep]
    have htransacts := transaction_transacts (hsafe.elapse elapsed) hok
    refine ⟨?_, fun key w hw hcompleted => ?_, fun c hc hsuperseded => ?_, fun e he => by cases he⟩
    · obtain ⟨claims, hhanded, hdistinct, hfree⟩ := htransacts.handed
      refine ⟨claims, hhanded, hdistinct, fun c hc c₀ _ hrun hleased => ?_⟩
      obtain ⟨l, hl, hbinds, hlt⟩ := hleased
      obtain ⟨-, -, -, hactive⟩ := of_decide_eq_true hbinds
      exact absurd (hfree c hc l (hrun ▸ hl) hactive) (not_le.mpr hlt)
    · rcases htransacts.completed key w hw hcompleted with hbefore | hnew
      · exact .inl hbefore
      · obtain ⟨allowedTenants, n, status, completedAt, c, hcall, hheld, hkey, v, hv, hbinds⟩ :=
          hnew
        subst hkey
        exact .inr ⟨allowedTenants, n, status, completedAt, c, hcall, hheld, rfl,
          hsafe.mostRecent (List.mem_of_getElem? hheld) hv hbinds⟩
    · obtain ⟨hwakeups, hleases⟩ := hsafe.superseded hsuperseded
      rcases htransacts.bound c hc with ⟨w, hw, hbinds⟩ | ⟨l, hl, hbinds⟩
      · rw [hwakeups w hw] at hbinds
        cases hbinds
      · rw [hleases l hl] at hbinds
        cases hbinds

end Worker

end Pactmark
