import Pactmark.Durable.Runs
import Pactmark.Runtime.CommandReplay
import Pactmark.Worker.Authority

/-!
# Worker — what a delegation is good for

The issuer over every sequence of its methods, and the runtime that is configured with it.
`verifyDelegated` looks at the lease and the receipt of a delegation; `#verifyAuthority` of the
runtime calls `verify`, which looks at neither.

* `issued_iff`, `invalidated_iff`, `observed_iff`: what the issuer holds is what was called.
* `verifyDelegated_ok`: what a delegation that is valid has.
* `delegations_current_iff`: the runtime and `verifyDelegated` agree on a delegation exactly when
  it is still good, or the runtime refuses it for something else.
-/

namespace Pactmark

open Durable

namespace Worker

/-- A method that changes the issuer. -/
inductive IssuerCall where
  | observeLease (lease : FencedLease)
  | issueDelegated (descriptor : RunDelegationDescriptor)
  | invalidateSchedulerReceipt (receiptId : String)

namespace WorkerDelegatingAuthorityIssuer

/-- What a call leaves; one that throws leaves the issuer as it was. -/
def step (s : WorkerDelegatingAuthorityIssuer) : IssuerCall → WorkerDelegatingAuthorityIssuer
  | .observeLease lease =>
      match s.observeLease lease with
      | .ok s' => s'
      | .error _ => s
  | .issueDelegated descriptor =>
      match s.issueDelegated descriptor with
      | .ok (_, s') => s'
      | .error _ => s
  | .invalidateSchedulerReceipt receiptId =>
      match s.invalidateSchedulerReceipt receiptId with
      | .ok s' => s'
      | .error _ => s

/-- What a sequence of calls leaves. -/
def after (issuerId : String) (calls : List IssuerCall) : WorkerDelegatingAuthorityIssuer :=
  calls.foldl step (create issuerId)

/-- `verify`. -/
def verify (s : WorkerDelegatingAuthorityIssuer) (authority : Nat) (at_ : Option Int) :
    Except AuthorityRefusal AuthorityClaims :=
  match s.issued[authority]? with
  | none => .error .not_issued
  | some (claims, _) =>
      match baseVerify claims at_ with
      | .error reason => .error reason
      | .ok () => .ok claims

end WorkerDelegatingAuthorityIssuer

/-! ### The runtime with this issuer -/

/-- The text of a reason. -/
def AuthorityRefusal.text : AuthorityRefusal → String
  | .not_issued => "not_issued"
  | .other_issuer => "other_issuer"
  | .expired => "expired"
  | .not_yet_valid => "not_yet_valid"

/-- What the runtime reads of claims. -/
def AuthorityClaims.verified (claims : AuthorityClaims) : CommandReplay.VerifiedAuthority where
  issuerId := claims.issuerId
  tenantId := claims.tenantId
  actor := claims.actor
  runScope := some claims.runScope
  decisionRoles := claims.decisionRoles

/-- A runtime whose `authorityIssuer` is this one. -/
def configured {A S : Type} (K : CommandReplay.AgentRuntime A S)
    (s : WorkerDelegatingAuthorityIssuer) : CommandReplay.AgentRuntime Nat S :=
  { K with
    verify := fun authority now =>
      match s.verify authority (some now) with
      | .ok claims => .ok claims.verified
      | .error reason => .error reason.text }

/-! ### What was called -/

namespace WorkerDelegatingAuthorityIssuer

variable {issuerId : String} {calls : List IssuerCall} {call : IssuerCall}

/-- The issuer takes the call. -/
def Issues (issuerId : String) (calls : List IssuerCall) (authority : Nat)
    (descriptor : RunDelegationDescriptor) : Prop :=
  ∃ s', (after issuerId calls).issueDelegated descriptor = .ok (authority, s')

/-- The issuer takes the lease. -/
def Observes (issuerId : String) (calls : List IssuerCall) (lease : FencedLease) : Prop :=
  ∃ s', (after issuerId calls).observeLease lease = .ok s'

/-- The authority was issued for the descriptor. -/
def Issued (issuerId : String) (calls : List IssuerCall) (authority : Nat)
    (descriptor : RunDelegationDescriptor) : Prop :=
  ∃ before later, calls = before ++ .issueDelegated descriptor :: later ∧
    Issues issuerId before authority descriptor

/-- The receipt was invalidated. -/
def Invalidated (calls : List IssuerCall) (receiptId : String) : Prop :=
  ∃ given, IssuerCall.invalidateSchedulerReceipt given ∈ calls ∧
    boundedText 256 given = some receiptId

/-- The lease was observed for its run, and no other one of the run after it. -/
def LastObserved (issuerId : String) (calls : List IssuerCall) (lease : FencedLease) : Prop :=
  ∃ before later, calls = before ++ .observeLease lease :: later ∧
    Observes issuerId before lease ∧
    ∀ between other rest, later = between ++ .observeLease other :: rest →
      Observes issuerId (before ++ .observeLease lease :: between) other → other.key ≠ lease.key

/-- The last lease that was observed for the run of the descriptor is that of the descriptor. -/
def Holds (issuerId : String) (calls : List IssuerCall) (descriptor : RunDelegationDescriptor) :
    Prop :=
  ∃ lease, LastObserved issuerId calls lease ∧
    lease.key = (descriptor.tenantId, descriptor.runId) ∧ lease.leaseId = descriptor.leaseId ∧
      lease.fencingToken = descriptor.fencingToken

/-- The authority was issued, nothing has invalidated its receipt, and its lease is the last one
that was observed for its run. -/
structure Current (issuerId : String) (calls : List IssuerCall)
    (descriptor : RunDelegationDescriptor) : Prop where
  receipt : ¬ Invalidated calls descriptor.schedulerReceiptId
  lease : Holds issuerId calls descriptor

theorem after_snoc : after issuerId (calls ++ [call]) = (after issuerId calls).step call := by
  simp [after]

/-- A call of one method leaves what the others write. -/
theorem step_cases (s : WorkerDelegatingAuthorityIssuer) (call : IssuerCall) :
    (s.step call = s ∧ (∀ lease s', call = .observeLease lease → s.observeLease lease ≠ .ok s') ∧
      (∀ d a s', call = .issueDelegated d → s.issueDelegated d ≠ .ok (a, s')) ∧
      ∀ r, call = .invalidateSchedulerReceipt r → boundedText 256 r = none) ∨
    (∃ lease, call = .observeLease lease ∧ s.observeLease lease = .ok (s.step call) ∧
      s.step call =
        { s with leases := s.leases.set lease.key ⟨lease.leaseId, lease.fencingToken⟩ }) ∨
    (∃ descriptor, call = .issueDelegated descriptor ∧
      s.issueDelegated descriptor = .ok (s.issued.length, s.step call) ∧
      s.step call = { s with issued := s.issued ++ [(s.claims descriptor, descriptor)] }) ∨
    ∃ given receiptId, call = .invalidateSchedulerReceipt given ∧
      boundedText 256 given = some receiptId ∧
      s.step call = { s with invalidReceipts := receiptId :: s.invalidReceipts } := by
  cases call with
  | observeLease lease =>
    cases h : s.observeLease lease with
    | error e =>
      refine .inl ⟨by simp [step, h], ?_, nofun, nofun⟩
      rintro _ s' ⟨⟩ hok
      rw [h] at hok
      cases hok
    | ok s' =>
      have hstep : s.step (.observeLease lease) = s' := by simp [step, h]
      exact .inr (.inl ⟨lease, rfl, by rw [hstep, h], by rw [hstep, observeLease_ok h]⟩)
  | issueDelegated descriptor =>
    cases h : s.issueDelegated descriptor with
    | error e =>
      refine .inl ⟨by simp [step, h], nofun, ?_, nofun⟩
      rintro _ a s' ⟨⟩ hok
      rw [h] at hok
      cases hok
    | ok result =>
      obtain ⟨authority, s'⟩ := result
      obtain ⟨-, -, rfl, hs'⟩ := issueDelegated_ok h
      have hstep : s.step (.issueDelegated descriptor) = s' := by simp [step, h]
      exact .inr (.inr (.inl ⟨descriptor, rfl, by rw [hstep, h], by rw [hstep, hs']⟩))
  | invalidateSchedulerReceipt given =>
    cases h : boundedText 256 given with
    | none =>
      refine .inl ⟨by simp [step, invalidateSchedulerReceipt, h], nofun, nofun, ?_⟩
      rintro _ ⟨⟩
      exact h
    | some receiptId =>
      exact .inr (.inr (.inr ⟨given, receiptId, rfl, h, by
        simp [step, invalidateSchedulerReceipt, h]⟩))

@[simp] theorem after_issuerId : (after issuerId calls).issuerId = issuerId := by
  induction calls using List.reverseRecOn with
  | nil => rfl
  | append_singleton calls call ih =>
    rw [after_snoc]
    rcases step_cases (after issuerId calls) call with
      ⟨h, -⟩ | ⟨_, -, -, h⟩ | ⟨_, -, -, h⟩ | ⟨_, _, -, -, h⟩
    all_goals rw [h]; exact ih

theorem issued_snoc {authority : Nat} {descriptor : RunDelegationDescriptor} :
    Issued issuerId (calls ++ [call]) authority descriptor ↔
      Issued issuerId calls authority descriptor ∨
        call = .issueDelegated descriptor ∧ Issues issuerId calls authority descriptor := by
  constructor
  · rintro ⟨before, later, h, hissues⟩
    rcases snoc_eq_append_cons.mp h with ⟨rfl, rfl, -⟩ | ⟨rest, rfl, -⟩
    · exact .inr ⟨rfl, hissues⟩
    · exact .inl ⟨before, rest, rfl, hissues⟩
  · rintro (⟨before, later, rfl, hissues⟩ | ⟨rfl, hissues⟩)
    · exact ⟨before, later ++ [call], by simp, hissues⟩
    · exact ⟨calls, [], rfl, hissues⟩

/-- **What the issuer knows of an authority** is what it was issued for. -/
theorem issued_iff {authority : Nat} {known : AuthorityClaims × RunDelegationDescriptor} :
    (after issuerId calls).issued[authority]? = some known ↔
      Issued issuerId calls authority known.2 ∧
        known.1 = (create issuerId).claims known.2 := by
  induction calls using List.reverseRecOn with
  | nil =>
    constructor
    · intro h
      simp [after, create] at h
    · rintro ⟨⟨before, later, h, -⟩, -⟩
      simp at h
  | append_singleton calls call ih =>
    rw [after_snoc, issued_snoc]
    rcases step_cases (after issuerId calls) call with
      ⟨hs, -, hnone, -⟩ | ⟨lease, rfl, -, hs⟩ | ⟨descriptor, rfl, hok, hs⟩ | ⟨given, _, rfl, -, hs⟩
    · rw [hs, ih]
      refine and_congr_left fun _ => (or_iff_left ?_).symm
      rintro ⟨hcall, s', hissues⟩
      exact hnone _ _ s' hcall hissues
    · rw [hs, ih]
      simp
    · rw [hs]
      dsimp only
      rw [List.getElem?_append]
      split
      · rename_i hlt
        rw [ih]
        refine and_congr_left fun _ => (or_iff_left ?_).symm
        rintro ⟨-, s', hissues⟩
        obtain ⟨-, -, rfl, -⟩ := issueDelegated_ok hissues
        exact lt_irrefl _ hlt
      · rename_i hge
        constructor
        · intro h
          obtain ⟨hauthority, rfl⟩ : authority - (after issuerId calls).issued.length = 0 ∧
              ((after issuerId calls).claims descriptor, descriptor) = known := by
            rw [List.getElem?_singleton] at h
            split at h
            · rename_i hzero
              exact ⟨hzero, Option.some.inj h⟩
            · cases h
          obtain rfl : authority = (after issuerId calls).issued.length := by omega
          exact ⟨.inr ⟨rfl, _, hok⟩, by simp [claims, create]⟩
        · rintro ⟨hissued | ⟨hcall, s', hissues⟩, hknown⟩
          · -- what was issued before has a smaller place
            have := ih.mpr ⟨hissued, hknown⟩
            rw [List.getElem?_eq_none (not_lt.mp hge)] at this
            cases this
          · obtain ⟨-, -, rfl, -⟩ := issueDelegated_ok hissues
            obtain ⟨known, descriptor'⟩ := known
            obtain rfl : descriptor = descriptor' := IssuerCall.issueDelegated.inj hcall
            obtain rfl : known = (create issuerId).claims descriptor := hknown
            simp [claims, create]
    · rw [hs, ih]
      simp

theorem Issued.known {authority : Nat} {descriptor : RunDelegationDescriptor}
    (h : Issued issuerId calls authority descriptor) :
    (after issuerId calls).issued[authority]? =
      some ((create issuerId).claims descriptor, descriptor) :=
  issued_iff.mpr ⟨h, rfl⟩

/-- An authority is issued for one descriptor. -/
theorem Issued.unique {authority : Nat} {d d' : RunDelegationDescriptor}
    (h : Issued issuerId calls authority d) (h' : Issued issuerId calls authority d') : d' = d :=
  (Prod.mk.inj (Option.some.inj (h'.known.symm.trans h.known))).2

theorem invalidated_snoc {receiptId : String} :
    Invalidated (calls ++ [call]) receiptId ↔ Invalidated calls receiptId ∨
      ∃ given, call = .invalidateSchedulerReceipt given ∧ boundedText 256 given = some receiptId := by
  constructor
  · rintro ⟨given, hmem, hparsed⟩
    rcases List.mem_append.mp hmem with hmem | hmem
    · exact .inl ⟨given, hmem, hparsed⟩
    · exact .inr ⟨given, (List.mem_singleton.mp hmem).symm, hparsed⟩
  · rintro (⟨given, hmem, hparsed⟩ | ⟨given, rfl, hparsed⟩)
    · exact ⟨given, List.mem_append_left _ hmem, hparsed⟩
    · exact ⟨given, by simp, hparsed⟩

/-- **The receipts the issuer refuses** are those that were invalidated. -/
theorem invalidated_iff {receiptId : String} :
    receiptId ∈ (after issuerId calls).invalidReceipts ↔ Invalidated calls receiptId := by
  induction calls using List.reverseRecOn with
  | nil =>
    constructor
    · intro h
      simp [after, create] at h
    · rintro ⟨given, h, -⟩
      cases h
  | append_singleton calls call ih =>
    rw [after_snoc, invalidated_snoc, ← ih]
    rcases step_cases (after issuerId calls) call with
      ⟨hs, -, -, hnone⟩ | ⟨lease, rfl, -, hs⟩ | ⟨descriptor, rfl, -, hs⟩ | ⟨given, _, rfl, hparsed, hs⟩
    · rw [hs]
      refine (or_iff_left ?_).symm
      rintro ⟨given, hcall, hparsed⟩
      rw [hnone given hcall] at hparsed
      cases hparsed
    · rw [hs]
      simp
    · rw [hs]
      simp
    · rw [hs]
      simp [hparsed, or_comm, eq_comm]

theorem lastObserved_snoc {lease : FencedLease} :
    LastObserved issuerId (calls ++ [call]) lease ↔
      (call = .observeLease lease ∧ Observes issuerId calls lease) ∨
        LastObserved issuerId calls lease ∧
          ∀ other, call = .observeLease other → Observes issuerId calls other →
            other.key ≠ lease.key := by
  constructor
  · rintro ⟨before, later, h, hobserves, hlast⟩
    rcases snoc_eq_append_cons.mp h with ⟨rfl, rfl, -⟩ | ⟨rest, rfl, rfl⟩
    · exact .inl ⟨rfl, hobserves⟩
    · refine .inr ⟨⟨before, rest, rfl, hobserves, fun between other more hrest => ?_⟩, ?_⟩
      · exact hlast between other (more ++ [call]) (by simp [hrest])
      · rintro other rfl
        exact hlast rest other [] rfl
  · rintro (⟨rfl, hobserves⟩ | ⟨⟨before, later, rfl, hobserves, hlast⟩, hcall⟩)
    · exact ⟨calls, [], rfl, hobserves, fun between other rest h => by simp at h⟩
    · refine ⟨before, later ++ [call], by simp, hobserves, fun between other rest h => ?_⟩
      rcases snoc_eq_append_cons.mp h with ⟨rfl, rfl, -⟩ | ⟨more, rfl, -⟩
      · exact hcall other rfl
      · exact hlast between other more rfl

/-- **The lease the issuer knows of a run** is the last one that was observed. -/
theorem observed_iff {key : StreamKey} {leaseId : String} {fencingToken : Nat} :
    (after issuerId calls).leases.get key = some ⟨leaseId, fencingToken⟩ ↔
      ∃ lease, LastObserved issuerId calls lease ∧ lease.key = key ∧ lease.leaseId = leaseId ∧
        lease.fencingToken = fencingToken := by
  induction calls using List.reverseRecOn with
  | nil =>
    constructor
    · intro h
      cases h
    · rintro ⟨lease, ⟨before, later, h, -⟩, -⟩
      simp at h
  | append_singleton calls call ih =>
    rw [after_snoc]
    simp only [lastObserved_snoc]
    rcases step_cases (after issuerId calls) call with
      ⟨hs, hnone, -⟩ | ⟨observed, rfl, hok, hs⟩ | ⟨descriptor, rfl, -, hs⟩ | ⟨given, _, rfl, -, hs⟩
    · rw [hs, ih]
      refine exists_congr fun lease => and_congr_left fun _ => ?_
      constructor
      · intro h
        refine .inr ⟨h, fun other hcall hobserves => ?_⟩
        obtain ⟨s', hobserves⟩ := hobserves
        exact absurd hobserves (hnone other s' hcall)
      · rintro (⟨hcall, s', hobserves⟩ | ⟨h, -⟩)
        · exact absurd hobserves (hnone lease s' hcall)
        · exact h
    · rw [hs]
      dsimp only
      rw [OrderedMap.get_set]
      have hobserves : Observes issuerId calls observed := ⟨_, hok⟩
      split
      · rename_i hkey
        constructor
        · intro h
          obtain ⟨rfl, rfl⟩ := ObservedLease.mk.inj (Option.some.inj h)
          exact ⟨observed, .inl ⟨rfl, hobserves⟩, hkey.symm, rfl, rfl⟩
        · rintro ⟨lease, ⟨hcall, -⟩ | ⟨-, hother⟩, hlease, rfl, rfl⟩
          · rw [IssuerCall.observeLease.inj hcall]
          · exact absurd (hkey.symm.trans hlease.symm) (hother observed rfl hobserves)
      · rename_i hkey
        rw [ih]
        refine exists_congr fun lease => ?_
        constructor
        · rintro ⟨h, hlease, hrest⟩
          refine ⟨.inr ⟨h, ?_⟩, hlease, hrest⟩
          rintro other hcall - heq
          rw [← IssuerCall.observeLease.inj hcall] at heq
          exact hkey (hlease.symm.trans heq.symm)
        · rintro ⟨⟨hcall, -⟩ | ⟨h, -⟩, hlease, hrest⟩
          · rw [← IssuerCall.observeLease.inj hcall] at hlease
            exact absurd hlease.symm hkey
          · exact ⟨h, hlease, hrest⟩
    · rw [hs, ih]
      simp
    · rw [hs, ih]
      simp

/-! ### What verifies -/

/-- **A delegation is valid** for as long as it was issued for, while it is current. -/
theorem verifyDelegated_ok {authority : Nat} {at_ : Option Int}
    {descriptor : RunDelegationDescriptor} :
    (after issuerId calls).verifyDelegated authority at_ = .ok descriptor ↔
      Issued issuerId calls authority descriptor ∧
        (∀ instant ∈ at_, descriptor.issuedAt ≤ instant ∧ instant < descriptor.expiresAt) ∧
        Current issuerId calls descriptor := by
  unfold verifyDelegated
  cases hissued : (after issuerId calls).issued[authority]? with
  | none =>
    constructor
    · rintro ⟨⟩
    · rintro ⟨h, -⟩
      rw [h.known] at hissued
      cases hissued
  | some known =>
    obtain ⟨claims, d⟩ := known
    obtain ⟨h, hclaims⟩ := issued_iff.mp hissued
    dsimp only at h hclaims
    subst hclaims
    have hd : ∀ {d'}, Issued issuerId calls authority d' → d' = d := h.unique
    have htime := baseVerify_eq_ok ((create issuerId).claims d) at_
    dsimp only
    cases hbase : baseVerify ((create issuerId).claims d) at_ with
    | error e =>
      constructor
      · cases e <;> rintro ⟨⟩
      · rintro ⟨h', htime', -⟩
        obtain rfl := hd h'
        rw [htime.mpr htime'] at hbase
        cases hbase
    | ok u =>
      have hwithin := htime.mp hbase
      dsimp only
      split
      · rename_i hreceipt
        constructor
        · rintro ⟨⟩
        · rintro ⟨h', -, hcurrent⟩
          obtain rfl := hd h'
          exact absurd (invalidated_iff.mp hreceipt) hcurrent.receipt
      rename_i hreceipt
      have hholds : (after issuerId calls).leases.get (d.tenantId, d.runId) =
          some ⟨d.leaseId, d.fencingToken⟩ ↔ Holds issuerId calls d := observed_iff
      cases hlease : (after issuerId calls).leases.get (d.tenantId, d.runId) with
      | none =>
        constructor
        · rintro ⟨⟩
        · rintro ⟨h', -, hcurrent⟩
          obtain rfl := hd h'
          rw [hholds.mpr hcurrent.lease] at hlease
          cases hlease
      | some active =>
        dsimp only
        rw [hlease] at hholds
        split
        · rename_i hne
          constructor
          · rintro ⟨⟩
          · rintro ⟨h', -, hcurrent⟩
            obtain rfl := hd h'
            exact absurd (congrArg (·.leaseId) (Option.some.inj (hholds.mpr hcurrent.lease))) hne
        rename_i hid
        split
        · rename_i hne
          constructor
          · rintro ⟨⟩
          · rintro ⟨h', -, hcurrent⟩
            obtain rfl := hd h'
            exact absurd (congrArg (·.fencingToken) (Option.some.inj (hholds.mpr hcurrent.lease)))
              hne
        rename_i htoken
        constructor
        · intro hok
          obtain rfl := Except.ok.inj hok
          refine ⟨h, hwithin, fun hinvalid => hreceipt (invalidated_iff.mpr hinvalid), ?_⟩
          refine hholds.mp ?_
          rw [← not_not.mp hid, ← not_not.mp htoken]
        · rintro ⟨h', -⟩
          rw [hd h']

end WorkerDelegatingAuthorityIssuer

open WorkerDelegatingAuthorityIssuer

/-- What `#verifyAuthority` accepts of a delegation. -/
theorem verifyAuthority_accepts {A S : Type} {K : CommandReplay.AgentRuntime A S}
    {w : CommandReplay.Process S} {issuerId : String} {calls : List IssuerCall} {authority : Nat}
    {descriptor : RunDelegationDescriptor} {operation : String} {runId : Option String}
    (h : Issued issuerId calls authority descriptor) :
    (∃ claims, (configured K (after issuerId calls)).verifyAuthority w authority operation runId =
        .ok claims) ↔
      (descriptor.issuedAt ≤ w.now ∧ w.now < descriptor.expiresAt) ∧
        runId = some descriptor.runId ∧
        operation ∈ CommandReplay.AgentRuntime.DELEGATED_WORKER_RUN_OPERATIONS := by
  have hissued := h.known
  have htime := baseVerify_eq_ok ((create issuerId).claims descriptor) (some w.now)
  simp only [Option.mem_some_iff, forall_eq'] at htime
  simp only [CommandReplay.AgentRuntime.verifyAuthority, configured, verify, hissued]
  cases hbase : baseVerify ((create issuerId).claims descriptor) (some w.now) with
  | error e =>
    constructor
    · rintro ⟨_, ⟨⟩⟩
    · rintro ⟨hwithin, -⟩
      rw [htime.mpr hwithin] at hbase
      cases hbase
  | ok u =>
    have hwithin := htime.mp hbase
    cases runId with
    | none =>
      constructor
      · rintro ⟨_, ⟨⟩⟩
      · rintro ⟨-, ⟨⟩, -⟩
    | some runId =>
      simp only [AuthorityClaims.verified, claims]
      split
      · rename_i hne
        constructor
        · rintro ⟨_, ⟨⟩⟩
        · rintro ⟨-, heq, -⟩
          exact absurd (Option.some.inj heq).symm hne
      rename_i hrun
      split
      · rename_i hdenied
        constructor
        · rintro ⟨_, ⟨⟩⟩
        · rintro ⟨-, -, hallowed⟩
          exact absurd hallowed hdenied.2
      · rename_i hallowed
        refine iff_of_true ⟨_, rfl⟩ ⟨hwithin, by rw [not_not.mp hrun], ?_⟩
        exact not_not.mp fun hdenied => hallowed ⟨trivial, hdenied⟩

/-- What `#verifyAuthority` refuses of an authority that was not issued. -/
theorem verifyAuthority_not_issued {A S : Type} {K : CommandReplay.AgentRuntime A S}
    {w : CommandReplay.Process S} {issuerId : String} {calls : List IssuerCall} {authority : Nat}
    {operation : String} {runId : Option String}
    (h : ∀ descriptor, ¬ Issued issuerId calls authority descriptor)
    (claims : CommandReplay.VerifiedAuthority) :
    (configured K (after issuerId calls)).verifyAuthority w authority operation runId ≠
      .ok claims := by
  have hnone : (after issuerId calls).issued[authority]? = none := by
    cases hissued : (after issuerId calls).issued[authority]? with
    | none => rfl
    | some known => exact absurd (issued_iff.mp hissued).1 (h known.2)
  intro hok
  simp [CommandReplay.AgentRuntime.verifyAuthority, configured, verify, hnone] at hok

/-- **Delegations.**  `verifyDelegated` accepts one exactly while it is within its time and
current; the runtime accepts no other exactly where it is current, or refused for its time, its run
or its operation. -/
theorem delegations_current_iff (issuerId : String) (calls : List IssuerCall) :
    (∀ (authority : Nat) (at_ : Option Int),
      (∃ descriptor, (after issuerId calls).verifyDelegated authority at_ = .ok descriptor) ↔
        ∃ descriptor, Issued issuerId calls authority descriptor ∧
          (∀ instant ∈ at_, descriptor.issuedAt ≤ instant ∧ instant < descriptor.expiresAt) ∧
          WorkerDelegatingAuthorityIssuer.Current issuerId calls descriptor) ∧
    ∀ {A S : Type} (K : CommandReplay.AgentRuntime A S) (w : CommandReplay.Process S)
      (authority : Nat) (operation : String) (runId : Option String),
      ((∃ claims, (configured K (after issuerId calls)).verifyAuthority w authority operation
            runId = .ok claims) →
          ∃ d, (after issuerId calls).verifyDelegated authority (some w.now) = .ok d) ↔
        ∀ descriptor, Issued issuerId calls authority descriptor →
          WorkerDelegatingAuthorityIssuer.Current issuerId calls descriptor ∨
          ¬ (descriptor.issuedAt ≤ w.now ∧ w.now < descriptor.expiresAt) ∨
          runId ≠ some descriptor.runId ∨
          operation ∉ CommandReplay.AgentRuntime.DELEGATED_WORKER_RUN_OPERATIONS := by
  refine ⟨fun authority at_ => exists_congr fun descriptor => verifyDelegated_ok, ?_⟩
  intro A S K w authority operation runId
  constructor
  · intro himp descriptor h
    rw [verifyAuthority_accepts h] at himp
    by_contra hnone
    simp only [not_or, not_not] at hnone
    obtain ⟨hcurrent, hwithin, hrun, hoperation⟩ := hnone
    obtain ⟨d, hd⟩ := himp ⟨hwithin, hrun, hoperation⟩
    obtain ⟨h', -, hcurrent'⟩ := verifyDelegated_ok.mp hd
    rw [h.unique h'] at hcurrent'
    exact hcurrent hcurrent'
  · rintro hgood ⟨claims, haccepts⟩
    by_cases hissued : ∃ descriptor, Issued issuerId calls authority descriptor
    · obtain ⟨descriptor, h⟩ := hissued
      obtain ⟨hwithin, hrun, hoperation⟩ := (verifyAuthority_accepts h).mp ⟨claims, haccepts⟩
      rcases hgood descriptor h with hcurrent | hlate | hother | hdenied
      · exact ⟨descriptor, verifyDelegated_ok.mpr ⟨h, by simpa using hwithin, hcurrent⟩⟩
      · exact absurd hwithin hlate
      · exact absurd hrun hother
      · exact absurd hoperation hdenied
    · exact absurd haccepts (verifyAuthority_not_issued (not_exists.mp hissued) claims)

/-! ### A worker that was superseded -/

/-- A delegation of the run, under the first lease. -/
def superseded : RunDelegationDescriptor where
  actorId := "worker"
  initiatingPrincipal := ⟨.user, "user"⟩
  tenantId := "tenant"
  runId := "run"
  workOrderId := "work_order"
  workOrderBindingDigest := "binding"
  executionDefinition := .agent "agent" "1" "agent_definition"
  executionDefinitionDigest := "definition"
  purpose := ⟨"purpose", "1"⟩
  maximumScopes := []
  schedulerReceiptId := "receipt"
  schedulerReceiptDigest := "receipt_digest"
  leaseId := "lease_1"
  fencingToken := 1
  issuedAt := 0
  expiresAt := 1000

/-- The worker is delegated the run, and another one takes its lease. -/
def supersession : List IssuerCall :=
  [.observeLease ⟨"lease_1", "tenant", "run", "worker_1", 1, 0, 1000, .active⟩,
    .issueDelegated superseded,
    .observeLease ⟨"lease_2", "tenant", "run", "worker_2", 2, 0, 1000, .active⟩]

/-- The runtime still executes the run for the first worker. -/
theorem superseded_executes :
    ¬ ∀ {A S : Type} (K : CommandReplay.AgentRuntime A S) (w : CommandReplay.Process S)
      (issuerId : String) (calls : List IssuerCall) (authority : Nat) (operation : String)
      (runId : Option String),
      (∃ claims, (configured K (after issuerId calls)).verifyAuthority w authority operation
          runId = .ok claims) →
        ∃ d, (after issuerId calls).verifyDelegated authority (some w.now) = .ok d := by
  intro h
  obtain ⟨d, hd⟩ := h CommandReplay.AgentRuntime.localRuntime
    (CommandReplay.AgentRuntime.idle 500) "issuer" supersession 0 "run.execute" (some "run")
    ⟨_, rfl⟩
  have : (after "issuer" supersession).verifyDelegated 0 (some 500) = .error .lease_mismatch := rfl
  rw [CommandReplay.AgentRuntime.idle, this] at hd
  cases hd

end Worker

end Pactmark
