import Pactmark.Core.Decisions
import Pactmark.Durable.OrderedMap
import Pactmark.Durable.Snapshots

/-!
# Stores — human decisions

`MemoryDecisionStore` of `store-memory/src/decision-store.ts`.  A challenge is found by its tenant
and identity in a scan over all challenges, a restore copies the maps of the snapshot, and the
authorization keys are indexed as they were given, while a claim holds the trimmed key.

* `step_challenges`: a call leaves the challenges, stores a new one, or consumes one.
* `Coherent.step`: the maps agree after every call.
* `decisions_used_once`: what holds in every state, whatever was rolled back.
-/

namespace Pactmark

open Durable Decision

/-- `MemoryDecisionStore`. -/
structure MemoryDecisionStore where
  gates : OrderedMap DecisionKey Gate
  challenges : OrderedMap DecisionKey SubmissionChallenge
  activeChallenges : OrderedMap DecisionKey DecisionKey
  approvals : OrderedMap (String × String) Decision.Approval
  approvalClaims : OrderedMap (String × String) Decision.ApprovalUseClaim
  approvalAuthorizationKeys : OrderedMap (String × String) String
  rejections : OrderedMap DecisionKey Rejection

namespace MemoryDecisionStore

/-- `new MemoryDecisionStore()`. -/
def empty : MemoryDecisionStore :=
  ⟨.empty, .empty, .empty, .empty, .empty, .empty, .empty⟩

/-- `KAF_AUTHORIZATION_BINDING_MISMATCH` with its reason. -/
def mismatch (reason : String) : Thrown :=
  kafReason .KAF_AUTHORIZATION_BINDING_MISMATCH reason

/-- What a schema that refuses its input throws. -/
def refused : Thrown :=
  .host "ZodError" true

/-- `putGateOnce`. -/
def putGateOnce (s : MemoryDecisionStore) (gate : Gate) :
    Except Thrown Gate × MemoryDecisionStore :=
  if gate.gateKey ≠ gate.binding.gateKey then
    (.error (conflict "decision_gate_binding_changed"), s)
  else
    match s.gates.get gate.gateKey with
    | some existing =>
        if existing = gate then (.ok existing, s)
        else (.error (conflict "decision_gate_changed"), s)
    | none => (.ok gate, { s with gates := s.gates.set gate.gateKey gate })

/-- The stored challenges of a tenant with an identity. -/
def challengesOf (s : MemoryDecisionStore) (tenantId challengeId : String) :
    List (DecisionKey × SubmissionChallenge) :=
  s.challenges.entries.filter fun x => x.2.binding.tenantId = tenantId ∧ x.2.id = challengeId

/-- `putChallenge`. -/
def putChallenge (s : MemoryDecisionStore) (challenge : SubmissionChallenge) :
    Except Thrown Unit × MemoryDecisionStore :=
  if (s.challengesOf challenge.binding.tenantId challenge.id).any fun x =>
      decide (x.2.binding.runId ≠ challenge.binding.runId) then
    (.error (conflict "decision_challenge_id_changed_run"), s)
  else if (s.challenges.get challenge.challengeKey).any fun existing =>
      decide (existing ≠ challenge) then
    (.error (conflict "decision_challenge_changed"), s)
  else
    (.ok (), { s with
      challenges := s.challenges.set challenge.challengeKey challenge
      activeChallenges :=
        s.activeChallenges.set challenge.binding.gateKey challenge.challengeKey })

/-- `getActiveChallenge`. -/
def getActiveChallenge (s : MemoryDecisionStore) (tenantId runId decisionId : String) :
    Option SubmissionChallenge :=
  (s.activeChallenges.get (tenantId, runId, decisionId)).bind s.challenges.get

/-- `consumeChallenge`. -/
def consumeChallenge (s : MemoryDecisionStore) (tenantId challengeId commandId : String)
    (consumedAt : DateTimeText) : Except Thrown Unit × MemoryDecisionStore :=
  -- a scan over all runs of the tenant, since the caller does not name the run
  match s.challengesOf tenantId challengeId with
  | [(challengeKey, challenge)] =>
      if s.activeChallenges.get challenge.binding.gateKey ≠ some challengeKey then
        (.error (mismatch "decision_challenge_replaced"), s)
      else
        match challenge.consumingCommandId with
        | some consumingCommandId =>
            if consumingCommandId = commandId then (.ok (), s)
            else (.error (mismatch "decision_challenge_used"), s)
        | none =>
            if challenge.expiresAt.reached consumedAt.toInstantText then
              (.error (mismatch "decision_challenge_expired"), s)
            else
              match boundedText 256 commandId, consumedAt.parsed with
              | some commandId, some consumedAt =>
                  (.ok (), { s with
                    challenges :=
                      s.challenges.set challengeKey (challenge.consumed commandId consumedAt) })
              | _, _ => (.error refused, s)
  | _ => (.error (kafError .KAF_STORAGE_NOT_FOUND), s)

/-- The challenge an approval is about is consumed and has its proof digest and binding. -/
def approves (approval : Decision.Approval) (challenge : SubmissionChallenge) : Bool :=
  challenge.consumingCommandId.isSome ∧ approval.challengeProofDigest = challenge.proofDigest ∧
    approval.binding = challenge.binding

/-- `putApproval`. -/
def putApproval (s : MemoryDecisionStore) (approval : Decision.Approval) :
    Except Thrown Unit × MemoryDecisionStore :=
  match s.challengesOf approval.binding.tenantId approval.challengeId with
  | [(_, challenge)] =>
      if approves approval challenge then
        if (s.approvals.get approval.approvalKey).any fun existing =>
            decide (existing ≠ approval) then
          (.error (kafError .KAF_STORAGE_CONCURRENCY_CONFLICT), s)
        else (.ok (), { s with approvals := s.approvals.set approval.approvalKey approval })
      else (.error (mismatch "approval_challenge_binding_mismatch"), s)
  | _ => (.error (mismatch "approval_challenge_binding_mismatch"), s)

/-- `claimApproval`. -/
def claimApproval (s : MemoryDecisionStore) (tenantId approvalId authorizationKey : String)
    (instant : DateTimeText) : Except Thrown Decision.ApprovalUseClaim × MemoryDecisionStore :=
  match s.approvalClaims.get (tenantId, approvalId) with
  | some prior =>
      if prior.authorizationKey ≠ authorizationKey then
        (.error (mismatch "approval_already_used"), s)
      else (.ok prior, s)
  | none =>
      match s.approvals.get (tenantId, approvalId) with
      | none => (.error (mismatch "approval_missing"), s)
      | some approval =>
          if approval.expiresAt.reached instant.toInstantText then
            (.error (mismatch "approval_expired"), s)
          else if (s.approvalAuthorizationKeys.get (tenantId, authorizationKey)).any fun prior =>
              decide (prior ≠ approvalId) then
            (.error (mismatch "approval_authorization_key_reused"), s)
          else
            -- the claim holds the parsed texts, the index the key as it was given
            match boundedText 256 approvalId, boundedText 512 authorizationKey,
              instant.parsed with
            | some parsedId, some parsedKey, some claimedAt =>
                (.ok ⟨parsedId, parsedKey, claimedAt⟩, { s with
                  approvalClaims :=
                    s.approvalClaims.set (tenantId, approvalId) ⟨parsedId, parsedKey, claimedAt⟩
                  approvalAuthorizationKeys :=
                    s.approvalAuthorizationKeys.set (tenantId, authorizationKey) approvalId })
            | _, _, _ => (.error refused, s)

/-- `putRejection`. -/
def putRejection (s : MemoryDecisionStore) (rejection : Rejection) :
    Except Thrown Unit × MemoryDecisionStore :=
  if (s.rejections.get rejection.gateKey).any fun existing => decide (existing ≠ rejection) then
    (.error (kafError .KAF_STORAGE_CONCURRENCY_CONFLICT), s)
  else (.ok (), { s with rejections := s.rejections.set rejection.gateKey rejection })

end MemoryDecisionStore

/-- A call that changes the decisions. -/
inductive DecisionCall where
  | putGateOnce (gate : Gate)
  | putChallenge (challenge : SubmissionChallenge)
  | consumeChallenge (tenantId challengeId commandId : String) (consumedAt : DateTimeText)
  | putApproval (approval : Decision.Approval)
  | claimApproval (tenantId approvalId authorizationKey : String) (instant : DateTimeText)
  | putRejection (rejection : Rejection)

/-- What a call leaves. -/
def DecisionCall.step (s : MemoryDecisionStore) : DecisionCall → MemoryDecisionStore
  | .putGateOnce gate => (s.putGateOnce gate).2
  | .putChallenge challenge => (s.putChallenge challenge).2
  | .consumeChallenge tenantId challengeId commandId consumedAt =>
      (s.consumeChallenge tenantId challengeId commandId consumedAt).2
  | .putApproval approval => (s.putApproval approval).2
  | .claimApproval tenantId approvalId authorizationKey instant =>
      (s.claimApproval tenantId approvalId authorizationKey instant).2
  | .putRejection rejection => (s.putRejection rejection).2

namespace MemoryDecisionStore

variable {s s' : MemoryDecisionStore}

/-! ### What the operations do -/

/-- The call consumes the challenge `x` under `k`, which is active and has not expired, and `y`
is what it becomes. -/
def Consumes (s : MemoryDecisionStore) (call : DecisionCall) (k : DecisionKey)
    (x y : SubmissionChallenge) : Prop :=
  ∃ commandId instant parsed consumedAt,
    call = .consumeChallenge x.binding.tenantId x.id commandId instant ∧
      s.challenges.get k = some x ∧ s.activeChallenges.get x.binding.gateKey = some k ∧
      x.consumingCommandId = none ∧ x.expiresAt.reached instant.toInstantText = false ∧
      boundedText 256 commandId = some parsed ∧ instant.parsed = some consumedAt ∧
      y = x.consumed parsed consumedAt

theorem mem_challengesOf {tenantId challengeId : String} {k : DecisionKey}
    {x : SubmissionChallenge} :
    (k, x) ∈ s.challengesOf tenantId challengeId ↔
      s.challenges.get k = some x ∧ x.binding.tenantId = tenantId ∧ x.id = challengeId := by
  simp only [challengesOf, List.mem_filter, decide_eq_true_eq, OrderedMap.get_eq_some_iff]

theorem putGateOnce_cases (s : MemoryDecisionStore) (gate : Gate) :
    (s.putGateOnce gate).2 = s ∨
      s.gates.get gate.gateKey = none ∧
        (s.putGateOnce gate).2 = { s with gates := s.gates.set gate.gateKey gate } := by
  unfold putGateOnce
  split
  · exact .inl rfl
  split
  · split <;> exact .inl rfl
  · exact .inr ⟨‹_›, rfl⟩

/-- A value under a key is none, or the one that is compared. -/
theorem agree_of_any {α : Type} [DecidableEq α] {o : Option α} {a : α}
    (h : ¬ (o.any fun existing => decide (existing ≠ a)) = true) : o = none ∨ o = some a := by
  cases o with
  | none => exact .inl rfl
  | some b =>
      refine .inr ?_
      simpa using h

theorem putChallenge_cases (s : MemoryDecisionStore) (c : SubmissionChallenge) :
    (s.putChallenge c).2 = s ∨
      (∀ k x, s.challenges.get k = some x → x.binding.tenantId = c.binding.tenantId →
        x.id = c.id → x.binding.runId = c.binding.runId) ∧
      (s.challenges.get c.challengeKey = none ∨ s.challenges.get c.challengeKey = some c) ∧
      (s.putChallenge c).2 = { s with
        challenges := s.challenges.set c.challengeKey c
        activeChallenges := s.activeChallenges.set c.binding.gateKey c.challengeKey } := by
  unfold putChallenge
  split
  · exact .inl rfl
  rename_i hrun
  split
  · exact .inl rfl
  rename_i hexisting
  refine .inr ⟨fun k x hx ht hid => ?_, agree_of_any hexisting, rfl⟩
  by_contra hne
  refine hrun (List.any_eq_true.mpr ⟨(k, x), mem_challengesOf.mpr ⟨hx, ht, hid⟩, ?_⟩)
  exact decide_eq_true hne

theorem consumeChallenge_cases (s : MemoryDecisionStore) (tenantId challengeId commandId : String)
    (instant : DateTimeText) :
    (s.consumeChallenge tenantId challengeId commandId instant).2 = s ∨
      ∃ k x y, Consumes s (.consumeChallenge tenantId challengeId commandId instant) k x y ∧
        (s.consumeChallenge tenantId challengeId commandId instant).2 =
          { s with challenges := s.challenges.set k y } := by
  unfold consumeChallenge
  split
  · rename_i k x hone
    obtain ⟨hx, rfl, rfl⟩ : s.challenges.get k = some x ∧ x.binding.tenantId = tenantId ∧
        x.id = challengeId := mem_challengesOf.mp (by simp [hone])
    split
    · exact .inl rfl
    rename_i hactive
    split
    · split <;> exact .inl rfl
    rename_i hunconsumed
    split
    · exact .inl rfl
    rename_i hunexpired
    split
    · rename_i parsed consumedAt hparsed hat
      exact .inr ⟨k, x, _, ⟨commandId, instant, parsed, consumedAt, rfl, hx, not_not.mp hactive,
        hunconsumed, by simpa using hunexpired, hparsed, hat, rfl⟩, rfl⟩
    · exact .inl rfl
  · exact .inl rfl

theorem putApproval_cases (s : MemoryDecisionStore) (a : Decision.Approval) :
    (s.putApproval a).2 = s ∨
      (∃ k x, s.challenges.get k = some x ∧ x.id = a.challengeId ∧
        x.consumingCommandId ≠ none ∧ x.proofDigest = a.challengeProofDigest ∧
        x.binding = a.binding) ∧
      (s.approvals.get a.approvalKey = none ∨ s.approvals.get a.approvalKey = some a) ∧
      (s.putApproval a).2 = { s with approvals := s.approvals.set a.approvalKey a } := by
  unfold putApproval
  split
  · rename_i k x hone
    obtain ⟨hx, -, hid⟩ : s.challenges.get k = some x ∧ x.binding.tenantId = a.binding.tenantId ∧
        x.id = a.challengeId := mem_challengesOf.mp (by simp [hone])
    split
    · rename_i happroves
      split
      · exact .inl rfl
      rename_i hexisting
      simp only [approves, Option.isSome_iff_ne_none, decide_eq_true_eq] at happroves
      obtain ⟨hconsumed, hproof, hbinding⟩ := happroves
      exact .inr ⟨⟨k, x, hx, hid, hconsumed, hproof.symm, hbinding.symm⟩,
        agree_of_any hexisting, rfl⟩
    · exact .inl rfl
  · exact .inl rfl

/-- **A claim** is there already, is refused, or is the first one of an approval. -/
theorem claimApproval_cases (s : MemoryDecisionStore) (t a key : String)
    (instant : DateTimeText) :
    (s.claimApproval t a key instant).2 = s ∨
      ∃ approval c, s.approvalClaims.get (t, a) = none ∧
        s.approvals.get (t, a) = some approval ∧
        (s.approvalAuthorizationKeys.get (t, key) = none ∨
          s.approvalAuthorizationKeys.get (t, key) = some a) ∧
        boundedText 256 a = some c.approvalId ∧ boundedText 512 key = some c.authorizationKey ∧
        (s.claimApproval t a key instant).2 = { s with
          approvalClaims := s.approvalClaims.set (t, a) c
          approvalAuthorizationKeys := s.approvalAuthorizationKeys.set (t, key) a } := by
  unfold claimApproval
  split
  · split <;> exact .inl rfl
  rename_i hnone
  split
  · exact .inl rfl
  rename_i approval happroval
  split
  · exact .inl rfl
  split
  · exact .inl rfl
  rename_i hkey
  split
  · rename_i parsedId parsedKey claimedAt hid hparsed hat
    exact .inr ⟨approval, ⟨parsedId, parsedKey, claimedAt⟩, hnone, happroval, agree_of_any hkey,
      hid, hparsed, rfl⟩
  · exact .inl rfl

theorem putRejection_cases (s : MemoryDecisionStore) (r : Rejection) :
    (s.putRejection r).2 = s ∨
      (s.rejections.get r.gateKey = none ∨ s.rejections.get r.gateKey = some r) ∧
      (s.putRejection r).2 = { s with rejections := s.rejections.set r.gateKey r } := by
  unfold putRejection
  split
  · exact .inl rfl
  · exact .inr ⟨agree_of_any ‹_›, rfl⟩

/-- The changes a call may make. -/
inductive Changes (s : MemoryDecisionStore) : DecisionCall → MemoryDecisionStore → Prop where
  | nothing {call : DecisionCall} : Changes s call s
  | gate {g : Gate} (hnew : s.gates.get g.gateKey = none) :
      Changes s (.putGateOnce g) { s with gates := s.gates.set g.gateKey g }
  | challenge {c : SubmissionChallenge}
      (hrun : ∀ k x, s.challenges.get k = some x → x.binding.tenantId = c.binding.tenantId →
        x.id = c.id → x.binding.runId = c.binding.runId)
      (hagree : s.challenges.get c.challengeKey = none ∨
        s.challenges.get c.challengeKey = some c) :
      Changes s (.putChallenge c) { s with
        challenges := s.challenges.set c.challengeKey c
        activeChallenges := s.activeChallenges.set c.binding.gateKey c.challengeKey }
  | consumption {call : DecisionCall} {k : DecisionKey} {x y : SubmissionChallenge}
      (hconsumes : Consumes s call k x y) :
      Changes s call { s with challenges := s.challenges.set k y }
  | approval {a : Decision.Approval}
      (habout : ∃ k x, s.challenges.get k = some x ∧ x.id = a.challengeId ∧
        x.consumingCommandId ≠ none ∧ x.proofDigest = a.challengeProofDigest ∧
        x.binding = a.binding)
      (hagree : s.approvals.get a.approvalKey = none ∨
        s.approvals.get a.approvalKey = some a) :
      Changes s (.putApproval a) { s with approvals := s.approvals.set a.approvalKey a }
  | claim {t a key : String} {instant : DateTimeText} {approval : Decision.Approval}
      {c : Decision.ApprovalUseClaim} (hnew : s.approvalClaims.get (t, a) = none)
      (happroval : s.approvals.get (t, a) = some approval)
      (hagree : s.approvalAuthorizationKeys.get (t, key) = none ∨
        s.approvalAuthorizationKeys.get (t, key) = some a)
      (hid : boundedText 256 a = some c.approvalId)
      (hkey : boundedText 512 key = some c.authorizationKey) :
      Changes s (.claimApproval t a key instant) { s with
        approvalClaims := s.approvalClaims.set (t, a) c
        approvalAuthorizationKeys := s.approvalAuthorizationKeys.set (t, key) a }
  | rejection {r : Rejection}
      (hagree : s.rejections.get r.gateKey = none ∨ s.rejections.get r.gateKey = some r) :
      Changes s (.putRejection r) { s with rejections := s.rejections.set r.gateKey r }

/-- **A call** makes one of the changes. -/
theorem changes (s : MemoryDecisionStore) (call : DecisionCall) :
    Changes s call (call.step s) := by
  cases call with
  | putGateOnce gate =>
      rcases s.putGateOnce_cases gate with h | ⟨hnew, h⟩ <;> rw [DecisionCall.step, h]
      · exact .nothing
      · exact .gate hnew
  | putChallenge c =>
      rcases s.putChallenge_cases c with h | ⟨hrun, hagree, h⟩ <;> rw [DecisionCall.step, h]
      · exact .nothing
      · exact .challenge hrun hagree
  | consumeChallenge t id commandId instant =>
      rcases s.consumeChallenge_cases t id commandId instant with h | ⟨k, x, y, hconsumes, h⟩ <;>
        rw [DecisionCall.step, h]
      · exact .nothing
      · exact .consumption hconsumes
  | putApproval a =>
      rcases s.putApproval_cases a with h | ⟨habout, hagree, h⟩ <;> rw [DecisionCall.step, h]
      · exact .nothing
      · exact .approval habout hagree
  | claimApproval t a key instant =>
      rcases s.claimApproval_cases t a key instant with
        h | ⟨approval, c, hnew, happroval, hagree, hid, hkey, h⟩ <;> rw [DecisionCall.step, h]
      · exact .nothing
      · exact .claim hnew happroval hagree hid hkey
  | putRejection r =>
      rcases s.putRejection_cases r with h | ⟨hagree, h⟩ <;> rw [DecisionCall.step, h]
      · exact .nothing
      · exact .rejection hagree

/-! ### The invariant -/

/-- The maps agree: a challenge and an approval are under their keys, a tenant's challenges have
different identities, an approval is about a consumed challenge, and a claim about an approval. -/
structure Coherent (s : MemoryDecisionStore) : Prop where
  challenge : ∀ k x, s.challenges.get k = some x → k = x.challengeKey
  unique : ∀ k k' x x', s.challenges.get k = some x → s.challenges.get k' = some x' →
    x.binding.tenantId = x'.binding.tenantId → x.id = x'.id →
    x.binding.runId = x'.binding.runId
  approval : ∀ k a, s.approvals.get k = some a → k = a.approvalKey ∧
    ∃ k' x, s.challenges.get k' = some x ∧ x.id = a.challengeId ∧
      x.consumingCommandId ≠ none ∧ x.proofDigest = a.challengeProofDigest ∧
      x.binding = a.binding
  claim : ∀ t a c, s.approvalClaims.get (t, a) = some c →
    c.approvalId = a ∧ ∃ approval, s.approvals.get (t, a) = some approval

theorem coherent_empty : Coherent empty where
  challenge k x h := by cases h
  unique k k' x x' h := by cases h
  approval k a h := by cases h
  claim t a c h := by cases h

/-- There is one challenge with the tenant and the identity of a stored one. -/
theorem Coherent.challengesOf_eq (h : Coherent s) {k : DecisionKey} {x : SubmissionChallenge}
    (hx : s.challenges.get k = some x) :
    s.challengesOf x.binding.tenantId x.id = [(k, x)] := by
  have hmem : (k, x) ∈ s.challengesOf x.binding.tenantId x.id :=
    mem_challengesOf.mpr ⟨hx, rfl, rfl⟩
  have hnodup : (s.challengesOf x.binding.tenantId x.id).Nodup :=
    (List.Nodup.of_map Prod.fst s.challenges.nodup).sublist List.filter_sublist
  refine List.perm_singleton.mp ((List.perm_ext_iff_of_nodup hnodup (List.nodup_singleton _)).mpr
    fun ⟨k', x'⟩ => ?_)
  rw [List.mem_singleton]
  constructor
  · intro hx'
    obtain ⟨hget, ht, hid⟩ := mem_challengesOf.mp hx'
    have hk : k' = k := by
      rw [h.challenge k' x' hget, h.challenge k x hx, SubmissionChallenge.challengeKey, ht, hid,
        h.unique k' k x' x hget hx ht hid, SubmissionChallenge.challengeKey]
    subst hk
    rw [Option.some.inj (hget.symm.trans hx)]
  · rintro ⟨⟩
    exact hmem

/-! ### The challenges -/

variable {call : DecisionCall} {k : DecisionKey} {x y : SubmissionChallenge}

/-- A stored challenge stays, or is consumed. -/
theorem Changes.challenge_kept (h : Changes s call s') (hx : s.challenges.get k = some x) :
    s'.challenges.get k = some x ∨
      ∃ y, Consumes s call k x y ∧ s'.challenges.get k = some y := by
  cases h with
  | nothing | gate | approval | claim | rejection => exact .inl hx
  | challenge _ hagree => exact .inl (OrderedMap.get_set_of_agree hagree hx)
  | consumption hconsumes =>
      -- the one that changes is the one that is consumed, since a key has one value
      rw [OrderedMap.get_set]
      split
      · rename_i hk
        subst hk
        obtain ⟨_, _, _, _, -, hx', -⟩ := id hconsumes
        obtain rfl := Option.some.inj (hx.symm.trans hx')
        exact .inr ⟨_, hconsumes, rfl⟩
      · exact .inl hx

/-- A consumed challenge stays as it is. -/
theorem Changes.consumed_kept (h : Changes s call s') (hx : s.challenges.get k = some x)
    (hconsumed : x.consumingCommandId ≠ none) : s'.challenges.get k = some x := by
  rcases h.challenge_kept hx with h | ⟨y, ⟨_, _, _, _, -, -, -, hnone, -⟩, -⟩
  · exact h
  · exact absurd hnone hconsumed

/-- A stored challenge was stored before, is put, or is consumed. -/
theorem Changes.challenge_origin (h : Changes s call s') (hy : s'.challenges.get k = some y) :
    s.challenges.get k = some y ∨ call = .putChallenge y ∧ k = y.challengeKey ∨
      ∃ x, Consumes s call k x y := by
  cases h with
  | nothing | gate | approval | claim | rejection => exact .inl hy
  | challenge _ _ =>
      rw [OrderedMap.get_set] at hy
      split at hy
      · rename_i hk
        obtain rfl := Option.some.inj hy
        exact .inr (.inl ⟨rfl, hk⟩)
      · exact .inl hy
  | consumption hconsumes =>
      rw [OrderedMap.get_set] at hy
      split at hy
      · rename_i hk
        obtain rfl := Option.some.inj hy
        exact .inr (.inr ⟨_, hk ▸ hconsumes⟩)
      · exact .inl hy

/-- A stored challenge was stored before with its key, or is put in the run of all challenges
of its tenant and identity. -/
theorem Changes.challenge_before (h : Changes s call s') (hy : s'.challenges.get k = some y) :
    (∃ x, s.challenges.get k = some x ∧ x.challengeKey = y.challengeKey) ∨
      call = .putChallenge y ∧ k = y.challengeKey ∧ ∀ k x, s.challenges.get k = some x →
        x.binding.tenantId = y.binding.tenantId → x.id = y.id →
        x.binding.runId = y.binding.runId := by
  rcases h.challenge_origin hy with hy' | ⟨rfl, hk⟩ | ⟨x, _, _, _, _, -, hx, -, -, -, -, -, rfl⟩
  · exact .inl ⟨y, hy', rfl⟩
  · cases h with
    | nothing => exact .inl ⟨y, hy, rfl⟩
    | challenge hrun _ => exact .inr ⟨rfl, hk, hrun⟩
    | consumption hconsumes => exact absurd hconsumes (by rintro ⟨_, _, _, _, h, -⟩; cases h)
  · exact .inl ⟨x, hx, rfl⟩

/-! ### One call keeps the invariant -/

theorem Coherent.unique_changes (h : Coherent s) (hs : Changes s call s')
    {k' : DecisionKey} {y' : SubmissionChallenge} (hy : s'.challenges.get k = some y)
    (hy' : s'.challenges.get k' = some y') (ht : y.binding.tenantId = y'.binding.tenantId)
    (hid : y.id = y'.id) : y.binding.runId = y'.binding.runId := by
  rcases hs.challenge_before hy with ⟨x, hx, hkey⟩ | ⟨hcall, -, hrun⟩ <;>
    rcases hs.challenge_before hy' with ⟨x', hx', hkey'⟩ | ⟨hcall', -, hrun'⟩
  -- both were there before, or one is put next to the other, or both are the one that is put
  · simp only [SubmissionChallenge.challengeKey, Prod.mk.injEq] at hkey hkey'
    rw [← hkey.2.1, ← hkey'.2.1]
    exact h.unique k k' x x' hx hx' (by rw [hkey.1, hkey'.1, ht]) (by rw [hkey.2.2, hkey'.2.2, hid])
  · simp only [SubmissionChallenge.challengeKey, Prod.mk.injEq] at hkey
    rw [← hkey.2.1]
    exact hrun' k x hx (by rw [hkey.1, ht]) (by rw [hkey.2.2, hid])
  · simp only [SubmissionChallenge.challengeKey, Prod.mk.injEq] at hkey'
    rw [← hkey'.2.1]
    exact (hrun k' x' hx' (by rw [hkey'.1, ht]) (by rw [hkey'.2.2, hid])).symm
  · rw [hcall] at hcall'
    cases hcall'
    rfl

/-- What an approval is about stays. -/
theorem Coherent.approval_kept (h : Coherent s) (hs : Changes s call s')
    {k : String × String} {a : Decision.Approval} (ha : s.approvals.get k = some a) :
    k = a.approvalKey ∧ ∃ k' x, s'.challenges.get k' = some x ∧ x.id = a.challengeId ∧
      x.consumingCommandId ≠ none ∧ x.proofDigest = a.challengeProofDigest ∧
      x.binding = a.binding := by
  obtain ⟨hk, k', x, hx, hid, hconsumed, habout⟩ := h.approval k a ha
  exact ⟨hk, k', x, hs.consumed_kept hx hconsumed, hid, hconsumed, habout⟩

/-- **One call.** -/
theorem Coherent.changes (h : Coherent s) (hs : Changes s call s') : Coherent s' where
  challenge k y hy := by
    rcases hs.challenge_before hy with ⟨x, hx, hkey⟩ | ⟨-, hk, -⟩
    · exact (h.challenge k x hx).trans hkey
    · exact hk
  unique k k' y y' hy hy' := h.unique_changes hs hy hy'
  approval k a ha := by
    cases id hs with
    | nothing | gate | challenge | consumption | claim | rejection => exact h.approval_kept hs ha
    | approval habout =>
        simp only [OrderedMap.get_set] at ha
        split at ha
        · rename_i hk
          obtain rfl := Option.some.inj ha
          exact ⟨hk, habout⟩
        · exact h.approval_kept hs ha
  claim t a c hc := by
    cases hs with
    | nothing | gate | challenge | consumption | rejection => exact h.claim t a c hc
    | approval _ hagree =>
        obtain ⟨hid, approval, happroval⟩ := h.claim t a c hc
        exact ⟨hid, approval, OrderedMap.get_set_of_agree hagree happroval⟩
    | @claim _ _ _ _ approval _ _ happroval _ hid =>
        simp only [OrderedMap.get_set] at hc
        split at hc
        · rename_i hk
          obtain ⟨rfl, rfl⟩ := Prod.mk.inj hk
          obtain rfl := Option.some.inj hc
          refine ⟨?_, approval, happroval⟩
          -- the identity of a stored approval is one its schema does not change
          have ha : a = approval.id := congrArg Prod.snd (h.approval _ approval happroval).1
          rw [ha, approval.id_parsed] at hid
          rw [ha, Option.some.inj hid]
        · exact h.claim t a c hc

/-! ### What calls keep, as long as nothing is rolled back -/

/-- Gates, approvals, claims and rejections stay, and so does a challenge, but for its
consumption: once consumed, it stays as it is. -/
structure Kept (s s' : MemoryDecisionStore) : Prop where
  gate : ∀ k x, s.gates.get k = some x → s'.gates.get k = some x
  challenge : ∀ k x, s.challenges.get k = some x → ∃ y, s'.challenges.get k = some y ∧
    (x.consumingCommandId ≠ none → y = x) ∧
    { y with consumingCommandId := x.consumingCommandId, consumedAt := x.consumedAt } = x
  approval : ∀ k x, s.approvals.get k = some x → s'.approvals.get k = some x
  claim : ∀ k x, s.approvalClaims.get k = some x → s'.approvalClaims.get k = some x
  rejection : ∀ k x, s.rejections.get k = some x → s'.rejections.get k = some x

theorem Kept.refl (s : MemoryDecisionStore) : Kept s s :=
  ⟨fun _ _ h => h, fun _ x h => ⟨x, h, fun _ => rfl, rfl⟩, fun _ _ h => h, fun _ _ h => h,
    fun _ _ h => h⟩

theorem Kept.trans {s'' : MemoryDecisionStore} (h : Kept s s') (h' : Kept s' s'') :
    Kept s s'' where
  gate k x hx := h'.gate k x (h.gate k x hx)
  challenge k x hx := by
    obtain ⟨y, hy, hsame, hyx⟩ := h.challenge k x hx
    obtain ⟨z, hz, hsame', hzy⟩ := h'.challenge k y hy
    refine ⟨z, hz, fun hconsumed => ?_, ?_⟩
    · obtain rfl := hsame hconsumed
      exact hsame' hconsumed
    · rw [← hyx, ← hzy]
  approval k x hx := h'.approval k x (h.approval k x hx)
  claim k x hx := h'.claim k x (h.claim k x hx)
  rejection k x hx := h'.rejection k x (h.rejection k x hx)

theorem Changes.kept (h : Changes s call s') : Kept s s' where
  gate k x hx := by
    cases h with
    | nothing | challenge | consumption | approval | claim | rejection => exact hx
    | gate hnew => exact OrderedMap.get_set_of_agree (.inl hnew) hx
  challenge k x hx := by
    rcases h.challenge_kept hx with hx' | ⟨y, ⟨_, _, _, _, -, -, -, hnone, -, -, -, rfl⟩, hy⟩
    · exact ⟨x, hx', fun _ => rfl, rfl⟩
    · exact ⟨_, hy, fun hconsumed => absurd hnone hconsumed, rfl⟩
  approval k x hx := by
    cases h with
    | nothing | gate | challenge | consumption | claim | rejection => exact hx
    | approval _ hagree => exact OrderedMap.get_set_of_agree hagree hx
  claim k x hx := by
    cases h with
    | nothing | gate | challenge | consumption | approval | rejection => exact hx
    | claim hnew => exact OrderedMap.get_set_of_agree (.inl hnew) hx
  rejection k x hx := by
    cases h with
    | nothing | gate | challenge | consumption | approval | claim => exact hx
    | rejection hagree => exact OrderedMap.get_set_of_agree hagree hx

/-! ### Where a challenge comes from -/

/-- **A stored challenge** was put as it is, or one of the calls has consumed it while it was
active and had not expired. -/
theorem challenge_origin (calls : List DecisionCall)
    (hy : (calls.foldl DecisionCall.step empty).challenges.get k = some y) :
    .putChallenge y ∈ calls ∨ ∃ pre call post x, calls = pre ++ call :: post ∧
      Consumes (pre.foldl DecisionCall.step empty) call k x y := by
  -- the calls are taken from the last one backwards, up to the one that wrote the challenge
  induction calls using List.reverseRecOn with
  | nil => cases hy
  | append_singleton calls call ih =>
    rw [List.foldl_append] at hy
    rcases (changes _ call).challenge_origin hy with hy' | ⟨rfl, -⟩ | ⟨x, hx⟩
    · rcases ih hy' with hput | ⟨pre, c, post, x, rfl, hx⟩
      · exact .inl (List.mem_append_left _ hput)
      · exact .inr ⟨pre, c, post ++ [call], x, by simp, hx⟩
    · exact .inl (by simp)
    · exact .inr ⟨calls, call, [], x, rfl, hx⟩

/-! ### The index of the authorization keys -/

/-- The claims are in the index of the authorization keys. -/
def Indexed (s : MemoryDecisionStore) : Prop :=
  ∀ t a c, s.approvalClaims.get (t, a) = some c →
    s.approvalAuthorizationKeys.get (t, c.authorizationKey) = some a

/-- The authorization key of a claim has no white space around it. -/
def DecisionCall.Trimmed (call : DecisionCall) : Prop :=
  ∀ t a key instant, call = .claimApproval t a key instant → trim key = key

theorem Indexed.changes (h : Indexed s) (hs : Changes s call s')
    (htrim : DecisionCall.Trimmed call) : Indexed s' := by
  intro t a c hc
  cases hs with
  | nothing | gate | challenge | consumption | approval | rejection => exact h t a c hc
  | claim _ _ hagree _ hkey =>
      simp only [OrderedMap.get_set] at hc
      split at hc
      · rename_i hk
        obtain ⟨rfl, rfl⟩ := Prod.mk.inj hk
        obtain rfl := Option.some.inj hc
        -- the key in the claim is trimmed, the one in the index is as it was given
        rw [boundedText_eq_some hkey, htrim _ _ _ _ rfl]
        exact OrderedMap.get_set_self _ _ _
      · exact OrderedMap.get_set_of_agree hagree (h t a c hc)

theorem indexed_foldl (calls : List DecisionCall)
    (htrim : ∀ call ∈ calls, DecisionCall.Trimmed call) :
    Indexed (calls.foldl DecisionCall.step empty) := by
  induction calls using List.reverseRecOn with
  | nil => exact fun t a c hc => by cases hc
  | append_singleton calls call ih =>
    rw [List.foldl_append]
    exact (ih fun c hc => htrim c (List.mem_append_left _ hc)).changes (changes _ call)
      (htrim call (by simp))

/-! ### Every run of calls -/

/-- The store after a sequence of calls with snapshots. -/
def after (calls : List (SnapshotCall DecisionCall)) : MemoryDecisionStore :=
  (Snapshotted.run DecisionCall.step false empty calls).live

theorem after_coherent (calls : List (SnapshotCall DecisionCall)) : Coherent (after calls) :=
  Snapshotted.run_invariant coherent_empty (fun s call h => h.changes (s.changes call)) calls

/-- A repeated claim. -/
theorem claimApproval_of_claimed {t a : String} {c : Decision.ApprovalUseClaim}
    (hc : s.approvalClaims.get (t, a) = some c) (key : String) (instant : DateTimeText) :
    s.claimApproval t a key instant =
      (if key = c.authorizationKey then .ok c else .error (mismatch "approval_already_used"),
        s) := by
  unfold claimApproval
  rw [hc]
  by_cases hkey : key = c.authorizationKey
  · simp [hkey]
  · simp [hkey, Ne.symm hkey]

/-- **Human decisions are used once**: in every state, and along the calls it is the state of,
which are those that were not rolled back. -/
theorem decisions_used_once (calls : List (SnapshotCall DecisionCall)) :
    (∀ k a, (after calls).approvals.get k = some a → k = a.approvalKey ∧
      ∃ k' x, (after calls).challengesOf a.binding.tenantId a.challengeId = [(k', x)] ∧
        x.consumingCommandId ≠ none ∧ x.binding = a.binding ∧
        x.proofDigest = a.challengeProofDigest) ∧
    (∀ t a c, (after calls).approvalClaims.get (t, a) = some c →
      c.approvalId = a ∧ (∃ x, (after calls).approvals.get (t, a) = some x) ∧
      ∀ key instant, (after calls).claimApproval t a key instant =
        (if key = c.authorizationKey then .ok c
          else .error (mismatch "approval_already_used"), after calls)) ∧
    ∃ ops : List DecisionCall, ops.Sublist (Snapshotted.operations calls) ∧
      ops.foldl DecisionCall.step empty = after calls ∧
      (∀ pre post, ops = pre ++ post → Kept (pre.foldl DecisionCall.step empty) (after calls)) ∧
      (∀ k y, (after calls).challenges.get k = some y → y.consumingCommandId ≠ none →
        .putChallenge y ∈ ops ∨ ∃ pre call post x, ops = pre ++ call :: post ∧
          Consumes (pre.foldl DecisionCall.step empty) call k x y) ∧
      ((∀ call ∈ ops, DecisionCall.Trimmed call) →
        ∀ t a a' c c', (after calls).approvalClaims.get (t, a) = some c →
          (after calls).approvalClaims.get (t, a') = some c' →
          c.authorizationKey = c'.authorizationKey → a = a') := by
  have h := after_coherent calls
  refine ⟨fun k a ha => ?_, fun t a c hc => ?_, ?_⟩
  · obtain ⟨hk, k', x, hx, hid, hconsumed, hproof, hbinding⟩ := h.approval k a ha
    refine ⟨hk, k', x, ?_, hconsumed, hbinding, hproof⟩
    rw [← hid, ← hbinding]
    exact h.challengesOf_eq hx
  · obtain ⟨hid, happroval⟩ := h.claim t a c hc
    exact ⟨hid, happroval, claimApproval_of_claimed hc⟩
  · obtain ⟨ops, hops, hafter, hkept⟩ := Snapshotted.run_advances false Kept.refl Kept.trans
      (fun s call => (s.changes call).kept) calls
    refine ⟨ops, hops, hafter, hkept, fun k y hy _ => ?_,
      fun htrim t a a' c c' hc hc' hkey => ?_⟩
    · rw [after, ← hafter] at hy
      exact challenge_origin ops hy
    · have hindexed : Indexed (after calls) := by
        rw [after, ← hafter]
        exact indexed_foldl ops htrim
      have ha := hindexed t a c hc
      rw [hkey, hindexed t a' c' hc'] at ha
      exact (Option.some.inj ha).symm

section Witness

/-- What is to be decided. -/
def proposal : ProposedEffectBinding where
  tenantId := "tenant"
  principal := ⟨.user, "principal"⟩
  runId := "run"
  stepId := "step"
  decisionId := "decision"
  workOrderBindingDigest := "binding"
  executionDefinition := .agent "agent" "1" "definition"
  executionDefinitionDigest := "definition"
  toolId := "mail.send@1"
  toolVersion := "1"
  toolRegistrationDigest := "tool"
  argumentsDigest := "arguments"
  targetDigest := "target"
  contentDigest := none
  previewDigest := "preview"
  purpose := ⟨"purpose", "1"⟩
  policyRegistrationDigest := "policy"

/-- A challenge of one minute. -/
def oneMinute : SubmissionChallenge where
  id := "challenge"
  issuerId := "issuer"
  proofDigest := "proof"
  binding := proposal
  requiredAuthenticationStrength := .user_presence
  issuedAt := ⟨"1970-01-01T00:00:00.000Z", 0⟩
  expiresAt := ⟨"1970-01-01T00:01:00.000Z", 60000⟩
  consumingCommandId := none
  consumedAt := none

/-- The first second. -/
def firstSecond : DateTimeText where
  text := "1970-01-01T00:00:01.000Z"
  milliseconds := some 1000
  parsed := some ⟨"1970-01-01T00:00:01.000Z", 1000⟩
  parsed_eq := by simp

/-- An approval by the challenge. -/
def approved (id : String) (h : boundedText 256 id = some id) : Decision.Approval where
  id := id
  id_parsed := h
  issuerId := "issuer"
  challengeId := "challenge"
  challengeProofDigest := "proof"
  binding := proposal
  approvedBy := ⟨.user, "approver"⟩
  authenticationStrength := .user_presence
  createdAt := ⟨"1970-01-01T00:00:01.000Z", 1000⟩
  expiresAt := ⟨"1970-01-01T00:01:00.000Z", 60000⟩

/-- The calls that consume the challenge and store two approvals by it. -/
def twoApprovals : List (SnapshotCall DecisionCall) :=
  [.operate (.putChallenge oneMinute),
    .operate (.consumeChallenge "tenant" "challenge" "command" firstSecond),
    .operate (.putApproval (approved "one" rfl)), .operate (.putApproval (approved "two" rfl))]

/-- A restore makes a consumed challenge one that is not, a challenge may be put as a consumed
one, and two keys that differ in white space are one key of two claims. -/
theorem decisions_not_used_once :
    (¬ ∀ (pre mid : List (SnapshotCall DecisionCall)) (k : DecisionKey) (x : SubmissionChallenge),
      (after pre).challenges.get k = some x → x.consumingCommandId ≠ none →
      ∃ y, (after (pre ++ mid)).challenges.get k = some y ∧ y.consumingCommandId ≠ none) ∧
    (¬ ∀ (calls : List DecisionCall) (k : DecisionKey) (y : SubmissionChallenge),
      (after (calls.map .operate)).challenges.get k = some y → y.consumingCommandId ≠ none →
      ∃ pre call post x, calls = pre ++ call :: post ∧
        Consumes (after (pre.map .operate)) call k x y) ∧
    (¬ ∀ (calls : List (SnapshotCall DecisionCall)) (t a a' : String)
      (c c' : Decision.ApprovalUseClaim),
      (after calls).approvalClaims.get (t, a) = some c →
      (after calls).approvalClaims.get (t, a') = some c' →
      c.authorizationKey = c'.authorizationKey → a = a') := by
  refine ⟨fun h => ?_, fun h => ?_, fun h => ?_⟩
  · obtain ⟨y, hy, hconsumed⟩ := h
      [.operate (.putChallenge oneMinute), .snapshot,
        .operate (.consumeChallenge "tenant" "challenge" "command" firstSecond)]
      [.restore 0] ("tenant", "run", "challenge") _ rfl (by decide)
    obtain rfl : oneMinute = y := Option.some.inj hy
    exact hconsumed rfl
  · obtain ⟨pre, call, post, x, hcalls, commandId, instant, _, _, rfl, -⟩ := h
      [.putChallenge (oneMinute.consumed "command" ⟨"1970-01-01T00:00:01.000Z", 1000⟩)]
      ("tenant", "run", "challenge") _ rfl (by decide)
    rcases pre with - | ⟨c, pre⟩
    · cases hcalls
    · cases pre <;> cases hcalls
  · have := h (twoApprovals ++ [.operate (.claimApproval "tenant" "one" " key" firstSecond),
      .operate (.claimApproval "tenant" "two" "key" firstSecond)]) "tenant" "one" "two"
      ⟨"one", "key", ⟨"1970-01-01T00:00:01.000Z", 1000⟩⟩
      ⟨"two", "key", ⟨"1970-01-01T00:00:01.000Z", 1000⟩⟩ rfl rfl rfl
    exact absurd this (by decide)

end Witness

end MemoryDecisionStore

end Pactmark
