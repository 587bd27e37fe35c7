import Pactmark.Durable.Runs
import Pactmark.Stores.Decisions

/-!
# Stores — human decisions in Postgres

`store-postgres/src/aggregate-writes.ts` from `putDecisionGate` to `claimApproval`, with the tables
of the migrations, beside the memory store.  Every call is one transaction, and one that throws
leaves the tables as they were.  A table is a map from the columns its rows are selected by; its
other unique constraints are checked where a row is inserted or updated.

Both stores are driven by the same calls, each in the transaction of the tenant it is about.

* `Alike`: the tables hold what the maps hold, but for the active challenges.
* `Settles`: a call the stores answer alike leaves them alike, and when they do.
* `decision_stores_agree_iff`: the exact condition, after any run whose calls met it.
-/

namespace Pactmark

open Durable Decision

/-! ### The tables -/

/-- A row of `pactmark_decision_challenges`.  The column holds the text that the caller gave. -/
structure ChallengeRow where
  challenge : SubmissionChallenge
  consumingCommandId : Option String

/-- A row of `pactmark_approval_use_claims`, with the text that `claimed_at` reads back as. -/
structure UseClaimRow where
  authorizationKey : String
  claimedAt : String

/-- The tables of the decisions. -/
structure PostgresDecisions where
  gates : OrderedMap DecisionKey Gate
  challenges : OrderedMap (String × String) ChallengeRow
  approvals : OrderedMap (String × String) Decision.Approval
  useClaims : OrderedMap (String × String) UseClaimRow
  decisions : OrderedMap DecisionKey Rejection

/-- An `ApprovalUseClaim` that no schema has parsed. -/
structure ClaimTexts where
  approvalId : String
  authorizationKey : String
  claimedAt : String
  deriving DecidableEq, Repr

/-- The texts of a claim. -/
def Decision.ApprovalUseClaim.texts (c : Decision.ApprovalUseClaim) : ClaimTexts :=
  ⟨c.approvalId, c.authorizationKey, c.claimedAt.text⟩

namespace PostgresDecisions

/-- Empty tables. -/
def empty : PostgresDecisions :=
  ⟨.empty, .empty, .empty, .empty, .empty⟩

/-- What a statement throws that violates a constraint or casts a text that is no instant. -/
def databaseError : Thrown :=
  .host "DatabaseError" true

/-- The text that a `timestamptz` column of a text reads back as, if the cast accepts the text. -/
abbrev Cast := String → Option String

variable (timestamptz : Cast) (s : PostgresDecisions)

/-- `putDecisionGate`. -/
def putDecisionGate (tenantId : String) (gate : Gate) :
    Except Thrown Unit × PostgresDecisions :=
  if gate.tenantId ≠ tenantId ∨ gate.binding.tenantId ≠ tenantId ∨
      gate.runId ≠ gate.binding.runId ∨ gate.decisionId ≠ gate.binding.decisionId then
    (.error (conflict "cross_tenant_decision_gate"), s)
  else
    match s.gates.get (tenantId, gate.runId, gate.decisionId) with
    | some stored =>
        if stored = gate then (.ok (), s) else (.error (conflict "decision_gate_changed"), s)
    | none =>
        if timestamptz gate.createdAt.text = none then (.error databaseError, s)
        else
          (.ok (), { s with gates := s.gates.set (tenantId, gate.runId, gate.decisionId) gate })

/-- `putDecisionChallenge`. -/
def putDecisionChallenge (tenantId : String) (challenge : SubmissionChallenge) :
    Except Thrown Unit × PostgresDecisions :=
  if challenge.binding.tenantId ≠ tenantId then
    (.error (conflict "cross_tenant_decision_challenge"), s)
  else if challenge.consumingCommandId ≠ none ∨ challenge.consumedAt ≠ none then
    (.error (conflict "decision_challenge_already_consumed_at_issue"), s)
  else
    match s.challenges.get (tenantId, challenge.id) with
    | some row =>
        if row.challenge = challenge then (.ok (), s)
        else (.error (conflict "decision_challenge_changed"), s)
    | none =>
        if timestamptz challenge.expiresAt.text = none then (.error databaseError, s)
        else
          (.ok (), { s with
            challenges := s.challenges.set (tenantId, challenge.id) ⟨challenge, none⟩ })

/-- Another challenge of the tenant has the command in the column of
`pactmark_decision_challenge_consumption`. -/
def commandUsed (tenantId challengeId commandId : String) : Bool :=
  s.challenges.entries.any fun x =>
    x.1 ≠ (tenantId, challengeId) ∧ x.1.1 = tenantId ∧ x.2.consumingCommandId = some commandId

/-- `consumeDecisionChallenge`. -/
def consumeDecisionChallenge (tenantId challengeId commandId : String)
    (consumedAt : DateTimeText) : Except Thrown Unit × PostgresDecisions :=
  match s.challenges.get (tenantId, challengeId) with
  | none => (.error (kafError .KAF_STORAGE_NOT_FOUND), s)
  | some row =>
      if row.challenge.binding.tenantId ≠ tenantId then
        (.error (conflict "cross_tenant_decision_challenge"), s)
      else
        match row.challenge.consumingCommandId with
        | some consumingCommandId =>
            if consumingCommandId = commandId then (.ok (), s)
            else (.error (MemoryDecisionStore.mismatch "decision_challenge_used"), s)
        | none =>
            if row.challenge.expiresAt.reached consumedAt.toInstantText then
              (.error (MemoryDecisionStore.mismatch "decision_challenge_expired"), s)
            else
              match boundedText 256 commandId, consumedAt.parsed with
              | some parsedId, some parsedAt =>
                  if timestamptz consumedAt.text = none ∨
                      s.commandUsed tenantId challengeId commandId then
                    (.error databaseError, s)
                  else
                    (.ok (), { s with
                      challenges := s.challenges.set (tenantId, challengeId)
                        ⟨row.challenge.consumed parsedId parsedAt, some commandId⟩ })
              | _, _ => (.error MemoryDecisionStore.refused, s)

/-- An approval of the same decision is stored: `UNIQUE (tenant_id,run_id,decision_id)`. -/
def approved (binding : ProposedEffectBinding) : Bool :=
  s.approvals.entries.any fun x => x.2.binding.gateKey = binding.gateKey

/-- `putApproval`. -/
def putApproval (tenantId : String) (approval : Decision.Approval) :
    Except Thrown Unit × PostgresDecisions :=
  if approval.binding.tenantId ≠ tenantId then (.error (conflict "cross_tenant_approval"), s)
  else
    match s.challenges.get (tenantId, approval.challengeId) with
    | none => (.error (MemoryDecisionStore.mismatch "approval_challenge_missing"), s)
    | some row =>
        if ¬ MemoryDecisionStore.approves approval row.challenge then
          (.error (MemoryDecisionStore.mismatch "approval_challenge_binding_mismatch"), s)
        else
          match s.approvals.get (tenantId, approval.id) with
          | some stored =>
              if stored = approval then (.ok (), s)
              else (.error (conflict "approval_changed"), s)
          | none =>
              if timestamptz approval.expiresAt.text = none ∨ s.approved approval.binding then
                (.error databaseError, s)
              else
                (.ok (), { s with approvals := s.approvals.set (tenantId, approval.id) approval })

/-- A rejection by the same challenge is stored: `UNIQUE (tenant_id,run_id,challenge_id)`. -/
def rejectedBy (tenantId : String) (rejection : Rejection) : Bool :=
  s.decisions.entries.any fun x =>
    x.1.1 = tenantId ∧ x.1.2.1 = rejection.runId ∧ x.2.challengeId = rejection.challengeId

/-- `putDecisionRejection`. -/
def putDecisionRejection (tenantId : String) (rejection : Rejection) :
    Except Thrown Unit × PostgresDecisions :=
  if rejection.tenantId ≠ tenantId ∨ rejection.binding.tenantId ≠ tenantId then
    (.error (conflict "cross_tenant_decision_rejection"), s)
  -- `ON CONFLICT (tenant_id,run_id,decision_id) DO NOTHING`
  else if s.decisions.has (tenantId, rejection.runId, rejection.decisionId) then (.ok (), s)
  else if s.rejectedBy tenantId rejection then (.error databaseError, s)
  else
    (.ok (), { s with
      decisions :=
        s.decisions.set (tenantId, rejection.runId, rejection.decisionId) rejection })

/-- A claim has the authorization key: `UNIQUE (tenant_id,authorization_key)`. -/
def keyUsed (tenantId authorizationKey : String) : Bool :=
  s.useClaims.entries.any fun x =>
    x.1.1 = tenantId ∧ x.2.authorizationKey = authorizationKey

/-- `claimApproval`. -/
def claimApproval (tenantId approvalId authorizationKey : String) (instant : DateTimeText) :
    Except Thrown ClaimTexts × PostgresDecisions :=
  match s.useClaims.get (tenantId, approvalId) with
  | some prior =>
      if prior.authorizationKey ≠ authorizationKey then
        (.error (MemoryDecisionStore.mismatch "approval_already_used"), s)
      else (.ok ⟨approvalId, authorizationKey, prior.claimedAt⟩, s)
  | none =>
      match s.approvals.get (tenantId, approvalId) with
      | none => (.error (MemoryDecisionStore.mismatch "approval_missing"), s)
      | some approval =>
          if approval.expiresAt.reached instant.toInstantText then
            (.error (MemoryDecisionStore.mismatch "approval_expired"), s)
          else
            match timestamptz instant.text with
            | none => (.error databaseError, s)
            | some claimedAt =>
                if s.keyUsed tenantId authorizationKey then (.error databaseError, s)
                else
                  -- the claim that is returned is the one that was asked for
                  (.ok ⟨approvalId, authorizationKey, instant.text⟩, { s with
                    useClaims :=
                      s.useClaims.set (tenantId, approvalId) ⟨authorizationKey, claimedAt⟩ })

end PostgresDecisions

/-! ### Both stores -/

/-- The two stores, driven by the same calls. -/
structure DecisionStores where
  memory : MemoryDecisionStore
  postgres : PostgresDecisions

namespace DecisionStores

open PostgresDecisions (Cast)

/-- What an accepted call gives its caller. -/
def answer {α β : Type} (result : Except Thrown α) (f : α → Option β) : Option (Option β) :=
  result.toOption.map f

/-- The answer of the memory store to a call, if it accepts it. -/
def memoryAnswer (s : MemoryDecisionStore) : DecisionCall → Option (Option ClaimTexts)
  | .putGateOnce gate => answer (s.putGateOnce gate).1 fun _ => none
  | .putChallenge challenge => answer (s.putChallenge challenge).1 fun _ => none
  | .consumeChallenge tenantId challengeId commandId consumedAt =>
      answer (s.consumeChallenge tenantId challengeId commandId consumedAt).1 fun _ => none
  | .putApproval approval => answer (s.putApproval approval).1 fun _ => none
  | .claimApproval tenantId approvalId authorizationKey instant =>
      answer (s.claimApproval tenantId approvalId authorizationKey instant).1
        fun claim => some claim.texts
  | .putRejection rejection => answer (s.putRejection rejection).1 fun _ => none

variable (timestamptz : Cast)

/-- The answer of Postgres to a call, if it accepts it. -/
def postgresAnswer (s : PostgresDecisions) : DecisionCall → Option (Option ClaimTexts)
  | .putGateOnce gate =>
      answer (s.putDecisionGate timestamptz gate.binding.tenantId gate).1 fun _ => none
  | .putChallenge challenge =>
      answer (s.putDecisionChallenge timestamptz challenge.binding.tenantId challenge).1
        fun _ => none
  | .consumeChallenge tenantId challengeId commandId consumedAt =>
      answer (s.consumeDecisionChallenge timestamptz tenantId challengeId commandId consumedAt).1
        fun _ => none
  | .putApproval approval =>
      answer (s.putApproval timestamptz approval.binding.tenantId approval).1 fun _ => none
  | .claimApproval tenantId approvalId authorizationKey instant =>
      answer (s.claimApproval timestamptz tenantId approvalId authorizationKey instant).1 some
  | .putRejection rejection =>
      answer (s.putDecisionRejection rejection.binding.tenantId rejection).1 fun _ => none

/-- What a call leaves in Postgres. -/
def postgresStep (s : PostgresDecisions) : DecisionCall → PostgresDecisions
  | .putGateOnce gate => (s.putDecisionGate timestamptz gate.binding.tenantId gate).2
  | .putChallenge challenge =>
      (s.putDecisionChallenge timestamptz challenge.binding.tenantId challenge).2
  | .consumeChallenge tenantId challengeId commandId consumedAt =>
      (s.consumeDecisionChallenge timestamptz tenantId challengeId commandId consumedAt).2
  | .putApproval approval => (s.putApproval timestamptz approval.binding.tenantId approval).2
  | .claimApproval tenantId approvalId authorizationKey instant =>
      (s.claimApproval timestamptz tenantId approvalId authorizationKey instant).2
  | .putRejection rejection =>
      (s.putDecisionRejection rejection.binding.tenantId rejection).2

/-- Empty stores. -/
def start : DecisionStores :=
  ⟨.empty, .empty⟩

/-- What a call leaves. -/
def step (q : DecisionStores) (call : DecisionCall) : DecisionStores :=
  ⟨call.step q.memory, postgresStep timestamptz q.postgres call⟩

/-- What a sequence of calls leaves. -/
def after (calls : List DecisionCall) : DecisionStores :=
  calls.foldl (step timestamptz) start

/-- **What is claimed of a call**: both stores accept it or neither does, and they give the same
answer. -/
def Agrees (q : DecisionStores) (call : DecisionCall) : Prop :=
  memoryAnswer q.memory call = postgresAnswer timestamptz q.postgres call

/-- The challenge is the one that its decision asks for. -/
def Active (s : MemoryDecisionStore) (x : SubmissionChallenge) : Prop :=
  s.activeChallenges.get x.binding.gateKey = some x.challengeKey

/-- **The condition** on a call.  A stored challenge and a stored approval are those of Postgres. -/
def Meets (q : DecisionStores) : DecisionCall → Prop
  | .putGateOnce gate =>
      gate.gateKey = gate.binding.gateKey → q.postgres.gates.get gate.gateKey = none →
        timestamptz gate.createdAt.text ≠ none
  | .putChallenge challenge =>
      match q.postgres.challenges.get (challenge.binding.tenantId, challenge.id) with
      | some row => row.challenge = challenge →
          challenge.consumingCommandId = none ∧ challenge.consumedAt = none
      | none => challenge.consumingCommandId = none ∧ challenge.consumedAt = none ∧
          timestamptz challenge.expiresAt.text ≠ none
  | .consumeChallenge tenantId challengeId commandId consumedAt =>
      ∀ row, q.postgres.challenges.get (tenantId, challengeId) = some row →
        match row.challenge.consumingCommandId with
        | some consumingCommandId =>
            consumingCommandId = commandId → Active q.memory row.challenge
        | none =>
            row.challenge.expiresAt.reached consumedAt.toInstantText = false →
            boundedText 256 commandId ≠ none → consumedAt.parsed ≠ none →
              (Active q.memory row.challenge ↔ timestamptz consumedAt.text ≠ none ∧
                q.postgres.commandUsed tenantId challengeId commandId = false)
  | .putApproval approval =>
      ∀ row, q.postgres.challenges.get (approval.binding.tenantId, approval.challengeId) =
          some row →
        MemoryDecisionStore.approves approval row.challenge = true →
        q.postgres.approvals.get approval.approvalKey = none →
          timestamptz approval.expiresAt.text ≠ none ∧
            q.postgres.approved approval.binding = false
  | .claimApproval tenantId approvalId authorizationKey instant =>
      match q.memory.approvalClaims.get (tenantId, approvalId) with
      | some claim => claim.authorizationKey = authorizationKey →
          timestamptz claim.claimedAt.text = some claim.claimedAt.text
      | none =>
          ∀ approval, q.postgres.approvals.get (tenantId, approvalId) = some approval →
            approval.expiresAt.reached instant.toInstantText = false →
            q.postgres.keyUsed tenantId authorizationKey = false →
              if boundedText 512 authorizationKey ≠ none ∧ instant.parsed ≠ none then
                timestamptz instant.text ≠ none ∧ trim authorizationKey = authorizationKey
              else timestamptz instant.text = none
  | .putRejection rejection =>
      match q.postgres.decisions.get rejection.gateKey with
      | some stored => stored = rejection ∨ rejection.tenantId ≠ rejection.binding.tenantId
      | none => rejection.tenantId = rejection.binding.tenantId ∧
          q.postgres.rejectedBy rejection.tenantId rejection = false

/-! ### What the stores share -/

/-- **The tables hold what the maps hold.**  Nothing in the tables says which challenge of a
decision is active. -/
structure Alike (m : MemoryDecisionStore) (p : PostgresDecisions) : Prop where
  gate : ∀ k, p.gates.get k = m.gates.get k
  challenge : ∀ t id row, p.challenges.get (t, id) = some row →
    m.challenges.get row.challenge.challengeKey = some row.challenge ∧
      row.challenge.binding.tenantId = t ∧ row.challenge.id = id
  row : ∀ k x, m.challenges.get k = some x →
    ∃ row, p.challenges.get (x.binding.tenantId, x.id) = some row ∧ row.challenge = x
  approval : ∀ k, p.approvals.get k = m.approvals.get k
  claim : ∀ k, (p.useClaims.get k).map (fun row => (row.authorizationKey, some row.claimedAt)) =
    (m.approvalClaims.get k).map fun c => (c.authorizationKey, timestamptz c.claimedAt.text)
  key : ∀ t key a, m.approvalAuthorizationKeys.get (t, key) = some a ↔
    ∃ row, p.useClaims.get (t, a) = some row ∧ row.authorizationKey = key
  rejection : ∀ k, p.decisions.get k = m.rejections.get k
  tenant : ∀ k r, p.decisions.get k = some r → r.tenantId = r.binding.tenantId

/-- The stores are alike, and the maps of the memory store agree. -/
structure Related (q : DecisionStores) : Prop where
  coherent : MemoryDecisionStore.Coherent q.memory
  alike : Alike timestamptz q.memory q.postgres

theorem related_start : Related timestamptz start where
  coherent := MemoryDecisionStore.coherent_empty
  alike :=
    { gate := fun _ => rfl
      challenge := fun _ _ _ h => by cases h
      row := fun _ _ h => by cases h
      approval := fun _ => rfl
      claim := fun _ => rfl
      key := fun _ _ _ => ⟨(by cases ·), fun h => by obtain ⟨_, h, _⟩ := h; cases h⟩
      rejection := fun _ => rfl
      tenant := fun _ _ h => by cases h }

variable {timestamptz} {q : DecisionStores}

theorem Related.challengesOf_none (h : Related timestamptz q) {t id : String}
    (hnone : q.postgres.challenges.get (t, id) = none) : q.memory.challengesOf t id = [] := by
  refine List.eq_nil_iff_forall_not_mem.mpr fun ⟨k, x⟩ hx => ?_
  obtain ⟨hget, rfl, rfl⟩ := MemoryDecisionStore.mem_challengesOf.mp hx
  obtain ⟨row, hrow, -⟩ := h.alike.row k x hget
  rw [hrow] at hnone
  cases hnone

theorem Related.challengesOf_some (h : Related timestamptz q) {t id : String}
    {row : ChallengeRow} (hrow : q.postgres.challenges.get (t, id) = some row) :
    q.memory.challengesOf t id = [(row.challenge.challengeKey, row.challenge)] := by
  obtain ⟨hget, rfl, rfl⟩ := h.alike.challenge t id row hrow
  exact h.coherent.challengesOf_eq hget

theorem Related.challenge_none (h : Related timestamptz q) {c : SubmissionChallenge}
    (hnone : q.postgres.challenges.get (c.binding.tenantId, c.id) = none) :
    q.memory.challenges.get c.challengeKey = none := by
  refine Option.eq_none_iff_forall_ne_some.mpr fun x hx => ?_
  have hkey := h.coherent.challenge _ x hx
  simp only [SubmissionChallenge.challengeKey, Prod.mk.injEq] at hkey
  obtain ⟨row, hrow, -⟩ := h.alike.row _ x hx
  rw [← hkey.1, ← hkey.2.2, hnone] at hrow
  cases hrow

/-! ### One call -/

section Settles

variable {α β : Type} {f : α → Option ClaimTexts} {g : β → Option ClaimTexts} {meets : Prop}
  {m m' : MemoryDecisionStore} {p p' : PostgresDecisions}

/-- The answers are the same exactly where the condition is met, and then the stores are alike. -/
structure Settles (timestamptz : Cast) (rm : Except Thrown α × MemoryDecisionStore)
    (rp : Except Thrown β × PostgresDecisions) (f : α → Option ClaimTexts)
    (g : β → Option ClaimTexts) (meets : Prop) : Prop where
  agrees_iff : answer rm.1 f = answer rp.1 g ↔ meets
  alike : meets → Alike timestamptz rm.2 rp.2

theorem settles_throw (halike : Alike timestamptz m p) (hmeets : meets) (e e' : Thrown) :
    Settles timestamptz (.error e, m) (.error e', p) f g meets :=
  ⟨⟨fun _ => hmeets, fun _ => rfl⟩, fun _ => halike⟩

theorem settles_accept {a : α} {b : β} (hanswer : f a = g b)
    (halike : meets → Alike timestamptz m p) (hmeets : meets) :
    Settles timestamptz (.ok a, m) (.ok b, p) f g meets :=
  ⟨⟨fun _ => hmeets, fun _ => congrArg some hanswer⟩, halike⟩

theorem settles_answers {a : α} {b : β} (halike : Alike timestamptz m p)
    (hmeets : meets ↔ f a = g b) : Settles timestamptz (.ok a, m) (.ok b, p) f g meets :=
  ⟨⟨fun h => hmeets.mpr (Option.some.inj h), fun h => congrArg some (hmeets.mp h)⟩,
    fun _ => halike⟩

theorem settles_memory {a : α} {e : Thrown} (hmeets : ¬ meets) :
    Settles timestamptz (.ok a, m) (.error e, p) f g meets :=
  ⟨⟨(by cases ·), fun h => absurd h hmeets⟩, fun h => absurd h hmeets⟩

theorem settles_postgres {b : β} {e : Thrown} (hmeets : ¬ meets) :
    Settles timestamptz (.error e, m) (.ok b, p) f g meets :=
  ⟨⟨(by cases ·), fun h => absurd h hmeets⟩, fun h => absurd h hmeets⟩

end Settles

theorem cross_tenant_gate (gate : Gate) :
    (gate.tenantId ≠ gate.binding.tenantId ∨ gate.binding.tenantId ≠ gate.binding.tenantId ∨
      gate.runId ≠ gate.binding.runId ∨ gate.decisionId ≠ gate.binding.decisionId) ↔
      gate.gateKey ≠ gate.binding.gateKey := by
  simp only [Gate.gateKey, ProposedEffectBinding.gateKey, ne_eq, not_true_eq_false, false_or,
    Prod.mk.injEq, not_and_or]

theorem Related.putGateOnce (h : Related timestamptz q) (gate : Gate) :
    Settles timestamptz (q.memory.putGateOnce gate)
      (q.postgres.putDecisionGate timestamptz gate.binding.tenantId gate) (fun _ => none)
      (fun _ => none) (Meets timestamptz q (.putGateOnce gate)) := by
  unfold MemoryDecisionStore.putGateOnce PostgresDecisions.putDecisionGate
  by_cases hbinding : gate.gateKey = gate.binding.gateKey
  · have hkey : (gate.binding.tenantId, gate.runId, gate.decisionId) = gate.gateKey := by
      rw [Gate.gateKey, (Prod.mk.inj hbinding).1]
    have hgate := h.alike.gate gate.gateKey
    rw [if_neg (not_not.mpr hbinding), if_neg ((cross_tenant_gate gate).not.mpr
      (not_not.mpr hbinding)), hkey, hgate]
    cases hstored : q.memory.gates.get gate.gateKey with
    | some stored =>
      have hmeets : Meets timestamptz q (.putGateOnce gate) := by
        simp [Meets, hgate, hstored]
      dsimp only
      by_cases heq : stored = gate
      · rw [if_pos heq, if_pos heq]
        exact settles_accept rfl (fun _ => h.alike) hmeets
      · rw [if_neg heq, if_neg heq]
        exact settles_throw h.alike hmeets _ _
    | none =>
      rw [hstored] at hgate
      dsimp only
      by_cases hcast : timestamptz gate.createdAt.text = none
      · rw [if_pos hcast]
        exact settles_memory fun hmeets => hmeets hbinding hgate hcast
      · rw [if_neg hcast]
        refine settles_accept rfl (fun _ => { h.alike with gate := fun k => ?_ }) fun _ _ => hcast
        simp only [OrderedMap.get_set, h.alike.gate]
  · rw [if_pos hbinding, if_pos ((cross_tenant_gate gate).mpr hbinding)]
    exact settles_throw h.alike (fun h => absurd h hbinding) _ _

/-- A challenge that was not issued as a consumed one. -/
theorem not_consumed_iff {c : SubmissionChallenge} :
    ¬ (c.consumingCommandId ≠ none ∨ c.consumedAt ≠ none) ↔
      c.consumingCommandId = none ∧ c.consumedAt = none := by
  simp only [ne_eq, not_or, not_not]

/-- **A challenge** that is stored already is accepted by the memory store where it is the one that
is stored. -/
theorem Related.putChallenge_stored (h : Related timestamptz q) {c : SubmissionChallenge}
    {row : ChallengeRow}
    (hrow : q.postgres.challenges.get (c.binding.tenantId, c.id) = some row) :
    (row.challenge = c ∧ q.memory.putChallenge c = (.ok (), { q.memory with
        challenges := q.memory.challenges.set c.challengeKey c
        activeChallenges :=
          q.memory.activeChallenges.set c.binding.gateKey c.challengeKey })) ∨
      row.challenge ≠ c ∧ ∃ e, q.memory.putChallenge c = (.error e, q.memory) := by
  obtain ⟨hget, ht, hid⟩ := h.alike.challenge _ _ _ hrow
  unfold MemoryDecisionStore.putChallenge
  rw [h.challengesOf_some hrow]
  simp only [List.any_cons, List.any_nil, Bool.or_false, decide_eq_true_eq]
  by_cases hrun : row.challenge.binding.runId = c.binding.runId
  · have hkey : row.challenge.challengeKey = c.challengeKey := by
      rw [SubmissionChallenge.challengeKey, SubmissionChallenge.challengeKey, ht, hid, hrun]
    rw [if_neg (not_not.mpr hrun), ← hkey, hget]
    by_cases heq : row.challenge = c
    · exact .inl ⟨heq, by simp [heq]⟩
    · exact .inr ⟨heq, conflict "decision_challenge_changed", by simp [heq]⟩
  · rw [if_pos hrun]
    exact .inr ⟨fun heq => hrun (by rw [heq]), _, rfl⟩

/-- What is stored under a key is stored again. -/
theorem Alike.restore (h : Alike timestamptz m p) {k : DecisionKey} {c : SubmissionChallenge}
    (hc : m.challenges.get k = some c) (active : OrderedMap DecisionKey DecisionKey) :
    Alike timestamptz
      { m with challenges := m.challenges.set k c, activeChallenges := active } p := by
  have hget : ∀ k', (m.challenges.set k c).get k' = m.challenges.get k' := by
    intro k'
    rw [OrderedMap.get_set]
    split
    · rename_i hk
      rw [hk, hc]
    · rfl
  exact { h with
    challenge := fun t id row hrow => by rw [hget]; exact h.challenge t id row hrow
    row := fun k' x hx => h.row k' x ((hget k').symm.trans hx) }

/-- A challenge is stored in both. -/
theorem Alike.set_challenge (h : Alike timestamptz m p)
    (hunder : ∀ k x, m.challenges.get k = some x → k = x.challengeKey)
    {c : SubmissionChallenge} (column : Option String)
    (hrun : ∀ row, p.challenges.get (c.binding.tenantId, c.id) = some row →
      row.challenge.challengeKey = c.challengeKey)
    (active : OrderedMap DecisionKey DecisionKey) :
    Alike timestamptz
      { m with challenges := m.challenges.set c.challengeKey c, activeChallenges := active }
      { p with
        challenges := p.challenges.set (c.binding.tenantId, c.id) ⟨c, column⟩ } := by
  refine { h with challenge := fun t id row hrow => ?_, row := fun k x hx => ?_ }
  · simp only [OrderedMap.get_set] at hrow ⊢
    split at hrow
    · rename_i hk
      obtain ⟨rfl, rfl⟩ := Prod.mk.inj hk
      obtain rfl := Option.some.inj hrow
      exact ⟨if_pos rfl, rfl, rfl⟩
    · rename_i hne
      obtain ⟨hget, rfl, rfl⟩ := h.challenge t id row hrow
      refine ⟨?_, rfl, rfl⟩
      rw [if_neg fun hkey => hne ?_]
      · exact hget
      · simp only [SubmissionChallenge.challengeKey, Prod.mk.injEq] at hkey
        rw [hkey.1, hkey.2.2]
  · simp only [OrderedMap.get_set] at hx ⊢
    split at hx
    · obtain rfl := Option.some.inj hx
      exact ⟨⟨c, column⟩, if_pos rfl, rfl⟩
    · rename_i hne
      obtain ⟨row, hrow, rfl⟩ := h.row k x hx
      refine ⟨row, ?_, rfl⟩
      rw [if_neg fun hkey => hne ?_]
      · exact hrow
      · rw [hunder k _ hx]
        exact hrun row (hkey ▸ hrow)

theorem Related.putChallenge (h : Related timestamptz q) (c : SubmissionChallenge) :
    Settles timestamptz (q.memory.putChallenge c)
      (q.postgres.putDecisionChallenge timestamptz c.binding.tenantId c) (fun _ => none)
      (fun _ => none) (Meets timestamptz q (.putChallenge c)) := by
  unfold PostgresDecisions.putDecisionChallenge
  rw [if_neg (not_not.mpr rfl)]
  cases hstored : q.postgres.challenges.get (c.binding.tenantId, c.id) with
  | some row =>
    have hmeets : Meets timestamptz q (.putChallenge c) ↔
        (row.challenge = c → c.consumingCommandId = none ∧ c.consumedAt = none) := by
      simp only [Meets, hstored]
    dsimp only
    rcases h.putChallenge_stored hstored with ⟨heq, hm⟩ | ⟨hne, e, hm⟩
    · rw [hm, if_pos heq]
      split
      · rename_i hconsumed
        exact settles_memory fun hm => not_consumed_iff.mpr (hmeets.mp hm heq) hconsumed
      · rename_i hnew
        refine settles_accept rfl (fun _ => ?_) (hmeets.mpr fun _ => not_consumed_iff.mp hnew)
        obtain ⟨hget, -⟩ := h.alike.challenge _ _ _ hstored
        rw [heq] at hget
        exact h.alike.restore hget _
    · rw [hm, if_neg hne]
      split <;> exact settles_throw h.alike (hmeets.mpr fun heq => absurd heq hne) _ _
  | none =>
    have hmeets : Meets timestamptz q (.putChallenge c) ↔ c.consumingCommandId = none ∧
        c.consumedAt = none ∧ timestamptz c.expiresAt.text ≠ none := by
      simp only [Meets, hstored]
    have hm : q.memory.putChallenge c = (.ok (), { q.memory with
        challenges := q.memory.challenges.set c.challengeKey c
        activeChallenges :=
          q.memory.activeChallenges.set c.binding.gateKey c.challengeKey }) := by
      simp [MemoryDecisionStore.putChallenge, h.challengesOf_none hstored,
        h.challenge_none hstored]
    rw [hm]
    dsimp only
    split
    · rename_i hconsumed
      exact settles_memory fun hm =>
        not_consumed_iff.mpr ⟨(hmeets.mp hm).1, (hmeets.mp hm).2.1⟩ hconsumed
    · rename_i hnew
      split
      · rename_i hcast
        exact settles_memory fun hm => (hmeets.mp hm).2.2 hcast
      · rename_i hcast
        refine settles_accept rfl (fun _ => ?_) (hmeets.mpr ⟨(not_consumed_iff.mp hnew).1,
          (not_consumed_iff.mp hnew).2, hcast⟩)
        refine h.alike.set_challenge h.coherent.challenge none (fun row hrow => ?_) _
        rw [hstored] at hrow
        cases hrow

theorem Related.consumeChallenge (h : Related timestamptz q) (t id commandId : String)
    (instant : DateTimeText) :
    Settles timestamptz (q.memory.consumeChallenge t id commandId instant)
      (q.postgres.consumeDecisionChallenge timestamptz t id commandId instant) (fun _ => none)
      (fun _ => none) (Meets timestamptz q (.consumeChallenge t id commandId instant)) := by
  unfold MemoryDecisionStore.consumeChallenge PostgresDecisions.consumeDecisionChallenge
  cases hstored : q.postgres.challenges.get (t, id) with
  | none =>
    rw [h.challengesOf_none hstored]
    exact settles_throw h.alike (by simp [Meets, hstored]) _ _
  | some row =>
    obtain ⟨hget, rfl, rfl⟩ := h.alike.challenge _ _ _ hstored
    rw [h.challengesOf_some hstored]
    simp only [Meets, hstored, Option.some.injEq, forall_eq', ne_eq, not_true_eq_false, if_false]
    cases hconsumed : row.challenge.consumingCommandId with
    | some consumingCommandId =>
      dsimp only
      by_cases hid : consumingCommandId = commandId
      · rw [if_pos hid, if_pos hid]
        by_cases hactive : q.memory.activeChallenges.get row.challenge.binding.gateKey =
            some row.challenge.challengeKey
        · rw [if_neg (not_not.mpr hactive)]
          exact settles_accept rfl (fun _ => h.alike) fun _ => hactive
        · rw [if_pos hactive]
          exact settles_postgres fun hm => hactive (hm hid)
      · rw [if_neg hid, if_neg hid]
        split <;> exact settles_throw h.alike (fun heq => absurd heq hid) _ _
    | none =>
      dsimp only
      by_cases hexpired : row.challenge.expiresAt.reached instant.toInstantText = true
      · rw [if_pos hexpired, if_pos hexpired]
        split <;> exact settles_throw h.alike (by simp [hexpired]) _ _
      rw [if_neg hexpired, if_neg hexpired]
      cases hparsed : boundedText 256 commandId with
      | none => dsimp only; split <;> exact settles_throw h.alike (by simp) _ _
      | some parsedId =>
        cases hat : instant.parsed with
        | none => dsimp only; split <;> exact settles_throw h.alike (by simp) _ _
        | some parsedAt =>
          rw [Bool.not_eq_true] at hexpired
          simp only [hexpired, reduceCtorEq, not_false_eq_true, forall_true_left]
          by_cases hactive : q.memory.activeChallenges.get row.challenge.binding.gateKey =
              some row.challenge.challengeKey
          · rw [if_neg (not_not.mpr hactive)]
            split
            · rename_i hrefused
              refine settles_memory fun hm => ?_
              obtain ⟨hcast, hunused⟩ := hm.mp hactive
              rw [hunused] at hrefused
              exact hrefused.elim hcast (by simp)
            · rename_i haccepted
              rw [not_or, Bool.not_eq_true] at haccepted
              refine settles_accept rfl (fun _ => ?_) ⟨fun _ => haccepted, fun _ => hactive⟩
              exact h.alike.set_challenge h.coherent.challenge
                (c := row.challenge.consumed parsedId parsedAt) (some commandId)
                (fun row' hrow' => by
                  obtain rfl := Option.some.inj (hstored.symm.trans hrow')
                  rfl) q.memory.activeChallenges
          · rw [if_pos hactive]
            split
            · rename_i hrefused
              refine settles_throw h.alike ⟨fun hm => absurd hm hactive, fun hm => ?_⟩ _ _
              rw [hm.2] at hrefused
              exact hrefused.elim (fun hcast => absurd hcast hm.1) (by simp)
            · rename_i haccepted
              rw [not_or, Bool.not_eq_true] at haccepted
              exact settles_postgres fun hm => hactive (hm.mpr haccepted)

theorem Related.putApproval (h : Related timestamptz q) (a : Decision.Approval) :
    Settles timestamptz (q.memory.putApproval a)
      (q.postgres.putApproval timestamptz a.binding.tenantId a) (fun _ => none)
      (fun _ => none) (Meets timestamptz q (.putApproval a)) := by
  unfold MemoryDecisionStore.putApproval PostgresDecisions.putApproval
  rw [if_neg (not_not.mpr rfl)]
  cases hstored : q.postgres.challenges.get (a.binding.tenantId, a.challengeId) with
  | none =>
    rw [h.challengesOf_none hstored]
    exact settles_throw h.alike (by simp [Meets, hstored]) _ _
  | some row =>
    rw [h.challengesOf_some hstored]
    simp only [Meets, hstored, Option.some.injEq, forall_eq']
    by_cases happroves : MemoryDecisionStore.approves a row.challenge = true
    · rw [if_pos happroves, if_neg (not_not.mpr happroves), ← h.alike.approval]
      change Settles timestamptz _ (match q.postgres.approvals.get a.approvalKey with
        | some stored => _
        | none => _) _ _ _
      cases happroval : q.postgres.approvals.get a.approvalKey with
      | some stored =>
        simp only [Option.any_some, decide_eq_true_eq]
        by_cases heq : stored = a
        · subst heq
          rw [if_neg (not_not.mpr rfl), if_pos rfl]
          refine settles_accept rfl (fun _ => { h.alike with approval := fun k => ?_ }) (by simp)
          rw [OrderedMap.get_set, h.alike.approval]
          split
          · rename_i hk
            rw [hk, ← h.alike.approval, happroval]
          · rfl
        · rw [if_pos heq, if_neg heq]
          exact settles_throw h.alike (by simp) _ _
      | none =>
        simp only [Option.any_none, Bool.false_eq_true, if_false, happroves, forall_true_left]
        split
        · rename_i hrefused
          refine settles_memory fun hm => ?_
          rw [hm.2] at hrefused
          exact hrefused.elim hm.1 (by simp)
        · rename_i haccepted
          rw [not_or, Bool.not_eq_true] at haccepted
          refine settles_accept rfl (fun _ => { h.alike with approval := fun k => ?_ }) haccepted
          simp only [OrderedMap.get_set, h.alike.approval]
          rfl
    · rw [if_neg happroves, if_pos happroves]
      exact settles_throw h.alike (fun h => absurd h happroves) _ _

theorem Related.putRejection (h : Related timestamptz q) (r : Rejection) :
    Settles timestamptz (q.memory.putRejection r)
      (q.postgres.putDecisionRejection r.binding.tenantId r) (fun _ => none) (fun _ => none)
      (Meets timestamptz q (.putRejection r)) := by
  unfold MemoryDecisionStore.putRejection PostgresDecisions.putDecisionRejection
  rw [← h.alike.rejection]
  cases hstored : q.postgres.decisions.get r.gateKey with
  | some stored =>
    simp only [Meets, hstored, Option.any_some, decide_eq_true_eq]
    by_cases htenant : r.tenantId = r.binding.tenantId
    · have hhas : q.postgres.decisions.has (r.binding.tenantId, r.runId, r.decisionId) =
          true := by
        rw [OrderedMap.has, ← htenant]
        exact congrArg Option.isSome hstored
      rw [if_neg (c := r.tenantId ≠ r.binding.tenantId ∨ _) (by simp [htenant]), if_pos hhas]
      by_cases heq : stored = r
      · subst heq
        rw [if_neg (not_not.mpr rfl)]
        refine settles_accept rfl (fun _ => { h.alike with rejection := fun k => ?_ }) (.inl rfl)
        rw [OrderedMap.get_set, h.alike.rejection]
        split
        · rename_i hk
          rw [hk, ← h.alike.rejection, hstored]
        · rfl
      · rw [if_pos heq]
        exact settles_postgres fun hm => hm.elim heq (absurd htenant)
    · rw [if_pos (c := r.tenantId ≠ r.binding.tenantId ∨ _) (.inl htenant)]
      have hne : stored ≠ r := fun heq => htenant (heq ▸ h.alike.tenant _ _ hstored)
      rw [if_pos hne]
      exact settles_throw h.alike (.inr htenant) _ _
  | none =>
    simp only [Meets, hstored, Option.any_none, Bool.false_eq_true, if_false]
    by_cases htenant : r.tenantId = r.binding.tenantId
    · have hhas : q.postgres.decisions.has (r.binding.tenantId, r.runId, r.decisionId) =
          false := by
        rw [OrderedMap.has, ← htenant]
        exact congrArg Option.isSome hstored
      rw [if_neg (c := r.tenantId ≠ r.binding.tenantId ∨ _) (by simp [htenant]), if_neg (by
        rw [hhas]; decide), ← htenant]
      by_cases hused : q.postgres.rejectedBy r.tenantId r = true
      · rw [if_pos hused]
        exact settles_memory fun hm => absurd hm.2 (by simp [hused])
      · rw [if_neg hused]
        refine settles_accept rfl (fun _ => { h.alike with
          rejection := fun k => ?_, tenant := fun k r' hr' => ?_ })
          ⟨rfl, Bool.not_eq_true _ ▸ hused⟩
        · simp only [OrderedMap.get_set, h.alike.rejection]
          rfl
        · rw [OrderedMap.get_set] at hr'
          split at hr'
          · obtain rfl := Option.some.inj hr'
            exact htenant
          · exact h.alike.tenant k r' hr'
    · rw [if_pos (c := r.tenantId ≠ r.binding.tenantId ∨ _) (.inl htenant)]
      exact settles_memory fun hm => htenant hm.1

/-! #### Claims -/

/-- The authorization keys in use are those of the index. -/
theorem Related.keyUsed_iff (h : Related timestamptz q) {t key : String} :
    q.postgres.keyUsed t key = true ↔
      ∃ a, q.memory.approvalAuthorizationKeys.get (t, key) = some a := by
  simp only [PostgresDecisions.keyUsed, List.any_eq_true, decide_eq_true_eq, h.alike.key]
  constructor
  · rintro ⟨⟨⟨_, a⟩, row⟩, hmem, rfl, rfl⟩
    exact ⟨a, row, OrderedMap.get_eq_some_iff.mpr hmem, rfl⟩
  · rintro ⟨a, row, hrow, rfl⟩
    exact ⟨_, OrderedMap.get_eq_some_iff.mp hrow, rfl, rfl⟩

/-- Both stores have a claim of the approval, or neither has. -/
theorem Related.claim_cases (h : Related timestamptz q) (k : String × String) :
    (q.memory.approvalClaims.get k = none ∧ q.postgres.useClaims.get k = none) ∨
      ∃ c row, q.memory.approvalClaims.get k = some c ∧
        q.postgres.useClaims.get k = some row ∧
        row.authorizationKey = c.authorizationKey ∧
        timestamptz c.claimedAt.text = some row.claimedAt := by
  have hclaim := h.alike.claim k
  cases hm : q.memory.approvalClaims.get k <;> cases hp : q.postgres.useClaims.get k <;>
    rw [hm, hp] at hclaim
  · exact .inl ⟨rfl, rfl⟩
  · cases hclaim
  · cases hclaim
  · obtain ⟨hkey, hat⟩ := Prod.mk.inj (Option.some.inj hclaim)
    exact .inr ⟨_, _, rfl, rfl, hkey, hat.symm⟩

/-- The other approval that a fresh claim's key is used by. -/
theorem Related.key_of_other (h : Related timestamptz q) {t a key : String}
    (hfresh : q.postgres.useClaims.get (t, a) = none) :
    ((q.memory.approvalAuthorizationKeys.get (t, key)).any fun prior => decide (prior ≠ a)) =
      q.postgres.keyUsed t key := by
  rw [Bool.eq_iff_iff, h.keyUsed_iff, Option.any_eq_true]
  refine exists_congr fun b => ⟨And.left, fun hb => ⟨hb, ?_⟩⟩
  rw [decide_eq_true_eq]
  rintro rfl
  obtain ⟨row, hrow, -⟩ := (h.alike.key t key b).mp hb
  rw [hfresh] at hrow
  cases hrow

/-- A claim is stored in both. -/
theorem Alike.set_claim (h : Alike timestamptz m p) {t a key claimedAt : String}
    {c : Decision.ApprovalUseClaim} (hfresh : p.useClaims.get (t, a) = none)
    (hkey : c.authorizationKey = key) (hat : timestamptz c.claimedAt.text = some claimedAt)
    (hunused : m.approvalAuthorizationKeys.get (t, key) = none) :
    Alike timestamptz
      { m with
        approvalClaims := m.approvalClaims.set (t, a) c
        approvalAuthorizationKeys := m.approvalAuthorizationKeys.set (t, key) a }
      { p with useClaims := p.useClaims.set (t, a) ⟨key, claimedAt⟩ } := by
  refine { h with claim := fun k => ?_, key := fun t' key' a' => ?_ }
  · simp only [OrderedMap.get_set]
    split
    · simp only [Option.map_some, hkey, hat]
    · exact h.claim k
  · simp only [OrderedMap.get_set, Prod.mk.injEq]
    by_cases hk : t' = t ∧ key' = key
    · obtain ⟨rfl, rfl⟩ := hk
      rw [if_pos ⟨rfl, rfl⟩]
      constructor
      · intro ha
        obtain rfl := Option.some.inj ha
        exact ⟨_, if_pos ⟨rfl, rfl⟩, rfl⟩
      · rintro ⟨row, hrow, hrowkey⟩
        split at hrow
        · rename_i ha
          rw [ha.2]
        · -- no other claim has the key
          have := (h.key t' key' a').mpr ⟨row, hrow, hrowkey⟩
          rw [hunused] at this
          cases this
    · rw [if_neg hk, h.key]
      refine exists_congr fun row => ?_
      by_cases ha : t' = t ∧ a' = a
      · obtain ⟨rfl, rfl⟩ := ha
        rw [if_pos ⟨rfl, rfl⟩, hfresh]
        constructor
        · rintro ⟨hrow, -⟩
          cases hrow
        · rintro ⟨hrow, hrowkey⟩
          obtain rfl := Option.some.inj hrow
          exact absurd ⟨rfl, hrowkey.symm⟩ hk
      · rw [if_neg ha]

theorem Related.claimApproval (h : Related timestamptz q) (t a key : String)
    (instant : DateTimeText) :
    Settles timestamptz (q.memory.claimApproval t a key instant)
      (q.postgres.claimApproval timestamptz t a key instant) (fun claim => some claim.texts) some
      (Meets timestamptz q (.claimApproval t a key instant)) := by
  unfold MemoryDecisionStore.claimApproval PostgresDecisions.claimApproval
  rcases h.claim_cases (t, a) with ⟨hm, hp⟩ | ⟨c, row, hm, hp, hkey, hat⟩
  · simp only [hm, hp, Meets]
    rw [h.alike.approval]
    cases happroval : q.memory.approvals.get (t, a) with
    | none => exact settles_throw h.alike (by simp) _ _
    | some approval =>
      simp only [Option.some.injEq, forall_eq']
      by_cases hexpired : approval.expiresAt.reached instant.toInstantText = true
      · rw [if_pos hexpired, if_pos hexpired]
        exact settles_throw h.alike (by simp [hexpired]) _ _
      rw [if_neg hexpired, if_neg hexpired, h.key_of_other hp]
      rw [Bool.not_eq_true] at hexpired
      by_cases hused : q.postgres.keyUsed t key = true
      · rw [if_pos hused]
        simp only [hused, if_true]
        cases timestamptz instant.text <;> exact settles_throw h.alike (by simp) _ _
      rw [if_neg hused]
      have hunused : q.memory.approvalAuthorizationKeys.get (t, key) = none :=
        Option.eq_none_iff_forall_ne_some.mpr fun b hb => hused (h.keyUsed_iff.mpr ⟨b, hb⟩)
      rw [Bool.not_eq_true] at hused
      simp only [hexpired, hused, forall_true_left, Bool.false_eq_true, if_false]
      -- the identity of a stored approval is one that its schema does not change
      have hid : boundedText 256 a = some a := by
        have ha : a = approval.id :=
          congrArg Prod.snd (h.coherent.approval _ approval happroval).1
        rw [ha, approval.id_parsed]
      rw [hid]
      cases hparsed : boundedText 512 key with
      | none =>
        cases hcast : timestamptz instant.text with
        | none => exact settles_throw h.alike (by simp) _ _
        | some claimedAt => exact settles_postgres (by simp)
      | some parsedKey =>
        cases hinstant : instant.parsed with
        | none =>
          cases hcast : timestamptz instant.text with
          | none => exact settles_throw h.alike (by simp) _ _
          | some claimedAt => exact settles_postgres (by simp)
        | some i =>
          obtain rfl := boundedText_eq_some hparsed
          obtain ⟨htext, -⟩ := instant.parsed_eq i hinstant
          cases hcast : timestamptz instant.text with
          | none => exact settles_memory (by simp)
          | some claimedAt =>
            by_cases htrim : trim key = key
            · refine settles_accept ?_ (fun _ => ?_) (by simp [htrim])
              · simp [Decision.ApprovalUseClaim.texts, htrim, htext]
              · exact h.alike.set_claim hp htrim (by rw [htext, hcast]) hunused
            · refine ⟨?_, fun hm => absurd hm (by simp [htrim])⟩
              simp [answer, Except.toOption, Decision.ApprovalUseClaim.texts, htrim]
  · simp only [hm, hp, Meets, ne_eq, hkey]
    by_cases heq : c.authorizationKey = key
    · rw [if_neg (not_not.mpr heq), if_neg (not_not.mpr heq)]
      refine settles_answers h.alike ?_
      obtain ⟨hid, -⟩ := h.coherent.claim t a c hm
      simp [Decision.ApprovalUseClaim.texts, hid, heq, hat, eq_comm]
    · rw [if_pos heq, if_pos heq]
      exact settles_throw h.alike (fun h => absurd h heq) _ _

/-! ### Every run of calls -/

/-- **One call** is answered alike exactly where the condition is met. -/
theorem Related.agrees_iff (h : Related timestamptz q) (call : DecisionCall) :
    Agrees timestamptz q call ↔ Meets timestamptz q call := by
  cases call with
  | putGateOnce gate => exact (h.putGateOnce gate).agrees_iff
  | putChallenge c => exact (h.putChallenge c).agrees_iff
  | consumeChallenge t id commandId instant =>
      exact (h.consumeChallenge t id commandId instant).agrees_iff
  | putApproval a => exact (h.putApproval a).agrees_iff
  | claimApproval t a key instant => exact (h.claimApproval t a key instant).agrees_iff
  | putRejection r => exact (h.putRejection r).agrees_iff

/-- **The step lemma.** -/
theorem Related.step (h : Related timestamptz q) {call : DecisionCall}
    (hcall : Meets timestamptz q call) : Related timestamptz (q.step timestamptz call) where
  coherent := h.coherent.changes (q.memory.changes call)
  alike := by
    cases call with
    | putGateOnce gate => exact (h.putGateOnce gate).alike hcall
    | putChallenge c => exact (h.putChallenge c).alike hcall
    | consumeChallenge t id commandId instant =>
        exact (h.consumeChallenge t id commandId instant).alike hcall
    | putApproval a => exact (h.putApproval a).alike hcall
    | claimApproval t a key instant => exact (h.claimApproval t a key instant).alike hcall
    | putRejection r => exact (h.putRejection r).alike hcall

/-- **The decision stores agree** on a call exactly where the condition is met, after any run whose
calls met it. -/
theorem decision_stores_agree_iff {calls : List DecisionCall}
    (hcalls : Along (step timestamptz) start (Meets timestamptz) calls) (call : DecisionCall) :
    Agrees timestamptz (after timestamptz calls) call ↔
      Meets timestamptz (after timestamptz calls) call :=
  (hcalls.invariant (related_start timestamptz) fun _ _ h hcall => h.step hcall).agrees_iff call

section Witness

open MemoryDecisionStore (oneMinute firstSecond proposal)

/-- A challenge is consumed in both stores. -/
theorem decision_stores_agree_consumed :
    Agrees some (after some [.putChallenge oneMinute])
      (.consumeChallenge "tenant" "challenge" "command" firstSecond) := by
  refine (decision_stores_agree_iff (along_snoc.mpr ⟨along_nil, ?_⟩) _).mpr fun row hrow => ?_
  · exact ⟨rfl, rfl, by decide⟩
  · obtain rfl : ⟨oneMinute, none⟩ = row := Option.some.inj hrow
    exact fun _ _ _ => ⟨fun _ => ⟨by decide, by decide +kernel⟩, fun _ => rfl⟩

/-- A second challenge for the same decision. -/
def replacement : SubmissionChallenge :=
  { oneMinute with id := "replacement" }

/-- The decision is rejected for a reason. -/
def rejectedFor (reasonCode : String) : Rejection where
  decisionId := "decision"
  tenantId := "tenant"
  runId := "run"
  challengeId := "challenge"
  binding := proposal
  rejectedBy := ⟨.user, "approver"⟩
  authenticationStrength := .user_presence
  reasonCode
  rejectedAt := ⟨"1970-01-01T00:00:01.000Z", 1000⟩

/-- A challenge that was replaced is consumed in Postgres, a second approval of a decision is
stored in memory, and a changed rejection is accepted in Postgres. -/
theorem decision_stores_differ :
    (memoryAnswer (after some [.putChallenge oneMinute, .putChallenge replacement]).memory
        (.consumeChallenge "tenant" "challenge" "command" firstSecond) = none ∧
      postgresAnswer some
        (after some [.putChallenge oneMinute, .putChallenge replacement]).postgres
        (.consumeChallenge "tenant" "challenge" "command" firstSecond) = some none) ∧
    (memoryAnswer (after some [.putChallenge oneMinute,
          .consumeChallenge "tenant" "challenge" "command" firstSecond,
          .putApproval (MemoryDecisionStore.approved "one" rfl)]).memory
        (.putApproval (MemoryDecisionStore.approved "two" rfl)) = some none ∧
      postgresAnswer some (after some [.putChallenge oneMinute,
          .consumeChallenge "tenant" "challenge" "command" firstSecond,
          .putApproval (MemoryDecisionStore.approved "one" rfl)]).postgres
        (.putApproval (MemoryDecisionStore.approved "two" rfl)) = none) ∧
    (memoryAnswer (after some [.putRejection (rejectedFor "one")]).memory
        (.putRejection (rejectedFor "two")) = none ∧
      postgresAnswer some (after some [.putRejection (rejectedFor "one")]).postgres
        (.putRejection (rejectedFor "two")) = some none) := by
  refine ⟨⟨?_, ?_⟩, ⟨?_, ?_⟩, ?_, ?_⟩ <;> decide +kernel

end Witness

end DecisionStores

end Pactmark
