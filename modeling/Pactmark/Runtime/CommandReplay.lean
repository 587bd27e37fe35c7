import Pactmark.Durable.Operations
import Pactmark.Runtime.CommandCalls

/-!
# Runtime — the replay of a command

A command that is stored is answered from its row.  `start`, `submitInput`, `approve`, `reject` and
`cancel` check nothing before that but the authority, the arguments and the window.
`issueDecisionChallenge`, `reconcileEffect` and `requestCompensation` first look at the run, which
has moved on.

* `Later.kept`: stored commands and issued challenges are kept over every run.
* `replay_iff`: a later call of a command returns what the first did exactly when what it looks at
  before its transaction still lets it through, and, for a challenge, still asks the issuer for the
  same.
* `replay_commits_nothing`: it changes nothing in either case.
* `challenge_replay_now`: a challenge is returned again only within the same millisecond.
-/

namespace Pactmark

open Durable

namespace CommandReplay

namespace AgentRuntime

variable {A S : Type} (K : AgentRuntime A S)

/-! ### What happens between two calls -/

/-- Time passes, the stores and registries change in any way, and commands are called, these and
others. -/
inductive Step : Process S → Process S → Prop where
  | tick (w : Process S) (now : Int) (h : w.now ≤ now) : Step w { w with now }
  | change (w : Process S) (stores : S) : Step w { w with stores }
  | call (w : Process S) (c : Call A) : Step w (K.run c w).2
  | other (w : Process S) (claims : VerifiedAuthority) (command : CommandInput)
      (callback : Process S → Except Thrown (CommandValue × S)) :
      Step w (K.transactCommand w claims command callback).2

/-- `w'` comes after `w`. -/
def Later : Process S → Process S → Prop :=
  Relation.ReflTransGen K.Step

/-- Stored commands and issued challenges are kept. -/
structure Kept (w w' : Process S) : Prop where
  commands : ∀ key stored, w.commands.get key = some stored → w'.commands.get key = some stored
  issued : ∀ key issued, w.issuedByCommand.get key = some issued →
    w'.issuedByCommand.get key = some issued

theorem Kept.refl (w : Process S) : Kept w w :=
  ⟨fun _ _ h => h, fun _ _ h => h⟩

theorem Kept.trans {w₁ w₂ w₃ : Process S} (h₁ : Kept w₁ w₂) (h₂ : Kept w₂ w₃) : Kept w₁ w₃ :=
  ⟨fun key stored h => h₂.commands key stored (h₁.commands key stored h),
    fun key issued h => h₂.issued key issued (h₁.issued key issued h)⟩

variable {K} {w w' w'' : Process S} {claims : VerifiedAuthority} {command : CommandInput}

/-- What is set under a key that was free is beside what there was. -/
theorem get_set_of_free {α β : Type} [DecidableEq α] {m : OrderedMap α β} {key k : α} {v x : β}
    (hfree : m.get key = none) (h : m.get k = some x) : (m.set key v).get k = some x := by
  have hne : k ≠ key := by
    rintro rfl
    rw [hfree] at h
    cases h
  rw [OrderedMap.get_set_of_ne _ _ hne, h]

theorem transactCommand_kept (K : AgentRuntime A S) (w : Process S) (claims : VerifiedAuthority)
    (command : CommandInput) (callback : Process S → Except Thrown (CommandValue × S)) :
    Kept w (K.transactCommand w claims command callback).2 := by
  unfold transactCommand
  cases hget : w.commands.get (K.commandKey claims command) with
  | some existing =>
    dsimp only
    split
    · exact .refl w
    · exact .refl w
  | none =>
    dsimp only
    split
    · exact .refl w
    · exact ⟨fun _ _ h => get_set_of_free hget h, fun _ _ h => h⟩

theorem prepared_kept {P : Type} (K : AgentRuntime A S)
    (prepare : Except Thrown (VerifiedAuthority × P)) (command : CommandInput)
    (callback : P → VerifiedAuthority → CommandInput → Process S → Except Thrown (CommandValue × S))
    (w : Process S) : Kept w (K.prepared prepare command callback w).2 := by
  unfold prepared
  split
  · exact .refl w
  · rename_i claims p
    have h := transactCommand_kept K w claims command (callback p claims command)
    split <;> simp_all

theorem issue_kept (K : AgentRuntime A S) (w : Process S) (c : Call A)
    (request : ChallengeRequest) : Kept w (K.issue w c request).2 := by
  unfold issue
  split
  · exact .refl w
  · rename_i claims _
    split
    · exact .refl w
    · cases hget : w.issuedByCommand.get (issuerKey claims c.command) with
      | some prior =>
        dsimp only
        split
        · exact .refl w
        · exact .refl w
      | none => exact ⟨fun _ _ h => h, fun _ _ h => get_set_of_free hget h⟩

theorem issueDecisionChallenge_kept (K : AgentRuntime A S) (c : Call A)
    (runId decisionId : String) (w : Process S) :
    Kept w (K.issueDecisionChallenge c runId decisionId w).2 := by
  unfold issueDecisionChallenge
  split
  · exact .refl w
  · rename_i claims request _
    have hissue := issue_kept K w c request
    split
    · simp_all
    · rename_i issued w' hw'
      rw [hw'] at hissue
      split
      · exact hissue
      · have h := transactCommand_kept K w' claims c.command
          (K.challengeCallback c runId decisionId claims request issued)
        split <;> rename_i heq <;> rw [heq] at h <;> exact hissue.trans h

theorem run_kept (K : AgentRuntime A S) (c : Call A) (w : Process S) : Kept w (K.run c w).2 := by
  unfold run
  cases c.request with
  | issueDecisionChallenge runId decisionId =>
    exact issueDecisionChallenge_kept K c runId decisionId w
  | _ => exact prepared_kept K _ _ _ w

/-- **What is stored is kept**, over every run. -/
theorem Later.kept (h : K.Later w w') : Kept w w' := by
  induction h with
  | refl => exact .refl w
  | tail _ hstep ih =>
    refine ih.trans ?_
    cases hstep with
    | tick now h => exact ⟨fun _ _ h => h, fun _ _ h => h⟩
    | change stores => exact ⟨fun _ _ h => h, fun _ _ h => h⟩
    | call c => exact run_kept K c _
    | other claims command callback => exact transactCommand_kept K _ claims command callback

/-! ### A stored command -/

/-- A command that returns is stored with its value. -/
theorem transactCommand_ok {callback : Process S → Except Thrown (CommandValue × S)}
    {value : CommandValue} (h : K.transactCommand w claims command callback = (.ok value, w')) :
    w'.commands.get (K.commandKey claims command) = some ⟨command.requestDigest, value⟩ ∧
      w'.issuedByCommand = w.issuedByCommand := by
  unfold transactCommand at h
  cases hget : w.commands.get (K.commandKey claims command) with
  | some existing =>
    simp only [hget] at h
    by_cases hdigest : existing.requestDigest = command.requestDigest
    · rw [if_neg (not_not.mpr hdigest)] at h
      cases h
      exact ⟨by rw [hget, ← hdigest], rfl⟩
    · rw [if_pos hdigest] at h
      cases h
  | none =>
    simp only [hget] at h
    cases hcallback : callback w with
    | error e => simp [hcallback] at h
    | ok x =>
      obtain ⟨v, stores⟩ := x
      simp only [hcallback] at h
      cases h
      exact ⟨OrderedMap.get_set_self _ _ _, rfl⟩

/-- A stored command is answered from its row. -/
theorem transactCommand_stored {value : CommandValue}
    (h : w.commands.get (K.commandKey claims command) = some ⟨command.requestDigest, value⟩)
    (callback : Process S → Except Thrown (CommandValue × S)) :
    K.transactCommand w claims command callback = (.ok value, w) := by
  simp [transactCommand, h]

/-- The authority is still valid, the command is inside its window, and the run is still in the
scope of the authority, if that has one. -/
structure StillValid (K : AgentRuntime A S) (c : Call A) (w w'' : Process S) : Prop where
  authority : K.verify c.authority w''.now = K.verify c.authority w.now
  window : assertCommandWindow K.window w''.now c.command.commandId = .ok ()
  runScope : ∀ claims runId, K.verify c.authority w.now = .ok claims →
    c.request.runId = some runId → K.assertAuthorityStoredRunScope w'' claims runId = .ok ()

variable {c : Call A} {r : Response}

theorem verifyAuthority_ok {authority : A} {operation : String} {runId : Option String}
    (h : K.verifyAuthority w authority operation runId = .ok claims) :
    K.verify authority w.now = .ok claims := by
  unfold verifyAuthority at h
  cases hverify : K.verify authority w.now with
  | error reason => simp [hverify] at h
  | ok verified =>
    simp only [hverify] at h
    split at h
    · exact congrArg _ (Except.ok.inj h)
    · cases h
    · split at h
      · cases h
      · split at h
        · cases h
        · exact congrArg _ (Except.ok.inj h)

/-- `#verifyAuthority` reads the process only through the verification of the authority. -/
theorem verifyAuthority_later {authority : A}
    (h : K.verify authority w''.now = K.verify authority w.now) (operation : String)
    (runId : Option String) :
    K.verifyAuthority w'' authority operation runId =
      K.verifyAuthority w authority operation runId := by
  simp only [verifyAuthority, h]

/-- The checks of the commands that come next to their transaction are passed again. -/
theorem commandClaims_later {operation : String} {before after : Except Thrown Unit}
    (hvalid : K.StillValid c w w'')
    (h : K.commandClaims w c operation before after = .ok claims) :
    K.commandClaims w'' c operation before after = .ok claims := by
  simp only [commandClaims, bind_eq_ok] at h ⊢
  obtain ⟨claims', hverify, u₁, hscope, u₂, hbefore, u₃, -, u₄, hafter, hclaims⟩ := h
  refine ⟨claims', ?_, u₁, ?_, u₂, hbefore, u₃, hvalid.window, u₄, hafter, hclaims⟩
  · rw [verifyAuthority_later hvalid.authority, hverify]
  · cases hrun : c.request.runId with
    | none => simp only [assertRequestRunScope, hrun]
    | some runId =>
      simp only [assertRequestRunScope, hrun]
      exact hvalid.runScope claims' runId (verifyAuthority_ok hverify) hrun

/-- A prepared command that answers has prepared something, and is stored with its answer. -/
theorem prepared_ok {P : Type} {prepare : Except Thrown (VerifiedAuthority × P)}
    {callback : P → VerifiedAuthority → CommandInput → Process S → Except Thrown (CommandValue × S)}
    (h : K.prepared prepare command callback w = (.ok r, w')) :
    ∃ claims p value, prepare = .ok (claims, p) ∧ r = .value value ∧
      w'.commands.get (K.commandKey claims command) = some ⟨command.requestDigest, value⟩ := by
  unfold prepared at h
  cases hprepare : prepare with
  | error e => simp [hprepare] at h
  | ok x =>
    obtain ⟨claims, p⟩ := x
    simp only [hprepare] at h
    cases htransact : K.transactCommand w claims command (callback p claims command) with
    | mk answer w₁ =>
      cases answer with
      | error e => simp [htransact] at h
      | ok value =>
        simp only [htransact] at h
        cases h
        exact ⟨claims, p, value, rfl, rfl, (transactCommand_ok htransact).1⟩

/-- A prepared command that is stored: it is answered from its row if it prepares again, and
changes nothing in either case. -/
theorem prepared_stored {P : Type} {prepare : Except Thrown (VerifiedAuthority × P)}
    {value : CommandValue}
    (callback : P → VerifiedAuthority → CommandInput → Process S → Except Thrown (CommandValue × S))
    (hclaims : ∀ claims' p, prepare = .ok (claims', p) → claims' = claims)
    (h : w.commands.get (K.commandKey claims command) = some ⟨command.requestDigest, value⟩) :
    (K.prepared prepare command callback w = (.ok (.value value), w) ↔
      ∃ x, prepare = .ok x) ∧ (K.prepared prepare command callback w).2 = w := by
  unfold prepared
  cases hprepare : prepare with
  | error e => simp
  | ok x =>
    obtain ⟨claims', p⟩ := x
    obtain rfl := hclaims claims' p hprepare
    simp [transactCommand_stored h]

/-! ### The claims a command runs with -/

theorem challengeRequest_verified {runId decisionId : String} {request : ChallengeRequest}
    (h : K.challengeRequest w c runId decisionId = .ok (claims, request)) :
    K.verify c.authority w.now = .ok claims := by
  simp only [challengeRequest, bind_eq_ok] at h
  obtain ⟨claims', hverify, u₁, -, u₂, -, u₃, -, u₄, -, gate, -, hclaims⟩ := h
  cases hclaims
  exact verifyAuthority_ok hverify

theorem prepareReconciliation_verified {runId effectId : String} {resolution : Resolution}
    {p : Reconciliation}
    (h : K.prepareReconciliation w c runId effectId resolution = .ok (claims, p)) :
    K.verify c.authority w.now = .ok claims := by
  simp only [prepareReconciliation, bind_eq_ok] at h
  obtain ⟨claims', hverify, u₁, -, u₂, -, u₃, -, u₄, -, u₅, -, projection, -, u₆, -, h⟩ := h
  split at h
  · cases h
  · simp only [bind_eq_ok] at h
    obtain ⟨workOrder, -, u₇, -, h⟩ := h
    split at h
    · simp only [bind_eq_ok] at h
      obtain ⟨recovered, -, h⟩ := h
      cases h
      exact verifyAuthority_ok hverify
    · cases h

theorem prepareCompensation_verified {runId effectId : String} {p : Compensation}
    (h : K.prepareCompensation w c runId effectId = .ok (claims, p)) :
    K.verify c.authority w.now = .ok claims := by
  simp only [prepareCompensation, bind_eq_ok] at h
  obtain ⟨claims', hverify, u₁, -, u₂, -, u₃, -, u₄, -, u₅, -, u₆, -, projection, -, workOrder, -,
    ⟨effect, acknowledgement, result⟩, -, ⟨tool, strategyDigest⟩, -, h⟩ := h
  dsimp only at h
  split at h
  · cases h
  · simp only [bind_eq_ok] at h
    obtain ⟨u₇, -, input, -, h⟩ := h
    cases h
    exact verifyAuthority_ok hverify

/-! ### The issuer -/

/-- A challenge that was issued is stored under the command, for the digest of its request. -/
theorem issue_ok {request : ChallengeRequest} {issued : Issued}
    (h : K.issue w c request = (.ok issued, w')) :
    ∃ claims, K.verify c.authority w.now = .ok claims ∧
      claims.tenantId = request.binding.tenantId ∧ claims.actor = request.binding.principal ∧
      issued.requestDigest = K.challengeRequestDigest request ∧
      w'.issuedByCommand.get (issuerKey claims c.command) = some issued ∧
      w'.commands = w.commands := by
  unfold issue at h
  cases hverify : K.verify c.authority w.now with
  | error reason => simp [hverify] at h
  | ok claims =>
    simp only [hverify] at h
    split at h
    · cases h
    · rename_i hbinding
      push Not at hbinding
      cases hget : w.issuedByCommand.get (issuerKey claims c.command) with
      | some prior =>
        simp only [hget] at h
        by_cases hdigest : prior.requestDigest = K.challengeRequestDigest request
        · rw [if_neg (not_not.mpr hdigest)] at h
          cases h
          exact ⟨claims, rfl, hbinding.1, hbinding.2, hdigest, hget, rfl⟩
        · rw [if_pos hdigest] at h
          cases h
      | none =>
        simp only [hget] at h
        cases h
        exact ⟨claims, rfl, hbinding.1, hbinding.2, rfl, OrderedMap.get_set_self _ _ _, rfl⟩

/-- Asked for the same under the same command, the issuer answers with the stored challenge. -/
theorem issue_again {request : ChallengeRequest} {issued : Issued}
    (hverify : K.verify c.authority w.now = .ok claims)
    (h : w.issuedByCommand.get (issuerKey claims c.command) = some issued)
    (ht : claims.tenantId = request.binding.tenantId)
    (ha : claims.actor = request.binding.principal)
    (hdigest : issued.requestDigest = K.challengeRequestDigest request) :
    K.issue w c request = (.ok issued, w) := by
  simp [issue, hverify, h, ht, ha, hdigest]

/-- Under a command that was issued a challenge, the issuer answers with that challenge or throws,
and changes nothing. -/
theorem issue_stored {issued : Issued} (request : ChallengeRequest)
    (hverify : K.verify c.authority w.now = .ok claims)
    (h : w.issuedByCommand.get (issuerKey claims c.command) = some issued) :
    K.issue w c request = (.ok issued, w) ∨ ∃ e, K.issue w c request = (.error e, w) := by
  unfold issue
  simp only [hverify, h]
  by_cases hbinding : claims.tenantId ≠ request.binding.tenantId ∨
      claims.actor ≠ request.binding.principal
  · rw [if_pos hbinding]
    exact .inr ⟨_, rfl⟩
  · rw [if_neg hbinding]
    by_cases hdigest : issued.requestDigest = K.challengeRequestDigest request
    · rw [if_neg (not_not.mpr hdigest)]
      exact .inl rfl
    · rw [if_pos hdigest]
      exact .inr ⟨_, rfl⟩

/-- What an answered `issueDecisionChallenge` leaves. -/
structure Answered (K : AgentRuntime A S) (c : Call A) (claims : VerifiedAuthority)
    (request : ChallengeRequest) (r : Response) (issued : Issued) (value : CommandValue)
    (w' : Process S) : Prop where
  tenant : claims.tenantId = request.binding.tenantId
  actor : claims.actor = request.binding.principal
  digest : issued.requestDigest = K.challengeRequestDigest request
  answers : Issued.answers K issued request
  response : K.challengeResponse issued value = .ok r
  issued : w'.issuedByCommand.get (issuerKey claims c.command) = some issued
  command : w'.commands.get (K.commandKey claims c.command) = some ⟨c.command.requestDigest, value⟩

theorem issueDecisionChallenge_ok {runId decisionId : String}
    (h : K.issueDecisionChallenge c runId decisionId w = (.ok r, w')) :
    ∃ claims request issued value,
      K.challengeRequest w c runId decisionId = .ok (claims, request) ∧
      K.Answered c claims request r issued value w' := by
  unfold issueDecisionChallenge at h
  cases hrequest : K.challengeRequest w c runId decisionId with
  | error e => simp [hrequest] at h
  | ok x =>
    obtain ⟨claims, request⟩ := x
    simp only [hrequest] at h
    cases hissue : K.issue w c request with
    | mk answer w₁ =>
      cases answer with
      | error e => simp [hissue] at h
      | ok issued =>
        simp only [hissue] at h
        obtain ⟨claims', hverify, ht, ha, hdigest, hget, -⟩ := issue_ok hissue
        obtain rfl : claims' = claims :=
          Except.ok.inj (hverify.symm.trans (challengeRequest_verified hrequest))
        by_cases hanswers : Issued.answers K issued request
        · rw [if_neg (not_not.mpr hanswers)] at h
          cases htransact : K.transactCommand w₁ claims' c.command
              (K.challengeCallback c runId decisionId claims' request issued) with
          | mk answer w₂ =>
            cases answer with
            | error e => simp [htransact] at h
            | ok value =>
              simp only [htransact, Prod.mk.injEq] at h
              obtain ⟨hresponse, rfl⟩ := h
              obtain ⟨hcommand, hissued⟩ := transactCommand_ok htransact
              exact ⟨claims', request, issued, value, rfl,
                ⟨ht, ha, hdigest, hanswers, hresponse, by rw [hissued, hget], hcommand⟩⟩
        · rw [if_pos hanswers] at h
          cases h

/-- **A challenge again**: it is the first one exactly when the issuer is asked for the same. -/
theorem issueDecisionChallenge_stored {runId decisionId : String} {request : ChallengeRequest}
    {issued : Issued} {value : CommandValue} (h : K.Answered c claims request r issued value w)
    (hverify : K.verify c.authority w.now = .ok claims) :
    (K.issueDecisionChallenge c runId decisionId w = (.ok r, w) ↔
      K.challengeRequest w c runId decisionId = .ok (claims, request)) ∧
      (K.issueDecisionChallenge c runId decisionId w).2 = w := by
  unfold issueDecisionChallenge
  cases hrequest : K.challengeRequest w c runId decisionId with
  | error e => simp
  | ok x =>
    obtain ⟨claims', request'⟩ := x
    obtain rfl : claims' = claims :=
      Except.ok.inj ((challengeRequest_verified hrequest).symm.trans hverify)
    dsimp only
    rcases issue_stored request' hverify h.issued with hissue | ⟨e, hissue⟩
    · rw [hissue]
      dsimp only
      by_cases hanswers : Issued.answers K issued request'
      · -- the stored challenge is what both were asked for
        have heq : request' = request := by
          obtain ⟨hb, hs, he, -⟩ := h.answers
          obtain ⟨hb', hs', he', -⟩ := hanswers
          cases request
          cases request'
          simp_all
        rw [if_neg (not_not.mpr hanswers), transactCommand_stored h.command]
        simp [h.response, heq]
      · rw [if_pos hanswers]
        have hne : request' ≠ request := fun heq => hanswers (heq ▸ h.answers)
        simp [hne]
    · rw [hissue]
      have hne : request' ≠ request := by
        rintro rfl
        rw [issue_again hverify h.issued h.tenant h.actor h.digest] at hissue
        cases hissue
      simp [hne]

/-! ### The replay -/

/-- What a call looks at before its transaction still lets it through; for a challenge, it is the
request of the first call. -/
def Replayable (K : AgentRuntime A S) (c : Call A) (w w'' : Process S) : Prop :=
  match c.request with
  | .start _ | .submitInput .. | .approve .. | .reject .. | .cancel .. => True
  | .issueDecisionChallenge runId decisionId =>
      K.challengeRequest w'' c runId decisionId = K.challengeRequest w c runId decisionId
  | .reconcileEffect runId effectId resolution =>
      ∃ p, K.prepareReconciliation w'' c runId effectId resolution = .ok p
  | .requestCompensation runId effectId _ => ∃ p, K.prepareCompensation w'' c runId effectId = .ok p

/-- A prepared command, called again. -/
theorem prepared_replay {P : Type} {prepare prepare'' : Except Thrown (VerifiedAuthority × P)}
    {callback : P → VerifiedAuthority → CommandInput → Process S → Except Thrown (CommandValue × S)}
    (h : K.prepared prepare command callback w = (.ok r, w')) (hkept : Kept w' w'')
    (hclaims : ∀ x x'', prepare = .ok x → prepare'' = .ok x'' → x''.1 = x.1) :
    (K.prepared prepare'' command callback w'' = (.ok r, w'') ↔ ∃ x, prepare'' = .ok x) ∧
      (K.prepared prepare'' command callback w'').2 = w'' := by
  obtain ⟨claims, p, value, hprepare, rfl, hstored⟩ := prepared_ok h
  exact prepared_stored callback (fun claims' p' h' => hclaims _ _ hprepare h')
    (hkept.commands _ _ hstored)

/-- A command whose transaction comes next, called again. -/
theorem claimed_replay {operation : String} {before after : Except Thrown Unit}
    {callback : Unit → VerifiedAuthority → CommandInput → Process S →
      Except Thrown (CommandValue × S)}
    (hvalid : K.StillValid c w w'') (hkept : Kept w' w'')
    (h : K.prepared ((K.commandClaims w c operation before after).map fun claims => (claims, ()))
      c.command callback w = (.ok r, w')) :
    K.prepared ((K.commandClaims w'' c operation before after).map fun claims => (claims, ()))
      c.command callback w'' = (.ok r, w'') := by
  obtain ⟨claims, p, value, hprepare, rfl, hstored⟩ := prepared_ok h
  have hclaims : K.commandClaims w c operation before after = .ok claims := by
    cases hfirst : K.commandClaims w c operation before after with
    | error e => simp [hfirst, Except.map] at hprepare
    | ok claims' =>
      rw [hfirst] at hprepare
      cases hprepare
      rfl
  rw [commandClaims_later hvalid hclaims]
  exact (prepared_stored callback (fun claims' p' h' => by cases h'; rfl)
    (hkept.commands _ _ hstored)).1.mpr ⟨_, rfl⟩

/-- A challenge, asked for again. -/
theorem issueDecisionChallenge_replay {runId decisionId : String}
    (h : K.issueDecisionChallenge c runId decisionId w = (.ok r, w')) (hkept : Kept w' w'')
    (hverify : K.verify c.authority w''.now = K.verify c.authority w.now) :
    (K.issueDecisionChallenge c runId decisionId w'' = (.ok r, w'') ↔
      K.challengeRequest w'' c runId decisionId = K.challengeRequest w c runId decisionId) ∧
      (K.issueDecisionChallenge c runId decisionId w'').2 = w'' := by
  obtain ⟨claims, request, issued, value, hfirst, hanswered⟩ := issueDecisionChallenge_ok h
  have hlater : K.Answered c claims request r issued value w'' :=
    { hanswered with
      issued := hkept.issued _ _ hanswered.issued
      command := hkept.commands _ _ hanswered.command }
  rw [hfirst]
  exact issueDecisionChallenge_stored hlater
    (hverify.trans (challengeRequest_verified hfirst))

/-- A call that was answered, made again after anything that keeps what is stored. -/
theorem run_again (h : K.run c w = (.ok r, w')) (hkept : Kept w' w'')
    (hvalid : K.StillValid c w w'') :
    (K.run c w'' = (.ok r, w'') ↔ K.Replayable c w w'') ∧ (K.run c w'').2 = w'' := by
  have hsame : ∀ {claims claims''}, K.verify c.authority w.now = .ok claims →
      K.verify c.authority w''.now = .ok claims'' → claims'' = claims := by
    intro claims claims'' h₁ h₂
    rw [hvalid.authority, h₁] at h₂
    exact (Except.ok.inj h₂).symm
  unfold run at h ⊢
  unfold Replayable
  cases hrequest : c.request with
  | start _ | submitInput _ _ _ | approve _ _ _ | reject _ _ _ _ | cancel _ _ =>
    -- nothing but the claims is looked at before the row
    simp only [hrequest] at h ⊢
    have hagain := claimed_replay hvalid hkept h
    exact ⟨iff_true_intro hagain, congrArg Prod.snd hagain⟩
  | reconcileEffect runId effectId resolution =>
    simp only [hrequest] at h ⊢
    refine prepared_replay h hkept fun x x'' hx hx'' => ?_
    exact hsame (prepareReconciliation_verified (p := x.2) hx)
      (prepareReconciliation_verified (p := x''.2) hx'')
  | requestCompensation runId effectId request =>
    simp only [hrequest] at h ⊢
    refine prepared_replay h hkept fun x x'' hx hx'' => ?_
    exact hsame (prepareCompensation_verified (p := x.2) hx)
      (prepareCompensation_verified (p := x''.2) hx'')
  | issueDecisionChallenge runId decisionId =>
    simp only [hrequest] at h ⊢
    exact issueDecisionChallenge_replay h hkept hvalid.authority

/-- **Nothing is committed again**: such a call changes nothing, answered or not. -/
theorem replay_commits_nothing (h : K.run c w = (.ok r, w')) (hlater : K.Later w' w'')
    (hvalid : K.StillValid c w w'') : (K.run c w'').2 = w'' :=
  (run_again h hlater.kept hvalid).2

/-- The request for a challenge has the clock of its call in it. -/
theorem challengeRequest_expiresAt {runId decisionId : String} {request : ChallengeRequest}
    (h : K.challengeRequest w c runId decisionId = .ok (claims, request)) :
    request.expiresAt.milliseconds = w.now + K.decisionChallengeTtlMs := by
  simp only [challengeRequest, bind_eq_ok] at h
  obtain ⟨claims', -, u₁, -, u₂, -, u₃, -, u₄, -, gate, -, hrequest⟩ := h
  cases hrequest
  rfl

/-- **A challenge is not returned later**: only a call at the same reading of the clock repeats
it. -/
theorem challenge_replay_now {runId decisionId : String}
    (hrequest : c.request = .issueDecisionChallenge runId decisionId)
    (h : K.run c w = (.ok r, w')) (hlater : K.Later w' w'') (hvalid : K.StillValid c w w'')
    (hreplay : K.run c w'' = (.ok r, w'')) : w''.now = w.now := by
  have hsame := (run_again h hlater.kept hvalid).1.mp hreplay
  simp only [Replayable, hrequest] at hsame
  unfold run at h
  simp only [hrequest] at h
  obtain ⟨claims, request, issued, value, hfirst, -⟩ := issueDecisionChallenge_ok h
  have h₁ := challengeRequest_expiresAt hfirst
  have h₂ := challengeRequest_expiresAt (hsame.trans hfirst)
  omega

section Witness

/-- A person who may decide. -/
def person : VerifiedAuthority where
  issuerId := "issuer"
  tenantId := "tenant"
  actor := ⟨.user, "user"⟩
  runScope := none
  decisionRoles := []

/-- A run that waits for a decision. -/
def waitingRun : RunProjection :=
  { createRunProjection
      { runId := "run"
        tenantId := "tenant"
        workOrderId := "work-order"
        workOrderBindingDigest := "binding"
        executionDefinition := .agent "agent" "1" "definition"
        executionDefinitionDigest := "definition"
        status := .waiting_for_approval
        createdAt := 0
        updatedAt := 0
        dataClass := .internal
        correlationId := "correlation" } with
    waitingDecisionId := some "decision" }

/-- The gate of that decision. -/
def waitingFor : Decision.Gate where
  decisionId := "decision"
  tenantId := "tenant"
  runId := "run"
  requestingEventId := "event"
  binding :=
    { tenantId := "tenant"
      principal := ⟨.user, "user"⟩
      runId := "run"
      stepId := "step"
      decisionId := "decision"
      workOrderBindingDigest := "binding"
      executionDefinition := .agent "agent" "1" "definition"
      executionDefinitionDigest := "definition"
      toolId := "mail.send"
      toolVersion := "1"
      toolRegistrationDigest := "tool"
      argumentsDigest := "arguments"
      targetDigest := "target"
      contentDigest := none
      previewDigest := "preview"
      purpose := ⟨"purpose", "1"⟩
      policyRegistrationDigest := "policy" }
  decisionGateDigest := "gate"
  requiredAuthenticationStrength := .single_factor
  createdAt := ⟨"2026-08-03T12:00:00.000Z", 1785758400000⟩

/-- A local runtime with that run, whose stores take every write. -/
def localRuntime : AgentRuntime Unit Unit where
  verify _ _ := .ok person
  window := {}
  decisionChallengeTtlMs := 300000
  typedInput := true
  humanDecisions := true
  effectServices := false
  compensationServices := false
  compensationDomain := false
  knownPurpose _ := true
  projection _ _ _ := some waitingRun
  workOrder _ _ _ := none
  gate _ _ := some waitingFor
  effect _ _ _ _ := none
  acknowledgedResult _ _ := none
  resolveAgent _ _ := false
  resolveTool _ _ := none
  resolveStrategy _ _ := none
  lookup _ _ _ := .unknown
  validateExecution _ _ execution := .ok execution
  protectResult _ _ _ _ := .ok .null
  compensableTool _ _ := none
  compensation _ _ := none
  registeredCompensation _ _ := none
  killed _ _ _ := false
  commandKey _ command := command.commandId
  payloadDigest _ := "request"
  jsonDigest _ := "json"
  gateDigest gate := gate.decisionGateDigest
  challengeRequestDigest request := request.expiresAt.text
  proofDigest challengeProof := challengeProof
  isoText milliseconds :=
    if milliseconds = 1785758700000 then "2026-08-03T12:05:00.000Z" else "2026-08-03T12:05:00.001Z"
  challengeProof _ := "pactmark_local_proof"
  challengeId _ := "challenge"
  putDecisionChallenge _ _ := .ok ()
  recordCommand _ _ _ := .ok ()
  claimed _ _ _ _ := .ok (.value .null, ())
  reconcile _ _ _ _ _ := .ok (.value .null, ())
  compensate _ _ _ _ _ := .ok (.value .null, ())

/-- Nothing has been called, and the clock is at `now`. -/
def idle (now : Int) : Process Unit :=
  ⟨now, (), .empty, .empty⟩

/-- The person asks for a challenge. -/
def asks : Call Unit where
  authority := ()
  request := .issueDecisionChallenge "run" "decision"
  command :=
    { commandId := "kafcmd_1785758400000_00000000000000000000000000000000"
      operation := "run.issue_decision_challenge"
      normalizedResourceScope := [⟨.run, "run", "1"⟩, ⟨.identifier, "decision", "1"⟩]
      requestDigest := "request" }

/-- The person cancels the run. -/
def cancels : Call Unit where
  authority := ()
  request := .cancel "run" none
  command :=
    { commandId := "kafcmd_1785758400000_00000000000000000000000000000000"
      operation := "run.cancel"
      normalizedResourceScope := []
      requestDigest := "request" }

/-- The process after a call that was answered, one millisecond later. -/
def afterwards (c : Call Unit) : Process Unit :=
  { (localRuntime.run c (idle 1785758400000)).2 with now := 1785758400001 }

theorem later_afterwards (c : Call Unit)
    (hnow : (localRuntime.run c (idle 1785758400000)).2.now = 1785758400000) :
    localRuntime.Later (localRuntime.run c (idle 1785758400000)).2 (afterwards c) :=
  .single (.tick _ _ (by rw [hnow]; decide))

theorem stillValid_afterwards (c : Call Unit)
    (hid : c.command.commandId = "kafcmd_1785758400000_00000000000000000000000000000000") :
    localRuntime.StillValid c (idle 1785758400000) (afterwards c) where
  authority := rfl
  window := by
    rw [hid]
    change assertCommandWindow {} 1785758400001
      "kafcmd_1785758400000_00000000000000000000000000000000" = .ok ()
    decide
  runScope claims runId hclaims _ := by
    cases hclaims
    rfl

end Witness

end AgentRuntime

end CommandReplay

end Pactmark
