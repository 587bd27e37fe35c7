import Pactmark.Core.Capability
import Pactmark.Durable.OrderedMap
import Pactmark.Durable.Runs
import Pactmark.Protocol.Replay

/-!
# Policy — the credentials of tools

`createMemoryToolCredentialBoundary` of `policy/src/secrets.ts`, with the schemas of
`core/src/tool-credential.ts`.  `resolve` reads the reference and goes on later, so that any other
call may come in between.  Canonical JSON is the value it is made of, and a nested map is one map.
`Date.parse` and the check of a datetime are the language's own.

* `Sound.step`: what every step keeps.
* `credentials_bounded`: what holds of every interleaving.
* `revoked_never_resolves`: a resolution that is begun after a revocation is refused.
* `replay_resolves`: a reservation that has resolved a credential resolves it again.
* `issued_allowed`: what a slot allows holds of every credential, if only issued references are
  stored.
-/

namespace Pactmark

open Durable

namespace Policy.Credentials

/-! ### Schemas -/

/-- `executionDefinitionKind`. -/
inductive ExecutionDefinitionKind where
  | agent
  | compensation
  deriving DecidableEq

/-- `ToolCredentialIssueRequest`. -/
structure ToolCredentialIssueRequest where
  tenantId : String
  authoritySubject : String
  workOrderBindingDigest : Digest
  executionDefinitionKind : ExecutionDefinitionKind
  executionDefinitionDigest : Digest
  grantId : String
  toolId : String
  toolVersion : String
  toolRegistrationDigest : Digest
  credentialSlot : String
  normalizedDestinationDigest : Digest
  effectDigest : Option Digest
  purpose : String
  maximumUses : Nat
  expiresAt : String
  deriving DecidableEq

/-- `SecretRef`. -/
structure SecretRef extends ToolCredentialIssueRequest where
  refId : String
  issuerId : String
  issuedAt : String
  revokedAt : Option String
  deriving DecidableEq

/-- `SecretResolutionBinding`. -/
structure SecretResolutionBinding where
  authorizationReservationId : String
  tenantId : String
  workOrderBindingDigest : Digest
  executionDefinitionDigest : Digest
  grantId : String
  toolRegistrationDigest : Digest
  credentialSlot : String
  normalizedDestinationDigest : Digest
  effectDigest : Option Digest
  deriving DecidableEq

/-- `RegisteredCredentialSlot`. -/
structure RegisteredCredentialSlot where
  slot : String
  value : String
  allowedToolRegistrationDigests : List Digest
  allowedDestinationDigests : List Digest
  allowedPurposes : List String
  allowedExecutionKinds : List ExecutionDefinitionKind

/-- What the boundary is made with, and what it uses of the language. -/
structure BoundaryInput where
  issuerId : String
  slots : List RegisteredCredentialSlot
  authorizeIssue : ToolCredentialIssueRequest → Bool
  isoDatetime : String → Bool
  dateParse : String → Option Int

/-- `IdSchema`. -/
def idParses (id : String) : Bool :=
  decide (1 ≤ codeUnits id ∧ codeUnits id ≤ 250)

/-- `z.string().min(1)`. -/
def nonempty (text : String) : Bool :=
  decide (1 ≤ codeUnits text)

/-- `ToolCredentialIssueRequestSchema`. -/
@[irreducible] def ToolCredentialIssueRequest.parses (B : BoundaryInput)
    (r : ToolCredentialIssueRequest) : Bool :=
  idParses r.tenantId && idParses r.authoritySubject && digestParses r.workOrderBindingDigest &&
    digestParses r.executionDefinitionDigest && idParses r.grantId && idParses r.toolId &&
    nonempty r.toolVersion && digestParses r.toolRegistrationDigest && nonempty r.credentialSlot &&
    digestParses r.normalizedDestinationDigest && r.effectDigest.all digestParses &&
    nonempty r.purpose && decide (0 < r.maximumUses ∧ r.maximumUses ≤ 9007199254740991) &&
    B.isoDatetime r.expiresAt

/-- `SecretRefSchema`. -/
def SecretRef.parses (B : BoundaryInput) (r : SecretRef) : Bool :=
  r.toToolCredentialIssueRequest.parses B && idParses r.refId && idParses r.issuerId &&
    B.isoDatetime r.issuedAt && r.revokedAt.all B.isoDatetime

/-- `SecretResolutionBindingSchema`. -/
def SecretResolutionBinding.parses (b : SecretResolutionBinding) : Bool :=
  idParses b.authorizationReservationId && idParses b.tenantId &&
    digestParses b.workOrderBindingDigest && digestParses b.executionDefinitionDigest &&
    idParses b.grantId && digestParses b.toolRegistrationDigest && nonempty b.credentialSlot &&
    digestParses b.normalizedDestinationDigest && b.effectDigest.all digestParses

/-! ### The boundary -/

/-- What is thrown: a `SecretBoundaryError`, the error of a schema, or a `TypeError`. -/
inductive Refusal where
  | boundary (reason : String)
  | schema
  | emptyCredential
  deriving DecidableEq

/-- `sameBinding`. -/
def sameBinding (ref : SecretRef) (binding : SecretResolutionBinding) : Bool :=
  ref.tenantId = binding.tenantId ∧
    ref.workOrderBindingDigest = binding.workOrderBindingDigest ∧
    ref.executionDefinitionDigest = binding.executionDefinitionDigest ∧
    ref.grantId = binding.grantId ∧
    ref.toolRegistrationDigest = binding.toolRegistrationDigest ∧
    ref.credentialSlot = binding.credentialSlot ∧
    ref.normalizedDestinationDigest = binding.normalizedDestinationDigest ∧
    ref.effectDigest = binding.effectDigest

/-- `Date.parse(now) >= Date.parse(expiresAt)`; a text that is no date compares with none. -/
def reached (B : BoundaryInput) (now expiresAt : String) : Bool :=
  match B.dateParse now, B.dateParse expiresAt with
  | some now, some expiresAt => decide (expiresAt ≤ now)
  | _, _ => false

/-- `slotDefinitions`. -/
def slotDefinitions (B : BoundaryInput) : OrderedMap String RegisteredCredentialSlot :=
  B.slots.foldl (fun slots slot => slots.set slot.slot slot) .empty

/-- `tenantId` and `refId`. -/
abbrev RefKey := String × String

/-- The key of a reference. -/
def SecretRef.key (ref : SecretRef) : RefKey :=
  (ref.tenantId, ref.refId)

/-- `metadata` and `uses`. -/
structure Boundary where
  metadata : OrderedMap RefKey SecretRef
  uses : OrderedMap RefKey (OrderedMap String SecretResolutionBinding)

namespace Boundary

/-- `store.putImmutable`. -/
def putImmutable (B : BoundaryInput) (s : Boundary) (ref : SecretRef) :
    Except Refusal Unit × Boundary :=
  if ref.parses B then
    if (s.metadata.get ref.key).any (· ≠ ref) then
      (.error (.boundary "SecretRef immutable binding conflict"), s)
    else (.ok (), { s with metadata := s.metadata.set ref.key ref })
  else (.error .schema, s)

/-- `store.revoke`. -/
def revoke (B : BoundaryInput) (s : Boundary) (tenantId refId revokedAt : String) :
    Except Refusal Unit × Boundary :=
  match s.metadata.get (tenantId, refId) with
  | none => (.error (.boundary "SecretRef is unavailable"), s)
  | some ref =>
      let revoked := { ref with revokedAt := some revokedAt }
      if revoked.parses B then
        (.ok (), { s with metadata := s.metadata.set (tenantId, refId) revoked })
      else (.error .schema, s)

/-- What `resolve` does when it has read the reference. -/
def resolve (B : BoundaryInput) (s : Boundary) (ref : SecretRef) (binding : SecretResolutionBinding)
    (stored : Option SecretRef) (now : String) : Except Refusal String × Boundary :=
  match stored, (slotDefinitions B).get ref.credentialSlot with
  | some stored, some slot =>
      if stored ≠ ref ∨ stored.issuerId ≠ B.issuerId ∨ stored.revokedAt ≠ none ∨
          reached B now stored.expiresAt ∨ ¬ sameBinding stored binding then
        (.error (.boundary "Credential resolution binding is denied"), s)
      else
        let refUses := (s.uses.get ref.key).getD .empty
        let replay := refUses.get binding.authorizationReservationId
        if replay.any (· ≠ binding) then
          (.error (.boundary "Authorization reservation binding changed"), s)
        else if replay = none ∧ ref.maximumUses ≤ refUses.entries.length then
          (.error (.boundary "Credential use is exhausted"), s)
        else
          let refUses := refUses.set binding.authorizationReservationId binding
          let used := { s with uses := s.uses.set ref.key refUses }
          if slot.value.isEmpty then (.error .emptyCredential, used) else (.ok slot.value, used)
  | _, _ => (.error (.boundary "Credential resolution binding is denied"), s)

end Boundary

/-- `issuer.issue`, with what the clock answers first, the id generator, and the clock again. -/
def issue (B : BoundaryInput) (request : ToolCredentialIssueRequest)
    (now refId issuedAt : String) : Except Refusal SecretRef :=
  if request.parses B then
    match (slotDefinitions B).get request.credentialSlot with
    | none => .error (.boundary "Credential issuance binding is denied")
    | some slot =>
        if slot.value.isEmpty ∨ ¬ B.authorizeIssue request ∨
            request.toolRegistrationDigest ∉ slot.allowedToolRegistrationDigests ∨
            request.normalizedDestinationDigest ∉ slot.allowedDestinationDigests ∨
            request.purpose ∉ slot.allowedPurposes ∨
            request.executionDefinitionKind ∉ slot.allowedExecutionKinds ∨
            reached B now request.expiresAt then
          .error (.boundary "Credential issuance binding is denied")
        else
          let ref : SecretRef :=
            { request with refId, issuerId := B.issuerId, issuedAt, revokedAt := none }
          if ref.parses B then .ok ref else .error .schema
  else .error .schema

/-! ### Interleaved calls -/

/-- How far a `resolve` is. -/
inductive ResolvePhase where
  | waiting (stored : Option SecretRef)
  | answered (answer : Except Refusal String)

/-- A `resolve`. -/
structure ResolveCall where
  ref : SecretRef
  binding : SecretResolutionBinding
  phase : ResolvePhase

/-- A step of the boundary. -/
inductive CredentialStep where
  | issue (request : ToolCredentialIssueRequest) (now refId issuedAt : String)
  | putImmutable (ref : SecretRef)
  | revoke (tenantId refId revokedAt : String)
  | resolve (ref : SecretRef) (binding : SecretResolutionBinding)
  /-- A `resolve` goes on, at what the clock answers. -/
  | resume (call : Nat) (now : String)

/-- The boundary, the calls of `resolve` and the references that were issued. -/
structure CredentialSystem extends Boundary where
  calls : List ResolveCall
  issued : List SecretRef

namespace CredentialSystem

/-- At the start nothing is stored. -/
def start : CredentialSystem where
  metadata := .empty
  uses := .empty
  calls := []
  issued := []

/-- One step. -/
def step (B : BoundaryInput) (s : CredentialSystem) : CredentialStep → CredentialSystem
  | .issue request now refId issuedAt =>
      match Credentials.issue B request now refId issuedAt with
      | .ok ref => { s with issued := s.issued ++ [ref] }
      | .error _ => s
  | .putImmutable ref => { s with toBoundary := (s.toBoundary.putImmutable B ref).2 }
  | .revoke tenantId refId revokedAt =>
      { s with toBoundary := (s.toBoundary.revoke B tenantId refId revokedAt).2 }
  | .resolve ref binding =>
      let phase :=
        if ref.parses B && binding.parses then .waiting (s.metadata.get ref.key)
        else .answered (.error .schema)
      { s with calls := s.calls ++ [⟨ref, binding, phase⟩] }
  | .resume i now =>
      match s.calls[i]? with
      | some ⟨ref, binding, .waiting stored⟩ =>
          let (answer, boundary) := s.toBoundary.resolve B ref binding stored now
          { s with
            toBoundary := boundary
            calls := s.calls.set i ⟨ref, binding, .answered answer⟩ }
      | _ => s

/-- What steps leave. -/
def run (B : BoundaryInput) (steps : List CredentialStep) : CredentialSystem :=
  steps.foldl (step B) start

end CredentialSystem

/-! ### What the operations do -/

/-- What a revocation does not change. -/
def SecretRef.unrevoked (ref : SecretRef) : SecretRef :=
  { ref with revokedAt := none }

variable {B : BoundaryInput} {b b' b'' : Boundary} {s : CredentialSystem}

/-- What was stored is there, revoked perhaps, and what was used is used. -/
structure Boundary.Extends (b b' : Boundary) : Prop where
  metadata : ∀ k m, b.metadata.get k = some m → ∃ m', b'.metadata.get k = some m' ∧
    m'.unrevoked = m.unrevoked ∧ (m.revokedAt ≠ none → m'.revokedAt ≠ none)
  uses : ∀ k u, b.uses.get k = some u → ∃ u', b'.uses.get k = some u' ∧
    ∀ id binding, u.get id = some binding → u'.get id = some binding

theorem Boundary.Extends.refl (b : Boundary) : b.Extends b where
  metadata _ m hm := ⟨m, hm, rfl, id⟩
  uses _ u hu := ⟨u, hu, fun _ _ => id⟩

theorem Boundary.Extends.trans (h : b.Extends b') (h' : b'.Extends b'') : b.Extends b'' where
  metadata k m hm := by
    obtain ⟨m', hm', hsame, hrevoked⟩ := h.metadata k m hm
    obtain ⟨m'', hm'', hsame', hrevoked'⟩ := h'.metadata k m' hm'
    exact ⟨m'', hm'', hsame'.trans hsame, hrevoked' ∘ hrevoked⟩
  uses k u hu := by
    obtain ⟨u', hu', huse⟩ := h.uses k u hu
    obtain ⟨u'', hu'', huse'⟩ := h'.uses k u' hu'
    exact ⟨u'', hu'', fun id binding => huse' id binding ∘ huse id binding⟩

/-- What a call of the store leaves: a reference is stored that was not there, or is revoked. -/
inductive Boundary.Stores (B : BoundaryInput) (b : Boundary) : Boundary → Prop where
  | same : Stores B b b
  | put (ref : SecretRef) (h : b.metadata.get ref.key = none ∨ b.metadata.get ref.key = some ref) :
      Stores B b { b with metadata := b.metadata.set ref.key ref }
  | revoke (k : RefKey) (ref : SecretRef) (at' : String) (h : b.metadata.get k = some ref) :
      Stores B b { b with metadata := b.metadata.set k { ref with revokedAt := some at' } }

theorem Boundary.stores_putImmutable (b : Boundary) (ref : SecretRef) :
    b.Stores B (b.putImmutable B ref).2 := by
  unfold Boundary.putImmutable
  split
  · split
    · exact .same
    · rename_i hany
      refine .put ref ?_
      cases hget : b.metadata.get ref.key with
      | none => exact .inl rfl
      | some existing =>
          rw [hget, Option.any_some, decide_eq_true_eq, not_not] at hany
          exact .inr (congrArg some hany)
  · exact .same

theorem Boundary.stores_revoke (b : Boundary) (tenantId refId revokedAt : String) :
    b.Stores B (b.revoke B tenantId refId revokedAt).2 := by
  unfold Boundary.revoke
  split
  · exact .same
  · rename_i ref hget
    dsimp only
    split
    · exact .revoke (tenantId, refId) ref revokedAt hget
    · exact .same

theorem Boundary.Stores.extends (h : b.Stores B b') : b.Extends b' := by
  cases h with
  | same => exact .refl b
  | put ref hget =>
      refine ⟨fun k m hm => ?_, fun _ u hu => ⟨u, hu, fun _ _ => id⟩⟩
      by_cases hk : k = ref.key
      · subst hk
        refine ⟨ref, by simp [OrderedMap.get_set], ?_⟩
        rcases hget with hget | hget
        · exact absurd (hget.symm.trans hm) (by rintro ⟨⟩)
        · obtain rfl := Option.some.inj (hget.symm.trans hm)
          exact ⟨rfl, id⟩
      · exact ⟨m, by simpa [OrderedMap.get_set, hk] using hm, rfl, id⟩
  | revoke key ref at' hget =>
      refine ⟨fun k m hm => ?_, fun _ u hu => ⟨u, hu, fun _ _ => id⟩⟩
      by_cases hk : k = key
      · subst hk
        obtain rfl := Option.some.inj (hget.symm.trans hm)
        refine ⟨{ ref with revokedAt := some at' }, by simp [OrderedMap.get_set], rfl, fun _ => ?_⟩
        exact Option.some_ne_none at'
      · exact ⟨m, by simpa [OrderedMap.get_set, hk] using hm, rfl, id⟩

/-- What is checked of a resolution that uses the reference. -/
structure Checked (B : BoundaryInput) (b : Boundary) (ref : SecretRef)
    (binding : SecretResolutionBinding) (stored : Option SecretRef)
    (slot : RegisteredCredentialSlot) : Prop where
  stored : stored = some ref
  issuer : ref.issuerId = B.issuerId
  unrevoked : ref.revokedAt = none
  same : sameBinding ref binding = true
  slot : (slotDefinitions B).get ref.credentialSlot = some slot
  use : ((b.uses.get ref.key).getD .empty).get binding.authorizationReservationId = some binding ∨
    ((b.uses.get ref.key).getD .empty).get binding.authorizationReservationId = none ∧
      ((b.uses.get ref.key).getD .empty).entries.length < ref.maximumUses

/-- The uses when the reference is used. -/
def Boundary.use (b : Boundary) (ref : SecretRef) (binding : SecretResolutionBinding) : Boundary :=
  { b with uses := b.uses.set ref.key (((b.uses.get ref.key).getD .empty).set
      binding.authorizationReservationId binding) }

/-- **A resolution** is refused, or it is checked and uses the reference. -/
theorem Boundary.resolve_cases (b : Boundary) (ref : SecretRef) (binding : SecretResolutionBinding)
    (stored : Option SecretRef) (now : String) :
    (∃ e, b.resolve B ref binding stored now = (.error e, b)) ∨
      ∃ slot, Checked B b ref binding stored slot ∧
        b.resolve B ref binding stored now =
          (if slot.value.isEmpty then .error .emptyCredential else .ok slot.value,
            b.use ref binding) := by
  unfold Boundary.resolve
  split
  · rename_i stored slot hslot
    split
    · exact .inl ⟨_, rfl⟩
    · rename_i hchecks
      simp only [not_or, not_not] at hchecks
      obtain ⟨rfl, hissuer, hrevoked, -, hsame⟩ := hchecks
      dsimp only
      split
      · exact .inl ⟨_, rfl⟩
      · rename_i hreplay
        split
        · exact .inl ⟨_, rfl⟩
        · rename_i hexhausted
          refine .inr ⟨slot, ⟨rfl, hissuer, hrevoked, hsame, hslot, ?_⟩, ?_⟩
          · cases hget : ((b.uses.get stored.key).getD .empty).get
                binding.authorizationReservationId with
            | none =>
                rw [hget] at hexhausted
                simp only [true_and, Nat.not_le] at hexhausted
                exact .inr ⟨rfl, hexhausted⟩
            | some used =>
                rw [hget, Option.any_some, decide_eq_true_eq, not_not] at hreplay
                exact .inl (congrArg some hreplay)
          · split <;> rfl
  · exact .inl ⟨_, rfl⟩

theorem Checked.extends {binding : SecretResolutionBinding} {ref : SecretRef}
    {stored : Option SecretRef} {slot : RegisteredCredentialSlot}
    (h : Checked B b ref binding stored slot) : b.Extends (b.use ref binding) := by
  refine ⟨fun _ m hm => ⟨m, hm, rfl, id⟩, fun k u hu => ?_⟩
  by_cases hk : k = ref.key
  · subst hk
    refine ⟨u.set binding.authorizationReservationId binding, ?_, fun id used hused => ?_⟩
    · simp [Boundary.use, OrderedMap.get_set, hu]
    · rw [OrderedMap.get_set]
      split
      · rename_i hid
        have huse := h.use
        rw [hu, Option.getD_some, ← hid, hused] at huse
        rcases huse with huse | ⟨huse, -⟩
        · exact huse.symm
        · cases huse
      · exact hused
  · exact ⟨u, by simpa [Boundary.use, OrderedMap.get_set, hk] using hu, fun _ _ => id⟩

/-! ### The invariant -/

/-- What is known of a resolution that gave a credential. -/
structure Resolved (B : BoundaryInput) (b : Boundary) (c : ResolveCall) (value : String) :
    Prop where
  stored : ∃ m, b.metadata.get c.ref.key = some m ∧ m.unrevoked = c.ref
  issuer : c.ref.issuerId = B.issuerId
  same : sameBinding c.ref c.binding = true
  slot : ∃ slot, (slotDefinitions B).get c.ref.credentialSlot = some slot ∧ slot.value = value ∧
    value.isEmpty = false
  used : ∃ u, b.uses.get c.ref.key = some u ∧
    u.get c.binding.authorizationReservationId = some c.binding

/-- What holds in every state. -/
structure Sound (B : BoundaryInput) (s : CredentialSystem) : Prop where
  keyed : ∀ k m, s.metadata.get k = some m → m.key = k
  read : ∀ c ∈ s.calls, ∀ stored, c.phase = .waiting (some stored) →
    ∃ m, s.metadata.get c.ref.key = some m ∧ m.unrevoked = stored.unrevoked
  resolved : ∀ c ∈ s.calls, ∀ value, c.phase = .answered (.ok value) →
    Resolved B s.toBoundary c value
  within : ∀ k u, s.uses.get k = some u →
    ∃ m, s.metadata.get k = some m ∧ u.entries.length ≤ m.maximumUses
  parsed : ∀ c ∈ s.calls, (∀ e, c.phase ≠ .answered (.error e)) →
    (c.ref.parses B && c.binding.parses) = true

theorem Resolved.extends {c : ResolveCall} {value : String} (h : Resolved B b c value)
    (hext : b.Extends b') : Resolved B b' c value where
  stored := by
    obtain ⟨m, hm, hsame⟩ := h.stored
    obtain ⟨m', hm', hsame', -⟩ := hext.metadata _ _ hm
    exact ⟨m', hm', hsame'.trans hsame⟩
  issuer := h.issuer
  same := h.same
  slot := h.slot
  used := by
    obtain ⟨u, hu, huse⟩ := h.used
    obtain ⟨u', hu', huse'⟩ := hext.uses _ _ hu
    exact ⟨u', hu', huse' _ _ huse⟩

theorem sound_start : Sound B .start where
  keyed k m h := by simp [CredentialSystem.start] at h
  read c hc := by cases hc
  resolved c hc := by cases hc
  within k u h := by simp [CredentialSystem.start] at h
  parsed c hc := by cases hc

/-- A call of the store. -/
theorem Sound.stores (h : Sound B s) (hstores : s.toBoundary.Stores B b') :
    Sound B { s with toBoundary := b' } := by
  have hext := hstores.extends
  refine ⟨?_, fun c hc stored hphase => ?_,
    fun c hc value hphase => (h.resolved c hc value hphase).extends hext, ?_, h.parsed⟩
  · intro k m hm
    cases hstores with
    | same => exact h.keyed k m hm
    | put ref hget =>
        dsimp only at hm
        rw [OrderedMap.get_set] at hm
        split at hm
        · rename_i hk
          rw [← Option.some.inj hm, hk]
        · exact h.keyed k m hm
    | revoke key ref at' hget =>
        dsimp only at hm
        rw [OrderedMap.get_set] at hm
        split at hm
        · rename_i hk
          rw [← Option.some.inj hm, hk]
          exact h.keyed key ref hget
        · exact h.keyed k m hm
  · obtain ⟨m, hm, hsame⟩ := h.read c hc stored hphase
    obtain ⟨m', hm', hsame', -⟩ := hext.metadata _ _ hm
    exact ⟨m', hm', hsame'.trans hsame⟩
  · intro k u hu
    have huses : b'.uses = s.uses := by
      cases hstores <;> rfl
    obtain ⟨m, hm, hle⟩ := h.within k u (huses ▸ hu)
    obtain ⟨m', hm', hsame', -⟩ := hext.metadata _ _ hm
    refine ⟨m', hm', hle.trans_eq ?_⟩
    exact (congrArg (fun m => m.maximumUses) hsame').symm

/-- A reservation that resolves again takes no more room. -/
theorem length_set_of_get {u : OrderedMap String SecretResolutionBinding} {id : String}
    {binding : SecretResolutionBinding} (h : u.get id = some binding) :
    (u.set id binding).entries.length = u.entries.length := by
  have hmem : id ∈ u.entries.map Prod.fst :=
    List.mem_map.mpr ⟨_, OrderedMap.get_eq_some_iff.mp h, rfl⟩
  unfold OrderedMap.set
  rw [dif_pos hmem, List.length_map]

/-- **A resolution goes on.** -/
theorem Sound.resume (h : Sound B s) (i : Nat) (now : String) :
    Sound B (s.step B (.resume i now)) := by
  dsimp only [CredentialSystem.step]
  split
  · rename_i ref binding stored hcall
    have hmem : (⟨ref, binding, .waiting stored⟩ : ResolveCall) ∈ s.calls :=
      List.mem_of_getElem? hcall
    have hset : ∀ answer, ∀ c ∈ s.calls.set i ⟨ref, binding, .answered answer⟩,
        c ∈ s.calls ∨ c = ⟨ref, binding, .answered answer⟩ :=
      fun answer c hc => List.mem_or_eq_of_mem_set hc
    have hparsed : ∀ answer, ∀ c ∈ s.calls.set i ⟨ref, binding, .answered answer⟩,
        (∀ e, c.phase ≠ .answered (.error e)) → (c.ref.parses B && c.binding.parses) = true := by
      intro answer c hc hphase
      rcases hset answer c hc with hc | rfl
      · exact h.parsed c hc hphase
      · exact h.parsed ⟨ref, binding, .waiting stored⟩ hmem (by rintro e ⟨⟩)
    rcases s.toBoundary.resolve_cases ref binding stored now with
      ⟨e, he⟩ | ⟨slot, hchecked, hresolve⟩
    · rw [he]
      refine ⟨h.keyed, fun c hc stored hphase => ?_, fun c hc value hphase => ?_, h.within,
        hparsed _⟩
      · rcases hset _ c hc with hc | rfl
        · exact h.read c hc stored hphase
        · cases hphase
      · rcases hset _ c hc with hc | rfl
        · exact h.resolved c hc value hphase
        · cases hphase
    · rw [hresolve]
      have hext := hchecked.extends
      obtain ⟨m, hm, hsame⟩ := h.read _ hmem ref (congrArg _ hchecked.stored)
      have hunrevoked : ref.unrevoked = ref := by
        have hrevoked := hchecked.unrevoked
        cases ref
        dsimp only at hrevoked
        rw [hrevoked]
        rfl
      refine ⟨h.keyed, fun c hc stored hphase => ?_, fun c hc value hphase => ?_, fun k u hu => ?_,
        hparsed _⟩
      · rcases hset _ c hc with hc | rfl
        · exact h.read c hc stored hphase
        · cases hphase
      · rcases hset _ c hc with hc | rfl
        · exact (h.resolved c hc value hphase).extends hext
        · refine ⟨⟨m, hm, hsame.trans hunrevoked⟩, hchecked.issuer, hchecked.same,
            ⟨slot, hchecked.slot, ?_⟩, ?_⟩
          · dsimp only at hphase
            split at hphase
            · cases hphase
            · rename_i hempty
              cases hphase
              exact ⟨rfl, Bool.eq_false_iff.mpr hempty⟩
          · refine ⟨((s.uses.get ref.key).getD .empty).set binding.authorizationReservationId
              binding, ?_, ?_⟩
            · simp [Boundary.use, OrderedMap.get_set]
            · exact OrderedMap.get_set_self ..
      · by_cases hk : k = ref.key
        · subst hk
          have hmax : m.maximumUses = ref.maximumUses :=
            congrArg (fun m => m.maximumUses) hsame
          refine ⟨m, hm, ?_⟩
          simp only [Boundary.use, OrderedMap.get_set, if_true, Option.some.injEq] at hu
          rw [← hu, hmax]
          have hsize : ((s.uses.get ref.key).getD .empty).entries.length ≤ ref.maximumUses := by
            cases hget : s.uses.get ref.key with
            | none => exact Nat.zero_le _
            | some u' =>
                obtain ⟨m', hm', hle⟩ := h.within _ _ hget
                obtain rfl := Option.some.inj (hm.symm.trans hm')
                exact hle.trans_eq hmax
          rcases hchecked.use with huse | ⟨huse, hlt⟩
          · exact (length_set_of_get huse).le.trans hsize
          · rw [OrderedMap.set_entries_of_fresh binding (OrderedMap.get_eq_none_iff.mp huse),
              List.length_append]
            exact hlt
        · exact h.within k u (by simpa [Boundary.use, OrderedMap.get_set, hk] using hu)
  · exact h

/-- **One step.** -/
theorem Sound.step (h : Sound B s) (call : CredentialStep) : Sound B (s.step B call) := by
  cases call with
  | issue request now refId issuedAt =>
      dsimp only [CredentialSystem.step]
      split
      · exact ⟨h.keyed, h.read, h.resolved, h.within, h.parsed⟩
      · exact h
  | putImmutable ref => exact h.stores (s.toBoundary.stores_putImmutable ref)
  | revoke tenantId refId revokedAt =>
      exact h.stores (s.toBoundary.stores_revoke tenantId refId revokedAt)
  | resolve ref binding =>
      refine ⟨h.keyed, fun c hc stored hphase => ?_, fun c hc value hphase => ?_, h.within,
        fun c hc hphase => ?_⟩
      · rcases List.mem_append.mp hc with hc | hc
        · exact h.read c hc stored hphase
        · rw [List.mem_singleton.mp hc] at hphase ⊢
          dsimp only at hphase ⊢
          split at hphase
          · exact ⟨stored, ResolvePhase.waiting.inj hphase, rfl⟩
          · cases hphase
      · rcases List.mem_append.mp hc with hc | hc
        · exact h.resolved c hc value hphase
        · rw [List.mem_singleton.mp hc] at hphase
          dsimp only at hphase
          split at hphase <;> cases hphase
      · rcases List.mem_append.mp hc with hc | hc
        · exact h.parsed c hc hphase
        · rw [List.mem_singleton.mp hc] at hphase ⊢
          dsimp only at hphase ⊢
          split at hphase
          · assumption
          · exact absurd rfl (hphase .schema)
  | resume i now => exact h.resume i now

theorem sound_run (steps : List CredentialStep) : Sound B (.run B steps) := by
  induction steps using List.reverseRecOn with
  | nil => exact sound_start
  | append_singleton steps call ih =>
      rw [CredentialSystem.run, List.foldl_append]
      exact ih.step call

/-! ### What holds of every interleaving -/

/-- The call gave a credential for the reference. -/
def ResolveCall.gave (k : RefKey) (c : ResolveCall) : Bool :=
  match c.phase with
  | .answered (.ok _) => decide (c.ref.key = k)
  | _ => false

theorem ResolveCall.gave_iff {k : RefKey} {c : ResolveCall} :
    c.gave k = true ↔ (∃ value, c.phase = .answered (.ok value)) ∧ c.ref.key = k := by
  unfold ResolveCall.gave
  split
  · rename_i value hphase
    rw [decide_eq_true_eq]
    exact ⟨fun hk => ⟨⟨value, hphase⟩, hk⟩, fun h => h.2⟩
  · rename_i hphase
    refine iff_of_false (by rintro ⟨⟩) ?_
    rintro ⟨⟨value, hvalue⟩, -⟩
    exact hphase value hvalue

/-- The reservations that a reference gave a credential to, each once. -/
def CredentialSystem.reservations (s : CredentialSystem) (k : RefKey) : List String :=
  ((s.calls.filter (·.gave k)).map (·.binding.authorizationReservationId)).dedup

/-- **The credentials that were given.**  A stored reference serves at most as many reservations as
it may; a reservation is served for one binding; a credential is the value of the slot of a
reference that was stored as it was presented, of this issuer, and binds what the reference
binds. -/
structure Bounded (B : BoundaryInput) (s : CredentialSystem) : Prop where
  uses : ∀ k m, s.metadata.get k = some m → (s.reservations k).length ≤ m.maximumUses
  binding : ∀ c ∈ s.calls, ∀ c' ∈ s.calls, c.gave c'.ref.key → c'.gave c'.ref.key →
    c.binding.authorizationReservationId = c'.binding.authorizationReservationId →
      c.binding = c'.binding
  given : ∀ c ∈ s.calls, ∀ value, c.phase = .answered (.ok value) →
    (∃ m, s.metadata.get c.ref.key = some m ∧ m.unrevoked = c.ref) ∧
      c.ref.issuerId = B.issuerId ∧ sameBinding c.ref c.binding = true ∧
      ∃ slot, (slotDefinitions B).get c.ref.credentialSlot = some slot ∧ slot.value = value

theorem Sound.bounded (h : Sound B s) : Bounded B s where
  uses k m hm := by
    cases hget : s.uses.get k with
    | none =>
        have hnil : s.calls.filter (·.gave k) = [] := by
          rw [List.filter_eq_nil_iff]
          rintro c hc hgave
          obtain ⟨⟨value, hphase⟩, rfl⟩ := ResolveCall.gave_iff.mp hgave
          obtain ⟨u, hu, -⟩ := (h.resolved c hc value hphase).used
          rw [hget] at hu
          cases hu
        rw [CredentialSystem.reservations, hnil]
        exact Nat.zero_le _
    | some u =>
        obtain ⟨m', hm', hle⟩ := h.within k u hget
        obtain rfl := Option.some.inj (hm.symm.trans hm')
        refine le_trans ?_ hle
        rw [show u.entries.length = (u.entries.map Prod.fst).length from (List.length_map _).symm]
        refine (List.subperm_of_subset (List.nodup_dedup _) fun id hid => ?_).length_le
        rw [List.mem_dedup] at hid
        obtain ⟨c, hfilter, rfl⟩ := List.mem_map.mp hid
        obtain ⟨hc, hgave⟩ := List.mem_filter.mp hfilter
        obtain ⟨⟨value, hphase⟩, rfl⟩ := ResolveCall.gave_iff.mp hgave
        obtain ⟨u', hu', huse⟩ := (h.resolved c hc value hphase).used
        obtain rfl := Option.some.inj (hget.symm.trans hu')
        exact List.mem_map.mpr ⟨_, OrderedMap.get_eq_some_iff.mp huse, rfl⟩
  binding c hc c' hc' hgave hgave' hid := by
    obtain ⟨⟨value, hphase⟩, hkey⟩ := ResolveCall.gave_iff.mp hgave
    obtain ⟨⟨value', hphase'⟩, -⟩ := ResolveCall.gave_iff.mp hgave'
    obtain ⟨u, hu, huse⟩ := (h.resolved c hc value hphase).used
    obtain ⟨u', hu', huse'⟩ := (h.resolved c' hc' value' hphase').used
    rw [hkey] at hu
    obtain rfl := Option.some.inj (hu.symm.trans hu')
    rw [hid] at huse
    exact Option.some.inj (huse.symm.trans huse')
  given c hc value hphase := by
    obtain ⟨hstored, hissuer, hsame, ⟨slot, hslot, hvalue, -⟩, -⟩ := h.resolved c hc value hphase
    exact ⟨hstored, hissuer, hsame, slot, hslot, hvalue⟩

/-- **Whatever the interleaving**, the credentials that were given are bounded. -/
theorem credentials_bounded (B : BoundaryInput) (steps : List CredentialStep) :
    Bounded B (.run B steps) :=
  (sound_run steps).bounded

/-! ### Revocation -/

/-- The reference is revoked, and no call from `n` on has read it before that. -/
structure Revoked (n : Nat) (k : RefKey) (s : CredentialSystem) : Prop where
  revoked : ∃ m, s.metadata.get k = some m ∧ m.revokedAt ≠ none
  calls : n ≤ s.calls.length
  refused : ∀ i c, n ≤ i → s.calls[i]? = some c → c.ref.key = k →
    (∀ stored, c.phase = .waiting stored → ∃ m, stored = some m ∧ m.revokedAt ≠ none) ∧
      ∀ value, c.phase ≠ .answered (.ok value)

theorem Revoked.extends {n : Nat} {k : RefKey} (h : Revoked n k s)
    (hext : s.toBoundary.Extends b') : Revoked n k { s with toBoundary := b' } where
  revoked := by
    obtain ⟨m, hm, hrevoked⟩ := h.revoked
    obtain ⟨m', hm', -, hrevoked'⟩ := hext.metadata k m hm
    exact ⟨m', hm', hrevoked' hrevoked⟩
  calls := h.calls
  refused := h.refused

theorem Revoked.step {n : Nat} {k : RefKey} (h : Revoked n k s) (call : CredentialStep) :
    Revoked n k (s.step B call) := by
  cases call with
  | issue request now refId issuedAt =>
      dsimp only [CredentialSystem.step]
      split
      · exact ⟨h.revoked, h.calls, h.refused⟩
      · exact h
  | putImmutable ref => exact h.extends (s.toBoundary.stores_putImmutable ref).extends
  | revoke tenantId refId revokedAt =>
      exact h.extends (s.toBoundary.stores_revoke tenantId refId revokedAt).extends
  | resolve ref binding =>
      refine ⟨h.revoked, ?_, fun i c hi hc hkey => ?_⟩
      · simp only [CredentialSystem.step, List.length_append]
        exact h.calls.trans (Nat.le_add_right _ _)
      · simp only [CredentialSystem.step, List.getElem?_append] at hc
        split at hc
        · exact h.refused i c hi hc hkey
        · obtain rfl := List.mem_singleton.mp (List.mem_of_getElem? hc)
          dsimp only at hkey ⊢
          split
          · refine ⟨fun stored hphase => ?_, by rintro value ⟨⟩⟩
            obtain ⟨m, hm, hrevoked⟩ := h.revoked
            refine ⟨m, ?_, hrevoked⟩
            rw [← ResolvePhase.waiting.inj hphase, hkey, hm]
          · exact ⟨by rintro stored ⟨⟩, by rintro value ⟨⟩⟩
  | resume j now =>
      dsimp only [CredentialSystem.step]
      split
      · rename_i ref binding stored hcall
        rcases s.toBoundary.resolve_cases (B := B) ref binding stored now with
          ⟨e, he⟩ | ⟨slot, hchecked, hresolve⟩
        · rw [he]
          refine ⟨h.revoked, (List.length_set ..).symm ▸ h.calls, fun i c hi hc hkey => ?_⟩
          rw [List.getElem?_set] at hc
          split at hc
          · split at hc
            · obtain rfl := Option.some.inj hc
              exact ⟨by rintro stored ⟨⟩, by rintro value ⟨⟩⟩
            · cases hc
          · exact h.refused i c hi hc hkey
        · rw [hresolve]
          obtain ⟨m, hm, hrevoked⟩ := h.revoked
          refine ⟨⟨m, hm, hrevoked⟩, (List.length_set ..).symm ▸ h.calls,
            fun i c hi hc hkey => ?_⟩
          rw [List.getElem?_set] at hc
          split at hc
          · rename_i hij
            split at hc
            · obtain rfl := Option.some.inj hc
              -- What the call has read was revoked, and is not what it presents.
              obtain ⟨m', hm', hrevoked'⟩ := (h.refused j _ (hij ▸ hi) hcall hkey).1 _ rfl
              obtain rfl := Option.some.inj (hm'.symm.trans hchecked.stored)
              exact absurd hchecked.unrevoked hrevoked'
            · cases hc
          · exact h.refused i c hi hc hkey
      · exact h

/-- **A resolution that is begun after a revocation** gives no credential. -/
theorem revoked_never_resolves (B : BoundaryInput) (steps later : List CredentialStep) (k : RefKey)
    (m : SecretRef) (hm : (CredentialSystem.run B steps).metadata.get k = some m)
    (hrevoked : m.revokedAt ≠ none) (i : Nat) (c : ResolveCall)
    (hi : (CredentialSystem.run B steps).calls.length ≤ i)
    (hc : (CredentialSystem.run B (steps ++ later)).calls[i]? = some c) : c.gave k = false := by
  have hstart : Revoked (CredentialSystem.run B steps).calls.length k
      (CredentialSystem.run B steps) := by
    refine ⟨⟨m, hm, hrevoked⟩, le_refl _, fun j c' hj hc' => ?_⟩
    rw [List.getElem?_eq_none hj] at hc'
    cases hc'
  have hall : ∀ later, Revoked (CredentialSystem.run B steps).calls.length k
      (CredentialSystem.run B (steps ++ later)) := by
    intro later
    induction later using List.reverseRecOn with
    | nil =>
        rw [List.append_nil]
        exact hstart
    | append_singleton later call ih =>
        have hlast : CredentialSystem.run B (steps ++ (later ++ [call])) =
            (CredentialSystem.run B (steps ++ later)).step B call := by
          rw [← List.append_assoc, CredentialSystem.run, List.foldl_append]
          rfl
        rw [hlast]
        exact ih.step call
  refine Bool.eq_false_iff.mpr fun hgave => ?_
  obtain ⟨⟨value, hphase⟩, hkey⟩ := ResolveCall.gave_iff.mp hgave
  exact ((hall later).refused i c hi hc hkey).2 value hphase

/-! ### Replays -/

/-- Steps leave a call as it is until it goes on, and keep what was used. -/
theorem step_of_waiting {n : Nat} {c : ResolveCall} (hc : s.calls[n]? = some c)
    (call : CredentialStep) (hcall : ∀ now, call ≠ .resume n now) :
    (s.step B call).calls[n]? = some c ∧ s.toBoundary.Extends (s.step B call).toBoundary := by
  cases call with
  | issue request now refId issuedAt =>
      dsimp only [CredentialSystem.step]
      split <;> exact ⟨hc, .refl _⟩
  | putImmutable ref => exact ⟨hc, (s.toBoundary.stores_putImmutable ref).extends⟩
  | revoke tenantId refId revokedAt =>
      exact ⟨hc, (s.toBoundary.stores_revoke tenantId refId revokedAt).extends⟩
  | resolve ref binding =>
      exact ⟨(List.getElem?_append_left (List.getElem?_eq_some_iff.mp hc).1).trans hc, .refl _⟩
  | resume j now =>
      have hne : j ≠ n := by
        rintro rfl
        exact hcall now rfl
      dsimp only [CredentialSystem.step]
      split
      · rename_i ref binding stored hj
        rcases s.toBoundary.resolve_cases (B := B) ref binding stored now with
          ⟨e, he⟩ | ⟨slot, hchecked, hresolve⟩
        · rw [he]
          exact ⟨(List.getElem?_set_ne hne).trans hc, .refl _⟩
        · rw [hresolve]
          exact ⟨(List.getElem?_set_ne hne).trans hc, hchecked.extends⟩
      · exact ⟨hc, .refl _⟩

theorem foldl_of_waiting {n : Nat} {c : ResolveCall} (calls : List CredentialStep)
    (hc : s.calls[n]? = some c) (hcalls : ∀ now, .resume n now ∉ calls) :
    (calls.foldl (CredentialSystem.step B) s).calls[n]? = some c ∧
      s.toBoundary.Extends (calls.foldl (CredentialSystem.step B) s).toBoundary := by
  induction calls generalizing s with
  | nil => exact ⟨hc, .refl _⟩
  | cons call calls ih =>
      obtain ⟨hc', hext⟩ := step_of_waiting (B := B) hc call fun now heq =>
        hcalls now (heq ▸ List.mem_cons_self)
      obtain ⟨hc'', hext'⟩ := ih hc' fun now hmem => hcalls now (List.mem_cons_of_mem _ hmem)
      exact ⟨hc'', hext.trans hext'⟩

/-- **A replay**: what a reservation has resolved once it resolves again, whatever is used up by
then and whatever comes in between, unless the reference is revoked when it is read or has expired
when the resolution goes on. -/
theorem replay_resolves (B : BoundaryInput) (steps between : List CredentialStep) (c : ResolveCall)
    (value : String) (m : SecretRef) (now : String)
    (hc : c ∈ (CredentialSystem.run B steps).calls) (hphase : c.phase = .answered (.ok value))
    (hm : (CredentialSystem.run B steps).metadata.get c.ref.key = some m)
    (hrevoked : m.revokedAt = none)
    (hbetween : ∀ at', .resume (CredentialSystem.run B steps).calls.length at' ∉ between)
    (hnow : reached B now c.ref.expiresAt = false) :
    (CredentialSystem.run B (steps ++ .resolve c.ref c.binding :: between ++
        [.resume (CredentialSystem.run B steps).calls.length now])).calls[
          (CredentialSystem.run B steps).calls.length]? =
      some ⟨c.ref, c.binding, .answered (.ok value)⟩ := by
  have hsound := sound_run (B := B) steps
  set s := CredentialSystem.run B steps with hs
  obtain ⟨⟨m', hm', hsame⟩, hissuer, hbinding, ⟨slot, hslot, hvalue, hempty⟩, u, hu, huse⟩ :=
    hsound.resolved c hc value hphase
  obtain rfl := Option.some.inj (hm.symm.trans hm')
  have hread : m = c.ref := by
    rw [← hsame]
    cases m
    dsimp only at hrevoked
    rw [hrevoked]
    rfl
  have hunrevoked : c.ref.revokedAt = none := hread ▸ hrevoked
  have hparsed := hsound.parsed c hc (by
    intro e he
    rw [hphase] at he
    cases he)
  have hcall : (s.step B (.resolve c.ref c.binding)).calls[s.calls.length]? =
      some ⟨c.ref, c.binding, .waiting (some c.ref)⟩ := by
    simp only [CredentialSystem.step, hparsed, if_true, hm, hread]
    exact List.getElem?_concat_length
  obtain ⟨hwaiting, hext⟩ := foldl_of_waiting (B := B) between hcall hbetween
  obtain ⟨u', hu', huse'⟩ := hext.uses _ u hu
  rw [List.append_assoc, CredentialSystem.run, List.foldl_append, List.cons_append,
    List.foldl_cons, List.foldl_append]
  change (CredentialSystem.step B (between.foldl (CredentialSystem.step B)
    (s.step B (.resolve c.ref c.binding))) (.resume s.calls.length now)).calls[_]? = _
  generalize between.foldl (CredentialSystem.step B) (s.step B (.resolve c.ref c.binding)) = s' at *
  have hresolve : (s'.toBoundary.resolve B c.ref c.binding (some c.ref) now).1 = .ok value := by
    unfold Boundary.resolve
    simp only [hslot]
    rw [if_neg (by simp [hissuer, hunrevoked, hnow, hbinding])]
    simp only [hu', Option.getD_some, huse' _ _ huse]
    simp [hvalue, hempty]
  dsimp only [CredentialSystem.step]
  rw [hwaiting]
  dsimp only
  rw [List.getElem?_set_self (List.getElem?_eq_some_iff.mp hwaiting).1, hresolve]

/-! ### Issued references -/

/-- What a slot allows. -/
def SecretRef.Allowed (B : BoundaryInput) (ref : SecretRef) : Prop :=
  B.authorizeIssue ref.toToolCredentialIssueRequest = true ∧
    ∃ slot, (slotDefinitions B).get ref.credentialSlot = some slot ∧
      ref.toolRegistrationDigest ∈ slot.allowedToolRegistrationDigests ∧
      ref.normalizedDestinationDigest ∈ slot.allowedDestinationDigests ∧
      ref.purpose ∈ slot.allowedPurposes ∧
      ref.executionDefinitionKind ∈ slot.allowedExecutionKinds

/-- A reference that is stored has been issued. -/
def PutsIssued (s : CredentialSystem) : CredentialStep → Prop
  | .putImmutable ref => ref ∈ s.issued
  | _ => True

theorem issue_ok {request : ToolCredentialIssueRequest} {now refId issuedAt : String}
    {ref : SecretRef} (h : issue B request now refId issuedAt = .ok ref) :
    ref.Allowed B ∧ ref.revokedAt = none := by
  unfold issue at h
  split at h
  · split at h
    · cases h
    · rename_i slot hslot
      split at h
      · cases h
      · rename_i hallowed
        simp only [not_or, not_not] at hallowed
        dsimp only at h
        split at h
        · obtain rfl := Except.ok.inj h
          exact ⟨⟨hallowed.2.1, slot, hslot, hallowed.2.2.1, hallowed.2.2.2.1,
            hallowed.2.2.2.2.1, hallowed.2.2.2.2.2.1⟩, rfl⟩
        · cases h
  · cases h

/-- Every stored reference was issued, for what its slot allows. -/
structure OnlyIssued (B : BoundaryInput) (s : CredentialSystem) : Prop where
  allowed : ∀ ref ∈ s.issued, ref.Allowed B ∧ ref.revokedAt = none
  stored : ∀ k m, s.metadata.get k = some m → m.unrevoked ∈ s.issued

theorem OnlyIssued.step (h : OnlyIssued B s) (call : CredentialStep) (hcall : PutsIssued s call) :
    OnlyIssued B (s.step B call) := by
  cases call with
  | issue request now refId issuedAt =>
      dsimp only [CredentialSystem.step]
      split
      · rename_i ref hissue
        refine ⟨fun r hr => ?_, fun k m hm => List.mem_append_left _ (h.stored k m hm)⟩
        rcases List.mem_append.mp hr with hr | hr
        · exact h.allowed r hr
        · rw [List.mem_singleton.mp hr]
          exact issue_ok hissue
      · exact h
  | putImmutable ref =>
      refine ⟨h.allowed, fun k m hm => ?_⟩
      simp only [CredentialSystem.step, Boundary.putImmutable] at hm
      split at hm
      · split at hm
        · exact h.stored k m hm
        · dsimp only at hm
          rw [OrderedMap.get_set] at hm
          split at hm
          · obtain rfl := Option.some.inj hm
            have hrevoked := (h.allowed ref hcall).2
            have hsame : ref.unrevoked = ref := by
              cases ref
              dsimp only at hrevoked
              rw [hrevoked]
              rfl
            rw [hsame]
            exact hcall
          · exact h.stored k m hm
      · exact h.stored k m hm
  | revoke tenantId refId revokedAt =>
      refine ⟨h.allowed, fun k m hm => ?_⟩
      simp only [CredentialSystem.step, Boundary.revoke] at hm
      split at hm
      · exact h.stored k m hm
      · rename_i ref hget
        split at hm
        · dsimp only at hm
          rw [OrderedMap.get_set] at hm
          split at hm
          · rw [← Option.some.inj hm]
            exact h.stored _ ref hget
          · exact h.stored k m hm
        · exact h.stored k m hm
  | resolve ref binding => exact ⟨h.allowed, h.stored⟩
  | resume j now =>
      dsimp only [CredentialSystem.step]
      split
      · rename_i ref binding stored hj
        rcases s.toBoundary.resolve_cases (B := B) ref binding stored now with
          ⟨e, he⟩ | ⟨slot, hchecked, hresolve⟩
        · rw [he]
          exact ⟨h.allowed, h.stored⟩
        · rw [hresolve]
          exact ⟨h.allowed, h.stored⟩
      · exact h

/-- **If only issued references are stored**, every credential was allowed by its slot and
authorized when its reference was issued. -/
theorem issued_allowed (B : BoundaryInput) (steps : List CredentialStep)
    (hsteps : Along (CredentialSystem.step B) .start PutsIssued steps) :
    ∀ c ∈ (CredentialSystem.run B steps).calls, ∀ value, c.phase = .answered (.ok value) →
      c.ref.Allowed B := by
  have h : OnlyIssued B (CredentialSystem.run B steps) := by
    have hstart : OnlyIssued B .start := by
      refine ⟨fun ref hr => ?_, fun k m hm => ?_⟩
      · cases hr
      · rw [show CredentialSystem.start.metadata.get k = none from OrderedMap.get_empty k] at hm
        cases hm
    exact hsteps.invariant hstart fun s call hs => hs.step call
  intro c hc value hphase
  obtain ⟨m, hm, hsame⟩ := ((sound_run steps).resolved c hc value hphase).stored
  exact (h.allowed c.ref (hsame ▸ h.stored _ m hm)).1

section Witness

/-- A digest. -/
def someDigest : Digest :=
  "sha256:0000000000000000000000000000000000000000000000000000000000000000"

/-- The slot of a mail server. -/
def mailSlot : RegisteredCredentialSlot where
  slot := "smtp"
  value := "password"
  allowedToolRegistrationDigests := [someDigest]
  allowedDestinationDigests := [someDigest]
  allowedPurposes := ["support"]
  allowedExecutionKinds := [.agent]

/-- A boundary with that slot, at two dates. -/
def mailBoundary : BoundaryInput where
  issuerId := "issuer"
  slots := [mailSlot]
  authorizeIssue _ := true
  isoDatetime text := text ∈ ["2026-01-01T00:00:00Z", "2027-01-01T00:00:00Z"]
  dateParse text :=
    if text = "2026-01-01T00:00:00Z" then some 1767225600000
    else if text = "2027-01-01T00:00:00Z" then some 1798761600000
    else none

/-- A request for one use. -/
def mailRequest : ToolCredentialIssueRequest where
  tenantId := "tenant"
  authoritySubject := "subject"
  workOrderBindingDigest := someDigest
  executionDefinitionKind := .agent
  executionDefinitionDigest := someDigest
  grantId := "grant"
  toolId := "mail"
  toolVersion := "1"
  toolRegistrationDigest := someDigest
  credentialSlot := "smtp"
  normalizedDestinationDigest := someDigest
  effectDigest := none
  purpose := "support"
  maximumUses := 1
  expiresAt := "2027-01-01T00:00:00Z"

/-- What is issued for it. -/
def mailRef : SecretRef :=
  { mailRequest with
    refId := "ref"
    issuerId := "issuer"
    issuedAt := "2026-01-01T00:00:00Z"
    revokedAt := none }

/-- A reservation that uses it. -/
def mailBinding : SecretResolutionBinding where
  authorizationReservationId := "authorization"
  tenantId := "tenant"
  workOrderBindingDigest := someDigest
  executionDefinitionDigest := someDigest
  grantId := "grant"
  toolRegistrationDigest := someDigest
  credentialSlot := "smtp"
  normalizedDestinationDigest := someDigest
  effectDigest := none

theorem someDigest_parses : digestParses someDigest = true := by
  decide

theorem mailRequest_parses : mailRequest.parses mailBoundary = true := by
  unfold ToolCredentialIssueRequest.parses
  rw [show digestParses mailRequest.workOrderBindingDigest = true from someDigest_parses,
    show digestParses mailRequest.executionDefinitionDigest = true from someDigest_parses,
    show digestParses mailRequest.toolRegistrationDigest = true from someDigest_parses,
    show digestParses mailRequest.normalizedDestinationDigest = true from someDigest_parses]
  decide

/-- The reference when it is revoked. -/
def mailRevoked : SecretRef :=
  { mailRef with revokedAt := some "2026-01-01T00:00:00Z" }

theorem mailRef_parses : mailRef.parses mailBoundary = true := by
  unfold SecretRef.parses
  rw [show mailRef.toToolCredentialIssueRequest = mailRequest from rfl, mailRequest_parses]
  decide

theorem mailRevoked_parses : mailRevoked.parses mailBoundary = true := by
  unfold SecretRef.parses
  rw [show mailRevoked.toToolCredentialIssueRequest = mailRequest from rfl, mailRequest_parses]
  decide

theorem mailBinding_parses : mailBinding.parses = true := by
  decide

/-- The reference is stored. -/
def mailStored : List CredentialStep :=
  [.issue mailRequest "2026-01-01T00:00:00Z" "ref" "2026-01-01T00:00:00Z", .putImmutable mailRef]

theorem issue_mailRequest :
    issue mailBoundary mailRequest "2026-01-01T00:00:00Z" "ref" "2026-01-01T00:00:00Z" =
      .ok mailRef := by
  have hslot : (slotDefinitions mailBoundary).get mailRequest.credentialSlot = some mailSlot := rfl
  unfold issue
  rw [if_pos mailRequest_parses, hslot]
  dsimp only
  rw [if_neg (by decide)]
  exact if_pos mailRef_parses

theorem run_mailStored : CredentialSystem.run mailBoundary mailStored =
    ⟨⟨OrderedMap.empty.set mailRef.key mailRef, .empty⟩, [], [mailRef]⟩ := by
  have hput : Boundary.putImmutable mailBoundary ⟨.empty, .empty⟩ mailRef =
      (.ok (), ⟨OrderedMap.empty.set mailRef.key mailRef, .empty⟩) := by
    unfold Boundary.putImmutable
    rw [if_pos mailRef_parses]
    rfl
  simp only [CredentialSystem.run, mailStored, List.foldl_cons, List.foldl_nil,
    CredentialSystem.step, issue_mailRequest, CredentialSystem.start, hput]
  rfl

/-- The steps that store the reference and others. -/
theorem run_after_mailStored (later : List CredentialStep) :
    CredentialSystem.run mailBoundary (mailStored ++ later) =
      later.foldl (CredentialSystem.step mailBoundary)
        ⟨⟨OrderedMap.empty.set mailRef.key mailRef, .empty⟩, [], [mailRef]⟩ := by
  rw [← run_mailStored, CredentialSystem.run, List.foldl_append]
  rfl

/-- The reference is revoked. -/
def mailRevocation : List CredentialStep :=
  mailStored ++ [.revoke "tenant" "ref" "2026-01-01T00:00:00Z"]

theorem run_mailRevocation : CredentialSystem.run mailBoundary mailRevocation =
    ⟨⟨(OrderedMap.empty.set mailRef.key mailRef).set mailRef.key mailRevoked, .empty⟩, [],
      [mailRef]⟩ := by
  have hrevoke : Boundary.revoke mailBoundary ⟨OrderedMap.empty.set mailRef.key mailRef, .empty⟩
      "tenant" "ref" "2026-01-01T00:00:00Z" =
        (.ok (), ⟨(OrderedMap.empty.set mailRef.key mailRef).set mailRef.key mailRevoked,
          .empty⟩) := by
    unfold Boundary.revoke
    rw [show (OrderedMap.empty.set mailRef.key mailRef).get ("tenant", "ref") = some mailRef from
      OrderedMap.get_set_self ..]
    exact if_pos mailRevoked_parses
  rw [mailRevocation, run_after_mailStored]
  simp only [List.foldl_cons, List.foldl_nil, CredentialSystem.step, hrevoke]

/-- The reference is resolved. -/
def mailResolved : List CredentialStep :=
  mailStored ++ [.resolve mailRef mailBinding, .resume 0 "2026-01-01T00:00:00Z"]

theorem run_mailResolved : CredentialSystem.run mailBoundary mailResolved =
    ⟨⟨OrderedMap.empty.set mailRef.key mailRef, OrderedMap.empty.set mailRef.key
        (OrderedMap.empty.set "authorization" mailBinding)⟩,
      [⟨mailRef, mailBinding, .answered (.ok "password")⟩], [mailRef]⟩ := by
  have hparses : (mailRef.parses mailBoundary && mailBinding.parses) = true := by
    rw [mailRef_parses, mailBinding_parses]
    rfl
  have hget : (OrderedMap.empty.set mailRef.key mailRef).get mailRef.key = some mailRef :=
    OrderedMap.get_set_self ..
  have hresolve : Boundary.resolve mailBoundary
      ⟨OrderedMap.empty.set mailRef.key mailRef, .empty⟩ mailRef mailBinding (some mailRef)
        "2026-01-01T00:00:00Z" = (.ok "password", ⟨OrderedMap.empty.set mailRef.key mailRef,
          OrderedMap.empty.set mailRef.key
            (OrderedMap.empty.set "authorization" mailBinding)⟩) := by
    unfold Boundary.resolve
    rw [show (slotDefinitions mailBoundary).get mailRef.credentialSlot = some mailSlot from rfl]
    dsimp only
    rw [if_neg (by decide)]
    rfl
  rw [mailResolved, run_after_mailStored]
  simp only [List.foldl_cons, List.foldl_nil, CredentialSystem.step, hparses, if_true, hget,
    List.nil_append, List.getElem?_cons_zero, hresolve, List.set_cons_zero]

theorem revoked_never_resolves_mail :
    ResolveCall.gave mailRef.key ⟨mailRef, mailBinding, .waiting (some mailRevoked)⟩ = false := by
  refine revoked_never_resolves mailBoundary mailRevocation [.resolve mailRef mailBinding]
    mailRef.key mailRevoked ?_ (by rintro ⟨⟩) 0 _ ?_ ?_
  · rw [run_mailRevocation]
    exact OrderedMap.get_set_self ..
  · rw [run_mailRevocation]
    exact le_refl 0
  · have hparses : (mailRef.parses mailBoundary && mailBinding.parses) = true := by
      rw [mailRef_parses, mailBinding_parses]
      rfl
    have hget : ((OrderedMap.empty.set mailRef.key mailRef).set mailRef.key mailRevoked).get
        mailRef.key = some mailRevoked := OrderedMap.get_set_self ..
    rw [CredentialSystem.run, List.foldl_append]
    change (CredentialSystem.step mailBoundary (CredentialSystem.run mailBoundary mailRevocation)
      (.resolve mailRef mailBinding)).calls[0]? = _
    rw [run_mailRevocation]
    simp only [CredentialSystem.step, hparses, if_true, hget]
    rfl

theorem replay_resolves_mail :
    (CredentialSystem.run mailBoundary (mailResolved ++ [.resolve mailRef mailBinding,
        .resume 1 "2026-01-01T00:00:00Z"])).calls[1]? =
      some ⟨mailRef, mailBinding, .answered (.ok "password")⟩ := by
  have h := replay_resolves mailBoundary mailResolved []
    ⟨mailRef, mailBinding, .answered (.ok "password")⟩ "password" mailRef "2026-01-01T00:00:00Z"
    (by rw [run_mailResolved]; exact List.mem_cons_self) rfl
    (by rw [run_mailResolved]; exact OrderedMap.get_set_self ..) rfl
    (fun _ => List.not_mem_nil) (by decide)
  rw [run_mailResolved] at h
  exact h

theorem issued_allowed_mail : mailRef.Allowed mailBoundary := by
  refine issued_allowed mailBoundary mailResolved ?_
    ⟨mailRef, mailBinding, .answered (.ok "password")⟩ ?_ "password" rfl
  · refine along_cons.mpr ⟨trivial, along_cons.mpr ⟨?_, along_cons.mpr ⟨trivial,
      along_cons.mpr ⟨trivial, along_nil⟩⟩⟩⟩
    simp only [CredentialSystem.step, issue_mailRequest, PutsIssued]
    exact List.mem_append_right _ List.mem_cons_self
  · rw [run_mailResolved]
    exact List.mem_cons_self

end Witness

end Policy.Credentials

end Pactmark
