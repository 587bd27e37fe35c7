import Pactmark.Core.Canonical
import Pactmark.Core.CommandWindow
import Pactmark.Durable.Operations
import Pactmark.Durable.OrderedMap

/-!
# Policy — the reservation of an authorization

`authorization-reservations.ts` of `policy`.  One `reserve` claims a grant, an approval if there
is one and any number of secret references, in three indexes.  It asks every index first and
claims after that.  An index is keyed by the canonical JSON of the tenant and the subject.

* `reserve_cases`: a reservation is refused, was there already, or claims all its subjects.
* `Exact`: an index holds the claims of the stored reservations and no other.
* `Tight.step`: what a call keeps.
* `reservations_bounded`: what holds after every sequence of calls.
-/

namespace Pactmark

open Durable
open JsString (lit)

namespace AuthorizationClaims

/-! ### The schema -/

/-- `code` of an `AuthorizationReservationError`. -/
inductive ReservationErrorCode where
  | KAF_POLICY_AUTHORIZATION_BINDING_MISMATCH
  | KAF_POLICY_AUTHORIZATION_EXPIRED
  | KAF_POLICY_AUTHORIZATION_CLAIM_EXHAUSTED
  | KAF_POLICY_AUTHORIZATION_DUPLICATE
  deriving DecidableEq, Repr

/-- What `reserve` and `consume` throw: an error of their own, that of the schema, that of the
canonical JSON, or what a limit function throws. -/
inductive Refusal where
  | reservation (code : ReservationErrorCode)
  | schema
  | canonical (error : CanonicalJsonError)
  | limit (error : Thrown)
  deriving DecidableEq

/-- `ExecutionDefinitionRefSchema`, as texts. -/
inductive ExecutionDefinitionRef where
  | agent (id version agentDefinitionDigest : JsString)
  | compensation (id version compensationRunDefinitionDigest originalAgentDefinitionDigest
      originalEffectDigest compensationStrategyRegistrationDigest
      compensationToolRegistrationDigest : JsString)
  deriving DecidableEq, Repr

/-- `state` of a reservation. -/
inductive State where
  | reserved
  | consumed
  | expired
  | revoked
  deriving DecidableEq, Repr

/-- The text of a state. -/
def State.text : State → JsString
  | .reserved => lit "reserved"
  | .consumed => lit "consumed"
  | .expired => lit "expired"
  | .revoked => lit "revoked"

/-- `AuthorizationReservation`. -/
structure AuthorizationReservation where
  authorizationReservationId : JsString
  authorizationKey : JsString
  tenantId : JsString
  runId : JsString
  stepId : JsString
  toolCallId : JsString
  effectKey : Option JsString
  workOrderBindingDigest : JsString
  executionDefinition : ExecutionDefinitionRef
  executionDefinitionDigest : JsString
  toolId : JsString
  toolVersion : JsString
  toolRegistrationDigest : JsString
  policyRegistrationDigest : JsString
  argumentsDigest : JsString
  normalizedTargetDigest : JsString
  grantId : JsString
  approvalId : Option JsString
  secretRefIds : List JsString
  purposeCode : JsString
  purposeRegistryVersion : JsString
  state : State
  createdAt : JsString
  expiresAt : JsString
  consumedAt : Option JsString
  deriving DecidableEq, Repr

/-- What the store is given, with the functions of the language it uses: numbers, for canonical
JSON; `Date.parse`, without a value where it is not a number; the check of
`z.iso.datetime({ offset: true })`.  A limit is an integer, and a limit function may throw. -/
structure ReservationInput (Num : Type) where
  num : NumberFormat Num
  dateParse : JsString → Option Int
  isoDatetime : JsString → Bool
  grantMaximumUses : JsString → JsString → Except Thrown (Option Int)
  secretRefMaximumUses : JsString → JsString → Except Thrown (Option Int)
  approvalMaximumUses : Option (JsString → JsString → Except Thrown (Option Int))

/-- `[a-zA-Z0-9]` -/
def isAlphanumeric (unit : Nat) : Bool :=
  isDigit unit || (65 ≤ unit && unit ≤ 90) || (97 ≤ unit && unit ≤ 122)

/-- `DigestSchema`: `/^sha256:[0-9a-f]{64}$/`. -/
def digestAccepts (text : JsString) : Bool :=
  text.take 7 == lit "sha256:" && (text.drop 7).length == 64 && (text.drop 7).all isLowerHex

/-- `IdentifierSchema` of `agent.ts`: `/^[a-zA-Z0-9][a-zA-Z0-9._:-]*$/`, within 200. -/
def identifierAccepts : JsString → Bool
  | [] => false
  | first :: rest =>
      isAlphanumeric first && decide (rest.length < 200) &&
        rest.all fun unit => isAlphanumeric unit || unit ∈ lit "._:-"

/-- `\d+` and what is left after it. -/
def takeNumber (text : JsString) : Option JsString :=
  if (text.takeWhile isDigit).isEmpty then none else some (text.dropWhile isDigit)

/-- `SemverSchema`: `/^\d+\.\d+\.\d+(?:-[0-9A-Za-z.-]+)?$/`. -/
def semverAccepts (text : JsString) : Bool :=
  match takeNumber text with
  | some (46 :: minor) =>
      match takeNumber minor with
      | some (46 :: patch) =>
          match takeNumber patch with
          | some [] => true
          | some (45 :: label) =>
              !label.isEmpty && label.all fun unit => isAlphanumeric unit || unit ∈ lit ".-"
          | _ => false
      | _ => false
  | _ => false

/-- `ExecutionDefinitionRefSchema`: the identifier of an agent is that of `model.ts`. -/
def ExecutionDefinitionRef.accepts : ExecutionDefinitionRef → Bool
  | .agent id version agentDefinitionDigest =>
      !id.isEmpty && decide (id.length ≤ 200) && !version.isEmpty &&
        decide (version.length ≤ 500) && digestAccepts agentDefinitionDigest
  | .compensation id version compensationRunDefinitionDigest originalAgentDefinitionDigest
      originalEffectDigest compensationStrategyRegistrationDigest
      compensationToolRegistrationDigest =>
      identifierAccepts id && semverAccepts version &&
        [compensationRunDefinitionDigest, originalAgentDefinitionDigest, originalEffectDigest,
          compensationStrategyRegistrationDigest, compensationToolRegistrationDigest].all
          digestAccepts

namespace AuthorizationReservation

/-- The fields that are `z.string().min(1)`. -/
def names (r : AuthorizationReservation) : List JsString :=
  [r.authorizationReservationId, r.authorizationKey, r.tenantId, r.runId, r.stepId, r.toolCallId] ++
    r.effectKey.toList ++ [r.toolId, r.toolVersion, r.grantId] ++ r.approvalId.toList ++
    r.secretRefIds ++ [r.purposeCode, r.purposeRegistryVersion]

/-- The fields that are digests. -/
def digests (r : AuthorizationReservation) : List JsString :=
  [r.workOrderBindingDigest, r.executionDefinitionDigest, r.toolRegistrationDigest,
    r.policyRegistrationDigest, r.argumentsDigest, r.normalizedTargetDigest]

/-- `AuthorizationReservationSchema.parse`. -/
def parse {Num : Type} (input : ReservationInput Num) (r : AuthorizationReservation) :
    Except Refusal AuthorizationReservation :=
  if r.names.all (fun text => !text.isEmpty) && r.digests.all digestAccepts &&
      r.executionDefinition.accepts &&
      ([r.createdAt, r.expiresAt] ++ r.consumedAt.toList).all input.isoDatetime then .ok r
  else .error .schema

end AuthorizationReservation

section Json

variable {Num : Type}

/-- A member, if there is a value for it. -/
def optionalMember (key : String) : Option JsString → List (JsString × Json Num)
  | none => []
  | some text => [(lit key, .string text)]

def textMember (key : String) (text : JsString) : JsString × Json Num :=
  (lit key, .string text)

/-- An execution definition, as an object. -/
def ExecutionDefinitionRef.json : ExecutionDefinitionRef → Json Num
  | .agent id version agentDefinitionDigest =>
      .object [textMember "kind" (lit "agent"), textMember "id" id, textMember "version" version,
        textMember "agentDefinitionDigest" agentDefinitionDigest]
  | .compensation id version compensationRunDefinitionDigest originalAgentDefinitionDigest
      originalEffectDigest compensationStrategyRegistrationDigest
      compensationToolRegistrationDigest =>
      .object [textMember "kind" (lit "compensation"), textMember "id" id,
        textMember "version" version,
        textMember "compensationRunDefinitionDigest" compensationRunDefinitionDigest,
        textMember "originalAgentDefinitionDigest" originalAgentDefinitionDigest,
        textMember "originalEffectDigest" originalEffectDigest,
        textMember "compensationStrategyRegistrationDigest" compensationStrategyRegistrationDigest,
        textMember "compensationToolRegistrationDigest" compensationToolRegistrationDigest]

/-- A reservation, as an object. -/
def AuthorizationReservation.json (r : AuthorizationReservation) : Json Num :=
  .object ([textMember "schemaVersion" (lit "1"),
    textMember "authorizationReservationId" r.authorizationReservationId,
    textMember "authorizationKey" r.authorizationKey, textMember "tenantId" r.tenantId,
    textMember "runId" r.runId, textMember "stepId" r.stepId,
    textMember "toolCallId" r.toolCallId] ++ optionalMember "effectKey" r.effectKey ++
    [textMember "workOrderBindingDigest" r.workOrderBindingDigest,
      (lit "executionDefinition", r.executionDefinition.json),
      textMember "executionDefinitionDigest" r.executionDefinitionDigest,
      textMember "toolId" r.toolId, textMember "toolVersion" r.toolVersion,
      textMember "toolRegistrationDigest" r.toolRegistrationDigest,
      textMember "policyRegistrationDigest" r.policyRegistrationDigest,
      textMember "argumentsDigest" r.argumentsDigest,
      textMember "normalizedTargetDigest" r.normalizedTargetDigest,
      textMember "grantId" r.grantId] ++ optionalMember "approvalId" r.approvalId ++
    [(lit "secretRefIds", .array (r.secretRefIds.map .string)),
      textMember "purposeCode" r.purposeCode,
      textMember "purposeRegistryVersion" r.purposeRegistryVersion,
      textMember "state" r.state.text, textMember "createdAt" r.createdAt,
      textMember "expiresAt" r.expiresAt] ++ optionalMember "consumedAt" r.consumedAt)

end Json

/-! ### The store -/

/-- `ClaimIndex`. -/
abbrev ClaimIndex := OrderedMap JsString (OrderedMap JsString JsString)

/-- What `createMemoryAuthorizationReservationStore` keeps. -/
structure Store where
  reservations : OrderedMap JsString (OrderedMap JsString AuthorizationReservation)
  grantClaims : ClaimIndex
  approvalClaims : ClaimIndex
  secretClaims : ClaimIndex

/-- A new store. -/
def Store.empty : Store :=
  ⟨.empty, .empty, .empty, .empty⟩

variable {Num : Type}

/-- `claimSubjectKey`. -/
def claimSubjectKey (num : NumberFormat Num) (tenantId subjectId : JsString) :
    Except Refusal JsString :=
  (canonicalJsonStringify num (.array [.string tenantId, .string subjectId])).mapError .canonical

/-- `sameReservation`. -/
def sameReservation (num : NumberFormat Num) (left right : AuthorizationReservation) :
    Except Refusal Bool := do
  let left ← (canonicalJsonStringify num left.json).mapError .canonical
  let right ← (canonicalJsonStringify num right.json).mapError .canonical
  return left == right

def mismatch : Refusal := .reservation .KAF_POLICY_AUTHORIZATION_BINDING_MISMATCH
def exhausted : Refusal := .reservation .KAF_POLICY_AUTHORIZATION_CLAIM_EXHAUSTED

/-- `reserveClaim`. -/
def reserveClaim (num : NumberFormat Num) (index : ClaimIndex)
    (tenantId subjectId authorizationKey reservationId : JsString) (maximumUses : Int) :
    Except Refusal ClaimIndex := do
  let subjectKey ← claimSubjectKey num tenantId subjectId
  let claims := (index.get subjectKey).getD .empty
  match claims.get authorizationKey with
  | some replay => if replay ≠ reservationId then throw mismatch else return index
  | none =>
      if maximumUses ≤ claims.entries.length then throw exhausted
      else return index.set subjectKey (claims.set authorizationKey reservationId)

/-- `assertClaimAvailable`. -/
def assertClaimAvailable (num : NumberFormat Num) (index : ClaimIndex)
    (tenantId subjectId authorizationKey reservationId : JsString) (maximumUses : Int) :
    Except Refusal Unit := do
  let subjectKey ← claimSubjectKey num tenantId subjectId
  let claims := (index.get subjectKey).getD .empty
  match claims.get authorizationKey with
  | some replay => if replay ≠ reservationId then throw mismatch else return ()
  | none => if maximumUses ≤ claims.entries.length then throw exhausted else return ()

/-- What a limit function answers. -/
def askLimit (answer : Except Thrown (Option Int)) : Except Refusal (Option Int) :=
  answer.mapError .limit

/-- `limit === undefined || limit < 1` refuses, and otherwise there is a limit. -/
def requireLimit : Option Int → Except Refusal Int
  | none => throw exhausted
  | some limit => if limit < 1 then throw exhausted else return limit

/-- `approvalLimit`, which a reservation without approval does not need. -/
def approvalLimitOf (input : ReservationInput Num) (r : AuthorizationReservation) :
    Except Refusal (Option (JsString × Int)) :=
  match r.approvalId, input.approvalMaximumUses with
  | none, _ => return none
  | some _, none => throw exhausted
  | some approvalId, some approvalMaximumUses => do
      let limit ← requireLimit (← askLimit (approvalMaximumUses r.tenantId approvalId))
      return some (approvalId, limit)

/-- `secretLimits`: all of them are asked for before the first one is looked at. -/
def secretLimitsOf (input : ReservationInput Num) (r : AuthorizationReservation) :
    Except Refusal (List (JsString × Int)) := do
  let answers ← r.secretRefIds.mapM fun refId => do
    let answer ← askLimit (input.secretRefMaximumUses r.tenantId refId)
    return (refId, answer)
  answers.mapM fun answer => do
    let limit ← requireLimit answer.2
    return (answer.1, limit)

/-- The limits a reservation is held to. -/
structure Limits where
  grantLimit : Int
  approvalLimit : Option (JsString × Int)
  secretLimits : List (JsString × Int)

/-- The reservations of a tenant. -/
def Store.tenantReservations (s : Store) (tenantId : JsString) :
    OrderedMap JsString AuthorizationReservation :=
  (s.reservations.get tenantId).getD .empty

/-- `tenantReservations.set(authorizationKey, stored)`. -/
def Store.put (s : Store) (tenantId authorizationKey : JsString)
    (stored : AuthorizationReservation) : Store :=
  { s with
    reservations :=
      s.reservations.set tenantId ((s.tenantReservations tenantId).set authorizationKey stored) }

/-- The claims of a reservation are available, each on its own. -/
def assertClaims (num : NumberFormat Num) (s : Store) (r : AuthorizationReservation)
    (limits : Limits) : Except Refusal Unit := do
  assertClaimAvailable num s.grantClaims r.tenantId r.grantId r.authorizationKey
    r.authorizationReservationId limits.grantLimit
  limits.approvalLimit.toList.forM fun approval =>
    assertClaimAvailable num s.approvalClaims r.tenantId approval.1 r.authorizationKey
      r.authorizationReservationId approval.2
  limits.secretLimits.forM fun secret =>
    assertClaimAvailable num s.secretClaims r.tenantId secret.1 r.authorizationKey
      r.authorizationReservationId secret.2

/-- `Date.parse(at) >= Date.parse(expiresAt)`. -/
def expired (input : ReservationInput Num) (instant expiresAt : JsString) : Bool :=
  match input.dateParse instant, input.dateParse expiresAt with
  | some now, some expiry => expiry ≤ now
  | _, _ => false

/-- `reserve` up to its first claim: the reservation, and its limits if it is a new one. -/
def examine (input : ReservationInput Num) (s : Store) (raw : AuthorizationReservation)
    (instant : JsString) : Except Refusal (AuthorizationReservation × Option Limits) := do
  let r ← raw.parse input
  if r.state ≠ .reserved then throw mismatch
  else if expired input instant r.expiresAt then
    throw (.reservation .KAF_POLICY_AUTHORIZATION_EXPIRED)
  else
    match (s.tenantReservations r.tenantId).get r.authorizationKey with
    | some replay =>
        if ← sameReservation input.num replay r then return (replay, none) else throw mismatch
    | none =>
        if (s.tenantReservations r.tenantId).entries.any fun x =>
            x.2.authorizationReservationId == r.authorizationReservationId then
          throw (.reservation .KAF_POLICY_AUTHORIZATION_DUPLICATE)
        else
          let grantLimit ← requireLimit (← askLimit (input.grantMaximumUses r.tenantId r.grantId))
          let approvalLimit ← approvalLimitOf input r
          let secretLimits ← secretLimitsOf input r
          let limits : Limits := { grantLimit, approvalLimit, secretLimits }
          assertClaims input.num s r limits
          return (r, some limits)

/-- Claims of one index, one after another.  What was claimed before a claim that throws stays. -/
def reserveClaims (num : NumberFormat Num) (r : AuthorizationReservation) :
    List (JsString × Int) → ClaimIndex → Except Refusal Unit × ClaimIndex
  | [], index => (.ok (), index)
  | (subjectId, limit) :: rest, index =>
      match reserveClaim num index r.tenantId subjectId r.authorizationKey
        r.authorizationReservationId limit with
      | .error e => (.error e, index)
      | .ok index => reserveClaims num r rest index

/-- `reserve` from its first claim on. -/
def claim (num : NumberFormat Num) (s : Store) (r : AuthorizationReservation) (limits : Limits) :
    Except Refusal AuthorizationReservation × Store :=
  let (grant, grantClaims) := reserveClaims num r [(r.grantId, limits.grantLimit)] s.grantClaims
  let s := { s with grantClaims }
  match grant with
  | .error e => (.error e, s)
  | .ok () =>
      let (approval, approvalClaims) :=
        reserveClaims num r limits.approvalLimit.toList s.approvalClaims
      let s := { s with approvalClaims }
      match approval with
      | .error e => (.error e, s)
      | .ok () =>
          let (secrets, secretClaims) := reserveClaims num r limits.secretLimits s.secretClaims
          let s := { s with secretClaims }
          match secrets with
          | .error e => (.error e, s)
          | .ok () =>
              (.ok r, s.put r.tenantId r.authorizationKey r)

/-- `reserve`. -/
def reserve (input : ReservationInput Num) (s : Store) (raw : AuthorizationReservation)
    (instant : JsString) : Except Refusal AuthorizationReservation × Store :=
  match examine input s raw instant with
  | .error e => (.error e, s)
  | .ok (stored, none) => (.ok stored, s)
  | .ok (r, some limits) => claim input.num s r limits

/-- `get`. -/
def Store.get (s : Store) (tenantId authorizationKey : JsString) :
    Option AuthorizationReservation :=
  (s.reservations.get tenantId).bind fun m => m.get authorizationKey

/-- `{ ...existing, state: "consumed", consumedAt }`. -/
def AuthorizationReservation.consumedFrom (existing : AuthorizationReservation)
    (consumedAt : JsString) : AuthorizationReservation :=
  { existing with state := .consumed, consumedAt := some consumedAt }

/-- `consume`. -/
def consume (input : ReservationInput Num) (s : Store)
    (tenantId authorizationKey consumedAt : JsString) :
    Except Refusal AuthorizationReservation × Store :=
  match s.get tenantId authorizationKey with
  | none => (.error mismatch, s)
  | some existing =>
      if existing.state = .consumed then (.ok existing, s)
      else if expired input consumedAt existing.expiresAt then
        (.error (.reservation .KAF_POLICY_AUTHORIZATION_EXPIRED), s)
      else
        match (existing.consumedFrom consumedAt).parse input with
        | .error e => (.error e, s)
        | .ok consumed => (.ok consumed, s.put tenantId authorizationKey consumed)

/-! ### Claims -/

/-- The reservation that claims a subject under an authorization key. -/
def claimOf (index : ClaimIndex) (subjectKey authorizationKey : JsString) : Option JsString :=
  ((index.get subjectKey).getD .empty).get authorizationKey

/-- The authorization keys that claim a subject. -/
def claimedKeys (index : ClaimIndex) (subjectKey : JsString) : List JsString :=
  ((index.get subjectKey).getD .empty).entries.map Prod.fst

variable {num : NumberFormat Num} {index index' : ClaimIndex} {k k' t t' p p' key id : JsString}
  {limit : Int}

theorem mapError_eq_ok {ε ε' α : Type} {f : ε → ε'} {x : Except ε α} {a : α} :
    x.mapError f = .ok a ↔ x = .ok a := by
  cases x <;> simp [Except.mapError]

/-- **A key of an index** is that of one tenant and one subject. -/
theorem claimSubjectKey_inj (h : claimSubjectKey num t p = .ok k)
    (h' : claimSubjectKey num t' p' = .ok k) : t = t' ∧ p = p' := by
  have hdistinct : ∀ t p : JsString,
      (Json.array [.string t, .string p] : Json Num).Distinct := by
    intro t p
    simp [Json.Distinct, Json.DistinctItems]
  have hsame := (Json.canonicalize_eq_iff (hdistinct t p) (hdistinct t' p')
    (mapError_eq_ok.mp h) (mapError_eq_ok.mp h')).mp rfl
  simpa [Json.Same, Json.SameItems] using hsame

/-- A claim is there already, or there is room for it. -/
def Available (num : NumberFormat Num) (index : ClaimIndex)
    (tenantId subjectId authorizationKey reservationId : JsString) (limit : Int) : Prop :=
  ∃ k, claimSubjectKey num tenantId subjectId = .ok k ∧
    (claimOf index k authorizationKey = some reservationId ∨
      claimOf index k authorizationKey = none ∧ ((claimedKeys index k).length : Int) < limit)

/-- **What is asserted** of a claim that may be made. -/
theorem assertClaimAvailable_ok
    (h : assertClaimAvailable num index t p key id limit = .ok ()) :
    Available num index t p key id limit := by
  unfold assertClaimAvailable at h
  obtain ⟨k, hk, h⟩ := bind_eq_ok.mp h
  refine ⟨k, hk, ?_⟩
  unfold claimOf claimedKeys
  dsimp only at h
  split at h
  · rename_i replay hreplay
    split at h
    · cases h
    · rename_i hid
      exact .inl (by rw [hreplay, not_not.mp hid])
  · rename_i hnone
    split at h
    · cases h
    · rename_i hroom
      exact .inr ⟨hnone, by rw [List.length_map]; omega⟩

/-- An index in which one more claim was made: nothing else in it changes, and if the claim is
new there was room for it. -/
structure Claimed (index index' : ClaimIndex) (k key id : JsString) (limit : Int) : Prop where
  claimOf : ∀ k' key', claimOf index' k' key' =
    if k' = k ∧ key' = key then some id else claimOf index k' key'
  others : ∀ k', k' ≠ k → claimedKeys index' k' = claimedKeys index k'
  keys : claimedKeys index' k = claimedKeys index k ∨
    claimedKeys index' k = claimedKeys index k ++ [key] ∧
      ((claimedKeys index k).length : Int) < limit

/-- **A claim that is available** is made. -/
theorem reserveClaim_ok (h : Available num index t p key id limit) :
    ∃ k index', claimSubjectKey num t p = .ok k ∧
      reserveClaim num index t p key id limit = .ok index' ∧
        Claimed index index' k key id limit := by
  obtain ⟨k, hk, hclaim⟩ := h
  simp only [reserveClaim, hk]
  rcases hclaim with hreplay | ⟨hnone, hroom⟩
  · refine ⟨k, index, rfl, ?_, ⟨fun k' key' => ?_, fun k' _ => rfl, .inl rfl⟩⟩
    · unfold claimOf at hreplay
      simp only [bind, Except.bind, hreplay, ne_eq, not_true_eq_false, if_false]
      rfl
    · split
      · rename_i heq
        rw [heq.1, heq.2, hreplay]
      · rfl
  · have hmap : ∀ k', ((index.set k (((index.get k).getD .empty).set key id)).get k').getD .empty =
        if k' = k then ((index.get k).getD .empty).set key id
        else (index.get k').getD .empty := by
      intro k'
      rw [OrderedMap.get_set]
      split <;> rfl
    refine ⟨k, index.set k (((index.get k).getD .empty).set key id), rfl, ?_,
      ⟨fun k' key' => ?_, fun k' hne => ?_, .inr ⟨?_, hroom⟩⟩⟩
    · unfold claimOf at hnone
      unfold claimedKeys at hroom
      rw [List.length_map] at hroom
      simp only [bind, Except.bind, hnone]
      rw [if_neg (by omega)]
      rfl
    · unfold claimOf
      rw [hmap]
      by_cases hk' : k' = k
      · rw [if_pos hk', OrderedMap.get_set, hk']
        simp
      · simp [hk']
    · unfold claimedKeys
      rw [hmap, if_neg hne]
    · unfold claimedKeys
      rw [hmap, if_pos rfl,
        OrderedMap.set_entries_of_fresh _ (OrderedMap.get_eq_none_iff.mp hnone), List.map_append]
      rfl

theorem Available.of_claimed (h : Available num index t p key id limit) {limit' : Int}
    (hc : Claimed index index' k key id limit') : Available num index' t p key id limit := by
  obtain ⟨k', hk', hclaim⟩ := h
  refine ⟨k', hk', ?_⟩
  rw [hc.claimOf]
  by_cases heq : k' = k
  · exact .inl (by simp [heq])
  · rw [if_neg (fun h => heq h.1), hc.others k' heq]
    exact hclaim

theorem claimedKeys_nodup (index : ClaimIndex) (k : JsString) : (claimedKeys index k).Nodup :=
  OrderedMap.nodup _

/-- An index in which a reservation claimed some subjects. -/
structure Extended (num : NumberFormat Num) (r : AuthorizationReservation)
    (subjects : List (JsString × Int)) (index index' : ClaimIndex) : Prop where
  claimed : ∀ x ∈ subjects, ∀ k, claimSubjectKey num r.tenantId x.1 = .ok k →
    claimOf index' k r.authorizationKey = some r.authorizationReservationId
  kept : ∀ k key, (key = r.authorizationKey →
    ∀ x ∈ subjects, claimSubjectKey num r.tenantId x.1 ≠ .ok k) →
      claimOf index' k key = claimOf index k key
  keys : ∀ k, claimedKeys index' k = claimedKeys index k ∨
    ∃ x ∈ subjects, claimSubjectKey num r.tenantId x.1 = .ok k ∧
      claimedKeys index' k = claimedKeys index k ++ [r.authorizationKey] ∧
      ((claimedKeys index k).length : Int) < x.2

/-- **Claims that are available** are all made: one that is made leaves the others available. -/
theorem reserveClaims_ok {r : AuthorizationReservation} {subjects : List (JsString × Int)}
    (h : ∀ x ∈ subjects, Available num index r.tenantId x.1 r.authorizationKey
      r.authorizationReservationId x.2) :
    ∃ index', reserveClaims num r subjects index = (.ok (), index') ∧
      Extended num r subjects index index' := by
  induction subjects generalizing index with
  | nil =>
    exact ⟨index, rfl, fun x hx => (nomatch hx), fun _ _ _ => rfl, fun _ => .inl rfl⟩
  | cons x rest ih =>
    obtain ⟨k, index₁, hk, hreserve, hclaimed⟩ := reserveClaim_ok (h x List.mem_cons_self)
    obtain ⟨index', hrest, hextended⟩ := ih fun y hy =>
      (h y (List.mem_cons_of_mem _ hy)).of_claimed hclaimed
    refine ⟨index', ?_, fun y hy k' hk' => ?_, fun k' key' hnot => ?_, fun k' => ?_⟩
    · simp only [reserveClaims, hreserve, hrest]
    · rcases List.mem_cons.mp hy with rfl | hy
      · obtain rfl : k = k' := Except.ok.inj (hk.symm.trans hk')
        by_cases hagain : ∃ z ∈ rest, claimSubjectKey num r.tenantId z.1 = .ok k
        · obtain ⟨z, hz, hzk⟩ := hagain
          exact hextended.claimed z hz k hzk
        · rw [hextended.kept k _ fun _ z hz hzk => hagain ⟨z, hz, hzk⟩, hclaimed.claimOf]
          simp
      · exact hextended.claimed y hy k' hk'
    · rw [hextended.kept k' key' fun hkey z hz => hnot hkey z (List.mem_cons_of_mem _ hz),
        hclaimed.claimOf, if_neg]
      rintro ⟨rfl, hkey⟩
      exact hnot hkey x List.mem_cons_self hk
    · have hfirst : claimedKeys index₁ k' = claimedKeys index k' ∨
          claimSubjectKey num r.tenantId x.1 = .ok k' ∧
            claimedKeys index₁ k' = claimedKeys index k' ++ [r.authorizationKey] ∧
            ((claimedKeys index k').length : Int) < x.2 := by
        by_cases heq : k' = k
        · subst heq
          rcases hclaimed.keys with hkeys | ⟨hkeys, hroom⟩
          · exact .inl hkeys
          · exact .inr ⟨hk, hkeys, hroom⟩
        · exact .inl (hclaimed.others k' heq)
      rcases hextended.keys k' with hkeys | ⟨y, hy, hyk, hkeys, hroom⟩
      · rcases hfirst with hsame | ⟨hxk, hadded, hroom⟩
        · exact .inl (hkeys.trans hsame)
        · exact .inr ⟨x, List.mem_cons_self, hxk, hkeys.trans hadded, hroom⟩
      · rcases hfirst with hsame | ⟨hxk, hadded, -⟩
        · rw [hsame] at hkeys hroom
          exact .inr ⟨y, List.mem_cons_of_mem _ hy, hyk, hkeys, hroom⟩
        · -- a key that was added is not added again
          have hnodup := claimedKeys_nodup index' k'
          rw [hkeys, hadded, List.nodup_append] at hnodup
          exact absurd rfl (hnodup.2.2 r.authorizationKey (by simp) r.authorizationKey (by simp))

/-! ### What the operations do -/

theorem requireLimit_ok {answer : Option Int} (h : requireLimit answer = .ok limit) :
    answer = some limit := by
  unfold requireLimit at h
  split at h
  · cases h
  · split at h
    · cases h
    · exact congrArg some (Except.ok.inj h)

/-- The subjects a reservation claims in an index, each with the limit it is held to. -/
def Held (limits : JsString → JsString → Except Thrown (Option Int)) (tenantId : JsString)
    (subjects : List JsString) (held : List (JsString × Int)) : Prop :=
  held.map Prod.fst = subjects ∧ ∀ x ∈ held, limits tenantId x.1 = .ok (some x.2)

/-- `approvalMaximumUses?.()`. -/
def ReservationInput.approvalLimits (input : ReservationInput Num) (tenantId approvalId : JsString) :
    Except Thrown (Option Int) :=
  match input.approvalMaximumUses with
  | some approvalMaximumUses => approvalMaximumUses tenantId approvalId
  | none => .ok none

variable {input : ReservationInput Num} {s : Store} {r raw : AuthorizationReservation}
  {instant : JsString} {limits : Limits}

theorem approvalLimitOf_ok {approval : Option (JsString × Int)}
    (h : approvalLimitOf input r = .ok approval) :
    Held input.approvalLimits r.tenantId r.approvalId.toList approval.toList := by
  unfold approvalLimitOf at h
  split at h
  · rename_i hid
    obtain rfl := Except.ok.inj h
    rw [hid]
    exact ⟨rfl, fun x hx => (nomatch hx)⟩
  · cases h
  · rename_i approvalId approvalMaximumUses hid hlimits
    obtain ⟨answer, hanswer, h⟩ := bind_eq_ok.mp h
    obtain ⟨limit, hlimit, h⟩ := bind_eq_ok.mp h
    obtain rfl := Except.ok.inj h
    obtain rfl := requireLimit_ok hlimit
    rw [hid]
    refine ⟨rfl, fun x hx => ?_⟩
    obtain rfl := List.mem_singleton.mp hx
    simp only [ReservationInput.approvalLimits, hlimits]
    exact mapError_eq_ok.mp hanswer

theorem secretLimitsOf_ok {secrets : List (JsString × Int)}
    (h : secretLimitsOf input r = .ok secrets) :
    Held input.secretRefMaximumUses r.tenantId r.secretRefIds secrets := by
  unfold secretLimitsOf at h
  obtain ⟨answers, hanswers, hlimits⟩ := bind_eq_ok.mp h
  clear h
  generalize r.secretRefIds = refs at hanswers ⊢
  induction refs generalizing answers secrets with
  | nil =>
    obtain rfl := Except.ok.inj hanswers
    obtain rfl := Except.ok.inj hlimits
    exact ⟨rfl, fun x hx => (nomatch hx)⟩
  | cons ref refs ih =>
    rw [List.mapM_cons] at hanswers
    obtain ⟨first, hfirst, hanswers⟩ := bind_eq_ok.mp hanswers
    obtain ⟨rest, hrest, hanswers⟩ := bind_eq_ok.mp hanswers
    obtain rfl := Except.ok.inj hanswers
    rw [List.mapM_cons] at hlimits
    obtain ⟨secret, hsecret, hlimits⟩ := bind_eq_ok.mp hlimits
    obtain ⟨others, hothers, hlimits⟩ := bind_eq_ok.mp hlimits
    obtain rfl := Except.ok.inj hlimits
    obtain ⟨answer, hanswer, hfirst⟩ := bind_eq_ok.mp hfirst
    obtain rfl := Except.ok.inj hfirst
    obtain ⟨limit, hlimit, hsecret⟩ := bind_eq_ok.mp hsecret
    obtain rfl := Except.ok.inj hsecret
    obtain rfl := requireLimit_ok hlimit
    obtain ⟨hmap, hheld⟩ := ih rest hothers hrest
    refine ⟨by simp [hmap], fun x hx => ?_⟩
    rcases List.mem_cons.mp hx with rfl | hx
    · exact mapError_eq_ok.mp hanswer
    · exact hheld x hx

theorem forM_available {subjects : List (JsString × Int)}
    (h : (subjects.forM fun x => assertClaimAvailable num index r.tenantId x.1 r.authorizationKey
      r.authorizationReservationId x.2) = .ok ()) :
    ∀ x ∈ subjects, Available num index r.tenantId x.1 r.authorizationKey
      r.authorizationReservationId x.2 := by
  induction subjects with
  | nil => exact fun x hx => (nomatch hx)
  | cons y rest ih =>
    obtain ⟨u, hfirst, hrest⟩ := bind_eq_ok.mp h
    intro x hx
    rcases List.mem_cons.mp hx with rfl | hx
    · exact assertClaimAvailable_ok hfirst
    · exact ih hrest x hx

/-- What the claims of a reservation are asked for, and that they are available. -/
structure Granted (input : ReservationInput Num) (s : Store) (r : AuthorizationReservation)
    (limits : Limits) : Prop where
  state : r.state = .reserved
  fresh : s.get r.tenantId r.authorizationKey = none
  unused : ∀ key r', s.get r.tenantId key = some r' →
    r'.authorizationReservationId ≠ r.authorizationReservationId
  grantLimit : input.grantMaximumUses r.tenantId r.grantId = .ok (some limits.grantLimit)
  approvalLimit :
    Held input.approvalLimits r.tenantId r.approvalId.toList limits.approvalLimit.toList
  secretLimits : Held input.secretRefMaximumUses r.tenantId r.secretRefIds limits.secretLimits
  grant : Available input.num s.grantClaims r.tenantId r.grantId r.authorizationKey
    r.authorizationReservationId limits.grantLimit
  approval : ∀ x ∈ limits.approvalLimit.toList, Available input.num s.approvalClaims r.tenantId x.1
    r.authorizationKey r.authorizationReservationId x.2
  secrets : ∀ x ∈ limits.secretLimits, Available input.num s.secretClaims r.tenantId x.1
    r.authorizationKey r.authorizationReservationId x.2

theorem Store.get_eq (s : Store) (tenantId key : JsString) :
    s.get tenantId key = (s.tenantReservations tenantId).get key := by
  unfold Store.get Store.tenantReservations
  cases s.reservations.get tenantId <;> rfl

/-- **What was examined** is a replay, or a new reservation whose claims are available. -/
theorem examine_ok {x : AuthorizationReservation × Option Limits}
    (h : examine input s raw instant = .ok x) :
    x.2 = none ∨ ∃ limits, x.2 = some limits ∧ Granted input s x.1 limits := by
  unfold examine at h
  obtain ⟨r, hparsed, h⟩ := bind_eq_ok.mp h
  split at h
  · cases h
  rename_i hreserved
  split at h
  · cases h
  split at h
  · obtain ⟨same, hsame, h⟩ := bind_eq_ok.mp h
    split at h
    · obtain rfl := Except.ok.inj h
      exact .inl rfl
    · cases h
  · rename_i hfresh
    split at h
    · cases h
    rename_i hduplicate
    obtain ⟨answer, hanswer, h⟩ := bind_eq_ok.mp h
    obtain ⟨grantLimit, hgrant, h⟩ := bind_eq_ok.mp h
    obtain ⟨approvalLimit, happroval, h⟩ := bind_eq_ok.mp h
    obtain ⟨secretLimits, hsecrets, h⟩ := bind_eq_ok.mp h
    obtain ⟨u₀, hclaims, h⟩ := bind_eq_ok.mp h
    obtain rfl := Except.ok.inj h
    obtain rfl := requireLimit_ok hgrant
    unfold assertClaims at hclaims
    obtain ⟨u, hgrantClaim, hclaims⟩ := bind_eq_ok.mp hclaims
    obtain ⟨u', happrovalClaim, hsecretClaims⟩ := bind_eq_ok.mp hclaims
    refine .inr ⟨_, rfl, ⟨not_not.mp hreserved, by rw [Store.get_eq, hfresh],
      fun key r' hr' hid => ?_, mapError_eq_ok.mp hanswer, approvalLimitOf_ok happroval,
      secretLimitsOf_ok hsecrets,
      assertClaimAvailable_ok hgrantClaim, forM_available happrovalClaim,
      forM_available hsecretClaims⟩⟩
    rw [Store.get_eq, OrderedMap.get_eq_some_iff] at hr'
    exact hduplicate (List.any_eq_true.mpr ⟨_, hr', beq_iff_eq.mpr hid⟩)

/-- A store in which a reservation was made. -/
structure Reserved (num : NumberFormat Num) (r : AuthorizationReservation) (limits : Limits)
    (s s' : Store) : Prop where
  grant : Extended num r [(r.grantId, limits.grantLimit)] s.grantClaims s'.grantClaims
  approval : Extended num r limits.approvalLimit.toList s.approvalClaims s'.approvalClaims
  secrets : Extended num r limits.secretLimits s.secretClaims s'.secretClaims
  get : ∀ t key, s'.get t key =
    if t = r.tenantId ∧ key = r.authorizationKey then some r else s.get t key

/-- What is stored under a key is found. -/
theorem Store.get_put (s : Store) (tenantId key t k : JsString) (r : AuthorizationReservation) :
    (s.put tenantId key r).get t k = if t = tenantId ∧ k = key then some r else s.get t k := by
  rw [Store.get_eq, Store.get_eq]
  unfold Store.put Store.tenantReservations
  dsimp only
  rw [OrderedMap.get_set]
  by_cases ht : t = tenantId
  · subst ht
    rw [if_pos rfl, Option.getD_some, OrderedMap.get_set]
    simp
  · simp [ht]

/-- **A reservation whose claims are available** is made, with all its claims. -/
theorem claim_ok (h : Granted input s r limits) :
    ∃ s', claim input.num s r limits = (.ok r, s') ∧ Reserved input.num r limits s s' := by
  have hgrantClaim : ∀ x ∈ [(r.grantId, limits.grantLimit)], Available input.num s.grantClaims
      r.tenantId x.1 r.authorizationKey r.authorizationReservationId x.2 := by
    intro x hx
    obtain rfl := List.mem_singleton.mp hx
    exact h.grant
  obtain ⟨grantClaims, hgrant, hgrantExtended⟩ := reserveClaims_ok hgrantClaim
  obtain ⟨approvalClaims, happroval, happrovalExtended⟩ := reserveClaims_ok h.approval
  obtain ⟨secretClaims, hsecrets, hsecretsExtended⟩ := reserveClaims_ok h.secrets
  refine ⟨{ s with grantClaims, approvalClaims, secretClaims }.put r.tenantId r.authorizationKey r,
    ?_, hgrantExtended, happrovalExtended, hsecretsExtended, fun t key => Store.get_put ..⟩
  simp only [claim, hgrant, happroval, hsecrets]

/-- **A call of `reserve`** changes nothing, or makes a reservation whose claims are available. -/
theorem reserve_cases (input : ReservationInput Num) (s : Store) (raw : AuthorizationReservation)
    (instant : JsString) :
    (∃ e, reserve input s raw instant = (.error e, s)) ∨
      (∃ stored, reserve input s raw instant = (.ok stored, s)) ∨
      ∃ r limits s', reserve input s raw instant = (.ok r, s') ∧ Granted input s r limits ∧
        Reserved input.num r limits s s' := by
  unfold reserve
  split
  · exact .inl ⟨_, rfl⟩
  · exact .inr (.inl ⟨_, rfl⟩)
  · rename_i r limits hexamine
    rcases examine_ok hexamine with hnone | ⟨limits', hsome, hgranted⟩
    · cases hnone
    · obtain rfl := Option.some.inj hsome
      obtain ⟨s', hclaim, hreserved⟩ := claim_ok hgranted
      exact .inr (.inr ⟨r, limits, s', hclaim, hgranted, hreserved⟩)

/-- **A call of `consume`** changes nothing, or the state and the instant of a reservation that is
not consumed. -/
theorem consume_cases (input : ReservationInput Num) (s : Store)
    (tenantId authorizationKey consumedAt : JsString) :
    (consume input s tenantId authorizationKey consumedAt).2 = s ∨
      ∃ r, s.get tenantId authorizationKey = some r ∧ r.state ≠ .consumed ∧
        (consume input s tenantId authorizationKey consumedAt).2 =
          s.put tenantId authorizationKey (r.consumedFrom consumedAt) := by
  unfold consume
  split
  · exact .inl rfl
  rename_i r hr
  split
  · exact .inl rfl
  rename_i hstate
  split
  · exact .inl rfl
  split
  · exact .inl rfl
  · rename_i consumed hparsed
    refine .inr ⟨r, hr, hstate, ?_⟩
    unfold AuthorizationReservation.parse at hparsed
    split at hparsed
    · obtain rfl := Except.ok.inj hparsed
      rfl
    · cases hparsed

/-! ### The invariant -/

/-- An index holds the claims of the stored reservations and no other. -/
def Exact (num : NumberFormat Num) (subjects : AuthorizationReservation → List JsString)
    (s : Store) (index : ClaimIndex) : Prop :=
  ∀ k key id, claimOf index k key = some id ↔
    ∃ t r, s.get t key = some r ∧ (∃ p ∈ subjects r, claimSubjectKey num t p = .ok k) ∧
      r.authorizationReservationId = id

/-- A subject that is claimed has a limit, and no more claims than that. -/
def Within (num : NumberFormat Num)
    (limits : JsString → JsString → Except Thrown (Option Int)) (index : ClaimIndex) : Prop :=
  ∀ t p k, claimSubjectKey num t p = .ok k → claimedKeys index k ≠ [] →
    ∃ maximum, limits t p = .ok (some maximum) ∧
      ((claimedKeys index k).length : Int) ≤ maximum

variable {s' : Store} {subjects : AuthorizationReservation → List JsString}
  {held : List (JsString × Int)}

theorem Exact.reserved (h : Exact num subjects s index) (hext : Extended num r held index index')
    (hheld : held.map Prod.fst = subjects r) (hfresh : s.get r.tenantId r.authorizationKey = none)
    (hget : ∀ t key, s'.get t key =
      if t = r.tenantId ∧ key = r.authorizationKey then some r else s.get t key) :
    Exact num subjects s' index' := by
  intro k key id
  have hsubjects : ∀ p ∈ subjects r, ∃ x ∈ held, x.1 = p := by
    rw [← hheld]
    exact fun p hp => List.mem_map.mp hp
  by_cases hnew : key = r.authorizationKey ∧
      ∃ x ∈ held, claimSubjectKey num r.tenantId x.1 = .ok k
  · obtain ⟨rfl, x, hx, hxk⟩ := hnew
    rw [hext.claimed x hx k hxk]
    constructor
    · rintro hid
      refine ⟨r.tenantId, r, by rw [hget, if_pos ⟨rfl, rfl⟩], ⟨x.1, ?_, hxk⟩, Option.some.inj hid⟩
      rw [← hheld]
      exact List.mem_map_of_mem hx
    · rintro ⟨t, r', hr', ⟨p, -, hpk⟩, rfl⟩
      obtain ⟨rfl, -⟩ := claimSubjectKey_inj hxk hpk
      rw [hget, if_pos ⟨rfl, rfl⟩] at hr'
      rw [Option.some.inj hr']
  · rw [hext.kept k key fun hkey x hx hxk => hnew ⟨hkey, x, hx, hxk⟩, h]
    refine exists_congr fun t => exists_congr fun r' => and_congr_left fun ⟨⟨p, hp, hpk⟩, _⟩ => ?_
    rw [hget]
    split
    · rename_i heq
      obtain ⟨rfl, rfl⟩ := heq
      rw [hfresh]
      constructor
      · exact fun h => nomatch h
      · intro hr
        obtain rfl := Option.some.inj hr
        obtain ⟨x, hx, rfl⟩ := hsubjects p hp
        exact absurd ⟨rfl, x, hx, hpk⟩ hnew
    · rfl

theorem Exact.changed (h : Exact num subjects s index) {r r' : AuthorizationReservation}
    {s' : Store} (hr : s.get t key = some r)
    (hget : ∀ t' key', s'.get t' key' =
      if t' = t ∧ key' = key then some r' else s.get t' key')
    (hsubjects : subjects r' = subjects r)
    (hid : r'.authorizationReservationId = r.authorizationReservationId) :
    Exact num subjects s' index := by
  intro k key' id
  rw [h]
  refine exists_congr fun t' => ?_
  rw [hget]
  split
  · rename_i heq
    obtain ⟨rfl, rfl⟩ := heq
    constructor
    · rintro ⟨r'', hr'', hp, rfl⟩
      obtain rfl := Option.some.inj (hr.symm.trans hr'')
      exact ⟨r', rfl, by rwa [hsubjects], hid⟩
    · rintro ⟨r'', hr'', hp, rfl⟩
      obtain rfl := Option.some.inj hr''
      exact ⟨r, hr, by rwa [← hsubjects], hid.symm⟩
  · rfl

theorem Within.reserved {limits : JsString → JsString → Except Thrown (Option Int)}
    (h : Within num limits index) (hext : Extended num r held index index')
    (hheld : ∀ x ∈ held, limits r.tenantId x.1 = .ok (some x.2)) :
    Within num limits index' := by
  intro t p k hk hne
  rcases hext.keys k with hkeys | ⟨x, hx, hxk, hkeys, hroom⟩
  · rw [hkeys] at hne ⊢
    exact h t p k hk hne
  · obtain ⟨rfl, rfl⟩ := claimSubjectKey_inj hxk hk
    refine ⟨x.2, hheld x hx, ?_⟩
    rw [hkeys, List.length_append, List.length_singleton]
    omega

/-- The reservations are under their keys and their ids are distinct, and the indexes hold their
claims, within the limits. -/
structure Tight (input : ReservationInput Num) (s : Store) : Prop where
  stored : ∀ t key r, s.get t key = some r → r.tenantId = t ∧ r.authorizationKey = key ∧
    (r.state = .reserved ∨ r.state = .consumed)
  ids : ∀ t key key' r r', s.get t key = some r → s.get t key' = some r' →
    r.authorizationReservationId = r'.authorizationReservationId → key = key'
  grants : Exact input.num (fun r => [r.grantId]) s s.grantClaims
  approvals : Exact input.num (fun r => r.approvalId.toList) s s.approvalClaims
  secrets : Exact input.num (fun r => r.secretRefIds) s s.secretClaims
  grantsWithin : Within input.num input.grantMaximumUses s.grantClaims
  approvalsWithin : Within input.num input.approvalLimits s.approvalClaims
  secretsWithin : Within input.num input.secretRefMaximumUses s.secretClaims

theorem Tight.empty : Tight input .empty := by
  have hexact : ∀ subjects, Exact input.num subjects .empty .empty := by
    intro subjects k key id
    constructor
    · exact fun h => nomatch h
    · rintro ⟨t, r, hr, -⟩
      cases hr
  have hwithin : ∀ limits, Within input.num limits .empty :=
    fun limits t p k _ hne => absurd rfl hne
  exact ⟨fun _ _ _ h => (nomatch h), fun _ _ _ _ _ h => (nomatch h), hexact _, hexact _, hexact _,
    hwithin _, hwithin _, hwithin _⟩

theorem Tight.reserved (h : Tight input s) (hg : Granted input s r limits)
    (hr : Reserved input.num r limits s s') : Tight input s' where
  stored t key r' hr' := by
    rw [hr.get] at hr'
    split at hr'
    · rename_i heq
      obtain rfl := Option.some.inj hr'
      exact ⟨heq.1.symm, heq.2.symm, .inl hg.state⟩
    · exact h.stored t key r' hr'
  ids t key key' r₁ r₂ h₁ h₂ hid := by
    rw [hr.get] at h₁ h₂
    split at h₁ <;> split at h₂
    · rename_i heq heq'
      exact heq.2.trans heq'.2.symm
    · rename_i heq _
      obtain rfl := Option.some.inj h₁
      rw [heq.1] at h₂
      exact absurd hid.symm (hg.unused key' r₂ h₂)
    · rename_i _ heq
      obtain rfl := Option.some.inj h₂
      rw [heq.1] at h₁
      exact absurd hid (hg.unused key r₁ h₁)
    · exact h.ids t key key' r₁ r₂ h₁ h₂ hid
  grants := h.grants.reserved hr.grant rfl hg.fresh hr.get
  approvals := h.approvals.reserved hr.approval hg.approvalLimit.1 hg.fresh hr.get
  secrets := h.secrets.reserved hr.secrets hg.secretLimits.1 hg.fresh hr.get
  grantsWithin := h.grantsWithin.reserved hr.grant fun x hx => by
    obtain rfl := List.mem_singleton.mp hx
    exact hg.grantLimit
  approvalsWithin := h.approvalsWithin.reserved hr.approval hg.approvalLimit.2
  secretsWithin := h.secretsWithin.reserved hr.secrets hg.secretLimits.2

theorem Tight.reserve (h : Tight input s) (raw : AuthorizationReservation) (instant : JsString) :
    Tight input (reserve input s raw instant).2 := by
  rcases reserve_cases input s raw instant with
    ⟨e, hs⟩ | ⟨stored, hs⟩ | ⟨r, limits, s', hs, hg, hr⟩ <;> rw [hs]
  · exact h
  · exact h
  · exact h.reserved hg hr

theorem Tight.consume (h : Tight input s) (tenantId authorizationKey consumedAt : JsString) :
    Tight input (consume input s tenantId authorizationKey consumedAt).2 := by
  rcases consume_cases input s tenantId authorizationKey consumedAt with hs | ⟨r, hr, -, hs⟩ <;>
    rw [hs]
  · exact h
  have hget := fun t key =>
    Store.get_put s tenantId authorizationKey t key (r.consumedFrom consumedAt)
  have hid : ∀ t key r',
      (s.put tenantId authorizationKey (r.consumedFrom consumedAt)).get t key = some r' →
      ∃ r₀, s.get t key = some r₀ ∧
        r₀.authorizationReservationId = r'.authorizationReservationId := by
    intro t key r' hr'
    rw [hget] at hr'
    split at hr'
    · rename_i heq
      obtain rfl := Option.some.inj hr'
      exact ⟨r, by rw [heq.1, heq.2, hr], rfl⟩
    · exact ⟨r', hr', rfl⟩
  refine ⟨fun t key r' hr' => ?_, fun t key key' r₁ r₂ h₁ h₂ heq => ?_,
    h.grants.changed hr hget rfl rfl,
    h.approvals.changed hr hget rfl rfl,
    h.secrets.changed hr hget rfl rfl, h.grantsWithin,
    h.approvalsWithin, h.secretsWithin⟩
  · rw [hget] at hr'
    split at hr'
    · rename_i heq
      obtain rfl := Option.some.inj hr'
      obtain ⟨htenant, hkey, -⟩ := h.stored _ _ _ hr
      exact ⟨htenant.trans heq.1.symm, hkey.trans heq.2.symm, .inr rfl⟩
    · exact h.stored t key r' hr'
  · obtain ⟨r₁', h₁', hid₁⟩ := hid t key r₁ h₁
    obtain ⟨r₂', h₂', hid₂⟩ := hid t key' r₂ h₂
    exact h.ids t key key' r₁' r₂' h₁' h₂' (hid₁.trans (heq.trans hid₂.symm))

/-! ### Runs -/

/-- A call of the store. -/
inductive ReservationCall where
  | reserve (raw : AuthorizationReservation) (instant : JsString)
  | get (tenantId authorizationKey : JsString)
  | consume (tenantId authorizationKey consumedAt : JsString)

/-- What a call leaves. -/
def ReservationCall.step (input : ReservationInput Num) (s : Store) : ReservationCall → Store
  | .reserve raw instant => (AuthorizationClaims.reserve input s raw instant).2
  | .get _ _ => s
  | .consume tenantId authorizationKey consumedAt =>
      (AuthorizationClaims.consume input s tenantId authorizationKey consumedAt).2

theorem Tight.step (h : Tight input s) (call : ReservationCall) : Tight input (call.step input s) :=
  match call with
  | .reserve raw instant => h.reserve raw instant
  | .get _ _ => h
  | .consume tenantId authorizationKey consumedAt => h.consume tenantId authorizationKey consumedAt

theorem Tight.run (h : Tight input s) (calls : List ReservationCall) :
    Tight input (calls.foldl (ReservationCall.step input) s) := by
  induction calls generalizing s with
  | nil => exact h
  | cons call calls ih => exact ih (h.step call)

/-- A reservation, or what one `consume` makes of it. -/
def Later (r r' : AuthorizationReservation) : Prop :=
  r' = r ∨ r.state ≠ .consumed ∧
    ∃ consumedAt, r' = r.consumedFrom consumedAt

theorem Later.step {r : AuthorizationReservation} (hr : s.get t key = some r)
    (call : ReservationCall) : ∃ r', (call.step input s).get t key = some r' ∧ Later r r' := by
  cases call with
  | get => exact ⟨r, hr, .inl rfl⟩
  | reserve raw instant =>
    unfold ReservationCall.step
    dsimp only
    rcases reserve_cases input s raw instant with
      ⟨e, hs⟩ | ⟨stored, hs⟩ | ⟨r₀, limits, s', hs, hg, hreserved⟩ <;> rw [hs]
    · exact ⟨r, hr, .inl rfl⟩
    · exact ⟨r, hr, .inl rfl⟩
    · refine ⟨r, ?_, .inl rfl⟩
      dsimp only
      rw [hreserved.get, if_neg, hr]
      rintro ⟨rfl, rfl⟩
      rw [hg.fresh] at hr
      cases hr
  | consume tenantId authorizationKey consumedAt =>
    unfold ReservationCall.step
    dsimp only
    rcases consume_cases input s tenantId authorizationKey consumedAt with
      hs | ⟨r₀, hr₀, hstate, hs⟩ <;> rw [hs]
    · exact ⟨r, hr, .inl rfl⟩
    · rw [Store.get_put]
      split
      · rename_i heq
        rw [heq.1, heq.2, hr₀] at hr
        obtain rfl := Option.some.inj hr
        exact ⟨_, rfl, .inr ⟨hstate, _, rfl⟩⟩
      · exact ⟨r, hr, .inl rfl⟩

/-- **At most one `consume`** changes a reservation. -/
theorem Later.run {r : AuthorizationReservation} (hr : s.get t key = some r)
    (calls : List ReservationCall) :
    ∃ r', (calls.foldl (ReservationCall.step input) s).get t key = some r' ∧ Later r r' := by
  induction calls generalizing s r with
  | nil => exact ⟨r, hr, .inl rfl⟩
  | cons call calls ih =>
    have hcall : ∃ r₁, (call.step input s).get t key = some r₁ ∧ Later r r₁ := Later.step hr call
    obtain ⟨r₁, hr₁, hfirst⟩ := hcall
    obtain ⟨r₂, hr₂, hrest⟩ := ih hr₁
    refine ⟨r₂, hr₂, ?_⟩
    rcases hfirst with rfl | ⟨hstate, consumedAt, rfl⟩
    · exact hrest
    · rcases hrest with rfl | ⟨hconsumed, -⟩
      · exact .inr ⟨hstate, consumedAt, rfl⟩
      · exact absurd rfl hconsumed

/-- **After every sequence of calls** the indexes hold the claims of the stored reservations and no
other, within the limits; an authorization key and a reservation id are those of at most one
reservation of a tenant; a `reserve` that throws changes nothing; and all that is ever changed in
a reservation is its consumption, once. -/
theorem reservations_bounded (input : ReservationInput Num) (calls : List ReservationCall) :
    let s := calls.foldl (ReservationCall.step input) .empty
    (Within input.num input.grantMaximumUses s.grantClaims ∧
      Within input.num input.approvalLimits s.approvalClaims ∧
      Within input.num input.secretRefMaximumUses s.secretClaims) ∧
    (Exact input.num (fun r => [r.grantId]) s s.grantClaims ∧
      Exact input.num (fun r => r.approvalId.toList) s s.approvalClaims ∧
      Exact input.num (fun r => r.secretRefIds) s s.secretClaims) ∧
    (∀ t key key' r r', s.get t key = some r → s.get t key' = some r' →
      r.authorizationKey = r'.authorizationKey ∨
        r.authorizationReservationId = r'.authorizationReservationId → key = key' ∧ r = r') ∧
    (∀ raw instant e, (reserve input s raw instant).1 = .error e →
      (reserve input s raw instant).2 = s) ∧
    (∀ tenantId key consumedAt,
      let s' := (consume input s tenantId key consumedAt).2
      s'.grantClaims = s.grantClaims ∧ s'.approvalClaims = s.approvalClaims ∧
        s'.secretClaims = s.secretClaims ∧
        ∀ t k, ¬ (t = tenantId ∧ k = key) → s'.get t k = s.get t k) ∧
    ∀ t key r, s.get t key = some r → ∀ later : List ReservationCall,
      ∃ r', (later.foldl (ReservationCall.step input) s).get t key = some r' ∧ Later r r' := by
  intro s
  have h : Tight input s := Tight.empty.run calls
  refine ⟨⟨h.grantsWithin, h.approvalsWithin, h.secretsWithin⟩, ⟨h.grants, h.approvals, h.secrets⟩,
    fun t key key' r r' hr hr' heq => ?_, fun raw instant e herror => ?_,
    fun tenantId key consumedAt => ?_, fun t key r hr later => Later.run hr later⟩
  · have hkey : key = key' := by
      rcases heq with heq | heq
      · rw [← (h.stored t key r hr).2.1, ← (h.stored t key' r' hr').2.1, heq]
      · exact h.ids t key key' r r' hr hr' heq
    subst hkey
    exact ⟨rfl, Option.some.inj (hr.symm.trans hr')⟩
  · rcases reserve_cases input s raw instant with
      ⟨e, hs⟩ | ⟨stored, hs⟩ | ⟨r, limits, s', hs, -, -⟩
    · rw [hs]
    · rw [hs]
    · rw [hs] at herror
      cases herror
  · dsimp only
    rcases consume_cases input s tenantId key consumedAt with hs | ⟨r, -, -, hs⟩ <;> rw [hs]
    · exact ⟨rfl, rfl, rfl, fun _ _ _ => rfl⟩
    · exact ⟨rfl, rfl, rfl, fun t k hne => by rw [Store.get_put, if_neg hne]⟩

namespace TwoTenants

/-- Every subject may be claimed once, and every text is an instant, without a value. -/
def oneUse : ReservationInput SampleNumber where
  num := SampleNumber.format
  dateParse _ := none
  isoDatetime _ := true
  grantMaximumUses _ _ := .ok (some 1)
  secretRefMaximumUses _ _ := .ok (some 1)
  approvalMaximumUses := none

def digest : JsString :=
  lit "sha256:" ++ List.replicate 64 48

/-- A reservation of a tenant. -/
def reservation (tenantId : JsString) : AuthorizationReservation where
  authorizationReservationId := lit "authorization-1"
  authorizationKey := lit "key-1"
  tenantId
  runId := lit "run-1"
  stepId := lit "step-1"
  toolCallId := lit "call-1"
  effectKey := none
  workOrderBindingDigest := digest
  executionDefinition := .agent (lit "agent") (lit "1") digest
  executionDefinitionDigest := digest
  toolId := lit "tool"
  toolVersion := lit "1"
  toolRegistrationDigest := digest
  policyRegistrationDigest := digest
  argumentsDigest := digest
  normalizedTargetDigest := digest
  grantId := lit "grant-1"
  approvalId := none
  secretRefIds := []
  purposeCode := lit "purpose"
  purposeRegistryVersion := lit "1"
  state := .reserved
  createdAt := lit "2026-08-03T10:00:00.000Z"
  expiresAt := lit "2026-08-03T10:10:00.000Z"
  consumedAt := none

end TwoTenants

open TwoTenants in
/-- Two tenants may use one authorization key and one reservation id. -/
theorem reservations_unique_not_across_tenants :
    ¬ ∀ (calls : List ReservationCall) (t t' key key' : JsString) (r r' : AuthorizationReservation),
      (calls.foldl (ReservationCall.step oneUse) .empty).get t key = some r →
      (calls.foldl (ReservationCall.step oneUse) .empty).get t' key' = some r' →
      r.authorizationKey = r'.authorizationKey ∨
        r.authorizationReservationId = r'.authorizationReservationId → r = r' := by
  intro h
  have hsame := h [.reserve (reservation (lit "a")) (lit "now"),
    .reserve (reservation (lit "b")) (lit "now")] (lit "a") (lit "b") (lit "key-1") (lit "key-1")
    (reservation (lit "a")) (reservation (lit "b")) (by decide +kernel) (by decide +kernel)
    (.inl rfl)
  exact absurd (congrArg AuthorizationReservation.tenantId hsame) (by decide)

end AuthorizationClaims

end Pactmark
