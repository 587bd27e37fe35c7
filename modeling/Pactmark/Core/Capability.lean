import Mathlib.Data.List.DropRight
import Pactmark.Core.Run
import Pactmark.Core.Records

/-!
# Core — principals, resource scopes and capability grants

`core/src/authority.ts`, `core/src/capability.ts` and the resource scopes of
`core/src/work-order.ts`, with the texts and instants their schemas accept.  A record is what its
schema has parsed it to.
-/

namespace Pactmark

/-! ### Texts and instants -/

/-- The white space `String.prototype.trim` takes away. -/
def isWhiteSpace (c : Char) : Bool :=
  c.toNat ∈ [9, 10, 11, 12, 13, 32, 0xa0, 0x1680, 0x2028, 0x2029, 0x202f, 0x205f, 0x3000,
    0xfeff] ∨ (0x2000 ≤ c.toNat ∧ c.toNat ≤ 0x200a)

/-- `value.trim()`. -/
def trim (value : String) : String :=
  String.ofList ((value.toList.dropWhile isWhiteSpace).rdropWhile isWhiteSpace)

/-- `value.length`, in UTF-16 code units. -/
def codeUnits (value : String) : Nat :=
  (value.toList.map fun c => if c.toNat < 0x10000 then 1 else 2).sum

/-- `z.string().trim().min(1).max(maximum)`. -/
def boundedText (maximum : Nat) (value : String) : Option String :=
  if 1 ≤ codeUnits (trim value) ∧ codeUnits (trim value) ≤ maximum then some (trim value) else none

theorem boundedText_eq_some {maximum : Nat} {value parsed : String}
    (h : boundedText maximum value = some parsed) : parsed = trim value := by
  unfold boundedText at h
  split at h
  · exact (Option.some.inj h).symm
  · cases h

theorem trim_trim (value : String) : trim (trim value) = trim value := by
  unfold trim
  rw [String.toList_ofList]
  -- a prefix of a text without leading white space has none either
  have hfirst : ((value.toList.dropWhile isWhiteSpace).rdropWhile isWhiteSpace).dropWhile
      isWhiteSpace = (value.toList.dropWhile isWhiteSpace).rdropWhile isWhiteSpace := by
    rw [List.dropWhile_eq_self_iff]
    intro hl
    have hpre := List.rdropWhile_prefix isWhiteSpace (value.toList.dropWhile isWhiteSpace)
    rw [hpre.getElem hl]
    exact List.dropWhile_eq_self_iff.mp (List.dropWhile_idempotent _ _) (hl.trans_le hpre.length_le)
  rw [hfirst, List.rdropWhile_idempotent]

/-- A text that has been parsed is parsed to itself. -/
theorem boundedText_idem {maximum : Nat} {value parsed : String}
    (h : boundedText maximum value = some parsed) : boundedText maximum parsed = some parsed := by
  obtain rfl := boundedText_eq_some h
  unfold boundedText at h ⊢
  rw [trim_trim]
  split at h
  · rename_i hlength
    rw [if_pos hlength]
  · cases h

/-- A text that should be an instant, and `Date.parse` of it, if that is a number. -/
structure InstantText where
  text : String
  milliseconds : Option Int
  deriving DecidableEq, Repr

/-- `z.iso.datetime({ offset: true })`: an instant as it is written, and `Date.parse` of it. -/
structure IsoInstant where
  text : String
  milliseconds : Int
  deriving DecidableEq, Repr

/-- A text that should be an instant, and what the schema parses it to, if it accepts it. -/
structure DateTimeText extends InstantText where
  parsed : Option IsoInstant
  parsed_eq : ∀ i ∈ parsed, i.text = text ∧ milliseconds = some i.milliseconds

/-- `Date.parse(expiresAt) <= Date.parse(at)`. -/
def IsoInstant.reached (expiresAt : IsoInstant) (instant : InstantText) : Bool :=
  match instant.milliseconds with
  | some milliseconds => expiresAt.milliseconds ≤ milliseconds
  | none => false

/-! ### Authority and grants -/

/-- `type` of a `PrincipalSchema`. -/
inductive PrincipalType where
  | user
  | service
  | system_worker
  deriving DecidableEq, Repr

/-- `PrincipalSchema`. -/
structure Principal where
  type : PrincipalType
  id : String
  deriving DecidableEq, Repr

/-- `PurposeSchema`. -/
structure Purpose where
  code : String
  registryVersion : String
  deriving DecidableEq, Repr

/-- `ResourceScopeKindSchema`. -/
inductive ResourceScopeKind where
  | path
  | url
  | host
  | identifier
  | tenant
  | urn
  | dataset
  | run
  | record
  | artifact
  | opaqueValue
  deriving DecidableEq, Repr

/-- `ResourceScopeSchema`. -/
structure ResourceScope where
  kind : ResourceScopeKind
  value : String
  normalizationVersion : String
  deriving DecidableEq, Repr

/-- `CapabilityGrantBindingSchema`. -/
structure CapabilityGrantBinding where
  issuerId : String
  principal : Principal
  tenantId : String
  workOrderId : String
  workOrderBindingDigest : Digest
  executionDefinition : ExecutionDefinition
  executionDefinitionDigest : Digest
  capability : String
  action : String
  toolId : String
  toolVersion : String
  toolRegistrationDigest : Digest
  normalizedResources : List ResourceScope
  purpose : Purpose
  policyRegistrationDigest : Digest
  deriving DecidableEq, Repr

/-- `CapabilityGrantSchema`. -/
structure IssuedGrant extends CapabilityGrantBinding where
  id : String
  maximumUses : Nat
  maximumUses_pos : 0 < maximumUses
  issuedAt : IsoInstant
  expiresAt : IsoInstant
  revokedAt : Option IsoInstant
  deriving DecidableEq, Repr

/-- `CapabilityGrantUseClaim`, as `reserveUse` makes it: it is not parsed. -/
structure GrantUseClaim where
  grantId : String
  authorizationKey : String
  useNumber : Nat
  claimedAt : InstantText
  deriving DecidableEq, Repr

end Pactmark
