import Mathlib.Data.List.Basic
import Mathlib.Data.List.Forall2
import Mathlib.Data.Option.Basic
import Pactmark.Core.Capability

/-!
# Policy — resource scopes

`canonicalizeResourceScope` and `isResourceWithinScope` of `policy/src/canonicalization.ts`, and
what `ResourceScopeSchema` parses.  The canonical forms of the values are a parameter: they rest
on the Unicode tables and the URLs of the platform.

* `parseList_mono`: a longer list parses to a longer list.
* `scopesAllowed_mono`: what is within a ceiling is within more ceilings.
-/

namespace Pactmark

namespace Policy

/-! ### Parsing -/

/-- `z.array(schema).max(256)`. -/
def parseList {α : Type} (parse : α → Option α) (l : List α) : Option (List α) :=
  if l.length ≤ 256 then l.mapM parse else none

/-- `ResourceScopeSchema`. -/
def parseScope (scope : ResourceScope) : Option ResourceScope :=
  match boundedText 2048 scope.value, boundedText 64 scope.normalizationVersion with
  | some value, some normalizationVersion => some ⟨scope.kind, value, normalizationVersion⟩
  | _, _ => none

section Parse

variable {α : Type} {parse : α → Option α} {l l' r r' : List α}

theorem mapM_eq_some_iff :
    l.mapM parse = some r ↔ List.Forall₂ (fun a b => parse a = some b) l r := by
  induction l generalizing r with
  | nil => simp [eq_comm]
  | cons a l ih =>
    simp only [List.mapM_cons, Option.bind_eq_bind, Option.bind_eq_some_iff, Option.pure_def,
      Option.some.injEq, List.forall₂_cons_left_iff, ih]
    constructor
    · rintro ⟨b, hb, r', hr', rfl⟩
      exact ⟨b, r', hb, hr', rfl⟩
    · rintro ⟨b, r', hb, hr', rfl⟩
      exact ⟨b, hb, r', hr', rfl⟩

theorem parseList_eq_some_iff :
    parseList parse l = some r ↔
      l.length ≤ 256 ∧ List.Forall₂ (fun a b => parse a = some b) l r := by
  unfold parseList
  split
  · rename_i hlength
    rw [mapM_eq_some_iff, and_iff_right hlength]
  · rename_i hlength
    simp [hlength]

theorem mem_of_parseList (h : parseList parse l = some r) {b : α} :
    b ∈ r ↔ ∃ a ∈ l, parse a = some b := by
  have hl := (parseList_eq_some_iff.mp h).2
  clear h
  induction hl with
  | nil => simp
  | cons hab _ ih => simp [ih, hab, eq_comm]

/-- A longer list parses to a longer list. -/
theorem parseList_mono (h : parseList parse l = some r) (h' : parseList parse l' = some r')
    (hl : l ⊆ l') : r ⊆ r' := by
  intro b hb
  obtain ⟨a, ha, hab⟩ := (mem_of_parseList h).mp hb
  exact (mem_of_parseList h').mpr ⟨a, hl ha, hab⟩

/-- A list that has been parsed is parsed to itself. -/
theorem parseList_idem (hidem : ∀ a b, parse a = some b → parse b = some b)
    (h : parseList parse l = some r) : parseList parse r = some r := by
  obtain ⟨hlength, hl⟩ := parseList_eq_some_iff.mp h
  refine parseList_eq_some_iff.mpr ⟨hl.length_eq ▸ hlength, List.forall₂_same.mpr fun b hb => ?_⟩
  obtain ⟨a, -, hab⟩ := (mem_of_parseList h).mp hb
  exact hidem a b hab

theorem parseScope_idem (scope parsed : ResourceScope) (h : parseScope scope = some parsed) :
    parseScope parsed = some parsed := by
  unfold parseScope at h
  split at h
  · rename_i value normalizationVersion hvalue hversion
    obtain rfl := Option.some.inj h
    simp only [parseScope, boundedText_idem hvalue, boundedText_idem hversion]
  · cases h

end Parse

/-! ### Scopes -/

/-- The parts of a `URL` that are compared. -/
structure UrlParts where
  origin : String
  search : String
  pathname : String
  deriving DecidableEq, Repr

/-- The canonical form of a value of a kind, if it has one, the parts of a canonical URL, and
`digestCanonicalJson({ schemaVersion: "1", resources })`. -/
structure Normalization where
  canonical : ResourceScopeKind → String → Option String
  url : String → UrlParts
  digest : List ResourceScope → Digest

/-- `POLICY_NORMALIZATION_VERSION`. -/
def POLICY_NORMALIZATION_VERSION : String :=
  "pactmark.policy-normalization@1"

variable (N : Normalization)

/-- `canonicalizeResourceScope`; it throws when it is none. -/
def canonicalizeResourceScope (scope : ResourceScope) : Option ResourceScope :=
  match scope.kind with
  | .path | .url | .host | .identifier | .tenant | .urn =>
      (N.canonical scope.kind scope.value).map fun value =>
        ⟨scope.kind, value, POLICY_NORMALIZATION_VERSION⟩
  | _ => none

/-- `child.startsWith(parent)`. -/
def startsWith (child parent : String) : Bool :=
  parent.toList.isPrefixOf child.toList

/-- `pathname.replace(/\/$/u, "")`. -/
def withoutSlash (pathname : String) : String :=
  if pathname.toList.getLast? = some '/' then String.ofList pathname.toList.dropLast else pathname

/-- `isResourceWithinScope`. -/
def isResourceWithinScope (candidate ceiling : ResourceScope) : Bool :=
  if candidate.kind ≠ ceiling.kind then false
  else
    match canonicalizeResourceScope N candidate, canonicalizeResourceScope N ceiling with
    | some child, some parent =>
        match child.kind with
        | .path => child.value = parent.value ∨ startsWith child.value (parent.value ++ "/")
        | .url =>
            let childUrl := N.url child.value
            let parentUrl := N.url parent.value
            childUrl.origin = parentUrl.origin ∧ childUrl.search = parentUrl.search ∧
              (childUrl.pathname = parentUrl.pathname ∨
                startsWith childUrl.pathname (withoutSlash parentUrl.pathname ++ "/"))
        | _ => child.value = parent.value
    | _, _ => false

/-- `scopesAllowed`. -/
def scopesAllowed (candidates ceilings : List ResourceScope) : Bool :=
  candidates.all fun candidate => ceilings.any (isResourceWithinScope N candidate)

/-- What is within the ceilings is within more of them. -/
theorem scopesAllowed_mono {candidates ceilings ceilings' : List ResourceScope}
    (hsub : ceilings ⊆ ceilings') (h : scopesAllowed N candidates ceilings = true) :
    scopesAllowed N candidates ceilings' = true := by
  simp only [scopesAllowed, List.all_eq_true, List.any_eq_true] at h ⊢
  intro candidate hcandidate
  obtain ⟨ceiling, hceiling, hwithin⟩ := h candidate hcandidate
  exact ⟨ceiling, hsub hceiling, hwithin⟩

end Policy

end Pactmark
