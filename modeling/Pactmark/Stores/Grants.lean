import Pactmark.Core.Capability
import Pactmark.Durable.OrderedMap
import Pactmark.Durable.Snapshots

/-!
# Stores — capability grants and their uses

`MemoryCapabilityGrantStore` of `store-memory/src/authority-stores.ts`.  The number of a use is
counted over the claims of all tenants, and a restore adopts the maps of the snapshot.

* `reserveUse_cases`: a use is there already, is refused, or is the next one of an available
  grant.
* `Bounded.step`: the claims of a grant are numbered from one and within its maximum.
* `grants_bounded`: what holds in every state, whatever was rolled back.
-/

namespace Pactmark

open Durable

/-- `CapabilityGrantResolution`. -/
inductive CapabilityGrantResolution where
  | active (grant : IssuedGrant) (usesRemaining : Nat)
  | missing
  | expired
  | revoked
  | exhausted
  | binding_mismatch
  deriving DecidableEq, Repr

/-- `MemoryCapabilityGrantStore`. -/
structure MemoryCapabilityGrantStore where
  grants : OrderedMap (String × String) IssuedGrant
  claims : OrderedMap (String × String × String) (String × GrantUseClaim)

namespace MemoryCapabilityGrantStore

/-- `new MemoryCapabilityGrantStore()`. -/
def empty : MemoryCapabilityGrantStore :=
  ⟨.empty, .empty⟩

/-- The claims of a grant among those of all tenants. -/
def claimsOf (s : MemoryCapabilityGrantStore) (tenantId grantId : String) : List GrantUseClaim :=
  (s.claims.entries.filter fun x => x.2.1 = tenantId ∧ x.2.2.grantId = grantId).map (·.2.2)

/-- `issue`. -/
def issue (s : MemoryCapabilityGrantStore) (grant : IssuedGrant) :
    Except Thrown Unit × MemoryCapabilityGrantStore :=
  match s.grants.get (grant.tenantId, grant.id) with
  | some existing =>
      if existing = grant then (.ok (), s) else (.error (conflict "capability_grant_changed"), s)
  | none => (.ok (), { s with grants := s.grants.set (grant.tenantId, grant.id) grant })

/-- `revoke`; `revokedAt` is none when the schema refuses it. -/
def revoke (s : MemoryCapabilityGrantStore) (tenantId grantId : String)
    (revokedAt : Option IsoInstant) : Except Thrown Unit × MemoryCapabilityGrantStore :=
  match s.grants.get (tenantId, grantId) with
  | none => (.error (kafError .KAF_STORAGE_NOT_FOUND), s)
  | some grant =>
      match revokedAt with
      | none => (.error (.host "ZodError" true), s)
      | some revokedAt =>
          (.ok (), { s with
            grants := s.grants.set (tenantId, grantId) { grant with revokedAt := some revokedAt } })

/-- `resolve`. -/
def resolve (s : MemoryCapabilityGrantStore) (grantId : String) (binding : CapabilityGrantBinding)
    (instant : InstantText) : CapabilityGrantResolution :=
  match s.grants.get (binding.tenantId, grantId) with
  | none => .missing
  | some grant =>
      if binding ≠ grant.toCapabilityGrantBinding then .binding_mismatch
      else if grant.revokedAt ≠ none then .revoked
      else if grant.expiresAt.reached instant then .expired
      else
        let uses := (s.claimsOf grant.tenantId grant.id).length
        if grant.maximumUses ≤ uses then .exhausted else .active grant (grant.maximumUses - uses)

/-- `grant_unavailable` and `grant_exhausted` of `reserveUse`. -/
def unavailable (reason : String) : Thrown :=
  kafReason .KAF_AUTHORIZATION_BINDING_MISMATCH reason

/-- `reserveUse`. -/
def reserveUse (s : MemoryCapabilityGrantStore) (tenantId grantId authorizationKey : String)
    (instant : InstantText) : Except Thrown GrantUseClaim × MemoryCapabilityGrantStore :=
  match s.claims.get (tenantId, grantId, authorizationKey) with
  | some existing => (.ok existing.2, s)
  | none =>
      match s.grants.get (tenantId, grantId) with
      | none => (.error (unavailable "capability_grant_unavailable"), s)
      | some grant =>
          if grant.revokedAt ≠ none ∨ grant.expiresAt.reached instant then
            (.error (unavailable "capability_grant_unavailable"), s)
          else
            let useNumber := (s.claimsOf tenantId grantId).length + 1
            if grant.maximumUses < useNumber then
              (.error (unavailable "capability_grant_exhausted"), s)
            else
              let claim : GrantUseClaim :=
                { grantId, authorizationKey, useNumber, claimedAt := instant }
              (.ok claim, { s with
                claims := s.claims.set (tenantId, grantId, authorizationKey) (tenantId, claim) })

end MemoryCapabilityGrantStore

/-- A call that changes the grants or the claims. -/
inductive GrantCall where
  | issue (grant : IssuedGrant)
  | revoke (tenantId grantId : String) (revokedAt : Option IsoInstant)
  | reserveUse (tenantId grantId authorizationKey : String) (instant : InstantText)

/-- What a call leaves. -/
def GrantCall.step (s : MemoryCapabilityGrantStore) : GrantCall → MemoryCapabilityGrantStore
  | .issue grant => (s.issue grant).2
  | .revoke tenantId grantId revokedAt => (s.revoke tenantId grantId revokedAt).2
  | .reserveUse tenantId grantId authorizationKey instant =>
      (s.reserveUse tenantId grantId authorizationKey instant).2

namespace MemoryCapabilityGrantStore

variable {s s' : MemoryCapabilityGrantStore} {tenantId grantId key : String}

/-! ### What the operations do -/

/-- A grant is there already, or it is new. -/
theorem issue_cases (s : MemoryCapabilityGrantStore) (grant : IssuedGrant) :
    (s.issue grant).2 = s ∨
      s.grants.get (grant.tenantId, grant.id) = none ∧
        (s.issue grant).2 =
          { s with grants := s.grants.set (grant.tenantId, grant.id) grant } := by
  unfold issue
  split
  · split <;> exact .inl rfl
  · exact .inr ⟨‹_›, rfl⟩

/-- Nothing but the revocation of a grant changes. -/
theorem revoke_cases (s : MemoryCapabilityGrantStore) (tenantId grantId : String)
    (revokedAt : Option IsoInstant) :
    (s.revoke tenantId grantId revokedAt).2 = s ∨
      ∃ grant instant, s.grants.get (tenantId, grantId) = some grant ∧
        (s.revoke tenantId grantId revokedAt).2 =
          { s with grants :=
            s.grants.set (tenantId, grantId) { grant with revokedAt := some instant } } := by
  unfold revoke
  split
  · exact .inl rfl
  · rename_i grant hgrant
    split
    · exact .inl rfl
    · exact .inr ⟨grant, _, hgrant, rfl⟩

/-- **A use** is there already, is refused, or is the next one of an available grant. -/
theorem reserveUse_cases (s : MemoryCapabilityGrantStore) (tenantId grantId key : String)
    (instant : InstantText) :
    (∃ x, s.claims.get (tenantId, grantId, key) = some x ∧
        s.reserveUse tenantId grantId key instant = (.ok x.2, s)) ∨
      (∃ e, s.reserveUse tenantId grantId key instant = (.error e, s)) ∨
      ∃ grant, s.claims.get (tenantId, grantId, key) = none ∧
        s.grants.get (tenantId, grantId) = some grant ∧ grant.revokedAt = none ∧
        grant.expiresAt.reached instant = false ∧
        (s.claimsOf tenantId grantId).length < grant.maximumUses ∧
        s.reserveUse tenantId grantId key instant =
          (.ok ⟨grantId, key, (s.claimsOf tenantId grantId).length + 1, instant⟩,
            { s with
              claims := s.claims.set (tenantId, grantId, key)
                (tenantId, ⟨grantId, key, (s.claimsOf tenantId grantId).length + 1, instant⟩) }) := by
  unfold reserveUse
  split
  · rename_i x hx
    exact .inl ⟨x, hx, rfl⟩
  rename_i hclaim
  split
  · exact .inr (.inl ⟨_, rfl⟩)
  rename_i grant hgrant
  split
  · exact .inr (.inl ⟨_, rfl⟩)
  rename_i havailable
  simp only [not_or, not_not, Bool.not_eq_true] at havailable
  dsimp only
  split
  · exact .inr (.inl ⟨_, rfl⟩)
  · rename_i hmax
    exact .inr (.inr ⟨grant, hclaim, hgrant, havailable.1, havailable.2, by omega, rfl⟩)

/-- A new claim is the last one of its grant. -/
theorem claimsOf_set {claim : GrantUseClaim}
    (hfresh : s.claims.get (tenantId, grantId, key) = none) (hgrant : claim.grantId = grantId)
    (t g : String) :
    claimsOf { s with claims := s.claims.set (tenantId, grantId, key) (tenantId, claim) } t g =
      s.claimsOf t g ++ if tenantId = t ∧ grantId = g then [claim] else [] := by
  unfold claimsOf
  rw [OrderedMap.set_entries_of_fresh _ (OrderedMap.get_eq_none_iff.mp hfresh),
    List.filter_append, List.map_append, List.filter_singleton]
  subst hgrant
  by_cases h : tenantId = t ∧ claim.grantId = g <;> simp [h]

/-! ### The invariant -/

/-- The grants and the claims are under their keys, and the claims of a grant are numbered from
one, within its maximum and before its expiry. -/
structure Bounded (s : MemoryCapabilityGrantStore) : Prop where
  grant : ∀ t g x, s.grants.get (t, g) = some x → x.tenantId = t ∧ x.id = g
  claim : ∀ t g k x, s.claims.get (t, g, k) = some x →
    x.1 = t ∧ x.2.grantId = g ∧ x.2.authorizationKey = k
  numbered : ∀ t g, (s.claimsOf t g).map (·.useNumber) = List.range' 1 (s.claimsOf t g).length
  available : ∀ t g, ∀ c ∈ s.claimsOf t g, ∃ x, s.grants.get (t, g) = some x ∧
    (s.claimsOf t g).length ≤ x.maximumUses ∧ x.expiresAt.reached c.claimedAt = false

theorem Bounded.issue (h : Bounded s) (grant : IssuedGrant) : Bounded (s.issue grant).2 := by
  rcases s.issue_cases grant with hs | ⟨hnone, hs⟩
  · rw [hs]
    exact h
  rw [hs]
  refine ⟨fun t g x hx => ?_, h.claim, h.numbered, fun t g c hc => ?_⟩
  · rw [OrderedMap.get_set] at hx
    split at hx
    · rename_i hkey
      obtain rfl := Option.some.inj hx
      exact ⟨(Prod.mk.inj hkey).1.symm, (Prod.mk.inj hkey).2.symm⟩
    · exact h.grant t g x hx
  · obtain ⟨x, hx, hmax⟩ := h.available t g c hc
    exact ⟨x, OrderedMap.get_set_of_agree (.inl hnone) hx, hmax⟩

theorem Bounded.revoke (h : Bounded s) (revokedAt : Option IsoInstant) :
    Bounded (s.revoke tenantId grantId revokedAt).2 := by
  rcases s.revoke_cases tenantId grantId revokedAt with hs | ⟨grant, instant, hgrant, hs⟩
  · rw [hs]
    exact h
  rw [hs]
  refine ⟨fun t g x hx => ?_, h.claim, h.numbered, fun t g c hc => ?_⟩
  · rw [OrderedMap.get_set] at hx
    split at hx
    · rename_i hkey
      obtain rfl := Option.some.inj hx
      obtain ⟨rfl, rfl⟩ := Prod.mk.inj hkey
      exact h.grant t g grant hgrant
    · exact h.grant t g x hx
  · obtain ⟨x, hx, hmax⟩ := h.available t g c hc
    rw [OrderedMap.get_set]
    split
    · rename_i hkey
      rw [hkey, hgrant] at hx
      obtain rfl := Option.some.inj hx
      exact ⟨_, rfl, hmax⟩
    · exact ⟨x, hx, hmax⟩

theorem Bounded.reserveUse (h : Bounded s) (instant : InstantText) :
    Bounded (s.reserveUse tenantId grantId key instant).2 := by
  rcases s.reserveUse_cases tenantId grantId key instant with
    ⟨x, -, hs⟩ | ⟨e, hs⟩ | ⟨grant, hnone, hgrant, -, hunexpired, hmax, hs⟩
  · rw [hs]
    exact h
  · rw [hs]
    exact h
  rw [hs]
  refine ⟨h.grant, fun t g k x hx => ?_, fun t g => ?_, fun t g c hc => ?_⟩
  · simp only [OrderedMap.get_set] at hx
    split at hx
    · rename_i hkey
      simp only [Prod.mk.injEq] at hkey
      obtain ⟨rfl, rfl, rfl⟩ := hkey
      obtain rfl := Option.some.inj hx
      exact ⟨rfl, rfl, rfl⟩
    · exact h.claim t g k x hx
  · rw [claimsOf_set hnone rfl]
    split
    · rename_i hkey
      obtain ⟨rfl, rfl⟩ := hkey
      rw [List.map_append, h.numbered, List.length_append, List.length_singleton,
        List.range'_concat]
      simp [Nat.add_comm]
    · simpa using h.numbered t g
  · rw [claimsOf_set hnone rfl] at hc ⊢
    split at hc
    · rename_i hkey
      obtain ⟨rfl, rfl⟩ := hkey
      refine ⟨grant, hgrant, by simpa [Nat.succ_le_iff] using hmax, ?_⟩
      rcases List.mem_append.mp hc with hc | hc
      · obtain ⟨x, hx, -, hxc⟩ := h.available _ _ c hc
        obtain rfl : grant = x := Option.some.inj (hgrant.symm.trans hx)
        exact hxc
      · rw [List.mem_singleton.mp hc]
        exact hunexpired
    · rename_i hkey
      rw [if_neg hkey]
      simpa using h.available t g c (by simpa using hc)

/-- **One call.** -/
theorem Bounded.step (s : MemoryCapabilityGrantStore) (call : GrantCall) (h : Bounded s) :
    Bounded (call.step s) := by
  cases call with
  | issue grant => exact h.issue grant
  | revoke tenantId grantId revokedAt => exact h.revoke revokedAt
  | reserveUse tenantId grantId key instant => exact h.reserveUse instant

theorem bounded_empty : Bounded empty where
  grant t g x hx := by cases hx
  claim t g k x hx := by cases hx
  numbered t g := rfl
  available t g c hc := by cases hc

/-- The claims of a grant have different keys. -/
theorem Bounded.keys_nodup (h : Bounded s) (t g : String) :
    ((s.claimsOf t g).map (·.authorizationKey)).Nodup := by
  have hsub : ((s.claimsOf t g).map (·.authorizationKey)).map (fun k => (t, g, k)) =
      (s.claims.entries.filter fun x => x.2.1 = t ∧ x.2.2.grantId = g).map Prod.fst := by
    unfold claimsOf
    rw [List.map_map, List.map_map]
    refine List.map_congr_left fun x hx => ?_
    obtain ⟨hmem, hkey⟩ := List.mem_filter.mp hx
    obtain ⟨ht, hg⟩ := of_decide_eq_true hkey
    obtain ⟨⟨t', g', k'⟩, x⟩ := x
    obtain ⟨h₁, h₂, h₃⟩ := h.claim t' g' k' x (OrderedMap.get_eq_some_iff.mpr hmem)
    simp only [Function.comp, Prod.mk.injEq]
    exact ⟨(h₁.symm.trans ht).symm, (h₂.symm.trans hg).symm, h₃⟩
  refine List.Nodup.of_map (fun k => (t, g, k)) ?_
  rw [hsub]
  exact s.claims.nodup.sublist (List.filter_sublist.map _)

/-! ### What calls keep, as long as nothing is rolled back -/

/-- The claims stay, the grants stay what they were issued as, and a revoked grant stays
revoked. -/
structure Kept (s s' : MemoryCapabilityGrantStore) : Prop where
  claim : ∀ k x, s.claims.get k = some x → s'.claims.get k = some x
  grant : ∀ k x, s.grants.get k = some x → ∃ y, s'.grants.get k = some y ∧
    { y with revokedAt := x.revokedAt } = x ∧ (x.revokedAt ≠ none → y.revokedAt ≠ none)

theorem Kept.refl (s : MemoryCapabilityGrantStore) : Kept s s :=
  ⟨fun _ _ h => h, fun _ x h => ⟨x, h, rfl, id⟩⟩

theorem Kept.trans {s'' : MemoryCapabilityGrantStore} (h : Kept s s') (h' : Kept s' s'') :
    Kept s s'' where
  claim k x hx := h'.claim k x (h.claim k x hx)
  grant k x hx := by
    obtain ⟨y, hy, hyx, hrevoked⟩ := h.grant k x hx
    obtain ⟨z, hz, hzy, hrevoked'⟩ := h'.grant k y hy
    refine ⟨z, hz, ?_, fun hne => hrevoked' (hrevoked hne)⟩
    rw [← hyx, ← hzy]

theorem Kept.step (s : MemoryCapabilityGrantStore) (call : GrantCall) : Kept s (call.step s) := by
  cases call with
  | issue grant =>
    rcases s.issue_cases grant with hs | ⟨hnone, hs⟩ <;> simp only [GrantCall.step, hs]
    · exact .refl s
    · exact ⟨fun _ _ h => h,
        fun k x hx => ⟨x, OrderedMap.get_set_of_agree (.inl hnone) hx, rfl, id⟩⟩
  | revoke tenantId grantId revokedAt =>
    rcases s.revoke_cases tenantId grantId revokedAt with hs | ⟨grant, instant, hgrant, hs⟩ <;>
      simp only [GrantCall.step, hs]
    · exact .refl s
    · refine ⟨fun _ _ h => h, fun k x hx => ?_⟩
      rw [OrderedMap.get_set]
      split
      · rename_i hk
        rw [hk, hgrant] at hx
        obtain rfl := Option.some.inj hx
        exact ⟨_, rfl, rfl, by rintro _ ⟨⟩⟩
      · exact ⟨x, hx, rfl, id⟩
  | reserveUse tenantId grantId key instant =>
    rcases s.reserveUse_cases tenantId grantId key instant with
      ⟨x, -, hs⟩ | ⟨e, hs⟩ | ⟨grant, hnone, -, -, -, -, hs⟩ <;> simp only [GrantCall.step, hs]
    · exact .refl s
    · exact .refl s
    · exact ⟨fun k x hx => OrderedMap.get_set_of_agree (.inl hnone) hx,
        fun k x hx => ⟨x, hx, rfl, id⟩⟩

/-! ### Every run of calls -/

/-- `resolve` is active exactly when every check passes. -/
theorem resolve_active_iff (h : Bounded s) {binding : CapabilityGrantBinding}
    {instant : InstantText} {grant : IssuedGrant} {n : Nat} :
    s.resolve grantId binding instant = .active grant n ↔
      s.grants.get (binding.tenantId, grantId) = some grant ∧
        binding = grant.toCapabilityGrantBinding ∧ grant.revokedAt = none ∧
        grant.expiresAt.reached instant = false ∧
        (s.claimsOf binding.tenantId grantId).length < grant.maximumUses ∧
        n = grant.maximumUses - (s.claimsOf binding.tenantId grantId).length := by
  unfold resolve
  cases hg : s.grants.get (binding.tenantId, grantId) with
  | none => simp
  | some x =>
    obtain ⟨ht, hid⟩ := h.grant _ _ x hg
    dsimp only
    rw [ht, hid]
    by_cases hb : binding = x.toCapabilityGrantBinding
    · by_cases hr : x.revokedAt = none
      · by_cases he : x.expiresAt.reached instant = true
        · simp only [hb, hr, he, ne_eq, not_true_eq_false, if_false, if_true, reduceCtorEq,
            false_iff, not_and]
          rintro hx - - hf
          obtain rfl := Option.some.inj hx
          simp [he] at hf
        · by_cases hm : x.maximumUses ≤ (s.claimsOf binding.tenantId grantId).length
          · rw [if_neg (not_not.mpr hb), if_neg (not_not.mpr hr), if_neg he, if_pos hm]
            simp only [reduceCtorEq, false_iff, not_and, Option.some.injEq]
            rintro rfl - - - hlt
            omega
          · rw [if_neg (not_not.mpr hb), if_neg (not_not.mpr hr), if_neg he, if_neg hm]
            simp only [CapabilityGrantResolution.active.injEq, Option.some.injEq]
            constructor
            · rintro ⟨rfl, rfl⟩
              exact ⟨rfl, hb, hr, by simpa using he, by omega, rfl⟩
            · rintro ⟨rfl, -, -, -, -, rfl⟩
              exact ⟨rfl, rfl⟩
      · rw [if_neg (not_not.mpr hb), if_pos hr]
        simp only [reduceCtorEq, false_iff, not_and, Option.some.injEq]
        rintro rfl - hr'
        exact absurd hr' hr
    · rw [if_pos hb]
      simp only [reduceCtorEq, false_iff, not_and, Option.some.injEq]
      rintro rfl hb'
      exact absurd hb' hb

/-- The store after a sequence of calls with snapshots. -/
def after (calls : List (SnapshotCall GrantCall)) : MemoryCapabilityGrantStore :=
  (Snapshotted.run GrantCall.step true empty calls).live

theorem after_bounded (calls : List (SnapshotCall GrantCall)) : Bounded (after calls) :=
  Snapshotted.run_invariant bounded_empty Bounded.step calls

section Witness

/-- A grant of two uses. -/
def twoUses : IssuedGrant where
  issuerId := "issuer"
  principal := ⟨.user, "principal"⟩
  tenantId := "tenant"
  workOrderId := "order"
  workOrderBindingDigest := "binding"
  executionDefinition := .agent "agent" "1" "definition"
  executionDefinitionDigest := "definition"
  capability := "mail.send"
  action := "write"
  toolId := "mail.send@1"
  toolVersion := "1"
  toolRegistrationDigest := "tool"
  normalizedResources := [⟨.tenant, "tenant", "1"⟩]
  purpose := ⟨"purpose", "1"⟩
  policyRegistrationDigest := "policy"
  id := "grant"
  maximumUses := 2
  maximumUses_pos := by decide
  issuedAt := ⟨"1970-01-01T00:00:00.000Z", 0⟩
  expiresAt := ⟨"1970-01-01T00:01:00.000Z", 60000⟩
  revokedAt := none

end Witness

end MemoryCapabilityGrantStore

end Pactmark
