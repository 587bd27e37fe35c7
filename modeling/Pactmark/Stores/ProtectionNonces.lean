import Pactmark.Durable.Once
import Pactmark.Durable.OrderedMap
import Pactmark.Stores.DataProtector

/-!
# Stores — the nonces of the data protector

The two nonce registries of `store-postgres/src/data-protector.ts`, and the calls of `protect` that
share one.  Both registries keep a ledger of numbers used once (`Durable.OnceLedger`): a key is bound
to a namespace and a ceiling, and a nonce is used under it when the registry answers `reserved`.

* `MemoryProtectionNonceRegistry.refines_reserve`, `PostgresProtectionNonceRegistry.refines_reserve`:
  what a registry answers is an answer of its ledger.
* `Shared.Inv.step`: what a step of a protector or of the registry keeps.
* `nonces_used_once`: what holds in every run, of either registry.
-/

namespace Pactmark

open Durable

/-! ### The registries -/

/-- What a nonce registry is asked. -/
structure NonceRequest where
  namespaceId : String
  keyId : String
  nonce : Bytes
  invocationCeiling : Int
  deriving DecidableEq, Repr

/-- `validateNonce`. -/
def validateNonce (input : Bytes) : Except Thrown Bytes :=
  if input.length ≠ 12 then .error (rejectProtection "nonce_must_be_96_bits") else .ok input

theorem validateNonce_eq {input nonce : Bytes} (h : validateNonce input = .ok nonce) :
    nonce = input := by
  unfold validateNonce at h
  split at h
  · cases h
  · exact (Except.ok.inj h).symm

/-- The ledger of a registry. -/
abbrev NonceLedger := OnceLedger String Bytes (String × Int)

/-- `reservation === "reserved"`. -/
def granted : Except Thrown ProtectionNonceReservation → Bool
  | .ok .reserved => true
  | _ => false

theorem granted_iff {answer : Except Thrown ProtectionNonceReservation} :
    granted answer = true ↔ answer = .ok .reserved := by
  constructor
  · intro h
    unfold granted at h
    split at h
    · rfl
    · cases h
  · rintro rfl
    rfl

/-- What a registry answers to a request is an answer of the ledger, and a key that is answered for
is bound. -/
structure Answers (L : NonceLedger) (request : NonceRequest)
    (answer : Except Thrown ProtectionNonceReservation) (L' : NonceLedger) : Prop where
  ledger : L.Answer Prod.snd request.keyId request.nonce
    (request.namespaceId, request.invocationCeiling) (granted answer) L'
  bound : ∀ a, answer = .ok a → L'.binding request.keyId ≠ none

/-- What does not reserve uses nothing; it may bind the key. -/
theorem Answers.refused {L L' : NonceLedger} {request : NonceRequest}
    {answer : Except Thrown ProtectionNonceReservation} (hne : answer ≠ .ok .reserved)
    (hused : L'.used = L.used) (hothers : ∀ k, k ≠ request.keyId → L'.binding k = L.binding k)
    (hown : L'.binding request.keyId = L.binding request.keyId ∨
      L.binding request.keyId = none ∧
        L'.binding request.keyId = some (request.namespaceId, request.invocationCeiling))
    (hbound : ∀ a, answer = .ok a → L'.binding request.keyId ≠ none) :
    Answers L request answer L' := by
  have hgranted : granted answer = false := by
    rw [← Bool.not_eq_true, granted_iff]
    exact hne
  refine ⟨?_, hbound⟩
  rw [hgranted]
  exact ⟨by simp [hused], hothers, hown, nofun, nofun, nofun⟩

/-- A nonce registry: its state, `reserve`, what a key is bound to and how many invocations it has
consumed.  The state is that of some ledger, and so is every answer. -/
structure ProtectionNonceRegistry where
  State : Type
  initial : State
  reserve : State → NonceRequest → Except Thrown ProtectionNonceReservation × State
  binding : State → String → Option (String × Int)
  invocations : State → String → Nat
  Refines : State → NonceLedger → Prop
  refines_initial : Refines initial .empty
  refines_binding : ∀ {s L}, Refines s L → ∀ keyId, binding s keyId = L.binding keyId
  refines_invocations : ∀ {s L}, Refines s L → ∀ keyId, invocations s keyId = L.count keyId
  refines_reserve : ∀ {s L}, Refines s L → ∀ request, ∃ L',
    Answers L request (reserve s request).1 L' ∧ Refines (reserve s request).2 L'

/-! ### In memory -/

/-- `MemoryProtectionNonceRegistry`. -/
structure MemoryProtectionNonceRegistry where
  seen : List JsString
  counts : OrderedMap String Nat
  bindings : OrderedMap String (String × Int)

namespace MemoryProtectionNonceRegistry

/-- `new MemoryProtectionNonceRegistry()`. -/
def empty : MemoryProtectionNonceRegistry :=
  ⟨[], .empty, .empty⟩

/-- `${keyId}\u0000${toBase64Url(nonce)}` -/
def nonceKey (keyId : String) (nonce : Bytes) : JsString :=
  .ofString keyId ++ 0 :: Base64Url.encode nonce

/-- `#counts.get(keyId) ?? 0`. -/
def count (s : MemoryProtectionNonceRegistry) (keyId : String) : Nat :=
  (s.counts.get keyId).getD 0

/-- `reserve` from the binding of the key on. -/
def bindAndCount (s : MemoryProtectionNonceRegistry) (request : NonceRequest) :
    Except Thrown ProtectionNonceReservation × MemoryProtectionNonceRegistry :=
  let s := { s with
    bindings := s.bindings.set request.keyId (request.namespaceId, request.invocationCeiling) }
  match validateNonce request.nonce with
  | .error e => (.error e, s)
  | .ok nonce =>
      if nonceKey request.keyId nonce ∈ s.seen then (.ok .collision, s)
      else if request.invocationCeiling ≤ s.count request.keyId then (.ok .ceiling_reached, s)
      else
        (.ok .reserved, { s with
          seen := s.seen ++ [nonceKey request.keyId nonce]
          counts := s.counts.set request.keyId (s.count request.keyId + 1) })

/-- `reserve`. -/
def reserve (s : MemoryProtectionNonceRegistry) (request : NonceRequest) :
    Except Thrown ProtectionNonceReservation × MemoryProtectionNonceRegistry :=
  match s.bindings.get request.keyId with
  | some binding =>
      if binding.1 ≠ request.namespaceId then (.ok .key_binding_mismatch, s)
      else if binding.2 ≠ request.invocationCeiling then (.ok .ceiling_configuration_mismatch, s)
      else s.bindAndCount request
  | none => s.bindAndCount request

/-- The state is that of the ledger. -/
structure Refines (s : MemoryProtectionNonceRegistry) (L : NonceLedger) : Prop where
  bindings : ∀ keyId, s.bindings.get keyId = L.binding keyId
  counts : ∀ keyId, s.count keyId = L.count keyId
  seen : ∀ keyId nonce, nonce.length = 12 →
    (nonceKey keyId nonce ∈ s.seen ↔ (keyId, nonce) ∈ L.used)

theorem nonceKey_inj {keyId keyId' : String} {nonce nonce' : Bytes}
    (hlength : nonce.length = nonce'.length) (h : nonceKey keyId nonce = nonceKey keyId' nonce') :
    keyId = keyId' ∧ nonce = nonce' := by
  have hsuffix : (0 :: Base64Url.encode nonce).length = (0 :: Base64Url.encode nonce').length := by
    simp [Base64Url.encode, Base64Url.sextets_length, hlength]
  obtain ⟨hkey, hencode⟩ := List.append_inj' h hsuffix
  have hdecode := congrArg Base64Url.decode (List.cons.inj hencode).2
  rw [Base64Url.decode_encode, Base64Url.decode_encode] at hdecode
  exact ⟨JsString.ofString_injective hkey, Option.some.inj hdecode⟩

theorem Refines.empty : Refines empty .empty :=
  ⟨fun _ => rfl, fun _ => rfl, fun _ _ _ => by
    simp [MemoryProtectionNonceRegistry.empty, OnceLedger.empty]⟩

variable {s : MemoryProtectionNonceRegistry} {L : NonceLedger} {request : NonceRequest}

/-- The ledger in which the key of a request is bound. -/
def bindTo (L : NonceLedger) (request : NonceRequest) : NonceLedger :=
  { L with
    binding := Function.update L.binding request.keyId
      (some (request.namespaceId, request.invocationCeiling)) }

/-- **From the binding of the key on**, what is answered is an answer of the ledger. -/
theorem refines_bindAndCount (h : Refines s L)
    (hbinding : L.binding request.keyId = none ∨
      L.binding request.keyId = some (request.namespaceId, request.invocationCeiling)) :
    ∃ L', Answers L request (s.bindAndCount request).1 L' ∧
      Refines (s.bindAndCount request).2 L' := by
  have hbindings : ∀ keyId,
      (s.bindings.set request.keyId (request.namespaceId, request.invocationCeiling)).get keyId =
        (bindTo L request).binding keyId := by
    intro keyId
    rw [OrderedMap.get_set, h.bindings]
    exact (Function.update_apply ..).symm
  have hown : (bindTo L request).binding request.keyId =
      some (request.namespaceId, request.invocationCeiling) := Function.update_self ..
  have howns : (bindTo L request).binding request.keyId = L.binding request.keyId ∨
      L.binding request.keyId = none ∧ (bindTo L request).binding request.keyId =
        some (request.namespaceId, request.invocationCeiling) := by
    rcases hbinding with hnone | hsome
    · exact .inr ⟨hnone, hown⟩
    · exact .inl (hown.trans hsome.symm)
  have hothers : ∀ k, k ≠ request.keyId → (bindTo L request).binding k = L.binding k :=
    fun k hk => Function.update_of_ne hk ..
  have hbound : (bindTo L request).binding request.keyId ≠ none := by simp [hown]
  -- what does not reserve changes the binding only
  have hrefused : ∀ answer : Except Thrown ProtectionNonceReservation, answer ≠ .ok .reserved →
      Answers L request answer (bindTo L request) := fun answer hne =>
    .refused hne rfl hothers howns fun _ _ => hbound
  unfold bindAndCount validateNonce
  by_cases hlength : request.nonce.length = 12
  · rw [if_neg (not_not.mpr hlength)]
    dsimp only
    split
    · exact ⟨_, hrefused _ (by rintro ⟨⟩), hbindings, h.counts, h.seen⟩
    rename_i hseen
    split
    · exact ⟨_, hrefused _ (by rintro ⟨⟩), hbindings, h.counts, h.seen⟩
    rename_i hroom
    refine ⟨{ bindTo L request with used := L.used ++ [(request.keyId, request.nonce)] },
      ⟨⟨rfl, hothers, howns, fun _ => ?_, fun _ => hown, fun _ => ?_⟩, fun _ _ => hbound⟩,
      hbindings, fun keyId => ?_, fun keyId nonce hnonce => ?_⟩
    · exact fun hused => hseen ((h.seen _ _ hlength).mpr hused)
    · have hcount : s.count request.keyId = L.count request.keyId := h.counts _
      rw [← hcount]
      exact not_le.mp hroom
    · have hcount := h.counts keyId
      unfold count OnceLedger.count at hcount ⊢
      dsimp only
      rw [OrderedMap.get_set, List.filter_append, List.length_append, ← hcount]
      by_cases hk : keyId = request.keyId
      · subst hk
        simp
      · simp [hk, Ne.symm hk]
    · dsimp only
      rw [List.mem_append, List.mem_append, h.seen _ _ hnonce, List.mem_singleton,
        List.mem_singleton]
      refine or_congr_right ⟨fun heq => ?_, fun heq => ?_⟩
      · obtain ⟨rfl, rfl⟩ := nonceKey_inj (hnonce.trans hlength.symm) heq
        rfl
      · obtain ⟨rfl, rfl⟩ := Prod.mk.inj heq
        rfl
  · rw [if_pos hlength]
    exact ⟨_, hrefused _ (by rintro ⟨⟩), hbindings, h.counts, h.seen⟩

/-- **What the registry answers** is an answer of its ledger. -/
theorem refines_reserve (h : Refines s L) (request : NonceRequest) :
    ∃ L', Answers L request (s.reserve request).1 L' ∧ Refines (s.reserve request).2 L' := by
  have hmismatch : L.binding request.keyId ≠ none → ∀ a ≠ ProtectionNonceReservation.reserved,
      Answers L request (.ok a) L := fun hbound a hne =>
    .refused (fun h => hne (Except.ok.inj h)) rfl (fun _ _ => rfl) (.inl rfl) fun _ _ => hbound
  unfold reserve
  split
  · rename_i binding hbinding
    rw [h.bindings] at hbinding
    split
    · exact ⟨L, hmismatch (by simp [hbinding]) _ nofun, h⟩
    rename_i hnamespace
    split
    · exact ⟨L, hmismatch (by simp [hbinding]) _ nofun, h⟩
    rename_i hceiling
    refine refines_bindAndCount h (.inr ?_)
    rw [hbinding, ← not_not.mp hnamespace, ← not_not.mp hceiling]
  · rename_i hnone
    exact refines_bindAndCount h (.inl ((h.bindings _).symm.trans hnone))

end MemoryProtectionNonceRegistry

/-! ### In PostgreSQL -/

/-- A row of `pactmark_protection_key_counters`, without its primary key. -/
structure KeyCounter where
  namespaceId : String
  invocationCount : Nat
  invocationCeiling : Int

/-- The tables of `PostgresProtectionNonceRegistry`, by their primary keys. -/
structure PostgresProtectionNonceRegistry where
  counters : OrderedMap String KeyCounter
  nonces : OrderedMap (String × Bytes) String

/-- `requireInvocationCeiling`; an integer up to the maximum is a safe one. -/
def requireInvocationCeiling (value : Int) (field : String) : Except Thrown Int :=
  if 2 ^ 53 ≤ value.natAbs ∨ value ≤ 0 then .error (rejectProtection (field ++ "_invalid"))
  else if 1000000 < value then .error (rejectProtection (field ++ "_not_conservative"))
  else .ok value

theorem requireInvocationCeiling_eq {value ceiling : Int} {field : String}
    (h : requireInvocationCeiling value field = .ok ceiling) : ceiling = value := by
  unfold requireInvocationCeiling at h
  split at h
  · cases h
  · split at h
    · cases h
    · exact (Except.ok.inj h).symm

theorem requireNonempty_eq {value text field : String}
    (h : requireNonempty (some value) field = .ok text) : text = value := by
  unfold requireNonempty at h
  dsimp only at h
  split at h
  · cases h
  · exact (Except.ok.inj h).symm

namespace PostgresProtectionNonceRegistry

/-- The tables when they are created. -/
def empty : PostgresProtectionNonceRegistry :=
  ⟨.empty, .empty⟩

/-- `INSERT INTO pactmark_protection_key_counters … ON CONFLICT (key_id) DO NOTHING`. -/
def insertCounter (s : PostgresProtectionNonceRegistry) (request : NonceRequest) :
    PostgresProtectionNonceRegistry :=
  match s.counters.get request.keyId with
  | some _ => s
  | none =>
      { s with
        counters := s.counters.set request.keyId
          ⟨request.namespaceId, 0, request.invocationCeiling⟩ }

/-- `UPDATE pactmark_protection_key_counters …`: the row, if it is one that the update finds. -/
def incremented (s : PostgresProtectionNonceRegistry) (request : NonceRequest) :
    Option KeyCounter :=
  match s.counters.get request.keyId with
  | none => none
  | some row =>
      if row.namespaceId = request.namespaceId ∧
          row.invocationCeiling = request.invocationCeiling ∧
          (row.invocationCount : Int) < row.invocationCeiling then
        some { row with invocationCount := row.invocationCount + 1 }
      else none

/-- What is answered where the update finds no row. -/
def refusal (s : PostgresProtectionNonceRegistry) (request : NonceRequest) :
    ProtectionNonceReservation :=
  match s.counters.get request.keyId with
  | none => .key_binding_mismatch
  | some row =>
      if row.namespaceId ≠ request.namespaceId then .key_binding_mismatch
      else if row.invocationCeiling ≠ request.invocationCeiling then
        .ceiling_configuration_mismatch
      else .ceiling_reached

/-- The transaction of `reserve`.  A nonce that is there already violates the primary key: the
transaction is rolled back, with its counter. -/
def transaction (s : PostgresProtectionNonceRegistry) (request : NonceRequest) :
    ProtectionNonceReservation × PostgresProtectionNonceRegistry :=
  let inserted := s.insertCounter request
  match inserted.incremented request with
  | none => (inserted.refusal request, inserted)
  | some row =>
      if inserted.nonces.has (request.keyId, request.nonce) then (.collision, s)
      else
        (.reserved,
          { counters := inserted.counters.set request.keyId row
            nonces := inserted.nonces.set (request.keyId, request.nonce) request.namespaceId })

/-- `reserve`. -/
def reserve (s : PostgresProtectionNonceRegistry) (request : NonceRequest) :
    Except Thrown ProtectionNonceReservation × PostgresProtectionNonceRegistry :=
  let checked : Except Thrown NonceRequest := do
    let namespaceId ← requireNonempty (some request.namespaceId) "namespace"
    let keyId ← requireNonempty (some request.keyId) "keyId"
    let nonce ← validateNonce request.nonce
    let invocationCeiling ←
      requireInvocationCeiling request.invocationCeiling "invocationCeiling"
    return { namespaceId, keyId, nonce, invocationCeiling }
  match checked with
  | .error e => (.error e, s)
  | .ok request =>
      let (answer, s) := s.transaction request
      (.ok answer, s)

/-- The tables are those of the ledger. -/
structure Refines (s : PostgresProtectionNonceRegistry) (L : NonceLedger) : Prop where
  bindings : ∀ keyId, L.binding keyId =
    (s.counters.get keyId).map fun row => (row.namespaceId, row.invocationCeiling)
  counts : ∀ keyId row, s.counters.get keyId = some row → row.invocationCount = L.count keyId
  nonces : ∀ keyId nonce, s.nonces.get (keyId, nonce) ≠ none ↔ (keyId, nonce) ∈ L.used
  /-- A nonce refers to the counter of its key. -/
  foreign : ∀ keyId nonce, (keyId, nonce) ∈ L.used → s.counters.get keyId ≠ none

variable {s : PostgresProtectionNonceRegistry} {L : NonceLedger} {request : NonceRequest}

theorem Refines.empty : Refines empty .empty :=
  ⟨fun _ => rfl, nofun, fun _ _ => by
    simp [PostgresProtectionNonceRegistry.empty, OnceLedger.empty], nofun⟩

/-- A key without a counter has used nothing. -/
theorem Refines.count_eq_zero (h : Refines s L) {keyId : String}
    (hnone : s.counters.get keyId = none) : L.count keyId = 0 := by
  unfold OnceLedger.count
  rw [List.length_eq_zero_iff, List.filter_eq_nil_iff]
  rintro ⟨k, n⟩ hx hk
  obtain rfl := of_decide_eq_true hk
  exact h.foreign _ _ hx hnone

/-- **The counter of a key** is there after the first statement, and bound as it was, or now. -/
theorem Refines.insertCounter (h : Refines s L) (request : NonceRequest) :
    ∃ L' row, Refines (s.insertCounter request) L' ∧ L'.used = L.used ∧
      (s.insertCounter request).counters.get request.keyId = some row ∧
      (∀ k, k ≠ request.keyId → L'.binding k = L.binding k) ∧
      (L'.binding request.keyId = L.binding request.keyId ∨
        L.binding request.keyId = none ∧
          L'.binding request.keyId = some (request.namespaceId, request.invocationCeiling)) := by
  unfold PostgresProtectionNonceRegistry.insertCounter
  split
  · rename_i row hrow
    exact ⟨L, row, h, rfl, hrow, fun _ _ => rfl, .inl rfl⟩
  · rename_i hnone
    have hget := fun k => OrderedMap.get_set s.counters request.keyId k
      ⟨request.namespaceId, 0, request.invocationCeiling⟩
    refine ⟨{ L with
        binding := Function.update L.binding request.keyId
          (some (request.namespaceId, request.invocationCeiling)) },
      ⟨request.namespaceId, 0, request.invocationCeiling⟩,
      ⟨fun keyId => ?_, fun keyId row hrow => ?_, h.nonces, fun keyId nonce hused => ?_⟩, rfl,
      ?_, fun k hk => Function.update_of_ne hk .., .inr ⟨?_, Function.update_self ..⟩⟩
    · dsimp only
      rw [hget, Function.update_apply, h.bindings]
      split <;> rfl
    · dsimp only at hrow
      rw [hget] at hrow
      split at hrow
      · rename_i hk
        obtain rfl := Option.some.inj hrow
        rw [hk]
        exact (h.count_eq_zero hnone).symm
      · exact h.counts keyId row hrow
    · dsimp only
      rw [hget]
      split
      · rintro ⟨⟩
      · exact h.foreign keyId nonce hused
    · dsimp only
      rw [hget, if_pos rfl]
    · rw [h.bindings, hnone]
      rfl

/-- **What the transaction answers** is an answer of its ledger. -/
theorem refines_transaction (h : Refines s L) (request : NonceRequest) :
    ∃ L', Answers L request (.ok (s.transaction request).1) L' ∧
      Refines (s.transaction request).2 L' := by
  obtain ⟨L', row, h', hused, hrow, hothers, hown⟩ := h.insertCounter request
  have hbound : L'.binding request.keyId = some (row.namespaceId, row.invocationCeiling) := by
    rw [h'.bindings, hrow]
    rfl
  have hcount : row.invocationCount = L.count request.keyId := by
    rw [h'.counts _ _ hrow]
    unfold OnceLedger.count
    rw [hused]
  unfold transaction
  dsimp only
  split
  · -- the update finds no row: what was inserted is committed
    refine ⟨L', .refused (fun hreserved => ?_) hused hothers hown fun _ _ => by simp [hbound], h'⟩
    have hanswer := Except.ok.inj hreserved
    unfold refusal at hanswer
    rw [hrow] at hanswer
    dsimp only at hanswer
    split at hanswer
    · cases hanswer
    · split at hanswer <;> cases hanswer
  rename_i row' hincremented
  unfold incremented at hincremented
  rw [hrow] at hincremented
  dsimp only at hincremented
  split at hincremented
  · rename_i hcondition
    obtain ⟨hnamespace, hceiling, hroom⟩ := hcondition
    obtain rfl := Option.some.inj hincremented
    split
    · -- the nonce is there already, so its key was bound before
      rename_i hhas
      have hkey : (request.keyId, request.nonce) ∈ L.used := by
        rw [← hused, ← h'.nonces]
        exact Option.isSome_iff_ne_none.mp hhas
      refine ⟨L, .refused (by rintro ⟨⟩) rfl (fun _ _ => rfl) (.inl rfl) fun _ _ => ?_, h⟩
      rw [h.bindings]
      intro hnone
      exact h.foreign _ _ hkey (Option.map_eq_none_iff.mp hnone)
    · rename_i hhas
      have hfresh : (request.keyId, request.nonce) ∉ L.used := by
        rw [← hused, ← h'.nonces]
        exact fun hne => hhas (Option.isSome_iff_ne_none.mpr hne)
      have hscope : L'.binding request.keyId =
          some (request.namespaceId, request.invocationCeiling) := by
        rw [hbound, hnamespace, hceiling]
      have hcountL : ∀ keyId, L'.count keyId = L.count keyId := fun keyId => by
        unfold OnceLedger.count
        rw [hused]
      let next : NonceLedger :=
        { L' with used := L.used ++ [(request.keyId, request.nonce)] }
      have hanswer : Answers L request (.ok .reserved) next :=
        ⟨⟨rfl, hothers, hown, fun _ => hfresh, fun _ => hscope, fun _ => by
          rw [← hcount, ← hceiling]
          exact hroom⟩, fun _ _ => by simp [next, hscope]⟩
      refine ⟨next, hanswer, fun keyId => ?_, fun keyId row₁ hrow₁ => ?_, fun keyId nonce => ?_,
        fun keyId nonce hmem => ?_⟩
      · dsimp only [next]
        rw [OrderedMap.get_set, h'.bindings]
        split
        · rename_i hk
          rw [hk, hrow]
          rfl
        · rfl
      · dsimp only at hrow₁
        rw [hanswer.ledger.count]
        rw [OrderedMap.get_set] at hrow₁
        split at hrow₁
        · rename_i hk
          obtain rfl := Option.some.inj hrow₁
          rw [if_pos ⟨rfl, hk⟩, hk, ← hcount]
        · rename_i hk
          rw [if_neg fun h => hk h.2, h'.counts _ _ hrow₁, hcountL, Nat.add_zero]
      · dsimp only [next]
        rw [OrderedMap.get_set, List.mem_append, List.mem_singleton, ← hused]
        split
        · rename_i heq
          simp [heq]
        · rename_i hne
          rw [h'.nonces]
          exact (or_iff_left hne).symm
      · dsimp only
        rw [OrderedMap.get_set]
        split
        · rintro ⟨⟩
        · rename_i hk
          refine h'.foreign keyId nonce ?_
          rcases List.mem_append.mp hmem with hold | hnew
          · rw [hused]
            exact hold
          · exact absurd (Prod.mk.inj (List.mem_singleton.mp hnew)).1 hk
  · cases hincremented

/-- **What the registry answers** is an answer of its ledger. -/
theorem refines_reserve (h : Refines s L) (request : NonceRequest) :
    ∃ L', Answers L request (s.reserve request).1 L' ∧ Refines (s.reserve request).2 L' := by
  unfold reserve
  dsimp only
  split
  · exact ⟨L, .refused nofun rfl (fun _ _ => rfl) (.inl rfl) nofun, h⟩
  · rename_i request' hchecked
    obtain ⟨namespaceId, hnamespace, hchecked⟩ := bind_eq_ok.mp hchecked
    obtain ⟨keyId, hkeyId, hchecked⟩ := bind_eq_ok.mp hchecked
    obtain ⟨nonce, hnonce, hchecked⟩ := bind_eq_ok.mp hchecked
    obtain ⟨invocationCeiling, hceiling, hchecked⟩ := bind_eq_ok.mp hchecked
    obtain rfl := Except.ok.inj hchecked
    obtain rfl := requireNonempty_eq hnamespace
    obtain rfl := requireNonempty_eq hkeyId
    obtain rfl := validateNonce_eq hnonce
    obtain rfl := requireInvocationCeiling_eq hceiling
    exact refines_transaction h request

end PostgresProtectionNonceRegistry

/-- The registries. -/
inductive RegistryKind where
  | memory
  | postgres
  deriving DecidableEq, Repr

/-- A registry of its kind. -/
def RegistryKind.registry : RegistryKind → ProtectionNonceRegistry
  | .memory =>
    { State := MemoryProtectionNonceRegistry
      initial := .empty
      reserve := MemoryProtectionNonceRegistry.reserve
      binding := fun s keyId => s.bindings.get keyId
      invocations := MemoryProtectionNonceRegistry.count
      Refines := MemoryProtectionNonceRegistry.Refines
      refines_initial := .empty
      refines_binding := fun h => h.bindings
      refines_invocations := fun h => h.counts
      refines_reserve := MemoryProtectionNonceRegistry.refines_reserve }
  | .postgres =>
    { State := PostgresProtectionNonceRegistry
      initial := .empty
      reserve := PostgresProtectionNonceRegistry.reserve
      binding := fun s keyId =>
        (s.counters.get keyId).map fun row => (row.namespaceId, row.invocationCeiling)
      invocations := fun s keyId => ((s.counters.get keyId).map (·.invocationCount)).getD 0
      Refines := PostgresProtectionNonceRegistry.Refines
      refines_initial := .empty
      refines_binding := fun h keyId => (h.bindings keyId).symm
      refines_invocations := fun {s L} h keyId => by
        cases hrow : s.counters.get keyId with
        | none => exact (h.count_eq_zero hrow).symm
        | some row => exact h.counts keyId row hrow
      refines_reserve := PostgresProtectionNonceRegistry.refines_reserve }

/-! ### Protectors that share a registry -/

/-- The options of an `Aes256GcmDataProtector`, as its constructor has checked them. -/
structure ProtectorOptions where
  namespaceId : String
  invocationCeiling : Int
  maxNonceAttempts : Nat
  namespace_nonblank : Aes256GcmDataProtector.Nonblank namespaceId
  ceiling_pos : 0 < invocationCeiling
  ceiling_le : invocationCeiling ≤ 1000000
  attempts_pos : 0 < maxNonceAttempts
  attempts_lt : maxNonceAttempts < 2 ^ 53

/-- Where a call of `protect` stands: at the head of its loop, waiting for the registry, with its
answer, or at its end. -/
inductive ProtectPhase where
  | looping
  | reserving (nonce : Bytes)
  | answered (nonce : Bytes) (answer : Except Thrown ProtectionNonceReservation)
  | finished (result : Except Thrown ProtectedValueRef)

/-- A call of `protect` in its loop: what it encrypts, and how many reservations it has asked for. -/
structure ProtectCall where
  options : ProtectorOptions
  keyId : String
  key : Bytes
  aad : Bytes
  aadDigest : Digest
  plaintext : Bytes
  attempt : Nat
  phase : ProtectPhase

namespace ProtectCall

/-- `protect` up to its loop. -/
def prepare {Num : Type} (P : Platform Num) (options : ProtectorOptions) (keyRecord : DataProtectionKey)
    (binding : Binding) (plaintext : Bytes) : Except Thrown ProtectCall := do
  let key ← Aes256GcmDataProtector.validateKey keyRecord
  let aadMaterial ← Aes256GcmDataProtector.protectionAad P binding keyRecord.keyId
  let aad ← Aes256GcmDataProtector.aadBytes P aadMaterial
  match P.digestCanonicalJson binding.json with
  | .error _ => throw (.host "CanonicalJsonError" true)
  | .ok aadDigest =>
      return { options, keyId := keyRecord.keyId, key, aad, aadDigest, plaintext, attempt := 0,
               phase := .looping }

/-- The head of the loop, with what `generateNonce` returns or throws if it is called. -/
def generate (c : ProtectCall) (generated : Except Thrown Bytes) : ProtectCall :=
  if c.options.maxNonceAttempts ≤ c.attempt then
    { c with phase := .finished (.error (rejectProtection "nonce_collision_retry_exhausted")) }
  else
    match generated with
    | .error e => { c with phase := .finished (.error e) }
    | .ok input =>
        match validateNonce input with
        | .error e => { c with phase := .finished (.error e) }
        | .ok nonce => { c with attempt := c.attempt + 1, phase := .reserving nonce }

/-- What a call asks the registry. -/
def request (c : ProtectCall) (nonce : Bytes) : NonceRequest where
  namespaceId := c.options.namespaceId
  keyId := c.keyId
  nonce
  invocationCeiling := c.options.invocationCeiling

/-- What a call does with what the registry answered. -/
def resume {Num : Type} (P : Platform Num) (c : ProtectCall) (nonce : Bytes) :
    Except Thrown ProtectionNonceReservation → ProtectPhase
  | .error e => .finished (.error e)
  | .ok .collision => .looping
  | .ok answer =>
      .finished (Aes256GcmDataProtector.attempt
        (Aes256GcmDataProtector.sealed P c.keyId c.key c.aad c.aadDigest c.plaintext)
        [(nonce, answer)])

/-- The pair a call was granted and has not yet encrypted under. -/
def pending (c : ProtectCall) : List (String × Bytes) :=
  match c.phase with
  | .answered nonce answer => if granted answer then [(c.keyId, nonce)] else []
  | _ => []

/-- The reservations a call has asked for and that are not made. -/
def asked (c : ProtectCall) : Nat :=
  match c.phase with
  | .reserving _ => 1
  | _ => 0

end ProtectCall

/-- A reservation that was made: for a call of `protect`, or for another caller. -/
structure ReservationRecord where
  call : Option Nat
  request : NonceRequest
  answer : Except Thrown ProtectionNonceReservation

/-- The key ids and nonces that were answered `reserved`. -/
def reservedPairs (reservations : List ReservationRecord) : List (String × Bytes) :=
  reservations.flatMap fun r => if granted r.answer then [(r.request.keyId, r.request.nonce)] else []

/-- What the reservations of a call of `protect` are. -/
def reservationsOf (reservations : List ReservationRecord) (call : Nat) : List ReservationRecord :=
  reservations.filter fun r => r.call = some call

/-- A registry with the calls of `protect` that share it, the reservations that were made and the
key ids and nonces that were encrypted under. -/
structure Shared (R : ProtectionNonceRegistry) where
  registry : R.State
  calls : List ProtectCall
  reservations : List ReservationRecord
  encryptions : List (String × Bytes)

namespace Shared

variable {Num : Type} {R : ProtectionNonceRegistry}

/-- No call was made. -/
def start (R : ProtectionNonceRegistry) : Shared R :=
  ⟨R.initial, [], [], []⟩

/-- A step: a call of `protect` begins, a call is at the head of its loop, the registry answers it,
its transaction fails, or it goes on with the answer; or another caller reserves. -/
inductive Event where
  | protect (options : ProtectorOptions) (keyRecord : DataProtectionKey) (binding : Binding)
      (plaintext : Bytes)
  | generate (call : Nat) (generated : Except Thrown Bytes)
  | reserve (call : Nat)
  | fail (call : Nat) (error : Thrown)
  | resume (call : Nat)
  | direct (request : NonceRequest)

/-- What a step leaves.  A step of a call that does not stand there is none. -/
def step (P : Platform Num) (s : Shared R) : Event → Shared R
  | .protect options keyRecord binding plaintext =>
      match ProtectCall.prepare P options keyRecord binding plaintext with
      | .error _ => s
      | .ok c => { s with calls := s.calls ++ [c] }
  | .generate i generated =>
      match s.calls[i]? with
      | some c =>
          match c.phase with
          | .looping => { s with calls := s.calls.set i (c.generate generated) }
          | _ => s
      | none => s
  | .reserve i =>
      match s.calls[i]? with
      | some c =>
          match c.phase with
          | .reserving nonce =>
              let request := c.request nonce
              let answer := R.reserve s.registry request
              { s with
                registry := answer.2
                calls := s.calls.set i { c with phase := .answered nonce answer.1 }
                reservations := s.reservations ++ [⟨some i, request, answer.1⟩] }
          | _ => s
      | none => s
  | .fail i error =>
      match s.calls[i]? with
      | some c =>
          match c.phase with
          | .reserving nonce =>
              { s with
                calls := s.calls.set i { c with phase := .answered nonce (.error error) }
                reservations :=
                  s.reservations ++ [⟨some i, c.request nonce, .error error⟩] }
          | _ => s
      | none => s
  | .resume i =>
      match s.calls[i]? with
      | some c =>
          match c.phase with
          | .answered nonce answer =>
              { s with
                calls := s.calls.set i { c with phase := c.resume P nonce answer }
                encryptions := s.encryptions ++ if granted answer then [(c.keyId, nonce)] else [] }
          | _ => s
      | none => s
  | .direct request =>
      let answer := R.reserve s.registry request
      { s with
        registry := answer.2
        reservations := s.reservations ++ [⟨none, request, answer.1⟩] }

/-! ### The invariant -/

/-- The registry is that of a sound ledger, in which the reservations are what was answered
`reserved`; what was encrypted or will be is among it, once; and a call has made the reservations
it asked for. -/
structure Inv (s : Shared R) (L : NonceLedger) : Prop where
  refines : R.Refines s.registry L
  sound : L.Sound Prod.snd
  used : L.used = reservedPairs s.reservations
  scope : ∀ r ∈ s.reservations, granted r.answer →
    L.binding r.request.keyId = some (r.request.namespaceId, r.request.invocationCeiling)
  bound : ∀ r ∈ s.reservations, ∀ a, r.answer = .ok a → L.binding r.request.keyId ≠ none
  encrypted : (s.encryptions ++ s.calls.flatMap ProtectCall.pending).Subperm L.used
  made : ∀ i c, s.calls[i]? = some c →
    (reservationsOf s.reservations i).length + c.asked = c.attempt ∧
      c.attempt ≤ c.options.maxNonceAttempts
  unmade : ∀ i, s.calls.length ≤ i → reservationsOf s.reservations i = []

variable {P : Platform Num} {s : Shared R} {L : NonceLedger}

theorem Inv.start : Inv (start R) .empty :=
  ⟨R.refines_initial, .empty, rfl, (by rintro _ ⟨⟩), (by rintro _ ⟨⟩), List.Subperm.refl _, (by rintro _ _ ⟨⟩), fun _ _ => rfl⟩

/-- A call in a list, and the list in which it is replaced. -/
theorem set_split {calls : List ProtectCall} {i : Nat} {c : ProtectCall}
    (h : calls[i]? = some c) : ∃ before later, calls = before ++ c :: later ∧
      ∀ c', calls.set i c' = before ++ c' :: later := by
  obtain ⟨hlt, rfl⟩ := List.getElem?_eq_some_iff.mp h
  refine ⟨calls.take i, calls.drop (i + 1), by simp, fun c' => ?_⟩
  rw [List.set_eq_take_append_cons_drop, if_pos hlt]

/-- What an index finds where an element was replaced. -/
theorem getElem?_set_cases {calls : List ProtectCall} {i j : Nat} {c' c : ProtectCall}
    (h : (calls.set i c')[j]? = some c) : (j = i ∧ c = c') ∨ (j ≠ i ∧ calls[j]? = some c) := by
  rw [List.getElem?_set] at h
  split at h
  · rename_i hij
    split at h
    · exact .inl ⟨hij.symm, (Option.some.inj h).symm⟩
    · cases h
  · rename_i hij
    exact .inr ⟨Ne.symm hij, h⟩

theorem reservedPairs_append (reservations : List ReservationRecord) (r : ReservationRecord) :
    reservedPairs (reservations ++ [r]) = reservedPairs reservations ++
      if granted r.answer then [(r.request.keyId, r.request.nonce)] else [] := by
  simp [reservedPairs]

theorem reservationsOf_append (reservations : List ReservationRecord) (r : ReservationRecord)
    (i : Nat) : reservationsOf (reservations ++ [r]) i =
      reservationsOf reservations i ++ if r.call = some i then [r] else [] := by
  unfold reservationsOf
  rw [List.filter_append, List.filter_singleton]
  by_cases h : r.call = some i <;> simp [h]

/-- A call goes on, without a reservation. -/
theorem Inv.set (h : Inv s L) {i : Nat} {c c' : ProtectCall} (hc : s.calls[i]? = some c)
    (hpending : c'.pending = c.pending)
    (hmade : (reservationsOf s.reservations i).length + c'.asked = c'.attempt ∧
      c'.attempt ≤ c'.options.maxNonceAttempts) :
    Inv { s with calls := s.calls.set i c' } L where
  refines := h.refines
  sound := h.sound
  used := h.used
  scope := h.scope
  bound := h.bound
  encrypted := by
    obtain ⟨before, later, hcalls, hset⟩ := set_split hc
    have henc := h.encrypted
    rw [hcalls] at henc
    dsimp only
    rw [hset]
    simpa [hpending] using henc
  made j d hd := by
    rcases getElem?_set_cases hd with ⟨rfl, rfl⟩ | ⟨-, hj⟩
    · exact hmade
    · exact h.made j d hj
  unmade j hj := h.unmade j (by simpa using hj)

/-- **The loop goes on** or ends. -/
theorem Inv.generate (h : Inv s L) {i : Nat} {c : ProtectCall} (hc : s.calls[i]? = some c)
    (hphase : c.phase = .looping) (generated : Except Thrown Bytes) :
    Inv { s with calls := s.calls.set i (c.generate generated) } L := by
  obtain ⟨hcount, hle⟩ := h.made i c hc
  have hasked : c.asked = 0 := by simp [ProtectCall.asked, hphase]
  have hpending : c.pending = [] := by simp [ProtectCall.pending, hphase]
  rw [hasked, Nat.add_zero] at hcount
  unfold ProtectCall.generate
  split
  · exact h.set hc hpending.symm ⟨hcount, hle⟩
  rename_i hroom
  split
  · exact h.set hc hpending.symm ⟨hcount, hle⟩
  split
  · exact h.set hc hpending.symm ⟨hcount, hle⟩
  · exact h.set hc hpending.symm ⟨by simp [ProtectCall.asked, hcount], by dsimp only; omega⟩

/-- **The answer of the registry**, or the failure of its transaction, for a call or for another
caller. -/
theorem Inv.reserved (h : Inv s L) {L' : NonceLedger} {registry : R.State} {call : Option Nat}
    {request : NonceRequest} {answer : Except Thrown ProtectionNonceReservation}
    {calls : List ProtectCall} (hanswer : Answers L request answer L')
    (hrefines : R.Refines registry L') (hlength : calls.length = s.calls.length)
    (hpending : (calls.flatMap ProtectCall.pending).Subperm (s.calls.flatMap ProtectCall.pending ++
      if granted answer then [(request.keyId, request.nonce)] else []))
    (hcall : ∀ i, call = some i → i < s.calls.length)
    (hcalls : ∀ i d, calls[i]? = some d → ∃ c, s.calls[i]? = some c ∧ d.attempt = c.attempt ∧
      d.options = c.options ∧ d.asked + (if call = some i then 1 else 0) = c.asked) :
    Inv { registry, calls, encryptions := s.encryptions,
          reservations := s.reservations ++ [⟨call, request, answer⟩] } L' where
  refines := hrefines
  sound := h.sound.answer hanswer.ledger
  used := by
    rw [reservedPairs_append, ← h.used]
    exact hanswer.ledger.used
  scope r hr hg := by
    rcases List.mem_append.mp hr with hold | hnew
    · exact hanswer.ledger.kept (h.scope r hold hg)
    · obtain rfl := List.mem_singleton.mp hnew
      exact hanswer.ledger.bound hg
  bound r hr a ha := by
    rcases List.mem_append.mp hr with hold | hnew
    · obtain ⟨b, hb⟩ := Option.ne_none_iff_exists'.mp (h.bound r hold a ha)
      rw [hanswer.ledger.kept hb]
      exact Option.some_ne_none b
    · obtain rfl := List.mem_singleton.mp hnew
      exact hanswer.bound a ha
  encrypted := by
    rw [hanswer.ledger.used]
    refine (((List.subperm_append_left s.encryptions).mpr hpending).trans ?_)
    rw [← List.append_assoc]
    exact (List.subperm_append_right _).mpr h.encrypted
  made i d hd := by
    obtain ⟨c, hc, hattempt, hoptions, hasked⟩ := hcalls i d hd
    obtain ⟨hcount, hle⟩ := h.made i c hc
    rw [reservationsOf_append, hattempt, hoptions]
    refine ⟨?_, hle⟩
    rw [List.length_append, ← hcount, ← hasked]
    dsimp only
    split
    · rw [List.length_singleton]
      omega
    · rw [List.length_nil]
      omega
  unmade i hi := by
    rw [reservationsOf_append, h.unmade i (hlength ▸ hi), if_neg]
    · rfl
    · intro hcalled
      have := hcall i hcalled
      dsimp only at hi
      omega

/-- The calls when one of them gets its answer. -/
theorem answered_calls {i : Nat} {c : ProtectCall} {nonce : Bytes}
    (hc : s.calls[i]? = some c) (hphase : c.phase = .reserving nonce)
    (answer : Except Thrown ProtectionNonceReservation) :
    let calls := s.calls.set i { c with phase := .answered nonce answer }
    (calls.flatMap ProtectCall.pending).Subperm (s.calls.flatMap ProtectCall.pending ++
        if granted answer then [((c.request nonce).keyId, (c.request nonce).nonce)] else []) ∧
      ∀ j d, calls[j]? = some d → ∃ c', s.calls[j]? = some c' ∧ d.attempt = c'.attempt ∧
        d.options = c'.options ∧
        d.asked + (if (some i : Option Nat) = some j then 1 else 0) = c'.asked := by
  refine ⟨?_, fun j d hd => ?_⟩
  · obtain ⟨before, later, hcalls, hset⟩ := set_split hc
    have hnone : c.pending = [] := by simp [ProtectCall.pending, hphase]
    rw [hset, hcalls]
    refine List.Perm.subperm (List.perm_iff_count.mpr fun x => ?_)
    simp only [List.flatMap_append, List.flatMap_cons, List.count_append, hnone, List.count_nil]
    simp only [ProtectCall.pending, ProtectCall.request]
    omega
  · rcases getElem?_set_cases hd with ⟨rfl, rfl⟩ | ⟨hne, hj⟩
    · exact ⟨c, hc, rfl, rfl, by simp [ProtectCall.asked, hphase]⟩
    · exact ⟨d, hj, rfl, rfl, by simp [Ne.symm hne]⟩

/-- **A call goes on with its answer**, and encrypts if it is granted. -/
theorem Inv.resume (h : Inv s L) {i : Nat} {c : ProtectCall} {nonce : Bytes}
    {answer : Except Thrown ProtectionNonceReservation} (hc : s.calls[i]? = some c)
    (hphase : c.phase = .answered nonce answer) :
    Inv { s with
      calls := s.calls.set i { c with phase := c.resume P nonce answer }
      encryptions := s.encryptions ++ if granted answer then [(c.keyId, nonce)] else [] } L := by
  obtain ⟨hcount, hle⟩ := h.made i c hc
  have hresume : ∀ phase, phase = c.resume P nonce answer →
      ProtectCall.pending { c with phase } = [] ∧ ProtectCall.asked { c with phase } = 0 := by
    rintro phase rfl
    unfold ProtectCall.resume
    split <;> exact ⟨rfl, rfl⟩
  obtain ⟨hpending, hasked⟩ := hresume _ rfl
  have hbefore : c.pending = if granted answer then [(c.keyId, nonce)] else [] := by
    simp [ProtectCall.pending, hphase]
  refine ⟨h.refines, h.sound, h.used, h.scope, h.bound, ?_, fun j d hd => ?_,
    fun j hj => h.unmade j (by simpa using hj)⟩
  · obtain ⟨before, later, hcalls, hset⟩ := set_split hc
    have henc := h.encrypted
    dsimp only
    rw [hcalls] at henc
    rw [hset]
    refine List.Subperm.trans (List.Perm.subperm (List.perm_iff_count.mpr fun x => ?_)) henc
    simp only [List.flatMap_append, List.flatMap_cons, List.count_append, hpending, hbefore,
      List.count_nil]
    omega
  · rcases getElem?_set_cases hd with ⟨rfl, rfl⟩ | ⟨-, hj⟩
    · have hzero : c.asked = 0 := by simp [ProtectCall.asked, hphase]
      rw [hzero] at hcount
      exact ⟨by rw [hasked]; exact hcount, hle⟩
    · exact h.made j d hj

/-- A call that begins has asked for nothing. -/
theorem prepare_ok {options : ProtectorOptions} {keyRecord : DataProtectionKey}
    {binding : Binding} {plaintext : Bytes} {c : ProtectCall}
    (h : ProtectCall.prepare P options keyRecord binding plaintext = .ok c) :
    c.attempt = 0 ∧ c.phase = .looping := by
  unfold ProtectCall.prepare at h
  obtain ⟨key, -, h⟩ := bind_eq_ok.mp h
  obtain ⟨aadMaterial, -, h⟩ := bind_eq_ok.mp h
  obtain ⟨aad, -, h⟩ := bind_eq_ok.mp h
  split at h
  · cases h
  · obtain rfl := Except.ok.inj h
    exact ⟨rfl, rfl⟩

theorem Inv.protect (h : Inv s L) {c : ProtectCall} (hattempt : c.attempt = 0)
    (hphase : c.phase = .looping) : Inv { s with calls := s.calls ++ [c] } L where
  refines := h.refines
  sound := h.sound
  used := h.used
  scope := h.scope
  bound := h.bound
  encrypted := by
    have hpending : c.pending = [] := by simp [ProtectCall.pending, hphase]
    simpa [hpending] using h.encrypted
  made i d hd := by
    rw [List.getElem?_append] at hd
    split at hd
    · exact h.made i d hd
    · rename_i hi
      have hd' := List.mem_of_getElem? hd
      obtain rfl := List.mem_singleton.mp hd'
      rw [h.unmade i (not_lt.mp hi), hattempt]
      exact ⟨by simp [ProtectCall.asked, hphase], Nat.zero_le _⟩
  unmade i hi := h.unmade i (by
    dsimp only at hi
    rw [List.length_append] at hi
    omega)

/-- **What a step keeps.** -/
theorem Inv.step (h : Inv s L) (event : Event) :
    ∃ L', Inv (step P s event) L' ∧ ∀ k b, L.binding k = some b → L'.binding k = some b := by
  cases event with
  | protect options keyRecord binding plaintext =>
    refine ⟨L, ?_, fun _ _ hb => hb⟩
    unfold Shared.step
    dsimp only
    split
    · exact h
    · rename_i c hc
      obtain ⟨hattempt, hphase⟩ := prepare_ok hc
      exact h.protect hattempt hphase
  | generate i generated =>
    refine ⟨L, ?_, fun _ _ hb => hb⟩
    unfold Shared.step
    dsimp only
    split
    · rename_i c hc
      split
      · exact h.generate hc ‹_› generated
      · exact h
    · exact h
  | reserve i =>
    unfold Shared.step
    dsimp only
    split
    · rename_i c hc
      split
      · rename_i nonce hphase
        obtain ⟨L', hanswer, hrefines⟩ := R.refines_reserve h.refines (c.request nonce)
        obtain ⟨hpending, hcalls⟩ :=
          answered_calls hc hphase (R.reserve s.registry (c.request nonce)).1
        exact ⟨L', h.reserved hanswer hrefines (by simp) hpending
          (fun j hj => Option.some.inj hj ▸ (List.getElem?_eq_some_iff.mp hc).1) hcalls,
          fun k b hb => hanswer.ledger.kept hb⟩
      · exact ⟨L, h, fun _ _ hb => hb⟩
    · exact ⟨L, h, fun _ _ hb => hb⟩
  | fail i error =>
    unfold Shared.step
    dsimp only
    split
    · rename_i c hc
      split
      · rename_i nonce hphase
        have hanswer : Answers L (c.request nonce) (.error error) L :=
          .refused nofun rfl (fun _ _ => rfl) (.inl rfl) nofun
        obtain ⟨hpending, hcalls⟩ := answered_calls hc hphase (.error error)
        exact ⟨L, h.reserved hanswer h.refines (by simp) hpending
          (fun j hj => Option.some.inj hj ▸ (List.getElem?_eq_some_iff.mp hc).1) hcalls,
          fun _ _ hb => hb⟩
      · exact ⟨L, h, fun _ _ hb => hb⟩
    · exact ⟨L, h, fun _ _ hb => hb⟩
  | resume i =>
    refine ⟨L, ?_, fun _ _ hb => hb⟩
    unfold Shared.step
    dsimp only
    split
    · rename_i c hc
      split
      · exact h.resume hc ‹_›
      · exact h
    · exact h
  | direct request =>
    unfold Shared.step
    dsimp only
    obtain ⟨L', hanswer, hrefines⟩ := R.refines_reserve h.refines request
    exact ⟨L', h.reserved hanswer hrefines rfl (List.sublist_append_left _ _).subperm nofun
      (fun i d hd => ⟨d, hd, rfl, rfl, by simp⟩), fun k b hb => hanswer.ledger.kept hb⟩

theorem Inv.run (h : Inv s L) (events : List Event) :
    ∃ L', Inv (events.foldl (Shared.step P) s) L' ∧
      ∀ k b, L.binding k = some b → L'.binding k = some b := by
  induction events generalizing s L with
  | nil => exact ⟨L, h, fun _ _ hb => hb⟩
  | cons event events ih =>
    obtain ⟨L₁, h₁, hkept₁⟩ := h.step (P := P) event
    obtain ⟨L₂, h₂, hkept₂⟩ := ih h₁
    exact ⟨L₂, h₂, fun k b hb => hkept₂ k b (hkept₁ k b hb)⟩

end Shared

/-- **Nonces are used once**, in every run of protectors and other callers that share a registry of
either kind: a key id and a nonce are answered `reserved` at most once; the invocations of a key
are the times it was reserved, and within the ceiling it is bound to; a key stays bound, and is
reserved as it is bound; nothing is encrypted twice under a key id and a nonce, nor without a
reservation; and a call of `protect` makes at most `maxNonceAttempts` reservations. -/
theorem nonces_used_once {Num : Type} (P : Platform Num) (kind : RegistryKind)
    (events : List Shared.Event) :
    let s := events.foldl (Shared.step P) (Shared.start kind.registry)
    (reservedPairs s.reservations).Nodup ∧
    (∀ keyId, kind.registry.invocations s.registry keyId =
      ((reservedPairs s.reservations).filter fun x => x.1 = keyId).length) ∧
    (∀ keyId, kind.registry.invocations s.registry keyId ≠ 0 →
      ∃ namespaceId invocationCeiling,
        kind.registry.binding s.registry keyId = some (namespaceId, invocationCeiling) ∧
        (kind.registry.invocations s.registry keyId : Int) ≤ invocationCeiling) ∧
    (∀ r ∈ s.reservations, r.answer = .ok .reserved →
      kind.registry.binding s.registry r.request.keyId =
        some (r.request.namespaceId, r.request.invocationCeiling)) ∧
    (∀ r ∈ s.reservations, ∀ a, r.answer = .ok a →
      kind.registry.binding s.registry r.request.keyId ≠ none) ∧
    (∀ (later : List Shared.Event) keyId bound,
      kind.registry.binding s.registry keyId = some bound →
        kind.registry.binding (later.foldl (Shared.step P) s).registry keyId = some bound) ∧
    s.encryptions.Nodup ∧ s.encryptions ⊆ reservedPairs s.reservations ∧
    ∀ i c, s.calls[i]? = some c →
      (reservationsOf s.reservations i).length ≤ c.options.maxNonceAttempts := by
  intro s
  obtain ⟨L, h, -⟩ := (Shared.Inv.start (R := kind.registry)).run (P := P) events
  change Shared.Inv s L at h
  have hbinding := kind.registry.refines_binding h.refines
  have hinvocations := kind.registry.refines_invocations h.refines
  have hencrypted : s.encryptions.Subperm L.used :=
    (List.sublist_append_left _ _).subperm.trans h.encrypted
  refine ⟨h.used ▸ h.sound.once, fun keyId => ?_, fun keyId hne => ?_, fun r hr hreserved => ?_,
    fun r hr a ha => ?_, fun later keyId bound hb => ?_, ?_, ?_, fun i c hc => ?_⟩
  · rw [hinvocations, OnceLedger.count, h.used]
  · rw [hinvocations] at hne ⊢
    obtain ⟨⟨namespaceId, invocationCeiling⟩, hb, hle⟩ := h.sound.within keyId hne
    exact ⟨namespaceId, invocationCeiling, (hbinding keyId).trans hb, hle⟩
  · rw [hbinding]
    exact h.scope r hr (granted_iff.mpr hreserved)
  · rw [hbinding]
    exact h.bound r hr a ha
  · obtain ⟨L', h', hkept⟩ := h.run (P := P) later
    rw [kind.registry.refines_binding h'.refines]
    exact hkept keyId bound ((hbinding keyId).symm.trans hb)
  · obtain ⟨l, hperm, hsublist⟩ := hencrypted
    exact hperm.nodup_iff.mp (hsublist.nodup h.sound.once)
  · exact h.used ▸ hencrypted.subset
  · obtain ⟨hcount, hle⟩ := h.made i c hc
    omega

end Pactmark
