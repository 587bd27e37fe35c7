import Pactmark.Core.Reservations
import Pactmark.Durable.OrderedMap
import Pactmark.Durable.Runs

/-!
# Stores — circuit breakers

`MemoryCircuitBreakerStore` of `store-memory/src/resource-reservations.ts`.  A probe has a fencing
token, which the stored state carries while it is half open only: what closes or opens a breaker
forgets the token of its last probe.

* `compareAndSet_cases`: a call changes nothing, or installs a state whose token is greater than
  that of the state it replaces.
* `probeTokens_increase_iff`: the tokens of all probes increase exactly if those that follow a
  state without a token do.
-/

namespace Pactmark

open Durable Reservation

/-- `recordKey(state.tenantId, state.providerKey)`. -/
def Reservation.CircuitBreaker.key (breaker : CircuitBreaker) : String × String :=
  (breaker.tenantId, breaker.providerKey)

/-- `MemoryCircuitBreakerStore`. -/
structure MemoryCircuitBreakerStore where
  states : OrderedMap (String × String) CircuitBreaker

namespace MemoryCircuitBreakerStore

/-- `new MemoryCircuitBreakerStore()`. -/
def empty : MemoryCircuitBreakerStore :=
  ⟨.empty⟩

/-- `get`. -/
def get (s : MemoryCircuitBreakerStore) (tenantId providerKey : String) : Option CircuitBreaker :=
  s.states.get (tenantId, providerKey)

/-- The check of a half-open state against the one it replaces. -/
def fenceNotAdvanced (prior : Option CircuitBreaker) (next : CircuitBreaker) : Bool :=
  match next.probeLeaseId, next.probeFencingToken with
  | some _, some token =>
      match prior.bind (·.probeFencingToken) with
      | some priorToken => token ≤ priorToken
      | none => false
  | _, _ => true

/-- `compareAndSet`. -/
def compareAndSet (s : MemoryCircuitBreakerStore) (expected : Option CircuitBreaker)
    (next : CircuitBreaker) : Except Thrown Bool × MemoryCircuitBreakerStore :=
  let prior := s.states.get next.key
  if prior ≠ expected then (.ok false, s)
  else if next.state = .half_open ∧ fenceNotAdvanced prior next then
    (.error (conflict "circuit_probe_fence_not_advanced"), s)
  else (.ok true, ⟨s.states.set next.key next⟩)

end MemoryCircuitBreakerStore

/-! ### Histories -/

/-- A call of `compareAndSet`. -/
structure CompareAndSet where
  expected : Option CircuitBreaker
  next : CircuitBreaker

/-- A store, and the states that were installed in it, in order. -/
structure CircuitHistory where
  store : MemoryCircuitBreakerStore
  installed : List CircuitBreaker

namespace CircuitHistory

/-- The history of a new store. -/
def start : CircuitHistory :=
  ⟨.empty, []⟩

/-- What a call leaves. -/
def step (h : CircuitHistory) (call : CompareAndSet) : CircuitHistory :=
  match h.store.compareAndSet call.expected call.next with
  | (.ok true, store) => ⟨store, h.installed ++ [call.next]⟩
  | (_, store) => { h with store }

/-- What a sequence of calls leaves. -/
def after (calls : List CompareAndSet) : CircuitHistory :=
  calls.foldl step start

/-- The fencing tokens of the half-open states installed for a provider, in order. -/
def probeTokens (h : CircuitHistory) (key : String × String) : List Nat :=
  ((h.installed.filter fun breaker => breaker.key = key ∧ breaker.state = .half_open).filterMap
    (·.probeFencingToken))

/-- The state is installed over one that has no token, or over none. -/
def unfenced (h : CircuitHistory) (call : CompareAndSet) : Bool :=
  h.store.states.get call.next.key = call.expected ∧ call.next.state = .half_open ∧
    (call.expected.bind (·.probeFencingToken)).isNone

/-- A probe that follows a state without a token has a greater one than every probe before. -/
def Advances (h : CircuitHistory) (call : CompareAndSet) : Prop :=
  h.unfenced call = true →
    ∀ token ∈ call.next.probeFencingToken, ∀ earlier ∈ h.probeTokens call.next.key,
      earlier < token

/-! ### What a call does -/

theorem fenceNotAdvanced_iff {prior : Option CircuitBreaker} {next : CircuitBreaker}
    (hnext : next.state = .half_open) :
    MemoryCircuitBreakerStore.fenceNotAdvanced prior next = true ↔
      ∃ token ∈ next.probeFencingToken, ∃ earlier ∈ prior.bind (·.probeFencingToken),
        token ≤ earlier := by
  obtain ⟨lease, hlease⟩ := Option.isSome_iff_exists.mp (next.half_open_iff.mp hnext)
  obtain ⟨token, htoken⟩ := Option.isSome_iff_exists.mp (next.fence_iff.mp hnext)
  simp only [MemoryCircuitBreakerStore.fenceNotAdvanced, hlease, htoken]
  cases prior.bind (·.probeFencingToken) with
  | none => simp
  | some earlier => simp

variable {h : CircuitHistory} {call : CompareAndSet} {key : String × String}

/-- **A call** changes nothing, or installs a state, whose token is greater than that of the
state it replaces. -/
theorem step_cases (h : CircuitHistory) (call : CompareAndSet) :
    (h.step call = h ∧ h.unfenced call = false) ∨
      (h.store.states.get call.next.key = call.expected ∧
        (∀ token ∈ call.next.probeFencingToken,
          ∀ earlier ∈ call.expected.bind (·.probeFencingToken), earlier < token) ∧
        h.step call =
          ⟨⟨h.store.states.set call.next.key call.next⟩, h.installed ++ [call.next]⟩) := by
  by_cases hexpected : h.store.states.get call.next.key = call.expected
  · by_cases hfence : call.next.state = .half_open ∧
        MemoryCircuitBreakerStore.fenceNotAdvanced call.expected call.next = true
    · -- the token does not advance: the call throws
      obtain ⟨hopen, hfence'⟩ := hfence
      obtain ⟨token, -, earlier, hearlier, -⟩ := (fenceNotAdvanced_iff hopen).mp hfence'
      refine .inl ⟨?_, ?_⟩
      · simp [step, MemoryCircuitBreakerStore.compareAndSet, hexpected, hopen, hfence']
      · simp [unfenced, Option.mem_def.mp hearlier]
    · refine .inr ⟨hexpected, fun token htoken earlier hearlier => ?_, ?_⟩
      · have hopen : call.next.state = .half_open :=
          call.next.fence_iff.mpr (Option.isSome_iff_exists.mpr ⟨token, htoken⟩)
        by_contra hle
        exact hfence ⟨hopen, (fenceNotAdvanced_iff hopen).mpr
          ⟨token, htoken, earlier, hearlier, not_lt.mp hle⟩⟩
      · simp only [step, MemoryCircuitBreakerStore.compareAndSet, hexpected, ne_eq, not_true,
          if_false, if_neg hfence]
  · refine .inl ⟨?_, ?_⟩
    · simp only [step, MemoryCircuitBreakerStore.compareAndSet, ne_eq, hexpected, not_false_eq_true,
        if_true]
    · simp [unfenced, hexpected]

/-- Installing a state adds its token to those of its provider. -/
theorem probeTokens_install (store : MemoryCircuitBreakerStore) (h : CircuitHistory)
    (next : CircuitBreaker) :
    probeTokens ⟨store, h.installed ++ [next]⟩ key =
      h.probeTokens key ++ if next.key = key then next.probeFencingToken.toList else [] := by
  rw [probeTokens, List.filter_append, List.filterMap_append, ← probeTokens]
  congr 1
  by_cases hkey : next.key = key
  · by_cases hopen : next.state = .half_open
    · cases htoken : next.probeFencingToken <;> simp [hkey, hopen, htoken]
    · have hnone : next.probeFencingToken = none := by
        rw [← Option.not_isSome_iff_eq_none, ← next.fence_iff]
        exact hopen
      simp [hkey, hopen, hnone]
  · simp [hkey]

/-! ### The tokens of a run -/

/-- The token a stored state carries is the last one of its provider. -/
def Carries (h : CircuitHistory) : Prop :=
  ∀ key breaker, h.store.states.get key = some breaker →
    ∀ token ∈ breaker.probeFencingToken, (h.probeTokens key).getLast? = some token

theorem Carries.step (hc : h.Carries) (call : CompareAndSet) : (h.step call).Carries := by
  rcases step_cases h call with ⟨heq, -⟩ | ⟨-, -, heq⟩
  · rwa [heq]
  · rw [heq]
    intro key breaker hbreaker token htoken
    dsimp only at hbreaker
    rw [OrderedMap.get_set] at hbreaker
    rw [probeTokens_install]
    split at hbreaker
    · rename_i hkey
      obtain rfl := Option.some.inj hbreaker
      rw [if_pos hkey.symm, Option.mem_def.mp htoken]
      simp
    · rename_i hkey
      rw [if_neg (Ne.symm hkey), List.append_nil]
      exact hc key breaker hbreaker token htoken

theorem after_snoc (calls : List CompareAndSet) (call : CompareAndSet) :
    after (calls ++ [call]) = (after calls).step call := by
  rw [after, after, List.foldl_append]
  rfl

theorem after_carries (calls : List CompareAndSet) : (after calls).Carries := by
  induction calls using List.reverseRecOn with
  | nil => exact fun key breaker hbreaker => by cases hbreaker
  | append_singleton calls call ih =>
    rw [after_snoc]
    exact ih.step call

/-- The probe tokens of every provider increase. -/
def Increase (h : CircuitHistory) : Prop :=
  ∀ key, (h.probeTokens key).Pairwise (· < ·)

/-- A token greater than the last of an increasing list is greater than all of it. -/
theorem lt_of_getLast {tokens : List Nat} (hpair : tokens.Pairwise (· < ·)) {last token : Nat}
    (hlast : tokens.getLast? = some last) (hlt : last < token) : ∀ x ∈ tokens, x < token := by
  obtain ⟨l, rfl⟩ := List.getLast?_eq_some_iff.mp hlast
  rw [List.pairwise_append] at hpair
  intro x hx
  rcases List.mem_append.mp hx with hx | hx
  · exact (hpair.2.2 x hx last (List.mem_singleton_self last)).trans hlt
  · rwa [List.mem_singleton.mp hx]

/-- **One call** keeps the tokens increasing exactly if a probe without a token before it
advances. -/
theorem increase_step_iff (hc : h.Carries) (call : CompareAndSet) (hi : h.Increase) :
    (h.step call).Increase ↔ h.Advances call := by
  rcases step_cases h call with ⟨heq, hunfenced⟩ | ⟨hexpected, hgreater, heq⟩
  · rw [heq]
    refine ⟨fun _ hu => ?_, fun _ => hi⟩
    rw [hunfenced] at hu
    cases hu
  · rw [heq]
    constructor
    · intro hinc _ token htoken earlier hearlier
      have := hinc call.next.key
      rw [probeTokens_install, if_pos rfl, Option.mem_def.mp htoken, List.pairwise_append] at this
      exact this.2.2 earlier hearlier token (by simp)
    · intro hadvances key
      rw [probeTokens_install, List.pairwise_append]
      refine ⟨hi key, ?_, fun x hx y hy => ?_⟩
      · split
        · cases call.next.probeFencingToken <;> simp
        · exact List.Pairwise.nil
      · split at hy
        · rename_i hkey
          subst hkey
          rw [Option.mem_toList] at hy
          have hopen : call.next.state = .half_open :=
            call.next.fence_iff.mpr (Option.isSome_iff_exists.mpr ⟨y, hy⟩)
          cases hfence : call.expected.bind (·.probeFencingToken) with
          | none =>
            exact hadvances (by simp [unfenced, hexpected, hopen, hfence]) y hy x hx
          | some earlier =>
            obtain ⟨breaker, hbreaker, hearlier⟩ := Option.bind_eq_some_iff.mp hfence
            have hlast := hc _ breaker (hexpected.trans hbreaker) earlier hearlier
            exact lt_of_getLast (hi _) hlast (hgreater y hy earlier hfence) x hx
        · cases hy

/-- **The probe tokens increase over a whole history** exactly if every probe that is installed
over a state without a token has a greater one than the probes before it. -/
theorem probeTokens_increase_iff (calls : List CompareAndSet) :
    (∀ before later, calls = before ++ later → (after before).Increase) ↔
      Along step start Advances calls := by
  induction calls using List.reverseRecOn with
  | nil =>
    refine ⟨fun _ => along_nil, fun _ before later heq key => ?_⟩
    obtain ⟨rfl, -⟩ := List.append_eq_nil_iff.mp heq.symm
    exact List.Pairwise.nil
  | append_singleton calls call ih =>
    rw [along_snoc, ← ih]
    constructor
    · intro hall
      have hcalls : ∀ before later, calls = before ++ later → (after before).Increase :=
        fun before later heq => hall before (later ++ [call]) (by simp [heq])
      refine ⟨hcalls, ?_⟩
      have hlast := hall (calls ++ [call]) [] (by simp)
      rw [after_snoc] at hlast
      exact (increase_step_iff (after_carries calls) call (hcalls calls [] (by simp))).mp hlast
    · rintro ⟨hcalls, hadvances⟩ before later heq
      induction later using List.reverseRecOn with
      | nil =>
        rw [List.append_nil] at heq
        rw [← heq, after_snoc]
        exact (increase_step_iff (after_carries calls) call (hcalls calls [] (by simp))).mpr
          hadvances
      | append_singleton later last _ =>
        rw [← List.append_assoc] at heq
        exact hcalls before later (List.append_inj' heq rfl).1

/-- A breaker of a provider at its first instant. -/
def breaker (state : CircuitState) (token : Nat) : CircuitBreaker :=
  if h : state = .half_open then
    { tenantId := "tenant"
      providerKey := "provider"
      state
      failureCount := 3
      openedAt := none
      probeLeaseId := some "lease"
      probeFencingToken := some token
      updatedAt := ⟨"1970-01-01T00:00:00.000Z", 0⟩
      lease_fence := rfl
      half_open_iff := by simp [h] }
  else
    { tenantId := "tenant"
      providerKey := "provider"
      state
      failureCount := 3
      openedAt := none
      probeLeaseId := none
      probeFencingToken := none
      updatedAt := ⟨"1970-01-01T00:00:00.000Z", 0⟩
      lease_fence := rfl
      half_open_iff := by simp [h] }

/-- A probe with the token 7 fails, the breaker opens, and the next probe has the token 7. -/
theorem probe_token_reused :
    ¬ ∀ calls : List CompareAndSet, ∀ key, ((after calls).probeTokens key).Pairwise (· < ·) := by
  intro h
  have := h
    [⟨none, breaker .half_open 7⟩, ⟨some (breaker .half_open 7), breaker .open 0⟩,
      ⟨some (breaker .open 0), breaker .half_open 7⟩] ("tenant", "provider")
  revert this
  decide

end CircuitHistory

end Pactmark
