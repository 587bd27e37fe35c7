import Pactmark.Core.Encodings
import Pactmark.Core.Reservations
import Pactmark.Durable.OrderedMap
import Pactmark.Durable.Reordering
import Pactmark.Durable.Runs
import Pactmark.Policy.Evaluate
import Pactmark.Protocol.Replay

/-!
# Policy — the kill switches

`createKillSwitchRegistry` of `policy/src/kill-switch.ts`.  Whether a text is a datetime is the
schema library's own.  A registry that is restored from a snapshot lists its targets in another
order than the one the snapshot was taken of.

* `isKilled_iff`: a target is killed when it was activated and not deactivated since.
* `restored_answers`: a restored registry answers every later sequence of calls as the original.
* `same_version_same_snapshot`: the version identifies the snapshot along a run.
-/

namespace Pactmark

open Durable

namespace Policy

/-- A member of `KillSwitchTargetKindSchema`. -/
def KillSwitchTargetKind.text : KillSwitchTargetKind → String
  | .tool_registration => "tool_registration"
  | .mcp_server => "mcp_server"
  | .model_adapter => "model_adapter"
  | .model_profile => "model_profile"
  | .policy_registration => "policy_registration"
  | .compensation_definition => "compensation_definition"
  | .compensation_strategy => "compensation_strategy"

/-- `KillSwitchEntry`. -/
structure KillSwitchEntry where
  targetKind : KillSwitchTargetKind
  targetDigest : Digest
  reasonCode : String
  activatedAt : String
  activatedBy : String
  registryVersion : Nat
  deriving DecidableEq

/-- `/^KAF_[A-Z0-9_]+$/u`. -/
def reasonCodeParses (reasonCode : String) : Bool :=
  match reasonCode.toList with
  | 'K' :: 'A' :: 'F' :: '_' :: c :: rest =>
      (c :: rest).all fun c => c.isUpper || c.isDigit || decide (c = '_')
  | _ => false

/-- `KillSwitchEntrySchema`. -/
def KillSwitchEntry.parses (datetime : String → Bool) (entry : KillSwitchEntry) : Bool :=
  digestParses entry.targetDigest && reasonCodeParses entry.reasonCode &&
    datetime entry.activatedAt &&
    decide (1 ≤ codeUnits entry.activatedBy ∧ codeUnits entry.activatedBy ≤ 256) &&
    decide (0 < entry.registryVersion)

/-- `key`. -/
def targetKey (kind : KillSwitchTargetKind) (digest : Digest) : String :=
  kind.text ++ ":" ++ digest

/-- The key an entry is stored under. -/
def KillSwitchEntry.key (entry : KillSwitchEntry) : String :=
  targetKey entry.targetKind entry.targetDigest

/-- The UTF-16 code units of a text. -/
def textUnits (text : String) : JsString :=
  text.toList.flatMap fun c => codePointUnits c.toNat

/-- `compareCodeUnits`. -/
def compareCodeUnits (left right : String) : Int :=
  if textUnits left < textUnits right then -1
  else if textUnits right < textUnits left then 1
  else 0

/-- `KillSwitchSnapshot`. -/
structure KillSwitchSnapshot where
  version : Nat
  entries : List KillSwitchEntry
  deriving DecidableEq

/-- `KillSwitchRegistry`: its version and what is active. -/
structure KillSwitchRegistry where
  version : Nat
  active : OrderedMap String KillSwitchEntry

namespace KillSwitchRegistry

/-- `createKillSwitchRegistry`. -/
def create (datetime : String → Bool) : Option KillSwitchSnapshot →
    Except Thrown KillSwitchRegistry
  | none => .ok ⟨0, .empty⟩
  | some initial =>
      if initial.entries.all (·.parses datetime) then
        .ok ⟨initial.version, initial.entries.foldl (fun active e => active.set e.key e) .empty⟩
      else .error schemaRefused

/-- `activate`. -/
def activate (datetime : String → Bool) (r : KillSwitchRegistry) (targetKind : KillSwitchTargetKind)
    (targetDigest : Digest) (reasonCode activatedBy activatedAt : String) :
    Except Thrown KillSwitchEntry × KillSwitchRegistry :=
  let entry : KillSwitchEntry :=
    { targetKind, targetDigest, reasonCode, activatedAt, activatedBy
      registryVersion := r.version + 1 }
  if entry.parses datetime then (.ok entry, ⟨r.version + 1, r.active.set entry.key entry⟩)
  else (.error schemaRefused, r)

/-- `deactivate`. -/
def deactivate (r : KillSwitchRegistry) (targetKind : KillSwitchTargetKind)
    (targetDigest : Digest) : Bool × KillSwitchRegistry :=
  let removed := r.active.has (targetKey targetKind targetDigest)
  (removed, ⟨if removed then r.version + 1 else r.version,
    r.active.delete (targetKey targetKind targetDigest)⟩)

/-- `isKilled`. -/
def isKilled (r : KillSwitchRegistry) (targetKind : KillSwitchTargetKind) (targetDigest : Digest) :
    Bool :=
  r.active.has (targetKey targetKind targetDigest)

/-- `snapshot`. -/
def snapshot (r : KillSwitchRegistry) : KillSwitchSnapshot where
  version := r.version
  entries := (r.active.entries.map Prod.snd).mergeSort fun left right =>
    decide (compareCodeUnits left.key right.key ≤ 0)

end KillSwitchRegistry

/-- A call on a registry. -/
inductive KillSwitchCall where
  | activate (targetKind : KillSwitchTargetKind) (targetDigest : Digest)
      (reasonCode activatedBy activatedAt : String)
  | deactivate (targetKind : KillSwitchTargetKind) (targetDigest : Digest)
  | isKilled (targetKind : KillSwitchTargetKind) (targetDigest : Digest)
  | snapshot

/-- What a call answers. -/
inductive KillSwitchAnswer where
  | entry (answer : Except Thrown KillSwitchEntry)
  | changed (answer : Bool)
  | killed (answer : Bool)
  | snapshot (answer : KillSwitchSnapshot)

/-- What a call answers, and what it leaves. -/
def KillSwitchCall.step (datetime : String → Bool) (r : KillSwitchRegistry) :
    KillSwitchCall → KillSwitchAnswer × KillSwitchRegistry
  | .activate targetKind targetDigest reasonCode activatedBy activatedAt =>
      let (answer, r) :=
        r.activate datetime targetKind targetDigest reasonCode activatedBy activatedAt
      (.entry answer, r)
  | .deactivate targetKind targetDigest =>
      let (answer, r) := r.deactivate targetKind targetDigest
      (.changed answer, r)
  | .isKilled targetKind targetDigest => (.killed (r.isKilled targetKind targetDigest), r)
  | .snapshot => (.snapshot r.snapshot, r)

namespace KillSwitchRegistry

/-- What a sequence of calls leaves. -/
def run (datetime : String → Bool) (r : KillSwitchRegistry) (calls : List KillSwitchCall) :
    KillSwitchRegistry :=
  calls.foldl (fun r call => (call.step datetime r).2) r

/-- What a sequence of calls answers. -/
def answers (datetime : String → Bool) (r : KillSwitchRegistry) :
    List KillSwitchCall → List KillSwitchAnswer
  | [] => []
  | call :: calls => (call.step datetime r).1 :: answers datetime (call.step datetime r).2 calls

variable {datetime : String → Bool} {r r' : KillSwitchRegistry}

/-! ### Keys -/

theorem text_no_colon (kind : KillSwitchTargetKind) : ':' ∉ kind.text.toList := by
  cases kind <;> decide

/-- The text of a kind ends at the first colon of a key. -/
theorem targetKey_inj {kind kind' : KillSwitchTargetKind} {digest digest' : Digest}
    (h : targetKey kind digest = targetKey kind' digest') : kind = kind' ∧ digest = digest' := by
  have hlist := congrArg String.toList h
  simp only [targetKey, String.toList_append] at hlist
  have htake := congrArg (List.takeWhile (fun c => decide (c ≠ ':'))) hlist
  have hkind : ∀ (k : KillSwitchTargetKind) (d : Digest),
      ((k.text.toList ++ ":".toList ++ d.toList).takeWhile fun c => decide (c ≠ ':')) =
        k.text.toList := by
    intro k d
    have hcolon : ":".toList = [':'] := rfl
    rw [List.append_assoc, List.takeWhile_append_of_pos, hcolon, List.singleton_append,
      List.takeWhile_cons_of_neg (by simp)]
    · simp
    · intro c hc
      have hne : c ≠ ':' := fun hcolon => text_no_colon k (hcolon ▸ hc)
      simpa using hne
  rw [hkind, hkind] at htake
  have hkind : kind = kind' := by
    revert htake
    cases kind <;> cases kind' <;> decide
  subst hkind
  refine ⟨rfl, String.toList_inj.mp ?_⟩
  exact List.append_cancel_left hlist

/-- No character is a surrogate, and a text has the units of no other one. -/
theorem flatMap_units_injective (l l' : List Char)
    (h : (l.flatMap fun c => codePointUnits c.toNat) = l'.flatMap fun c => codePointUnits c.toNat) :
    l = l' := by
  have hvalid : ∀ c : Char, c.toNat < 0xd800 ∨ 0xdfff < c.toNat ∧ c.toNat < 0x110000 :=
    fun c => c.valid
  have hnonempty : ∀ c : Char, codePointUnits c.toNat ≠ [] := by
    intro c
    unfold codePointUnits
    split <;> exact List.cons_ne_nil _ _
  induction l generalizing l' with
  | nil =>
      cases l' with
      | nil => rfl
      | cons c' l' => exact absurd (List.append_eq_nil_iff.mp h.symm).1 (hnonempty c')
  | cons c l ih =>
      cases l' with
      | nil => exact absurd (List.append_eq_nil_iff.mp h).1 (hnonempty c)
      | cons c' l' =>
          have hc := hvalid c
          have hc' := hvalid c'
          simp only [List.flatMap_cons] at h
          -- The first unit says whether a second one belongs to it.
          have hsplit : c.toNat = c'.toNat ∧ (l.flatMap fun c => codePointUnits c.toNat) =
              l'.flatMap fun c => codePointUnits c.toNat := by
            unfold codePointUnits at h ⊢
            split at h <;> split at h <;>
              simp only [List.cons_append, List.nil_append, List.cons.injEq] at h
            · exact h
            · omega
            · omega
            · exact ⟨by omega, h.2.2⟩
          rw [Char.toNat_inj.mp hsplit.1, ih l' hsplit.2]

theorem textUnits_injective : Function.Injective textUnits :=
  fun _ _ h => String.toList_inj.mp (flatMap_units_injective _ _ h)

theorem compareCodeUnits_le_zero {left right : String} :
    compareCodeUnits left right ≤ 0 ↔ textUnits left ≤ textUnits right := by
  unfold compareCodeUnits
  by_cases hlt : textUnits left < textUnits right
  · simp [hlt, hlt.le]
  · by_cases hgt : textUnits right < textUnits left
    · simp [hlt, hgt]
    · simp [hlt, hgt, not_lt.mp hgt]

/-! ### The invariant -/

/-- Every entry is stored under its own key and is what the schema accepts. -/
def Keyed (datetime : String → Bool) (r : KillSwitchRegistry) : Prop :=
  ∀ key entry, r.active.get key = some entry → entry.key = key ∧ entry.parses datetime = true

/-- The same version, and the same entry under every key. -/
structure Alike (r r' : KillSwitchRegistry) : Prop where
  version : r.version = r'.version
  active : ∀ key, r.active.get key = r'.active.get key

theorem keyed_empty : Keyed datetime ⟨0, .empty⟩ := by
  intro key entry h
  rw [OrderedMap.get_empty] at h
  cases h

theorem keyed_foldl {entries : List KillSwitchEntry} {active : OrderedMap String KillSwitchEntry}
    {version : Nat} (hactive : Keyed datetime ⟨version, active⟩)
    (hparses : ∀ e ∈ entries, e.parses datetime = true) :
    Keyed datetime ⟨version, entries.foldl (fun active e => active.set e.key e) active⟩ := by
  induction entries generalizing active with
  | nil => exact hactive
  | cons e entries ih =>
      refine ih (fun key entry h => ?_) fun e' he' => hparses e' (List.mem_cons_of_mem _ he')
      dsimp only at h
      rw [OrderedMap.get_set] at h
      split at h
      · rename_i hkey
        obtain rfl := Option.some.inj h
        exact ⟨hkey.symm, hparses _ List.mem_cons_self⟩
      · exact hactive key entry h

theorem keyed_create {initial : Option KillSwitchSnapshot}
    (h : create datetime initial = .ok r) : Keyed datetime r := by
  cases initial with
  | none =>
      obtain rfl := Except.ok.inj h
      exact keyed_empty
  | some initial =>
      simp only [create] at h
      split at h
      · rename_i hparses
        obtain rfl := Except.ok.inj h
        refine keyed_foldl (fun key entry hget => ?_) (List.all_eq_true.mp hparses)
        rw [OrderedMap.get_empty] at hget
        cases hget
      · cases h

/-- **What a call can do**: nothing, or it takes one version to set or delete one target. -/
theorem step_cases (datetime : String → Bool) (r : KillSwitchRegistry) (call : KillSwitchCall) :
    ((call.step datetime r).2.version = r.version ∧
        ∀ key, (call.step datetime r).2.active.get key = r.active.get key) ∨
      (∃ kind digest reason by_ at_ entry, call = .activate kind digest reason by_ at_ ∧
        entry.key = targetKey kind digest ∧ entry.parses datetime = true ∧
        (call.step datetime r).2 = ⟨r.version + 1, r.active.set entry.key entry⟩) ∨
      ∃ kind digest, call = .deactivate kind digest ∧
        r.active.has (targetKey kind digest) = true ∧
        (call.step datetime r).2 = ⟨r.version + 1, r.active.delete (targetKey kind digest)⟩ := by
  cases call with
  | activate kind digest reason by_ at_ =>
      simp only [KillSwitchCall.step, activate]
      split
      · rename_i hparses
        exact .inr (.inl ⟨_, _, _, _, _, _, rfl, rfl, hparses, rfl⟩)
      · exact .inl ⟨rfl, fun _ => rfl⟩
  | deactivate kind digest =>
      simp only [KillSwitchCall.step, deactivate]
      by_cases hhas : r.active.has (targetKey kind digest) = true
      · exact .inr (.inr ⟨kind, digest, rfl, hhas, by rw [if_pos hhas]⟩)
      · refine .inl ⟨by rw [if_neg hhas], fun key => ?_⟩
        rw [OrderedMap.get_delete]
        split
        · rename_i hkey
          rw [hkey]
          exact (Option.not_isSome_iff_eq_none.mp hhas).symm
        · rfl
  | isKilled kind digest => exact .inl ⟨rfl, fun _ => rfl⟩
  | snapshot => exact .inl ⟨rfl, fun _ => rfl⟩

theorem Keyed.step (h : Keyed datetime r) (call : KillSwitchCall) :
    Keyed datetime (call.step datetime r).2 := by
  intro key entry hget
  rcases step_cases datetime r call with
    ⟨-, hsame⟩ | ⟨kind, digest, _, _, _, e, -, -, hparses, hs⟩ | ⟨kind, digest, -, -, hs⟩
  · rw [hsame] at hget
    exact h key entry hget
  · rw [hs] at hget
    dsimp only at hget
    rw [OrderedMap.get_set] at hget
    split at hget
    · rename_i hkey
      obtain rfl := Option.some.inj hget
      exact ⟨hkey.symm, hparses⟩
    · exact h key entry hget
  · rw [hs] at hget
    exact h key entry (OrderedMap.get_of_delete hget).2

theorem Keyed.run (h : Keyed datetime r) (calls : List KillSwitchCall) :
    Keyed datetime (run datetime r calls) := by
  induction calls generalizing r with
  | nil => exact h
  | cons call calls ih => exact ih (h.step call)

/-! ### Restoring a snapshot -/

/-- The order of the entries of a snapshot. -/
def sorted (left right : KillSwitchEntry) : Bool :=
  decide (compareCodeUnits left.key right.key ≤ 0)

theorem sorted_trans (a b c : KillSwitchEntry) : sorted a b → sorted b c → sorted a c := by
  simp only [sorted, decide_eq_true_eq, compareCodeUnits_le_zero]
  exact le_trans

theorem sorted_total (a b : KillSwitchEntry) : sorted a b || sorted b a := by
  simp only [sorted, Bool.or_eq_true, decide_eq_true_eq, compareCodeUnits_le_zero]
  exact le_total _ _

theorem sorted_antisymm (a b : KillSwitchEntry) : sorted a b → sorted b a → a.key = b.key := by
  simp only [sorted, decide_eq_true_eq, compareCodeUnits_le_zero]
  exact fun h h' => textUnits_injective (le_antisymm h h')

theorem Keyed.keys (h : Keyed datetime r) :
    (r.active.entries.map Prod.snd).map KillSwitchEntry.key = r.active.entries.map Prod.fst := by
  rw [List.map_map]
  refine List.map_congr_left fun x hx => ?_
  exact (h x.1 x.2 (OrderedMap.get_eq_some_iff.mpr hx)).1

/-- The entries of a registry are its values, each once. -/
theorem Keyed.mem_values (h : Keyed datetime r) {entry : KillSwitchEntry} :
    entry ∈ r.active.entries.map Prod.snd ↔ r.active.get entry.key = some entry := by
  rw [OrderedMap.get_eq_some_iff, List.mem_map]
  constructor
  · rintro ⟨x, hx, rfl⟩
    rw [(h x.1 x.2 (OrderedMap.get_eq_some_iff.mpr hx)).1]
    exact hx
  · exact fun hx => ⟨_, hx, rfl⟩

/-- **A snapshot depends on what is active only**, not on the order it was activated in. -/
theorem Alike.snapshot (h : Alike r r') (hr : Keyed datetime r) (hr' : Keyed datetime r') :
    r.snapshot = r'.snapshot := by
  have hnodup : ∀ {s : KillSwitchRegistry}, Keyed datetime s →
      ((s.active.entries.map Prod.snd).map KillSwitchEntry.key).Nodup := by
    intro s hs
    rw [hs.keys]
    exact s.active.nodup
  have hperm : (r'.active.entries.map Prod.snd).Perm (r.active.entries.map Prod.snd) := by
    rw [List.perm_ext_iff_of_nodup (hnodup hr').of_map (hnodup hr).of_map]
    intro entry
    rw [hr'.mem_values, hr.mem_values, h.active]
  have hsort := mergeSort_perm KillSwitchEntry.key hperm sorted_trans sorted_total sorted_antisymm
    (hnodup hr')
  unfold KillSwitchRegistry.snapshot
  rw [h.version]
  exact congrArg _ hsort

theorem Alike.has (h : Alike r r') (key : String) : r.active.has key = r'.active.has key := by
  unfold OrderedMap.has
  rw [h.active]

/-- A call is answered the same by registries that are alike, and leaves them alike. -/
theorem Alike.step (h : Alike r r') (hr : Keyed datetime r) (hr' : Keyed datetime r')
    (call : KillSwitchCall) :
    (call.step datetime r).1 = (call.step datetime r').1 ∧
      Alike (call.step datetime r).2 (call.step datetime r').2 := by
  cases call with
  | activate kind digest reason by_ at_ =>
      simp only [KillSwitchCall.step, activate, h.version]
      split
      · refine ⟨rfl, rfl, fun key => ?_⟩
        rw [OrderedMap.get_set, OrderedMap.get_set, h.active]
      · exact ⟨rfl, h⟩
  | deactivate kind digest =>
      simp only [KillSwitchCall.step, deactivate, h.version, h.has]
      refine ⟨trivial, rfl, fun key => ?_⟩
      rw [OrderedMap.get_delete, OrderedMap.get_delete, h.active]
  | isKilled kind digest =>
      simp only [KillSwitchCall.step, isKilled, h.has]
      exact ⟨trivial, h⟩
  | snapshot =>
      simp only [KillSwitchCall.step, h.snapshot hr hr']
      exact ⟨trivial, h⟩

theorem Alike.answers (h : Alike r r') (hr : Keyed datetime r) (hr' : Keyed datetime r')
    (calls : List KillSwitchCall) : answers datetime r calls = answers datetime r' calls := by
  induction calls generalizing r r' with
  | nil => rfl
  | cons call calls ih =>
      obtain ⟨hanswer, halike⟩ := h.step hr hr' call
      simp only [KillSwitchRegistry.answers]
      rw [hanswer, ih halike (hr.step call) (hr'.step call)]

/-- What is created from a snapshot has the entries of the snapshot, in their order. -/
theorem create_snapshot (h : Keyed datetime r) :
    ∃ r', create datetime (some r.snapshot) = .ok r' ∧ Alike r' r := by
  have hperm : r.snapshot.entries.Perm (r.active.entries.map Prod.snd) := List.mergeSort_perm _ _
  have hparses : (r.snapshot.entries.all (·.parses datetime)) = true := by
    rw [List.all_eq_true]
    intro entry hentry
    exact (h _ _ (h.mem_values.mp (hperm.mem_iff.mp hentry))).2
  simp only [create, hparses, if_true]
  refine ⟨_, rfl, rfl, fun key => ?_⟩
  have hkeys : (r.snapshot.entries.map fun e => (e.key, e)).map Prod.fst =
      r.snapshot.entries.map KillSwitchEntry.key := by
    rw [List.map_map]
    rfl
  have hnodup : (r.snapshot.entries.map KillSwitchEntry.key).Nodup := by
    refine ((hperm.map KillSwitchEntry.key).nodup_iff).mpr ?_
    rw [h.keys]
    exact r.active.nodup
  have hfold : (r.snapshot.entries.foldl (fun active e => active.set e.key e)
      (OrderedMap.empty : OrderedMap String KillSwitchEntry)).entries =
        r.snapshot.entries.map fun e => (e.key, e) := by
    have := OrderedMap.foldl_set_entries (r.snapshot.entries.map fun e => (e.key, e))
      (OrderedMap.empty : OrderedMap String KillSwitchEntry) (by
        rw [show (OrderedMap.empty : OrderedMap String KillSwitchEntry).entries = [] from rfl,
          List.nil_append, hkeys]
        exact hnodup)
    rw [List.foldl_map] at this
    exact this
  ext entry
  rw [OrderedMap.get_eq_some_iff, hfold, List.mem_map]
  constructor
  · rintro ⟨e, he, heq⟩
    obtain ⟨rfl, rfl⟩ := Prod.mk.inj heq
    exact h.mem_values.mp (hperm.mem_iff.mp he)
  · intro hget
    obtain ⟨rfl, -⟩ := h key entry hget
    exact ⟨entry, hperm.mem_iff.mpr (h.mem_values.mpr hget), rfl⟩

/-- **A registry that is restored from a snapshot** answers every sequence of calls as the one the
snapshot was taken of. -/
theorem restored_answers (datetime : String → Bool) (initial : Option KillSwitchSnapshot)
    (created : KillSwitchRegistry) (h : create datetime initial = .ok created)
    (calls : List KillSwitchCall) :
    ∃ restored,
      create datetime (some (run datetime created calls).snapshot) = .ok restored ∧
      ∀ later, answers datetime restored later =
        answers datetime (run datetime created calls) later := by
  have hkeyed := (keyed_create h).run calls
  obtain ⟨restored, hrestored, halike⟩ := create_snapshot hkeyed
  exact ⟨restored, hrestored, fun later =>
    halike.answers (keyed_create hrestored) hkeyed later⟩

/-- The digest of a server. -/
def serverDigest : Digest :=
  "sha256:" ++ String.ofList (List.replicate 64 'a')

/-- It is activated. -/
def activated : List KillSwitchCall :=
  [.activate .mcp_server serverDigest "KAF_COMPROMISED" "operator" "2026-01-01T00:00:00Z"]

theorem restored_answers_activated :
    ∃ restored,
      create (fun _ => true) (some (run (fun _ => true) ⟨0, .empty⟩ activated).snapshot) =
        .ok restored ∧
      ∀ later, answers (fun _ => true) restored later =
        answers (fun _ => true) (run (fun _ => true) ⟨0, .empty⟩ activated) later :=
  restored_answers (fun _ => true) none ⟨0, .empty⟩ rfl activated

/-! ### Versions -/

theorem version_le_step (datetime : String → Bool) (r : KillSwitchRegistry)
    (call : KillSwitchCall) :
    r.version ≤ (call.step datetime r).2.version := by
  rcases step_cases datetime r call with
    ⟨hv, -⟩ | ⟨_, _, _, _, _, _, -, -, -, hs⟩ | ⟨_, _, -, -, hs⟩
  · exact hv.ge
  · rw [hs]
    exact Nat.le_succ _
  · rw [hs]
    exact Nat.le_succ _

theorem version_le_run (datetime : String → Bool) (r : KillSwitchRegistry)
    (calls : List KillSwitchCall) : r.version ≤ (run datetime r calls).version := by
  induction calls generalizing r with
  | nil => exact le_refl _
  | cons call calls ih => exact (version_le_step datetime r call).trans (ih _)

/-- A call that keeps the version changes no target. -/
theorem alike_of_version (datetime : String → Bool) (r : KillSwitchRegistry)
    (calls : List KillSwitchCall) (h : (run datetime r calls).version = r.version) :
    Alike (run datetime r calls) r := by
  induction calls generalizing r with
  | nil => exact ⟨rfl, fun _ => rfl⟩
  | cons call calls ih =>
      have hfirst := version_le_step datetime r call
      have hrest := version_le_run datetime (call.step datetime r).2 calls
      have hversion : (call.step datetime r).2.version = r.version :=
        le_antisymm (hrest.trans h.le) hfirst
      have halike := ih (call.step datetime r).2 (h.trans hversion.symm)
      rcases step_cases datetime r call with
        ⟨-, hsame⟩ | ⟨_, _, _, _, _, _, -, -, -, hs⟩ | ⟨_, _, -, -, hs⟩
      · exact ⟨h, fun key => (halike.active key).trans (hsame key)⟩
      · rw [hs] at hversion
        exact absurd hversion (Nat.succ_ne_self _)
      · rw [hs] at hversion
        exact absurd hversion (Nat.succ_ne_self _)

/-- **The version identifies the snapshot**: it never falls, and while it stays the snapshot
stays. -/
theorem same_version_same_snapshot (datetime : String → Bool) (initial : Option KillSwitchSnapshot)
    (created : KillSwitchRegistry) (h : create datetime initial = .ok created)
    (calls later : List KillSwitchCall) :
    (run datetime created calls).version ≤ (run datetime created (calls ++ later)).version ∧
      ((run datetime created (calls ++ later)).version = (run datetime created calls).version →
        (run datetime created (calls ++ later)).snapshot =
          (run datetime created calls).snapshot) := by
  have hkeyed := keyed_create h
  have hrun : run datetime created (calls ++ later) =
      run datetime (run datetime created calls) later := List.foldl_append
  rw [hrun]
  refine ⟨version_le_run datetime _ later, fun hversion => ?_⟩
  exact (alike_of_version datetime _ later hversion).snapshot ((hkeyed.run calls).run later)
    (hkeyed.run calls)

/-- Reads keep the version. -/
theorem same_version_same_snapshot_reads :
    (run (fun _ => true) ⟨0, .empty⟩ (activated ++ [.isKilled .mcp_server serverDigest])).snapshot =
      (run (fun _ => true) ⟨0, .empty⟩ activated).snapshot :=
  (same_version_same_snapshot (fun _ => true) none ⟨0, .empty⟩ rfl activated
    [.isKilled .mcp_server serverDigest]).2 rfl

/-! ### What is killed -/

/-- The call activates the target, with texts its entry is accepted with. -/
def Activates (datetime : String → Bool) (kind : KillSwitchTargetKind) (digest : Digest)
    (r : KillSwitchRegistry) (call : KillSwitchCall) : Prop :=
  ∃ reason by_ at_ entry, call = .activate kind digest reason by_ at_ ∧
    (r.activate datetime kind digest reason by_ at_).1 = .ok entry

theorem isKilled_step (datetime : String → Bool) (r : KillSwitchRegistry) (call : KillSwitchCall)
    (kind : KillSwitchTargetKind) (digest : Digest) :
    (call.step datetime r).2.isKilled kind digest = true ↔
      Activates datetime kind digest r call ∨
        r.isKilled kind digest = true ∧ call ≠ .deactivate kind digest := by
  cases call with
  | activate kind' digest' reason by_ at_ =>
      simp only [KillSwitchCall.step, activate]
      split
      · rename_i hparses
        simp only [isKilled, OrderedMap.has, OrderedMap.get_set]
        by_cases htarget : targetKey kind digest = targetKey kind' digest'
        · obtain ⟨rfl, rfl⟩ := targetKey_inj htarget
          refine iff_of_true (by simp [KillSwitchEntry.key]) (.inl ⟨reason, by_, at_,
            { targetKind := kind, targetDigest := digest, reasonCode := reason, activatedAt := at_
              activatedBy := by_, registryVersion := r.version + 1 }, rfl, ?_⟩)
          simp only [activate, hparses, if_true]
        · have hne : ¬ Activates datetime kind digest r
              (.activate kind' digest' reason by_ at_) := by
            rintro ⟨_, _, _, _, hcall, -⟩
            cases hcall
            exact htarget rfl
          simp [KillSwitchEntry.key, htarget, hne]
      · rename_i hparses
        have hne : ¬ Activates datetime kind digest r
            (.activate kind' digest' reason by_ at_) := by
          rintro ⟨_, _, _, _, hcall, hok⟩
          cases hcall
          simp only [activate, hparses] at hok
          cases hok
        simp [hne]
  | deactivate kind' digest' =>
      have hne : ¬ Activates datetime kind digest r (.deactivate kind' digest') := by
        rintro ⟨_, _, _, _, hcall, -⟩
        cases hcall
      simp only [KillSwitchCall.step, deactivate, isKilled, OrderedMap.has, OrderedMap.get_delete,
        hne, false_or]
      by_cases htarget : targetKey kind digest = targetKey kind' digest'
      · obtain ⟨rfl, rfl⟩ := targetKey_inj htarget
        simp
      · have hcall : KillSwitchCall.deactivate kind' digest' ≠ .deactivate kind digest := by
          rintro hcall
          cases hcall
          exact htarget rfl
        simp [htarget, hcall]
  | isKilled kind' digest' =>
      have hne : ¬ Activates datetime kind digest r (.isKilled kind' digest') := by
        rintro ⟨_, _, _, _, hcall, -⟩
        cases hcall
      simp [KillSwitchCall.step, hne]
  | snapshot =>
      have hne : ¬ Activates datetime kind digest r .snapshot := by
        rintro ⟨_, _, _, _, hcall, -⟩
        cases hcall
      simp [KillSwitchCall.step, hne]

/-- **A target is killed** exactly when a call has activated it, or it was killed from the start,
and no call has deactivated it since. -/
theorem isKilled_iff (datetime : String → Bool) (created : KillSwitchRegistry)
    (calls : List KillSwitchCall) (kind : KillSwitchTargetKind) (digest : Digest) :
    (run datetime created calls).isKilled kind digest = true ↔
      (created.isKilled kind digest = true ∧ .deactivate kind digest ∉ calls) ∨
        ∃ before call later, calls = before ++ call :: later ∧
          Activates datetime kind digest (run datetime created before) call ∧
          .deactivate kind digest ∉ later := by
  induction calls using List.reverseRecOn with
  | nil =>
      simp [run]
  | append_singleton calls last ih =>
      have hrun : run datetime created (calls ++ [last]) =
          (last.step datetime (run datetime created calls)).2 := by
        simp [run]
      rw [hrun, isKilled_step, ih]
      constructor
      · rintro (hactivates | ⟨⟨hcreated, hcalls⟩ | ⟨before, call, later, rfl, hactivates, hlater⟩,
          hlast⟩)
        · exact .inr ⟨calls, last, [], rfl, hactivates, List.not_mem_nil⟩
        · refine .inl ⟨hcreated, fun hmem => ?_⟩
          rcases List.mem_append.mp hmem with hmem | hmem
          · exact hcalls hmem
          · exact hlast (List.mem_singleton.mp hmem).symm
        · refine .inr ⟨before, call, later ++ [last], by simp, hactivates, fun hmem => ?_⟩
          rcases List.mem_append.mp hmem with hmem | hmem
          · exact hlater hmem
          · exact hlast (List.mem_singleton.mp hmem).symm
      · rintro (⟨hcreated, hcalls⟩ | ⟨before, call, later, hcalls, hactivates, hlater⟩)
        · refine .inr ⟨.inl ⟨hcreated, fun hmem => hcalls (List.mem_append_left _ hmem)⟩,
            fun hlast => hcalls (List.mem_append_right _ (by simp [hlast]))⟩
        rcases snoc_eq_append_cons.mp hcalls with ⟨rfl, rfl, rfl⟩ | ⟨rest, rfl, rfl⟩
        · exact .inl hactivates
        · refine .inr ⟨.inr ⟨before, call, rest, rfl, hactivates, fun hmem => ?_⟩, fun hlast => ?_⟩
          · exact hlater (List.mem_append_left _ hmem)
          · exact hlater (List.mem_append_right _ (by simp [hlast]))

end KillSwitchRegistry

end Policy

end Pactmark
