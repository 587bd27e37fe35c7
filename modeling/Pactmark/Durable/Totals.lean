import Mathlib.Algebra.BigOperators.Group.List.Basic
import Pactmark.Durable.OrderedMap

/-!
# Durable — sums and loops over ordered maps

The sum of what the values of a map weigh, and the loop over a map that replaces the values it
visits.

* `total_set_of_get`, `total_set_of_fresh`: what setting a key does to a sum.
* `updateEach_induction`: the loop keeps what replacing one stored value keeps.
-/

namespace Durable

namespace OrderedMap

variable {K V : Type} [DecidableEq K]

omit [DecidableEq K] in
/-- `[...map.values()]`. -/
def values (m : OrderedMap K V) : List V :=
  m.entries.map Prod.snd

/-! ### Sums -/

omit [DecidableEq K] in
/-- `[...map.values()].filter(counts).reduce((sum, value) => sum + weight(value), 0)`. -/
def total (m : OrderedMap K V) (counts : V → Bool) (weight : V → Nat) : Nat :=
  ((m.values.filter counts).map weight).sum

/-- What a value adds to a sum. -/
def share (counts : V → Bool) (weight : V → Nat) (value : V) : Nat :=
  if counts value then weight value else 0

omit [DecidableEq K] in
theorem total_eq (m : OrderedMap K V) (counts : V → Bool) (weight : V → Nat) :
    m.total counts weight = (m.entries.map fun x => share counts weight x.2).sum := by
  unfold total values
  induction m.entries with
  | nil => rfl
  | cons x l ih =>
    rw [List.map_cons, List.map_cons, List.sum_cons, ← ih, share]
    by_cases hx : counts x.2 = true
    · simp [hx]
    · simp [hx]

theorem map_replaceValue_of_fresh {key : K} (value : V) {l : List (K × V)}
    (h : key ∉ l.map Prod.fst) : l.map (replaceValue key value) = l := by
  induction l with
  | nil => rfl
  | cons x l ih =>
    rw [List.map_cons, List.mem_cons, not_or] at h
    rw [List.map_cons, ih h.2, replaceValue, if_neg (Ne.symm h.1)]

theorem sum_map_replaceValue (weight : V → Nat) {key : K} {old : V} (value : V)
    {l : List (K × V)} (hnodup : (l.map Prod.fst).Nodup) (hmem : (key, old) ∈ l) :
    ((l.map (replaceValue key value)).map fun x => weight x.2).sum + weight old =
      (l.map fun x => weight x.2).sum + weight value := by
  induction l with
  | nil => cases hmem
  | cons x l ih =>
    rw [List.map_cons, List.nodup_cons] at hnodup
    obtain ⟨hfresh, hnodup⟩ := hnodup
    simp only [List.map_cons, List.sum_cons]
    rcases List.mem_cons.mp hmem with rfl | hmem
    · -- the entry of the key: none of the others is replaced
      rw [map_replaceValue_of_fresh value hfresh, replaceValue, if_pos rfl]
      dsimp only
      omega
    · have hne : x.1 ≠ key := by
        rintro rfl
        exact hfresh (List.mem_map.mpr ⟨_, hmem, rfl⟩)
      have := ih hnodup hmem
      rw [replaceValue, if_neg hne]
      omega

variable {m : OrderedMap K V} {key : K} {old : V} (counts : V → Bool) (weight : V → Nat)

/-- **A value that is replaced** gives its share for the new one's. -/
theorem total_set_of_get (value : V) (h : m.get key = some old) :
    (m.set key value).total counts weight + share counts weight old =
      m.total counts weight + share counts weight value := by
  have hmem := get_eq_some_iff.mp h
  have hkey : key ∈ m.entries.map Prod.fst := List.mem_map_of_mem hmem
  rw [total_eq, total_eq, set, dif_pos hkey]
  exact sum_map_replaceValue _ value m.nodup hmem

/-- **A value under a new key** adds its share. -/
theorem total_set_of_fresh (value : V) (h : m.get key = none) :
    (m.set key value).total counts weight =
      m.total counts weight + share counts weight value := by
  rw [total_eq, total_eq, set_entries_of_fresh value (get_eq_none_iff.mp h), List.map_append,
    List.sum_append]
  simp

/-- A sum does not grow where a value is replaced by one that adds no more. -/
theorem total_set_le {value : V} (h : m.get key = some old)
    (hshare : share counts weight value ≤ share counts weight old) :
    (m.set key value).total counts weight ≤ m.total counts weight := by
  have := total_set_of_get counts weight value h
  omega

omit [DecidableEq K] in
@[simp] theorem total_empty : (empty : OrderedMap K V).total counts weight = 0 := rfl

/-! ### Loops -/

variable {ε : Type} (body : V → Except ε (Option V))

/-- `for (const [key, value] of entries) { .. map.set(key, next); changed += 1; }`: the body
leaves an entry out, replaces its value, or throws. -/
def forEach : List (K × V) → OrderedMap K V → Nat → Except ε Nat × OrderedMap K V
  | [], m, changed => (.ok changed, m)
  | (key, value) :: rest, m, changed =>
      match body value with
      | .error e => (.error e, m)
      | .ok none => forEach rest m changed
      | .ok (some next) => forEach rest (m.set key next) (changed + 1)

/-- The loop over the map itself; setting a key that is there moves no entry. -/
def updateEach (m : OrderedMap K V) : Except ε Nat × OrderedMap K V :=
  forEach body m.entries m 0

/-- The loop visits each key once, so it finds every value as the map still has it. -/
theorem forEach_induction {P : OrderedMap K V → Prop}
    (hstep : ∀ m key value next, P m → m.get key = some value → body value = .ok (some next) →
      P (m.set key next))
    (entries : List (K × V)) (hnodup : (entries.map Prod.fst).Nodup) (changed : Nat)
    (hstored : ∀ x ∈ entries, m.get x.1 = some x.2) (hm : P m) :
    P (forEach body entries m changed).2 := by
  induction entries generalizing m changed with
  | nil => exact hm
  | cons x rest ih =>
    obtain ⟨key, value⟩ := x
    rw [List.map_cons, List.nodup_cons] at hnodup
    have hvalue := hstored (key, value) List.mem_cons_self
    have hrest := fun y (hy : y ∈ rest) => hstored y (List.mem_cons_of_mem _ hy)
    unfold forEach
    split
    · exact hm
    · exact ih hnodup.2 _ hrest hm
    · rename_i next hnext
      refine ih hnodup.2 _ (fun y hy => ?_) (hstep m key value next hm hvalue hnext)
      rw [get_set_of_ne]
      · exact hrest y hy
      · rintro rfl
        exact hnodup.1 (List.mem_map.mpr ⟨_, hy, rfl⟩)

/-- **The loop over a map** keeps what replacing one stored value keeps. -/
theorem updateEach_induction {P : OrderedMap K V → Prop}
    (hstep : ∀ m key value next, P m → m.get key = some value → body value = .ok (some next) →
      P (m.set key next)) (hm : P m) : P (m.updateEach body).2 :=
  forEach_induction body hstep m.entries m.nodup 0
    (fun x hx => get_eq_some_iff.mpr (by cases x; exact hx)) hm

end OrderedMap

end Durable
