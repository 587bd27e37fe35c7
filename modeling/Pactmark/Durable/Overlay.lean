import Mathlib.Algebra.BigOperators.Group.Finset.Basic
import Mathlib.Algebra.Order.BigOperators.Group.Finset
import Pactmark.Durable.Totals

/-!
# Durable — maps written over one another

What a transaction sees of a map is the map with what it has written itself.  Sums over maps are
compared key by key.

* `get_overlay`: what is found in a map that is written over.
* `total_le_of_get`: a sum is no larger if no key's share is.
-/

namespace Durable

namespace OrderedMap

variable {K V : Type} [DecidableEq K]

/-- The map with the entries of another written over it. -/
def overlay (m written : OrderedMap K V) : OrderedMap K V :=
  written.entries.foldl (fun m x => m.set x.1 x.2) m

theorem get_foldl_set {entries : List (K × V)} (hnodup : (entries.map Prod.fst).Nodup)
    (m : OrderedMap K V) (key : K) :
    (entries.foldl (fun m x => m.set x.1 x.2) m).get key =
      ((entries.find? fun x => decide (x.1 = key)).map Prod.snd).or (m.get key) := by
  induction entries generalizing m with
  | nil => rfl
  | cons x rest ih =>
    rw [List.map_cons, List.nodup_cons] at hnodup
    rw [List.foldl_cons, ih hnodup.2, get_set]
    by_cases hx : x.1 = key
    · -- the key is that of the entry, and of no later one
      have hrest : rest.find? (fun y => decide (y.1 = key)) = none := by
        rw [List.find?_eq_none]
        intro y hy heq
        exact hnodup.1 (List.mem_map.mpr ⟨y, hy, (of_decide_eq_true heq).trans hx.symm⟩)
      have hfirst : (x :: rest).find? (fun y => decide (y.1 = key)) = some x :=
        List.find?_cons_of_pos (decide_eq_true hx)
      rw [hrest, if_pos hx.symm, hfirst]
      rfl
    · have hlater : (x :: rest).find? (fun y => decide (y.1 = key)) =
          rest.find? fun y => decide (y.1 = key) :=
        List.find?_cons_of_neg (by simpa using hx)
      rw [if_neg (Ne.symm hx), hlater]

/-- **What is found in a map that is written over.** -/
theorem get_overlay (m written : OrderedMap K V) (key : K) :
    (m.overlay written).get key = (written.get key).or (m.get key) :=
  get_foldl_set written.nodup m key

theorem get_overlay_set (m written : OrderedMap K V) (key k : K) (value : V) :
    (m.overlay (written.set key value)).get k = ((m.overlay written).set key value).get k := by
  rw [get_overlay, get_set, get_set, get_overlay]
  split
  · rfl
  · rfl

/-! ### Sums key by key -/

variable (counts : V → Bool) (weight : V → Nat)

omit [DecidableEq K] in
/-- What a key adds to a sum, whether it has a value or not. -/
def shareOf (value : Option V) : Nat :=
  value.elim 0 (share counts weight)

theorem total_eq_sum (m : OrderedMap K V) {keys : Finset K}
    (hkeys : ∀ key ∉ keys, m.get key = none) :
    m.total counts weight = ∑ key ∈ keys, shareOf counts weight (m.get key) := by
  have hsub : (m.entries.map Prod.fst).toFinset ⊆ keys := by
    intro key hkey
    by_contra hnot
    exact get_eq_none_iff.mp (hkeys key hnot) (List.mem_toFinset.mp hkey)
  rw [← Finset.sum_subset hsub, List.sum_toFinset _ m.nodup, total_eq, List.map_map]
  · refine congrArg List.sum (List.map_congr_left fun x hx => ?_)
    have hget : m.get x.1 = some x.2 := get_eq_some_iff.mpr hx
    rw [Function.comp_apply, hget]
    rfl
  · intro key _ hnot
    rw [get_eq_none_iff.mpr fun hmem => hnot (List.mem_toFinset.mpr hmem)]
    rfl

/-- **A sum is no larger** if no key's share is. -/
theorem total_le_of_get {m m' : OrderedMap K V}
    (h : ∀ key, shareOf counts weight (m'.get key) ≤ shareOf counts weight (m.get key)) :
    m'.total counts weight ≤ m.total counts weight := by
  have hnone : ∀ (n : OrderedMap K V) (l : List (K × V)), n.entries ⊆ l →
      ∀ key ∉ (l.map Prod.fst).toFinset, n.get key = none := by
    intro n l hl key hkey
    rw [get_eq_none_iff]
    intro hmem
    obtain ⟨x, hx, rfl⟩ := List.mem_map.mp hmem
    exact hkey (List.mem_toFinset.mpr (List.mem_map_of_mem (hl hx)))
  rw [total_eq_sum counts weight m' (hnone m' _ (List.subset_append_right m.entries m'.entries)),
    total_eq_sum counts weight m (hnone m _ (List.subset_append_left m.entries m'.entries))]
  exact Finset.sum_le_sum fun key _ => h key

theorem total_set (m : OrderedMap K V) (key : K) (value : V) :
    (m.set key value).total counts weight + shareOf counts weight (m.get key) =
      m.total counts weight + share counts weight value := by
  cases hget : m.get key with
  | none => exact total_set_of_fresh counts weight value hget
  | some old => exact total_set_of_get counts weight value hget

end OrderedMap

end Durable
