import Mathlib

/-!
# Durable — insertion-ordered maps

The `Map` of JavaScript: its entries in the order their keys were first set, each key once.  A
map that is filled from the entries of another is that other (`replace_eq`).
-/

namespace Durable

/-- A map with its entries in insertion order. -/
@[ext] structure OrderedMap (K V : Type) where
  entries : List (K × V)
  nodup : (entries.map Prod.fst).Nodup

namespace OrderedMap

variable {K V : Type} [DecidableEq K]

omit [DecidableEq K] in
/-- `new Map()`. -/
def empty : OrderedMap K V :=
  ⟨[], List.nodup_nil⟩

/-- `map.get(key)`. -/
def get (m : OrderedMap K V) (key : K) : Option V :=
  (m.entries.find? fun x => decide (x.1 = key)).map Prod.snd

/-- `map.has(key)`. -/
def has (m : OrderedMap K V) (key : K) : Bool :=
  (m.get key).isSome

/-- The value of an entry, replaced if the entry is that of the key. -/
def replaceValue (key : K) (value : V) (x : K × V) : K × V :=
  if x.1 = key then (key, value) else x

theorem replaceValue_fst (key : K) (value : V) (x : K × V) :
    (replaceValue key value x).1 = x.1 := by
  unfold replaceValue
  split
  · rename_i h
    exact h.symm
  · rfl

/-- `map.set(key, value)`: in the place of the key's entry, or as the last one. -/
def set (m : OrderedMap K V) (key : K) (value : V) : OrderedMap K V :=
  if h : key ∈ m.entries.map Prod.fst then
    { entries := m.entries.map (replaceValue key value)
      nodup := by
        rw [List.map_map, show Prod.fst ∘ replaceValue key value = Prod.fst from
          funext (replaceValue_fst key value)]
        exact m.nodup }
  else
    { entries := m.entries ++ [(key, value)]
      nodup := by
        rw [List.map_append, List.nodup_append]
        refine ⟨m.nodup, by simp, fun a ha b hb => ?_⟩
        rw [List.map_singleton, List.mem_singleton] at hb
        rintro rfl
        rw [hb] at ha
        exact h ha }

/-- `map.delete(key)`. -/
def delete (m : OrderedMap K V) (key : K) : OrderedMap K V where
  entries := m.entries.filter fun x => decide (x.1 ≠ key)
  nodup := (List.filter_sublist.map Prod.fst).nodup m.nodup

/-- `target.clear(); for (const [key, value] of source) target.set(key, value)`. -/
def replace (_target source : OrderedMap K V) : OrderedMap K V :=
  source.entries.foldl (fun m x => m.set x.1 x.2) empty

/-- `new Map(entries)`. -/
def ofEntries (entries : List (K × V)) : OrderedMap K V :=
  entries.foldl (fun m x => m.set x.1 x.2) empty

theorem set_entries_of_fresh {m : OrderedMap K V} {key : K} (value : V)
    (h : key ∉ m.entries.map Prod.fst) : (m.set key value).entries = m.entries ++ [(key, value)] := by
  unfold set
  rw [dif_neg h]

theorem foldl_set_entries (l : List (K × V)) (m : OrderedMap K V)
    (h : ((m.entries ++ l).map Prod.fst).Nodup) :
    (l.foldl (fun m x => m.set x.1 x.2) m).entries = m.entries ++ l := by
  induction l generalizing m with
  | nil => simp
  | cons x l ih =>
      have hfresh : x.1 ∉ m.entries.map Prod.fst := by
        rw [List.map_append, List.nodup_append] at h
        exact fun hx => h.2.2 _ hx _ (by simp) rfl
      have hset := set_entries_of_fresh x.2 hfresh
      rw [List.foldl_cons, ih _ (by rw [hset]; simpa using h), hset]
      simp

@[simp] theorem ofEntries_entries (m : OrderedMap K V) : ofEntries m.entries = m := by
  ext1
  have := foldl_set_entries m.entries empty (by simpa [empty] using m.nodup)
  simpa [ofEntries, empty] using this

/-- A map that is replaced by another is that other. -/
@[simp] theorem replace_eq (target source : OrderedMap K V) : replace target source = source :=
  ofEntries_entries source

/-- What was set is found. -/
theorem get_set_self (m : OrderedMap K V) (key : K) (value : V) :
    (m.set key value).get key = some value := by
  unfold set
  split
  · rename_i h
    unfold get
    obtain ⟨x, hx, hk⟩ := List.mem_map.mp h
    have hfind : ((m.entries.map (replaceValue key value)).find? fun x =>
        decide (x.1 = key)) = some (key, value) := by
      rw [List.find?_map]
      have hcomp : ((fun x : K × V => decide (x.1 = key)) ∘ replaceValue key value) =
          fun x => decide (x.1 = key) := by
        funext y
        simp only [Function.comp, replaceValue_fst]
      rw [hcomp]
      cases hf : m.entries.find? fun x => decide (x.1 = key) with
      | none =>
          have := List.find?_eq_none.mp hf x hx
          simp [hk] at this
      | some y =>
          have hy := List.find?_some hf
          simp only [decide_eq_true_eq] at hy
          simp [replaceValue, hy]
    rw [hfind]
    rfl
  · rename_i h
    unfold get
    rw [List.find?_append, List.find?_eq_none.mpr]
    · simp
    · intro x hx
      simp only [decide_eq_true_eq]
      rintro rfl
      exact h (List.mem_map_of_mem hx)

/-- Nothing else changes. -/
theorem get_set_of_ne (m : OrderedMap K V) {key k : K} (value : V) (h : k ≠ key) :
    (m.set key value).get k = m.get k := by
  unfold set
  split
  · unfold get
    rw [List.find?_map]
    have hcomp : ((fun x : K × V => decide (x.1 = k)) ∘ replaceValue key value) =
        fun x => decide (x.1 = k) := by
      funext y
      simp only [Function.comp, replaceValue_fst]
    rw [hcomp]
    cases hf : m.entries.find? fun x => decide (x.1 = k) with
    | none => rfl
    | some y =>
        have hy := List.find?_some hf
        simp only [decide_eq_true_eq] at hy
        simp [replaceValue, hy, h]
  · unfold get
    rw [List.find?_append]
    cases hf : m.entries.find? fun x => decide (x.1 = k) with
    | none => simp [Ne.symm h]
    | some y => rfl

theorem get_set (m : OrderedMap K V) (key k : K) (value : V) :
    (m.set key value).get k = if k = key then some value else m.get k := by
  split
  · rename_i h
    rw [h, get_set_self]
  · rename_i h
    exact get_set_of_ne m value h

omit [DecidableEq K] in
@[simp] theorem get_empty [DecidableEq K] (k : K) : (empty : OrderedMap K V).get k = none := rfl

/-- `map.get` finds the entries of the map. -/
theorem get_eq_some_iff {m : OrderedMap K V} {k : K} {v : V} :
    m.get k = some v ↔ (k, v) ∈ m.entries := by
  simp only [get, Option.map_eq_some_iff]
  constructor
  · rintro ⟨⟨k', v'⟩, hfind, rfl⟩
    have hk : k' = k := by simpa using List.find?_some hfind
    exact hk ▸ List.mem_of_find?_eq_some hfind
  · intro hmem
    obtain ⟨x, hfind⟩ := Option.isSome_iff_exists.mp
      (List.find?_isSome (p := fun x : K × V => decide (x.1 = k)).mpr ⟨(k, v), hmem, by simp⟩)
    have hx : x.1 = k := by simpa using List.find?_some hfind
    have heq : x = (k, v) :=
      List.inj_on_of_nodup_map m.nodup (List.mem_of_find?_eq_some hfind) hmem hx
    exact ⟨x, hfind, by rw [heq]⟩

theorem get_eq_none_iff {m : OrderedMap K V} {k : K} :
    m.get k = none ↔ k ∉ m.entries.map Prod.fst := by
  simp only [get, Option.map_eq_none_iff, List.find?_eq_none, decide_eq_true_eq, List.mem_map,
    not_exists, not_and]

theorem get_delete (m : OrderedMap K V) (key k : K) :
    (m.delete key).get k = if k = key then none else m.get k := by
  ext v
  rw [get_eq_some_iff, delete, List.mem_filter, decide_eq_true_eq]
  split
  · rename_i hk
    simp [hk]
  · rename_i hk
    rw [get_eq_some_iff]
    exact and_iff_left hk

theorem get_of_delete {m : OrderedMap K V} {key k : K} {v : V}
    (h : (m.delete key).get k = some v) : k ≠ key ∧ m.get k = some v := by
  rw [get_delete] at h
  split at h
  · cases h
  · exact ⟨‹_›, h⟩

/-- A value that is there already, or is new, changes no other. -/
theorem get_set_of_agree {m : OrderedMap K V} {key : K} {value : V}
    (hagree : m.get key = none ∨ m.get key = some value) {k : K} {v : V}
    (hv : m.get k = some v) : (m.set key value).get k = some v := by
  rw [get_set]
  split
  · rename_i hk
    rcases hagree with hnone | hsome
    · rw [hk, hnone] at hv
      cases hv
    · rw [← hsome, ← hk, hv]
  · exact hv

end OrderedMap

end Durable
