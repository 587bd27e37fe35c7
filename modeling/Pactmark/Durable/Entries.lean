import Mathlib.Data.List.Forall2
import Pactmark.Durable.Totals

/-!
# Durable — entries of ordered maps by their places

What setting a value, or replacing every value, does to the entries of a map, so that two maps can
be compared place by place.

* `set_entries_of_getElem?`: a value that is replaced stays at its place.
* `updateEach_eq_mapValues`: a loop that never throws replaces every value.
* `forall₂_set`: what two lists keep when one place of each is replaced.
-/

namespace Durable

/-! ### Two lists -/

section Lists

variable {α β : Type} {R : α → β → Prop} {l : List α} {l' : List β}

/-- One place of each list is replaced. -/
theorem forall₂_set (h : List.Forall₂ R l l') {a : α} {b : β} (hab : R a b) (n : Nat) :
    List.Forall₂ R (l.set n a) (l'.set n b) := by
  induction h generalizing n with
  | nil => exact .nil
  | cons hxy hrest ih =>
    cases n with
    | zero => exact .cons hab hrest
    | succ n => exact .cons hxy (ih n)

/-- What is at a place of one list is related to what is there in the other. -/
theorem forall₂_getElem? (h : List.Forall₂ R l l') (n : Nat) :
    Option.Rel R l[n]? l'[n]? := by
  induction h generalizing n with
  | nil => exact .none
  | cons hxy _ ih =>
    cases n with
    | zero => exact .some hxy
    | succ n => exact ih n

theorem forall₂_exists_left (h : List.Forall₂ R l l') {b : β} (hb : b ∈ l') :
    ∃ a ∈ l, R a b := by
  induction h with
  | nil => cases hb
  | cons hxy _ ih =>
    rcases List.mem_cons.mp hb with rfl | hb
    · exact ⟨_, List.mem_cons_self, hxy⟩
    · obtain ⟨a, ha, hab⟩ := ih hb
      exact ⟨a, List.mem_cons_of_mem _ ha, hab⟩

theorem forall₂_exists_right (h : List.Forall₂ R l l') {a : α} (ha : a ∈ l) :
    ∃ b ∈ l', R a b :=
  forall₂_exists_left h.flip ha

end Lists

namespace OrderedMap

variable {K V ε : Type} [DecidableEq K] (body : V → Except ε (Option V))

/-! ### Replacing values -/

/-- Every value of the map is replaced by another. -/
def mapValues (m : OrderedMap K V) (f : V → V) : OrderedMap K V where
  entries := m.entries.map fun x => (x.1, f x.2)
  nodup := by
    rw [List.map_map]
    exact m.nodup

/-- Replacing the value of a key is replacing the entry at its place. -/
theorem map_replaceValue_eq_set {key : K} {old : V} (value : V) {l : List (K × V)} {n : Nat}
    (hnodup : (l.map Prod.fst).Nodup) (hn : l[n]? = some (key, old)) :
    l.map (replaceValue key value) = l.set n (key, value) := by
  induction l generalizing n with
  | nil => cases hn
  | cons x l ih =>
    rw [List.map_cons, List.nodup_cons] at hnodup
    cases n with
    | zero =>
      obtain rfl : x = (key, old) := by simpa using hn
      rw [List.map_cons, map_replaceValue_of_fresh value hnodup.1, replaceValue, if_pos rfl]
      rfl
    | succ n =>
      have hmem : (key, old) ∈ l := List.mem_of_getElem? (by simpa using hn)
      have hne : x.1 ≠ key := by
        rintro rfl
        exact hnodup.1 (List.mem_map.mpr ⟨_, hmem, rfl⟩)
      rw [List.map_cons, ih hnodup.2 (by simpa using hn), replaceValue, if_neg hne]
      rfl

theorem set_entries_of_getElem? {m : OrderedMap K V} {key : K} {old : V} (value : V) {n : Nat}
    (hn : m.entries[n]? = some (key, old)) :
    (m.set key value).entries = m.entries.set n (key, value) := by
  rw [set, dif_pos (List.mem_map_of_mem (List.mem_of_getElem? hn))]
  exact map_replaceValue_eq_set value m.nodup hn

/-- The values of the entries from a place on are replaced one after the other. -/
theorem forEach_entries {f : V → Option V} (hbody : ∀ v, body v = .ok (f v))
    (before entries : List (K × V)) (m : OrderedMap K V) (hm : m.entries = before ++ entries)
    (changed : Nat) :
    (forEach body entries m changed).2.entries =
      before ++ entries.map fun x => (x.1, (f x.2).getD x.2) := by
  induction entries generalizing m before changed with
  | nil => exact hm
  | cons x rest ih =>
    obtain ⟨key, value⟩ := x
    have hnext := ih (before ++ [(key, (f value).getD value)])
    simp only [List.append_assoc, List.singleton_append] at hnext
    rw [forEach, hbody]
    cases hf : f value with
    | none =>
      dsimp only
      rw [hf, Option.getD_none] at hnext
      rw [hnext m hm]
      simp [hf]
    | some next =>
      dsimp only
      rw [hf, Option.getD_some] at hnext
      rw [hnext (m.set key next) ?_ (changed + 1)]
      · simp [hf]
      · have hn : m.entries[before.length]? = some (key, value) := by simp [hm]
        rw [set_entries_of_getElem? next hn, hm]
        simp

/-- **A loop that never throws** replaces the values its body replaces. -/
theorem updateEach_eq_mapValues {f : V → Option V} (hbody : ∀ v, body v = .ok (f v))
    (m : OrderedMap K V) : (m.updateEach body).2 = m.mapValues fun v => (f v).getD v := by
  ext1
  exact forEach_entries body hbody [] m.entries m rfl 0

end OrderedMap

end Durable
