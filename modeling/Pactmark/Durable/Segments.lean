import Mathlib

/-!
# Durable — segments between separators

A list that is split at a separator, and lists whose segments are a prefix of those of another:
that is what a test of prefixes decides that has the separator at its end.

* `splitOn_prefix_iff`: the segments of a list are a prefix of those of another.
* `splitOn_append_flatMap`: the segments of a list to which segments are added.
-/

namespace Durable

variable {α : Type}

theorem intercalate_append {sep : List α} {xs ys : List (List α)} (hx : xs ≠ []) (hy : ys ≠ []) :
    sep.intercalate (xs ++ ys) = sep.intercalate xs ++ sep ++ sep.intercalate ys := by
  induction xs with
  | nil => exact absurd rfl hx
  | cons x xs ih =>
    cases xs with
    | nil =>
      rw [List.singleton_append, List.intercalate_cons_of_ne_nil hy, List.intercalate_singleton]
    | cons x' xs =>
      have hcons : x' :: xs ≠ [] := List.cons_ne_nil x' xs
      have happend : x' :: xs ++ ys ≠ [] := List.append_ne_nil_of_left_ne_nil hcons ys
      rw [List.cons_append, List.intercalate_cons_of_ne_nil happend, ih hcons,
        List.intercalate_cons_of_ne_nil hcons]
      simp only [List.append_assoc]

variable [DecidableEq α]

/-- **The segments of a list are a prefix** of those of another exactly when the lists are equal,
or the other one goes on after the list with a separator. -/
theorem splitOn_prefix_iff {sep : α} {p c : List α} :
    p.splitOn sep <+: c.splitOn sep ↔ c = p ∨ p ++ [sep] <+: c := by
  constructor
  · rintro ⟨rest, hrest⟩
    have hc : [sep].intercalate (c.splitOn sep) = c := List.intercalate_splitOn sep
    have hp : [sep].intercalate (p.splitOn sep) = p := List.intercalate_splitOn sep
    rw [← hrest] at hc
    cases rest with
    | nil =>
      rw [List.append_nil, hp] at hc
      exact .inl hc.symm
    | cons segment rest =>
      refine .inr ⟨[sep].intercalate (segment :: rest), ?_⟩
      rw [intercalate_append (List.splitOn_ne_nil sep p) (by simp), hp] at hc
      exact hc
  · rintro (rfl | ⟨rest, rfl⟩)
    · exact List.prefix_refl _
    · rw [List.append_assoc, List.singleton_append, List.splitOn_append_cons_self]
      exact List.prefix_append ..

/-- No segment has the separator in it. -/
theorem not_mem_of_mem_splitOn {sep : α} {l s : List α} (h : s ∈ l.splitOn sep) : sep ∉ s := by
  induction l generalizing s with
  | nil =>
    obtain rfl : s = [] := by simpa using h
    exact List.not_mem_nil
  | cons x l ih =>
    rw [List.splitOn_cons_eq_if_modifyHead] at h
    split at h
    · rcases List.mem_cons.mp h with rfl | h
      · exact List.not_mem_nil
      · exact ih h
    · rename_i hx
      cases hl : l.splitOn sep with
      | nil => exact absurd hl (List.splitOn_ne_nil sep l)
      | cons first rest =>
        rw [hl] at h
        rcases List.mem_cons.mp h with rfl | h
        · have hfirst : sep ∉ first := ih (by rw [hl]; exact List.mem_cons_self)
          rw [List.mem_cons, not_or]
          exact ⟨fun heq => hx (beq_iff_eq.mpr heq.symm), hfirst⟩
        · exact ih (by rw [hl]; exact List.mem_cons_of_mem _ h)

/-- A list without a separator, and segments after it. -/
theorem splitOn_append_flatMap {sep : α} {first : List α} {segments : List (List α)}
    (hfirst : sep ∉ first) (h : ∀ s ∈ segments, sep ∉ s) :
    (first ++ segments.flatMap (sep :: ·)).splitOn sep = first :: segments := by
  induction segments generalizing first with
  | nil => rw [List.flatMap_nil, List.append_nil, List.splitOn_eq_singleton hfirst]
  | cons s segments ih =>
    obtain ⟨hs, hrest⟩ := List.forall_mem_cons.mp h
    rw [List.flatMap_cons, List.cons_append, List.splitOn_append_cons_self_of_not_mem hfirst,
      ih hs hrest]

end Durable
