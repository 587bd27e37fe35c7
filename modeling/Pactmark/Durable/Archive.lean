import Mathlib

/-!
# Durable — archives

An archive keeps values for good.  A value has a key and a route, no two values of an archive
share either, and of two that clash the one that comes first stays.

* `mem_file_iff`: what is in an archive after it was offered.
* `mem_of_filed_later`, `mem_of_offered`: what was refused once is refused for good.
* `find?_eq_some_iff`: the value of a key, or of a route, is the one that has it.
-/

namespace Durable.Archive

variable {V K R : Type} (key : V → K) (route : V → R)

/-- Two values that cannot both be kept, unless they are one. -/
def Clash (v w : V) : Prop :=
  key v = key w ∨ route v = route w

/-- No two values of the archive clash. -/
def Separated (l : List V) : Prop :=
  l.Pairwise fun v w => ¬ Clash key route v w

variable [DecidableEq K] [DecidableEq R]

instance (v w : V) : Decidable (Clash key route v w) :=
  inferInstanceAs (Decidable (key v = key w ∨ route v = route w))

/-- A value is filed unless one that is there clashes with it. -/
def file (l : List V) (v : V) : List V :=
  if ∃ w ∈ l, Clash key route w v then l else l ++ [v]

variable {key route} {l : List V} {v w : V}

omit [DecidableEq K] [DecidableEq R] in
theorem clash_self (v : V) : Clash key route v v :=
  .inl rfl

omit [DecidableEq K] [DecidableEq R] in
theorem Clash.symm (h : Clash key route v w) : Clash key route w v :=
  h.imp Eq.symm Eq.symm

omit [DecidableEq K] [DecidableEq R] in
theorem separated_nil : Separated key route ([] : List V) :=
  List.Pairwise.nil

omit [DecidableEq K] [DecidableEq R] in
/-- Values of an archive that clash are one. -/
theorem Separated.eq (h : Separated key route l) (hv : v ∈ l) (hw : w ∈ l)
    (hclash : Clash key route v w) : v = w := by
  have hall : l.Pairwise fun v w => Clash key route v w → v = w :=
    h.imp fun hno hclash => absurd hclash hno
  have hsymm : Std.Symm fun v w : V => Clash key route v w → v = w :=
    ⟨fun _ _ himp hclash => (himp hclash.symm).symm⟩
  exact hall.forall_of_forall (fun _ _ _ => rfl) hv hw hclash

theorem Separated.file (h : Separated key route l) (v : V) :
    Separated key route (file key route l v) := by
  unfold Archive.file
  split
  · exact h
  · rename_i hnone
    push Not at hnone
    refine List.pairwise_append.mpr ⟨h, List.pairwise_singleton _ _, fun w hw u hu => ?_⟩
    rw [List.mem_singleton] at hu
    rw [hu]
    exact hnone w hw

/-- What is filed stays. -/
theorem prefix_file (l : List V) (v : V) : l <+: file key route l v := by
  unfold file
  split
  · exact List.prefix_rfl
  · exact List.prefix_append l [v]

theorem prefix_foldl_file (l later : List V) : l <+: later.foldl (file key route) l := by
  induction later generalizing l with
  | nil => exact List.prefix_rfl
  | cons v later ih => exact (prefix_file l v).trans (ih _)

theorem Separated.foldl (h : Separated key route l) (later : List V) :
    Separated key route (later.foldl (Archive.file key route) l) := by
  induction later generalizing l with
  | nil => exact h
  | cons v later ih => exact ih (h.file v)

/-- **A value is kept** when whatever clashes with it is the value itself. -/
theorem mem_file_iff (h : Separated key route l) :
    v ∈ file key route l v ↔ ∀ w ∈ l, Clash key route w v → w = v := by
  unfold file
  split
  · rename_i hclash
    obtain ⟨w, hw, hclash⟩ := hclash
    constructor
    · exact fun hv u hu hclash => h.eq hu hv hclash
    · exact fun hall => hall w hw hclash ▸ hw
  · rename_i hnone
    refine iff_of_true (List.mem_append_right _ List.mem_cons_self) fun w hw hclash => ?_
    exact absurd ⟨w, hw, hclash⟩ hnone

/-- **What was refused once** is refused for good. -/
theorem mem_of_filed_later (h : Separated key route l) (later : List V)
    (hv : v ∈ later.foldl (file key route) (file key route l v)) : v ∈ file key route l v := by
  rw [mem_file_iff h]
  intro w hw hclash
  have hlater := (h.file v).foldl later
  have hbefore : l <+: later.foldl (file key route) (file key route l v) :=
    (prefix_file l v).trans (prefix_foldl_file _ later)
  exact hlater.eq (hbefore.subset hw) hv hclash

/-- **An offer is decided once**: what is offered later does not change what is kept of it. -/
theorem mem_of_offered {offered : List V} (later : List V) (hv : v ∈ offered) :
    v ∈ (offered ++ later).foldl (file key route) [] ↔ v ∈ offered.foldl (file key route) [] := by
  rw [List.foldl_append]
  refine ⟨fun hmem => ?_, fun hmem => (prefix_foldl_file _ later).subset hmem⟩
  obtain ⟨before, rest, rfl⟩ := List.append_of_mem hv
  rw [List.foldl_append, List.foldl_cons] at hmem ⊢
  rw [← List.foldl_append] at hmem
  exact (prefix_foldl_file _ rest).subset
    (mem_of_filed_later (separated_nil.foldl before) (rest ++ later) hmem)

/-- A value that is found by what identifies it. -/
theorem find?_eq_some_iff {p : V → Bool} (h : ∀ a ∈ l, ∀ b ∈ l, p a → p b → a = b) :
    l.find? p = some v ↔ v ∈ l ∧ p v = true := by
  constructor
  · exact fun hfind => ⟨List.mem_of_find?_eq_some hfind, List.find?_some hfind⟩
  · rintro ⟨hv, hp⟩
    cases hfind : l.find? p with
    | none => exact absurd hp (List.find?_eq_none.mp hfind v hv)
    | some w =>
        rw [h w (List.mem_of_find?_eq_some hfind) v hv (List.find?_some hfind) hp]

end Durable.Archive
