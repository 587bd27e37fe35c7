import Mathlib.Data.List.Sort
import Mathlib.Data.List.Dedup
import Pactmark.Durable.Operations

/-!
# Durable — lists whose order does not matter

What a checked loop over a list, a lookup in it and a sort of it give, when the list is
reordered.

* `forM_ok_iff`, `mapM_perm`, `mem_of_mapM`: loops that stop at the first error.
* `anyM_of_first`, `exists_of_anyM`: a search that may fail on an element.
* `lookup_iff_mem`, `find?_perm`, `dedup_length_iff`, `mergeSort_perm`: lookups with one answer, a
  set of used elements, and a sort by distinct keys.
-/

namespace Durable

variable {ε α β κ : Type}

/-! ### Loops -/

theorem forM_ok_iff {f : α → Except ε Unit} {l : List α} :
    l.forM f = .ok () ↔ ∀ a ∈ l, f a = .ok () := by
  induction l with
  | nil => simp [pure, Except.pure]
  | cons a l ih =>
      rw [List.forM, bind_eq_ok, List.forall_mem_cons, ← ih]
      constructor
      · rintro ⟨⟨⟩, ha, hl⟩
        exact ⟨ha, hl⟩
      · rintro ⟨ha, hl⟩
        exact ⟨(), ha, hl⟩

theorem mapM_cons_ok {f : α → Except ε β} {a : α} {l : List α} {bs : List β} :
    (a :: l).mapM f = .ok bs ↔ ∃ b bs', f a = .ok b ∧ l.mapM f = .ok bs' ∧ bs = b :: bs' := by
  rw [List.mapM_cons, bind_eq_ok]
  constructor
  · rintro ⟨b, hb, h⟩
    obtain ⟨bs', hbs', h⟩ := bind_eq_ok.mp h
    cases h
    exact ⟨b, bs', hb, hbs', rfl⟩
  · rintro ⟨b, bs', hb, hbs', rfl⟩
    exact ⟨b, hb, bind_eq_ok.mpr ⟨bs', hbs', rfl⟩⟩

/-- What a loop collects is the same up to order when its list is reordered. -/
theorem mapM_perm {f : α → Except ε β} {l l' : List α} (hperm : l.Perm l') :
    ∀ {bs : List β}, l.mapM f = .ok bs → ∃ bs', l'.mapM f = .ok bs' ∧ bs.Perm bs' := by
  induction hperm with
  | nil => exact fun h => ⟨_, h, .refl _⟩
  | cons a _ ih =>
      intro bs h
      obtain ⟨b, bs', hb, hbs', rfl⟩ := mapM_cons_ok.mp h
      obtain ⟨bs'', hbs'', hp⟩ := ih hbs'
      exact ⟨b :: bs'', mapM_cons_ok.mpr ⟨b, bs'', hb, hbs'', rfl⟩, hp.cons b⟩
  | swap a a' l =>
      intro bs h
      obtain ⟨b', bs', hb', htail, rfl⟩ := mapM_cons_ok.mp h
      obtain ⟨b, bs'', hb, hbs'', rfl⟩ := mapM_cons_ok.mp htail
      exact ⟨b :: b' :: bs'', mapM_cons_ok.mpr ⟨b, _, hb, mapM_cons_ok.mpr
        ⟨b', bs'', hb', hbs'', rfl⟩, rfl⟩, .swap b b' bs''⟩
  | trans _ _ ih ih' =>
      intro bs h
      obtain ⟨bs', hbs', hp⟩ := ih h
      obtain ⟨bs'', hbs'', hp'⟩ := ih' hbs'
      exact ⟨bs'', hbs'', hp.trans hp'⟩

theorem mem_of_mapM {f : α → Except ε β} {l : List α} {bs : List β} (h : l.mapM f = .ok bs) :
    (∀ a ∈ l, ∃ b ∈ bs, f a = .ok b) ∧ ∀ b ∈ bs, ∃ a ∈ l, f a = .ok b := by
  refine ⟨fun a ha => exists_of_mapM_ok h ha, ?_⟩
  induction l generalizing bs with
  | nil =>
      cases h
      simp
  | cons a l ih =>
      obtain ⟨b, bs', hb, hbs', rfl⟩ := mapM_cons_ok.mp h
      intro b' hb'
      rcases List.mem_cons.mp hb' with rfl | hb'
      · exact ⟨a, List.mem_cons_self, hb⟩
      · obtain ⟨a', ha', h'⟩ := ih hbs' b' hb'
        exact ⟨a', List.mem_cons_of_mem a ha', h'⟩

theorem exists_mapM {f : α → Except ε β} {l : List α} (h : ∀ a ∈ l, ∃ b, f a = .ok b) :
    ∃ bs, l.mapM f = .ok bs := by
  induction l with
  | nil => exact ⟨[], rfl⟩
  | cons a l ih =>
      obtain ⟨b, hb⟩ := h a List.mem_cons_self
      obtain ⟨bs, hbs⟩ := ih fun a' ha' => h a' (List.mem_cons_of_mem a ha')
      exact ⟨b :: bs, mapM_cons_ok.mpr ⟨b, bs, hb, hbs, rfl⟩⟩

/-- What a loop collects, read by a function that sees only the element. -/
theorem mapM_map_eq {f : α → Except ε β} {g : β → κ} {k : α → κ}
    (h : ∀ a b, f a = .ok b → g b = k a) {l : List α} :
    ∀ {bs : List β}, l.mapM f = .ok bs → bs.map g = l.map k := by
  induction l with
  | nil =>
      intro bs hbs
      cases hbs
      rfl
  | cons a l ih =>
      intro bs hbs
      obtain ⟨b, bs', hb, hbs', rfl⟩ := mapM_cons_ok.mp hbs
      rw [List.map_cons, List.map_cons, h a b hb, ih hbs']

/-! ### Searches -/

variable {f : α → Except ε Bool}

theorem exists_of_anyM {l : List α} (h : l.anyM f = .ok true) : ∃ a ∈ l, f a = .ok true := by
  induction l with
  | nil => cases h
  | cons a l ih =>
      rw [List.anyM] at h
      obtain ⟨b, hb, h⟩ := bind_eq_ok.mp h
      cases b with
      | true => exact ⟨a, List.mem_cons_self, hb⟩
      | false =>
          obtain ⟨a', ha', h'⟩ := ih h
          exact ⟨a', List.mem_cons_of_mem a ha', h'⟩

/-- A search succeeds when an element is found before one it fails on. -/
theorem anyM_of_first {l l' : List α} (hl : ∀ a ∈ l, ∃ b, f a = .ok b)
    (h : ∃ a ∈ l, f a = .ok true) : (l ++ l').anyM f = .ok true := by
  induction l with
  | nil =>
      obtain ⟨a, ha, -⟩ := h
      cases ha
  | cons a l ih =>
      obtain ⟨b, hb⟩ := hl a List.mem_cons_self
      rw [List.cons_append, List.anyM, hb, ok_bind]
      cases b with
      | true => rfl
      | false =>
          refine ih (fun a' ha' => hl a' (List.mem_cons_of_mem a ha')) ?_
          obtain ⟨a', ha', h'⟩ := h
          rcases List.mem_cons.mp ha' with rfl | ha'
          · rw [hb] at h'
            cases h'
          · exact ⟨a', ha', h'⟩

/-- A search fails on the first element. -/
theorem anyM_of_error {a : α} {l : List α} {e : ε} (h : f a = .error e) :
    (a :: l).anyM f = .error e := by
  rw [List.anyM, h]
  rfl

/-! ### Lookups, sets and sorts -/

/-- Elements of a list make as many as there are in it exactly when none is left out. -/
theorem dedup_length_iff [DecidableEq α] {used all : List α} (hsub : used ⊆ all)
    (hnodup : all.Nodup) : used.dedup.length = all.length ↔ all ⊆ used := by
  constructor
  · intro h a ha
    have hsub' : used.dedup ⊆ all := fun b hb => hsub (List.mem_dedup.mp hb)
    have hperm := (List.subperm_of_subset (List.nodup_dedup used) hsub').perm_of_length_le h.ge
    exact List.mem_dedup.mp (hperm.mem_iff.mpr ha)
  · intro h
    refine ((List.perm_ext_iff_of_nodup (List.nodup_dedup used) hnodup).mpr fun a => ?_).length_eq
    exact ⟨fun ha => hsub (List.mem_dedup.mp ha), fun ha => List.mem_dedup.mpr (h ha)⟩

theorem lookup_iff_mem [BEq κ] [LawfulBEq κ] {l : List (κ × β)} {k : κ} {v : β}
    (hnodup : (l.map Prod.fst).Nodup) : l.lookup k = some v ↔ (k, v) ∈ l := by
  induction l with
  | nil => simp
  | cons entry l ih =>
      obtain ⟨key, w⟩ := entry
      rw [List.map_cons, List.nodup_cons] at hnodup
      by_cases hk : k = key
      · subst hk
        have hnot : (k, v) ∉ l := fun h => hnodup.1 (List.mem_map.mpr ⟨(k, v), h, rfl⟩)
        simp [hnot, eq_comm]
      · have hbeq : (k == key) = false := by simpa using hk
        simp [List.lookup_cons, hbeq, ih hnodup.2, hk]

/-- A lookup that has one answer. -/
theorem find?_perm {p : α → Bool} {l l' : List α} (hperm : l.Perm l')
    (h : ∀ a ∈ l, ∀ b ∈ l, p a → p b → a = b) : l'.find? p = l.find? p := by
  cases hfind : l.find? p with
  | none =>
      rw [List.find?_eq_none] at hfind ⊢
      exact fun a ha => hfind a (hperm.mem_iff.mpr ha)
  | some a =>
      have ha := List.mem_of_find?_eq_some hfind
      have hpa := List.find?_some hfind
      cases hfind' : l'.find? p with
      | none =>
          rw [List.find?_eq_none] at hfind'
          exact absurd hpa (hfind' a (hperm.mem_iff.mp ha))
      | some b =>
          have hb := hperm.mem_iff.mpr (List.mem_of_find?_eq_some hfind')
          rw [h a ha b hb hpa (List.find?_some hfind')]

/-- A sort by a key that no two elements share. -/
theorem mergeSort_perm {le : α → α → Bool} (key : α → κ) {l l' : List α} (hperm : l.Perm l')
    (htrans : ∀ a b c, le a b → le b c → le a c) (htotal : ∀ a b, le a b || le b a)
    (hanti : ∀ a b, le a b → le b a → key a = key b) (hnodup : (l.map key).Nodup) :
    l'.mergeSort le = l.mergeSort le := by
  have hp : (l'.mergeSort le).Perm (l.mergeSort le) :=
    (List.mergeSort_perm l' le).trans (hperm.symm.trans (List.mergeSort_perm l le).symm)
  refine hp.eq_of_pairwise ?_ (List.pairwise_mergeSort htrans htotal l')
    (List.pairwise_mergeSort htrans htotal l)
  intro a b ha hb hab hba
  have ha' : a ∈ l := hperm.mem_iff.mpr ((List.mergeSort_perm l' le).mem_iff.mp ha)
  have hb' : b ∈ l := (List.mergeSort_perm l le).mem_iff.mp hb
  exact List.inj_on_of_nodup_map hnodup ha' hb' (hanti a b hab hba)

end Durable
