import Pactmark.Core.Canonical
import Pactmark.Core.Positions

/-!
# Core — labels in a JSON value

The label of a position is what is there apart from its children.

* `label_ext`: a value is its labels.
* `filter_of_label`: so are the members of an object that are kept.
* `distinct_put`: a replacement keeps names apart.
-/

namespace Pactmark

variable {Num : Type}

namespace Json

theorem mem_of_lookup {ms : List (JsString × Json Num)} {name : JsString} {v : Json Num}
    (h : ms.lookup name = some v) : (name, v) ∈ ms := by
  obtain ⟨l₁, l₂, rfl, -⟩ := List.lookup_eq_some_iff.mp h
  exact List.mem_append_right _ List.mem_cons_self

/-- Members of the same names, read the same, are the same. -/
theorem filter_of_lookup {keep : JsString → Bool} {ms ns : List (JsString × Json Num)}
    (hnames : ms.map Prod.fst = ns.map Prod.fst) (hnodup : (ms.map Prod.fst).Nodup)
    (h : ∀ name, keep name = true → ms.lookup name = ns.lookup name) :
    ms.filter (keep ·.1) = ns.filter (keep ·.1) := by
  induction ms generalizing ns with
  | nil =>
      cases ns with
      | nil => rfl
      | cons n ns => cases hnames
  | cons m ms ih =>
      cases ns with
      | nil => cases hnames
      | cons n ns =>
          obtain ⟨name, v⟩ := m
          obtain ⟨name', w⟩ := n
          obtain ⟨rfl, hrest⟩ := List.cons.inj hnames
          obtain ⟨hnew, hnodup⟩ := List.nodup_cons.mp hnodup
          have htail : ms.filter (keep ·.1) = ns.filter (keep ·.1) := by
            refine ih hrest hnodup fun other hother => ?_
            by_cases hsame : other = name
            · subst hsame
              rw [List.lookup_eq_none_iff.mpr, List.lookup_eq_none_iff.mpr]
              · intro p hp
                have hmem : p.1 ∈ ms.map Prod.fst := hrest ▸ List.mem_map_of_mem hp
                simpa using fun hname : other = p.1 => hnew (hname ▸ hmem)
              · intro p hp
                have hmem : p.1 ∈ ms.map Prod.fst := List.mem_map_of_mem hp
                simpa using fun hname : other = p.1 => hnew (hname ▸ hmem)
            · have hlookup := h other hother
              have hne : (other == name) = false := by simpa using hsame
              simpa only [List.lookup_cons, hne] using hlookup
          cases hkeep : keep name with
          | false =>
              rw [List.filter_cons_of_neg (by simp [hkeep]),
                List.filter_cons_of_neg (by simp [hkeep])]
              exact htail
          | true =>
              have hvalue : v = w := by simpa using h name hkeep
              rw [List.filter_cons_of_pos (by simpa using hkeep),
                List.filter_cons_of_pos (by simpa using hkeep), htail, hvalue]

theorem label_cons {v c : Json Num} {k : Key} (h : v.child k = some c) (q : List Key) :
    v.label (k :: q) = c.label q := by
  rw [label, get, h]
  rfl

/-- Names of one object's members are read as names of the other's. -/
theorem names_of_erase {ms ns : List (JsString × Json Num)}
    (h : erase (.object ms) = erase (.object ns)) : ms.map Prod.fst = ns.map Prod.fst := by
  have hmembers := congrArg (List.map Prod.fst) (Json.object.inj h)
  simpa [List.map_map, Function.comp_def] using hmembers

theorem length_of_erase {xs ys : List (Json Num)}
    (h : erase (.array xs) = erase (.array ys)) : xs.length = ys.length := by
  have hitems := congrArg List.length (Json.array.inj h)
  simpa using hitems

theorem lookup_isSome {ms : List (JsString × Json Num)} {name : JsString} :
    (ms.lookup name).isSome = true ↔ name ∈ ms.map Prod.fst := by
  rw [List.lookup_isSome_iff]
  constructor
  · rintro ⟨m, hm, hname⟩
    rw [beq_iff_eq.mp hname]
    exact List.mem_map_of_mem hm
  · intro hmem
    obtain ⟨m, hm, rfl⟩ := List.mem_map.mp hmem
    exact ⟨m, hm, by simp⟩

/-- Values of one kind have the same children. -/
theorem child_isSome_of_erase {v w : Json Num} (h : v.erase = w.erase) (k : Key) :
    (v.child k).isSome = (w.child k).isSome := by
  cases v with
  | array xs =>
      cases w with
      | array ys =>
          cases k with
          | item i =>
              have hlength := length_of_erase h
              show xs[i]?.isSome = ys[i]?.isSome
              by_cases hi : i < ys.length
              · rw [List.getElem?_eq_getElem hi, List.getElem?_eq_getElem (hlength ▸ hi)]
                rfl
              · rw [List.getElem?_eq_none (by omega), List.getElem?_eq_none (by omega)]
          | member name => rfl
      | _ => cases h
  | object ms =>
      cases w with
      | object ns =>
          cases k with
          | item i => rfl
          | member name =>
              rw [Bool.eq_iff_iff]
              show (ms.lookup name).isSome = true ↔ (ns.lookup name).isSome = true
              rw [lookup_isSome, lookup_isSome, names_of_erase h]
      | _ => cases h
  | null | bool _ | number _ | string _ =>
      cases w with
      | array ys => cases h
      | object ns => cases h
      | _ => rfl

/-- A child that both have has its labels in both. -/
theorem label_child {v w c d : Json Num} {k : Key} (hc : v.child k = some c)
    (hd : w.child k = some d) (q : List Key) :
    v.label (k :: q) = w.label (k :: q) ↔ c.label q = d.label q := by
  rw [label_cons hc, label_cons hd]

/-- A text is told by its label. -/
theorem get_of_label_string {v : Json Num} {p : List Key} {s : JsString}
    (h : v.label p = some (.string s)) : v.get p = some (.string s) := by
  obtain ⟨u, hu, herase⟩ := Option.map_eq_some_iff.mp h
  cases u with
  | string t =>
      rw [hu]
      exact congrArg some herase
  | _ => cases herase

/-- The members that are kept are those whose labels are the same. -/
theorem filter_of_label (keep : JsString → Bool) {ms ns : List (JsString × Json Num)}
    (hms : (object ms).Distinct) (hns : (object ns).Distinct)
    (hname : (object ms).label [] = (object ns).label [])
    (ih : ∀ m ∈ ms, ∀ w : Json Num, m.2.Distinct → w.Distinct → (∀ q, m.2.label q = w.label q) →
      m.2 = w)
    (h : ∀ name q, keep name = true →
      (object ms).label (.member name :: q) = (object ns).label (.member name :: q)) :
    ms.filter (keep ·.1) = ns.filter (keep ·.1) := by
  have herase := Option.some.inj hname
  simp only [Distinct, distinctMembers_iff] at hms hns
  refine filter_of_lookup (names_of_erase herase) hms.1 fun name hkeep => ?_
  cases hm : ms.lookup name with
  | none =>
      have hsome := child_isSome_of_erase herase (.member name)
      simp only [child, hm, Option.isSome_none] at hsome
      exact (Option.not_isSome_iff_eq_none.mp (hsome ▸ Bool.false_ne_true)).symm
  | some v =>
      obtain ⟨w, hw⟩ : ∃ w, ns.lookup name = some w := by
        have hsome := child_isSome_of_erase herase (.member name)
        simp only [child, hm, Option.isSome_some] at hsome
        exact Option.isSome_iff_exists.mp hsome.symm
      have hmem := mem_of_lookup hm
      have hmem' := mem_of_lookup hw
      have hlabels : ∀ q, v.label q = w.label q := fun q =>
        (label_child (v := .object ms) (w := .object ns) (k := .member name) hm hw q).mp
          (h name q hkeep)
      obtain rfl : v = w := ih _ hmem w (hms.2 _ hmem) (hns.2 _ hmem') hlabels
      exact hw.symm

/-- **A value is its labels.** -/
theorem label_ext (v : Json Num) : ∀ w : Json Num, v.Distinct → w.Distinct →
    (∀ q, v.label q = w.label q) → v = w := by
  induction v using induct with
  | null | bool b | number x | string s =>
      intro w _ _ h
      have herase := Option.some.inj (h [])
      cases w with
      | array ys => cases herase
      | object ns => cases herase
      | _ => exact herase
  | array xs ih =>
      intro w hv hw h
      have herase := Option.some.inj (h [])
      cases w with
      | array ys =>
          simp only [Distinct, distinctItems_iff] at hv hw
          congr 1
          refine List.ext_getElem (length_of_erase herase) fun i hi hj => ?_
          refine ih _ (List.getElem_mem hi) _ (hv _ (List.getElem_mem hi))
            (hw _ (List.getElem_mem hj)) fun q => ?_
          exact (label_child (v := .array xs) (w := .array ys) (k := .item i)
            (List.getElem?_eq_getElem hi) (List.getElem?_eq_getElem hj) q).mp (h (.item i :: q))
      | _ => cases herase
  | object ms ih =>
      intro w hv hw h
      have herase := Option.some.inj (h [])
      cases w with
      | object ns =>
          have hall := filter_of_label (fun _ => true) hv hw (h []) ih
            fun name q _ => h (.member name :: q)
          simpa using hall
      | _ => cases herase

theorem distinct_set {v c : Json Num} {k : Key} (hv : v.Distinct) (hc : c.Distinct) :
    (v.set k c).Distinct := by
  cases v with
  | array items =>
      cases k with
      | item i =>
          simp only [set, Distinct, distinctItems_iff] at hv ⊢
          intro w hw
          rcases List.mem_or_eq_of_mem_set hw with hw | rfl
          · exact hv w hw
          · exact hc
      | member name => exact hv
  | object members =>
      cases k with
      | item i => exact hv
      | member name =>
          simp only [set, Distinct, distinctMembers_iff, List.map_map] at hv ⊢
          refine ⟨?_, fun m hm => ?_⟩
          · have hnames : (members.map fun m => if m.1 = name then (m.1, c) else m).map Prod.fst =
                members.map Prod.fst := by
              rw [List.map_map]
              refine List.map_congr_left fun m _ => ?_
              by_cases hm : m.1 = name <;> simp [hm]
            rw [List.map_map] at hnames
            rw [hnames]
            exact hv.1
          · obtain ⟨m', hm', rfl⟩ := List.mem_map.mp hm
            by_cases hname : m'.1 = name
            · rw [if_pos hname]
              exact hc
            · rw [if_neg hname]
              exact hv.2 m' hm'
  | _ => exact hv

theorem distinct_child {v c : Json Num} {k : Key} (hv : v.Distinct) (h : v.child k = some c) :
    c.Distinct := by
  cases v with
  | array items =>
      cases k with
      | item i =>
          simp only [Distinct, distinctItems_iff] at hv
          exact hv c (List.mem_of_getElem? h)
      | member name => cases h
  | object members =>
      cases k with
      | item i => cases h
      | member name =>
          simp only [Distinct, distinctMembers_iff] at hv
          exact hv.2 _ (mem_of_lookup h)
  | _ => cases h

/-- A replacement keeps names apart. -/
theorem distinct_put {v x : Json Num} {p : List Key} (hv : v.Distinct) (hx : x.Distinct) :
    (put x p v).Distinct := by
  induction p generalizing v with
  | nil => exact hx
  | cons k p ih =>
      cases hc : v.child k with
      | none =>
          rw [put_cons_none x p hc]
          exact hv
      | some c =>
          rw [put_cons x p hc]
          exact distinct_set hv (ih (distinct_child hv hc))

end Json

end Pactmark
