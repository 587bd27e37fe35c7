import Pactmark.Core.Tokens

/-!
# Core — what canonical JSON identifies

Two values print the same canonical JSON exactly when they are equal up to the order of object
keys and the sign of zero (`Json.Same`), and the strict parser reads the canonical JSON of a
value back as such a value.

Both go through the normal form `Json.canon` of a value: members sorted by key, zeros without
sign.  What `canonicalize` prints is `Json.render` of the normal form
(`canonicalize_eq_render`); `readValue` inverts `render` on the values that can be printed
(`readValue_render`); and two values have the same normal form exactly when they are the same
(`Json.same_iff_canon_eq`).
-/

namespace Pactmark

open JsString (lit joinComma)

variable {Num : Type} {num : NumberFormat Num}

/-! ### Values -/

namespace Json

/-- Induction over a value: over the items of an array, and over the members of an object. -/
theorem induct {motive : Json Num → Prop} (null : motive .null) (bool : ∀ b, motive (.bool b))
    (number : ∀ x, motive (.number x)) (string : ∀ s, motive (.string s))
    (array : ∀ items, (∀ v ∈ items, motive v) → motive (.array items))
    (object : ∀ members, (∀ m ∈ members, motive m.2) → motive (.object members)) :
    ∀ v, motive v := by
  intro v
  refine @Json.rec Num motive (fun items => ∀ v ∈ items, motive v)
    (fun members => ∀ m ∈ members, motive m.2) (fun m => motive m.2)
    null bool number string array object ?_ ?_ ?_ ?_ ?_ v
  · intro v hv
    cases hv
  · intro v items hv hs w hw
    rcases List.mem_cons.mp hw with rfl | hw
    · exact hv
    · exact hs w hw
  · intro m hm
    cases hm
  · intro m members hm hs n hn
    rcases List.mem_cons.mp hn with rfl | hn
    · exact hm
    · exact hs n hn
  · intro key v hv
    exact hv

mutual

/-- The keys of every object in the value are distinct, as those of a JavaScript object are. -/
def Distinct : Json Num → Prop
  | .array items => DistinctItems items
  | .object members => (members.map Prod.fst).Nodup ∧ DistinctMembers members
  | _ => True

def DistinctItems : List (Json Num) → Prop
  | [] => True
  | v :: items => v.Distinct ∧ DistinctItems items

def DistinctMembers : List (JsString × Json Num) → Prop
  | [] => True
  | (_, v) :: members => v.Distinct ∧ DistinctMembers members

end

theorem distinctItems_iff {items : List (Json Num)} :
    DistinctItems items ↔ ∀ v ∈ items, v.Distinct := by
  induction items with
  | nil => simp [DistinctItems]
  | cons v items ih => simp [DistinctItems, ih]

theorem distinctMembers_iff {members : List (JsString × Json Num)} :
    DistinctMembers members ↔ ∀ m ∈ members, m.2.Distinct := by
  induction members with
  | nil => simp [DistinctMembers]
  | cons m members ih =>
    obtain ⟨key, v⟩ := m
    simp [DistinctMembers, ih]

mutual

/-- Two values are equal up to the order of object keys and the sign of zero.  Objects are the
same when they have as many keys, and each key of the first is one of the second with the same
value. -/
def Same (num : NumberFormat Num) : Json Num → Json Num → Prop
  | .null, .null => True
  | .bool a, .bool b => a = b
  | .number x, .number y => num.unsigned x = num.unsigned y
  | .string s, .string t => s = t
  | .array xs, .array ys => SameItems num xs ys
  | .object ms, .object ns => ms.length = ns.length ∧ SameMembers num ms ns
  | _, _ => False

def SameItems (num : NumberFormat Num) : List (Json Num) → List (Json Num) → Prop
  | [], [] => True
  | x :: xs, y :: ys => Same num x y ∧ SameItems num xs ys
  | _, _ => False

def SameMembers (num : NumberFormat Num) :
    List (JsString × Json Num) → List (JsString × Json Num) → Prop
  | [], _ => True
  | (key, v) :: ms, ns => (∃ w, (key, w) ∈ ns ∧ Same num v w) ∧ SameMembers num ms ns

end

theorem sameMembers_iff {ms ns : List (JsString × Json Num)} :
    SameMembers num ms ns ↔ ∀ m ∈ ms, ∃ w, (m.1, w) ∈ ns ∧ Same num m.2 w := by
  induction ms with
  | nil => simp [SameMembers]
  | cons m ms ih =>
    obtain ⟨key, v⟩ := m
    simp [SameMembers, ih]

mutual

/-- The normal form of a value: its objects sorted by key, its zeros without sign. -/
def canon (num : NumberFormat Num) : Json Num → Json Num
  | .number x => .number (num.unsigned x)
  | .array items => .array (canonItems num items)
  | .object members => .object ((canonMembers num members).mergeSort (keyLE ·.1 ·.1))
  | .null => .null
  | .bool b => .bool b
  | .string s => .string s

def canonItems (num : NumberFormat Num) : List (Json Num) → List (Json Num)
  | [] => []
  | v :: items => canon num v :: canonItems num items

def canonMembers (num : NumberFormat Num) :
    List (JsString × Json Num) → List (JsString × Json Num)
  | [] => []
  | (key, v) :: members => (key, canon num v) :: canonMembers num members

end

theorem canonItems_eq_map (items : List (Json Num)) :
    canonItems num items = items.map (canon num) := by
  induction items with
  | nil => rfl
  | cons v items ih => simp [canonItems, ih]

theorem canonMembers_eq_map (members : List (JsString × Json Num)) :
    canonMembers num members = members.map fun m => (m.1, canon num m.2) := by
  induction members with
  | nil => rfl
  | cons m members ih =>
    obtain ⟨key, v⟩ := m
    simp [canonMembers, ih]

mutual

/-- The text of a value, with its members as they stand. -/
def render (num : NumberFormat Num) : Json Num → JsString
  | .null => lit "null"
  | .bool b => if b then lit "true" else lit "false"
  | .number x => num.stringify x
  | .string s => stringifyString s
  | .array items => lit "[" ++ joinComma (renderItems num items) ++ lit "]"
  | .object members => lit "\x7b" ++ joinComma (renderMembers num members) ++ lit "\x7d"

def renderItems (num : NumberFormat Num) : List (Json Num) → List JsString
  | [] => []
  | v :: items => render num v :: renderItems num items

def renderMembers (num : NumberFormat Num) : List (JsString × Json Num) → List JsString
  | [] => []
  | (key, v) :: members =>
    (stringifyString key ++ lit ":" ++ render num v) :: renderMembers num members

end

theorem renderItems_eq_map (items : List (Json Num)) :
    renderItems num items = items.map (render num) := by
  induction items with
  | nil => rfl
  | cons v items ih => simp [renderItems, ih]

/-- The text of a member. -/
def renderMember (num : NumberFormat Num) (m : JsString × Json Num) : JsString :=
  stringifyString m.1 ++ lit ":" ++ render num m.2

theorem renderMembers_eq_map (members : List (JsString × Json Num)) :
    renderMembers num members = members.map (renderMember num) := by
  induction members with
  | nil => rfl
  | cons m members ih => simp [renderMembers, renderMember, ih]

mutual

/-- A value in normal form but for the order of its keys, that can be printed. -/
def Printable (num : NumberFormat Num) : Json Num → Prop
  | .number x => num.Accepts x ∧ num.unsigned x = x
  | .string s => ValidUnicode s
  | .array items => PrintableItems num items
  | .object members => (members.map Prod.fst).Nodup ∧ PrintableMembers num members
  | _ => True

def PrintableItems (num : NumberFormat Num) : List (Json Num) → Prop
  | [] => True
  | v :: items => Printable num v ∧ PrintableItems num items

def PrintableMembers (num : NumberFormat Num) : List (JsString × Json Num) → Prop
  | [] => True
  | (key, v) :: members =>
    (ValidUnicode key ∧ Printable num v) ∧ PrintableMembers num members

end

theorem printableItems_iff {items : List (Json Num)} :
    PrintableItems num items ↔ ∀ v ∈ items, Printable num v := by
  induction items with
  | nil => simp [PrintableItems]
  | cons v items ih => simp [PrintableItems, ih]

theorem printableMembers_iff {members : List (JsString × Json Num)} :
    PrintableMembers num members ↔ ∀ m ∈ members, ValidUnicode m.1 ∧ Printable num m.2 := by
  induction members with
  | nil => simp [PrintableMembers]
  | cons m members ih =>
    obtain ⟨key, v⟩ := m
    simp [PrintableMembers, ih]

/-! ### The normal form -/

section Sorting

variable {α β : Type}

theorem keyLE_trans (a b c : JsString × α) :
    keyLE a.1 b.1 → keyLE b.1 c.1 → keyLE a.1 c.1 := by
  simp only [keyLE, decide_eq_true_eq]
  exact le_trans

theorem keyLE_total (a b : JsString × α) : keyLE a.1 b.1 || keyLE b.1 a.1 := by
  simpa [keyLE] using le_total a.1 b.1

/-- Sorting by key sees nothing but the keys. -/
theorem mergeSort_map (f : JsString → α → β) (l : List (JsString × α)) :
    (l.map fun m => (m.1, f m.1 m.2)).mergeSort (keyLE ·.1 ·.1) =
      (l.mergeSort (keyLE ·.1 ·.1)).map fun m => (m.1, f m.1 m.2) := by
  refine (List.map_mergeSort ?_).symm
  intro a _ b _
  rfl

/-- Lists with the same entries under distinct keys are sorted to the same list. -/
theorem mergeSort_eq_iff_perm {l l' : List (JsString × α)} (hl : (l.map Prod.fst).Nodup) :
    l.mergeSort (keyLE ·.1 ·.1) = l'.mergeSort (keyLE ·.1 ·.1) ↔ l.Perm l' := by
  have hp := fun l : List (JsString × α) => List.mergeSort_perm l (keyLE ·.1 ·.1)
  constructor
  · intro h
    exact (hp l).symm.trans (h ▸ hp l')
  · intro h
    have hs := fun l : List (JsString × α) =>
      List.pairwise_mergeSort keyLE_trans keyLE_total l
    refine List.Perm.eq_of_pairwise (fun a b ha hb hab hba => ?_) (hs l) (hs l')
      ((hp l).trans (h.trans (hp l').symm))
    have hkey : a.1 = b.1 := by
      simp only [keyLE, decide_eq_true_eq] at hab hba
      exact le_antisymm hab hba
    have ha' : a ∈ l := (hp l).mem_iff.mp ha
    have hb' : b ∈ l := h.mem_iff.mpr ((hp l').mem_iff.mp hb)
    exact List.inj_on_of_nodup_map hl ha' hb' hkey

end Sorting

theorem canon_object (members : List (JsString × Json Num)) :
    canon num (.object members) =
      .object ((members.mergeSort (keyLE ·.1 ·.1)).map fun m => (m.1, canon num m.2)) := by
  rw [canon, canonMembers_eq_map, mergeSort_map fun _ v => canon num v]

theorem sameItems_iff_canon_eq {xs : List (Json Num)}
    (ih : ∀ v ∈ xs, ∀ w, v.Distinct → w.Distinct →
      (Same num v w ↔ canon num v = canon num w)) :
    ∀ ys : List (Json Num), (∀ v ∈ xs, v.Distinct) → (∀ v ∈ ys, v.Distinct) →
      (SameItems num xs ys ↔ xs.map (canon num) = ys.map (canon num)) := by
  induction xs with
  | nil =>
    intro ys _ _
    cases ys <;> simp [SameItems]
  | cons x xs hxs =>
    intro ys hx hy
    cases ys with
    | nil => simp [SameItems]
    | cons y ys =>
      have hhead := ih x (by simp) y (hx x (by simp)) (hy y (by simp))
      have htail := hxs (fun v hv => ih v (by simp [hv])) ys
        (fun v hv => hx v (by simp [hv])) (fun v hv => hy v (by simp [hv]))
      simp [SameItems, hhead, htail]

/-- With distinct keys and as many of them, objects are the same when their members in normal
form are the same up to their order. -/
theorem sameMembers_iff_perm {ms ns : List (JsString × Json Num)}
    (ih : ∀ m ∈ ms, ∀ w, m.2.Distinct → w.Distinct →
      (Same num m.2 w ↔ canon num m.2 = canon num w))
    (hms : (ms.map Prod.fst).Nodup) (hdm : ∀ m ∈ ms, m.2.Distinct)
    (hdn : ∀ n ∈ ns, n.2.Distinct) :
    ms.length = ns.length ∧ SameMembers num ms ns ↔
      (canonMembers num ms).Perm (canonMembers num ns) := by
  rw [sameMembers_iff, canonMembers_eq_map, canonMembers_eq_map]
  constructor
  · rintro ⟨hlen, h⟩
    have hnodup : (ms.map fun m => (m.1, canon num m.2)).Nodup := by
      apply List.Nodup.of_map Prod.fst
      simpa [List.map_map, Function.comp_def] using hms
    have hsub : (ms.map fun m => (m.1, canon num m.2)) ⊆
        ns.map fun n => (n.1, canon num n.2) := by
      intro p hp
      obtain ⟨m, hm, rfl⟩ := List.mem_map.mp hp
      obtain ⟨w, hw, hs⟩ := h m hm
      refine List.mem_map.mpr ⟨(m.1, w), hw, ?_⟩
      rw [(ih m hm w (hdm m hm) (hdn _ hw)).mp hs]
    exact (List.subperm_of_subset hnodup hsub).perm_of_length_le (by simp [hlen])
  · intro h
    refine ⟨by simpa using h.length_eq, fun m hm => ?_⟩
    have hmem := h.mem_iff.mp (List.mem_map.mpr ⟨m, hm, rfl⟩)
    obtain ⟨n, hn, he⟩ := List.mem_map.mp hmem
    obtain ⟨hkey, hval⟩ := Prod.mk.injEq .. ▸ he
    refine ⟨n.2, hkey ▸ hn, (ih m hm n.2 (hdm m hm) (hdn n hn)).mpr hval.symm⟩

/-- Two values are the same exactly when they have the same normal form. -/
theorem same_iff_canon_eq (a : Json Num) : ∀ b : Json Num, a.Distinct → b.Distinct →
    (Same num a b ↔ canon num a = canon num b) := by
  induction a using induct with
  | null | bool | number | string =>
    intro b _ _
    cases b <;> simp [Same, canon]
  | array xs ih =>
    intro b ha hb
    cases b with
    | array ys =>
      simp only [Distinct, distinctItems_iff] at ha hb
      simp [Same, canon, canonItems_eq_map, sameItems_iff_canon_eq ih ys ha hb]
    | null | bool | number | string | object => simp [Same, canon]
  | object ms ih =>
    intro b ha hb
    cases b with
    | object ns =>
      simp only [Distinct, distinctMembers_iff] at ha hb
      have hnodup : ((canonMembers num ms).map Prod.fst).Nodup := by
        simpa [canonMembers_eq_map, List.map_map, Function.comp_def] using ha.1
      simp only [Same, canon, object.injEq]
      rw [sameMembers_iff_perm ih ha.1 ha.2 hb.2, mergeSort_eq_iff_perm hnodup]
    | null | bool | number | string | array => simp [Same, canon]

theorem canon_canon (a : Json Num) : canon num (canon num a) = canon num a := by
  induction a using induct with
  | null | bool | string => rfl
  | number x => simp [canon, num.unsigned_unsigned]
  | array items ih => simpa [canon, canonItems_eq_map] using ih
  | object members ih =>
    have hsorted := List.pairwise_mergeSort keyLE_trans keyLE_total members
    have hmem : ∀ m ∈ members.mergeSort (keyLE ·.1 ·.1), canon num (canon num m.2) =
        canon num m.2 :=
      fun m hm => ih m ((List.mergeSort_perm members (keyLE ·.1 ·.1)).mem_iff.mp hm)
    rw [canon_object, canon_object, mergeSort_map fun _ v => canon num v,
      List.mergeSort_of_pairwise hsorted, List.map_map]
    congr 1
    apply List.map_congr_left
    intro m hm
    simp [hmem m hm]

theorem distinct_canon (a : Json Num) : a.Distinct → (canon num a).Distinct := by
  induction a using induct with
  | null | bool | number | string => simp [canon, Distinct]
  | array items ih =>
    simp only [canon, Distinct, distinctItems_iff, canonItems_eq_map]
    intro h v hv
    obtain ⟨w, hw, rfl⟩ := List.mem_map.mp hv
    exact ih w hw (h w hw)
  | object members ih =>
    have hperm := List.mergeSort_perm members (keyLE ·.1 ·.1)
    simp only [canon_object, Distinct, distinctMembers_iff]
    rintro ⟨hkeys, h⟩
    constructor
    · rw [List.map_map]
      exact (hperm.map Prod.fst).nodup_iff.mpr hkeys
    · intro n hn
      obtain ⟨m, hm, rfl⟩ := List.mem_map.mp hn
      have hm' := hperm.mem_iff.mp hm
      exact ih m hm' (h m hm')

/-! ### What `canonicalize` prints -/

theorem canonicalizeItems_eq_render {items : List (Json Num)}
    (ih : ∀ v ∈ items, ∀ path s, v.Distinct → canonicalize num path v = .ok s →
      s = render num (canon num v) ∧ Printable num (canon num v)) :
    ∀ path index entries, (∀ v ∈ items, v.Distinct) →
      canonicalizeItems num path index items = .ok entries →
      entries = (items.map (canon num)).map (render num) ∧
        ∀ v ∈ items.map (canon num), Printable num v := by
  induction items with
  | nil =>
    intro path index entries _ h
    cases h
    simp
  | cons v items hitems =>
    intro path index entries hd h
    rw [canonicalizeItems] at h
    obtain ⟨entry, hentry, h⟩ := Durable.bind_eq_ok.mp h
    obtain ⟨rest, hrest, h⟩ := Durable.bind_eq_ok.mp h
    cases h
    obtain ⟨hs, hp⟩ := ih v (by simp) _ _ (hd v (by simp)) hentry
    obtain ⟨hss, hps⟩ := hitems (fun w hw => ih w (by simp [hw])) _ _ _
      (fun w hw => hd w (by simp [hw])) hrest
    refine ⟨by simp [hs, hss], ?_⟩
    rw [List.map_cons]
    intro w hw
    rcases List.mem_cons.mp hw with rfl | hw
    · exact hp
    · exact hps w hw

/-- The field of a member. -/
def field (num : NumberFormat Num) (path key : JsString) (value : Json Num) :
    Except CanonicalJsonError JsString := do
  let name ← quote key (keyPath path)
  let text ← canonicalize num (memberPath path key) value
  return name ++ lit ":" ++ text

theorem canonicalizeMembers_eq_map (path : JsString) (members : List (JsString × Json Num)) :
    canonicalizeMembers num path members =
      members.map fun m => (m.1, field num path m.1 m.2) := by
  induction members with
  | nil => rfl
  | cons m members ih =>
    obtain ⟨key, v⟩ := m
    simp [canonicalizeMembers, field, ih]

theorem field_eq_render {m : JsString × Json Num} {path s : JsString}
    (ih : ∀ path s, m.2.Distinct → canonicalize num path m.2 = .ok s →
      s = render num (canon num m.2) ∧ Printable num (canon num m.2))
    (hd : m.2.Distinct) (h : field num path m.1 m.2 = .ok s) :
    s = renderMember num (m.1, canon num m.2) ∧
      ValidUnicode m.1 ∧ Printable num (canon num m.2) := by
  obtain ⟨name, hname, h⟩ := Durable.bind_eq_ok.mp h
  obtain ⟨text, htext, h⟩ := Durable.bind_eq_ok.mp h
  cases h
  obtain ⟨hk, rfl⟩ := quote_eq_ok hname
  obtain ⟨rfl, hp⟩ := ih _ _ hd htext
  exact ⟨rfl, hk, hp⟩

theorem fields_eq_render {path : JsString} {members : List (JsString × Json Num)}
    (ih : ∀ m ∈ members, ∀ path s, m.2.Distinct → canonicalize num path m.2 = .ok s →
      s = render num (canon num m.2) ∧ Printable num (canon num m.2))
    (hd : ∀ m ∈ members, m.2.Distinct) :
    ∀ fields, members.mapM (fun m => field num path m.1 m.2) = .ok fields →
      fields = (members.map fun m => (m.1, canon num m.2)).map (renderMember num) ∧
        ∀ m ∈ members, ValidUnicode m.1 ∧ Printable num (canon num m.2) := by
  induction members with
  | nil =>
    intro fields h
    cases h
    simp
  | cons m members hms =>
    intro fields h
    rw [List.mapM_cons] at h
    obtain ⟨text, htext, h⟩ := Durable.bind_eq_ok.mp h
    obtain ⟨rest, hrest, h⟩ := Durable.bind_eq_ok.mp h
    cases h
    obtain ⟨hs, hp⟩ := field_eq_render (ih m (by simp)) (hd m (by simp)) htext
    obtain ⟨hss, hps⟩ := hms (fun n hn => ih n (by simp [hn]))
      (fun n hn => hd n (by simp [hn])) rest hrest
    refine ⟨by simp [hs, hss], ?_⟩
    intro n hn
    rcases List.mem_cons.mp hn with rfl | hn
    · exact hp
    · exact hps n hn

/-- `canonicalize` prints the text of the normal form, and only of values that can be read
back. -/
theorem canonicalize_eq_render (a : Json Num) : ∀ path s, a.Distinct →
    canonicalize num path a = .ok s →
      s = render num (canon num a) ∧ Printable num (canon num a) := by
  induction a using induct with
  | null | bool =>
    intro path s _ h
    cases h
    simp [canon, render, Printable]
  | number x =>
    intro path s _ h
    obtain ⟨hx, rfl⟩ := serializeCanonicalNumber_eq_ok.mp h
    simp [canon, render, Printable, num.stringify_unsigned, num.unsigned_unsigned, hx.unsigned]
  | string t =>
    intro path s _ h
    obtain ⟨ht, rfl⟩ := quote_eq_ok h
    exact ⟨rfl, ht⟩
  | array items ih =>
    intro path s hd h
    simp only [Distinct, distinctItems_iff] at hd
    rw [canonicalize] at h
    obtain ⟨entries, hentries, h⟩ := Durable.bind_eq_ok.mp h
    cases h
    obtain ⟨rfl, hp⟩ := canonicalizeItems_eq_render ih _ _ _ hd hentries
    simp only [canon, render, Printable, canonItems_eq_map, renderItems_eq_map,
      printableItems_iff, true_and]
    exact hp
  | object members ih =>
    intro path s hd h
    have hperm := List.mergeSort_perm members (keyLE ·.1 ·.1)
    have hdc := (distinct_canon _ hd : (canon num (.object members)).Distinct)
    simp only [Distinct, distinctMembers_iff] at hd
    simp only [canonicalize, canonicalizeMembers_eq_map,
      mergeSort_map fun key v => field num path key v, List.mapM_map] at h
    obtain ⟨fields, hfields, h⟩ := Durable.bind_eq_ok.mp h
    cases h
    obtain ⟨rfl, hp⟩ := fields_eq_render (fun m hm => ih m (hperm.mem_iff.mp hm))
      (fun m hm => hd.2 m (hperm.mem_iff.mp hm)) fields hfields
    rw [canon_object] at hdc ⊢
    simp only [render, Printable, renderMembers_eq_map, printableMembers_iff, true_and]
    refine ⟨hdc.1, ?_⟩
    intro n hn
    obtain ⟨m, hm, rfl⟩ := List.mem_map.mp hn
    exact hp m hm

/-! ### What `readValue` reads -/

/-- The text of a value starts with a unit that is neither white space nor a closing
bracket. -/
theorem render_head {v : Json Num} (h : Printable num v) :
    ∃ unit tail, render num v = unit :: tail ∧ isWhitespace unit = false ∧ unit ≠ 93 := by
  cases v with
  | null => exact ⟨110, lit "ull", rfl, rfl, by decide⟩
  | bool b =>
    cases b
    · exact ⟨102, lit "alse", rfl, rfl, by decide⟩
    · exact ⟨116, lit "rue", rfl, rfl, by decide⟩
  | number x =>
    obtain ⟨unit, tail, he, hu⟩ := scanNumber_head (num.scanNumber_stringify x h.1.1)
    refine ⟨unit, tail, he, ?_⟩
    rcases hu with rfl | hu
    · exact ⟨rfl, by decide⟩
    · simp only [isDigit, Bool.and_eq_true, decide_eq_true_eq] at hu
      simp only [isWhitespace, Bool.or_eq_false_iff, beq_eq_false_iff_ne]
      omega
  | string s => exact ⟨34, _, rfl, rfl, by decide⟩
  | array items => exact ⟨91, _, rfl, rfl, by decide⟩
  | object members => exact ⟨123, _, rfl, rfl, by decide⟩

end Json

theorem Cursor.whitespace_of_head {o unit : Nat} {rest : JsString}
    (h : isWhitespace unit = false) :
    (Cursor.mk o (unit :: rest)).whitespace = ⟨o, unit :: rest⟩ := by
  simp [Cursor.whitespace, Cursor.advance, h]

theorem Cursor.whitespace_nil {o : Nat} : (Cursor.mk o []).whitespace = ⟨o, []⟩ :=
  rfl

namespace Json

/-- `readValue` reads the text of a value, with fuel for it. -/
def Reads (num : NumberFormat Num) (v : Json Num) : Prop :=
  ∀ fuel path o rest, 2 * (render num v).length < fuel → Delimited rest →
    readValue num fuel path ⟨o, render num v ++ rest⟩ =
      .ok (v, ⟨o + (render num v).length, rest⟩)

theorem reads_number {x : Num} (h : num.Accepts x) (hx : num.unsigned x = x) :
    Reads num (.number x) := by
  intro fuel path o rest hf hr
  obtain ⟨fuel, rfl⟩ := Nat.exists_eq_succ_of_ne_zero (Nat.ne_zero_of_lt hf)
  obtain ⟨unit, tail, he, hu⟩ := scanNumber_head (num.scanNumber_stringify x h.1)
  have hread := readNumber_stringify h hx hr path o
  simp only [render]
  have hne : isWhitespace unit = false ∧ unit ≠ 34 ∧ unit ≠ 123 ∧ unit ≠ 91 ∧ unit ≠ 116 ∧
      unit ≠ 102 ∧ unit ≠ 110 := by
    rcases hu with rfl | hu
    · decide
    · simp only [isDigit, Bool.and_eq_true, decide_eq_true_eq] at hu
      simp only [isWhitespace, Bool.or_eq_false_iff, beq_eq_false_iff_ne]
      omega
  obtain ⟨hw, h₁, h₂, h₃, h₄, h₅, h₆⟩ := hne
  have hlit : ∀ (c : Nat) (cs : JsString), c ≠ unit →
      (c :: cs).isPrefixOf (unit :: (tail ++ rest)) = false := by
    intro c cs hc
    simp [List.isPrefixOf, hc]
  have htrue : (lit "true").isPrefixOf (unit :: (tail ++ rest)) = false :=
    hlit 116 [114, 117, 101] h₄.symm
  have hfalse : (lit "false").isPrefixOf (unit :: (tail ++ rest)) = false :=
    hlit 102 [97, 108, 115, 101] h₅.symm
  have hnull : (lit "null").isPrefixOf (unit :: (tail ++ rest)) = false :=
    hlit 110 [117, 108, 108] h₆.symm
  rw [he, List.cons_append] at hread ⊢
  rw [readValue, Cursor.whitespace_of_head hw]
  simp only [List.head?_cons, Option.some.injEq, h₁, h₂, h₃, if_false, htrue, hfalse, hnull,
    Bool.false_eq_true, hread, bind, Except.bind, pure, Except.pure]

theorem reads_string {s : JsString} (h : ValidUnicode s) : Reads num (.string s) := by
  intro fuel path o rest hf _
  obtain ⟨fuel, rfl⟩ := Nat.exists_eq_succ_of_ne_zero (Nat.ne_zero_of_lt hf)
  have hread := readString_stringifyString h rest path o
  have he : stringifyString s ++ rest = 34 :: ((s.flatMap escapeUnit ++ [34]) ++ rest) := rfl
  simp only [render]
  rw [he] at hread ⊢
  rw [readValue, Cursor.whitespace_of_head (show isWhitespace 34 = false from rfl)]
  simp only [List.head?_cons, if_true, hread, bind, Except.bind, pure, Except.pure]

theorem delimited_cons {unit : Nat} (h : unit = 44 ∨ unit = 93 ∨ unit = 125)
    (rest : JsString) : Delimited (unit :: rest) := by
  intro u hu
  cases hu
  exact h

/-- The loop of `readArray` reads the items that are left. -/
theorem readItems_render {items : List (Json Num)} (hne : items ≠ [])
    (ih : ∀ v ∈ items, Reads num v) :
    ∀ fuel path acc o rest,
      2 * (joinComma (items.map (render num))).length + 1 < fuel →
      readItems num fuel path acc ⟨o, joinComma (items.map (render num)) ++ 93 :: rest⟩ =
        .ok (.array (acc ++ items),
          ⟨o + (joinComma (items.map (render num))).length + 1, rest⟩) := by
  induction items with
  | nil => exact absurd rfl hne
  | cons v items hitems =>
    intro fuel path acc o rest hf
    obtain ⟨fuel, rfl⟩ := Nat.exists_eq_succ_of_ne_zero (Nat.ne_zero_of_lt hf)
    rw [readItems]
    cases items with
    | nil =>
      simp only [List.map_cons, List.map_nil, joinComma] at hf ⊢
      rw [ih v (by simp) fuel _ o _ (by omega) (delimited_cons (by simp) rest)]
      simp [bind, Except.bind, pure, Except.pure, Cursor.advance,
        Cursor.whitespace_of_head (show isWhitespace 93 = false from rfl)]
    | cons w items =>
      simp only [List.map_cons, joinComma, List.length_append, List.length_cons,
        List.append_assoc, List.cons_append] at hf hitems ⊢
      rw [ih v (by simp) fuel _ o _ (by omega) (delimited_cons (by simp) _)]
      simp only [bind, Except.bind, pure, Except.pure, Cursor.advance,
        Cursor.whitespace_of_head (show isWhitespace 44 = false from rfl), List.head?_cons,
        List.drop_succ_cons, List.drop_zero]
      rw [if_neg (by decide), if_neg (by decide),
        hitems (by simp) (fun u hu => ih u (by simp [hu])) fuel _ _ _ _ (by omega)]
      simp [Nat.add_assoc, Nat.add_comm, Nat.add_left_comm]

theorem renderMember_append (m : JsString × Json Num) (s : JsString) :
    renderMember num m ++ s = stringifyString m.1 ++ 58 :: (render num m.2 ++ s) := by
  simp [renderMember, lit]

theorem renderMember_length (m : JsString × Json Num) :
    (renderMember num m).length = (stringifyString m.1).length + 1 + (render num m.2).length := by
  simp only [renderMember, List.length_append]
  rfl

/-- One member, as the loop of `readObject` reads it up to its separator. -/
theorem readMembers_cons {m : JsString × Json Num} (hk : ValidUnicode m.1)
    (hv : Reads num m.2) {acc : List (JsString × Json Num)} (hacc : m.1 ∉ acc.map Prod.fst)
    {fuel sep : Nat} (hf : 2 * (renderMember num m).length < fuel)
    (hs : sep = 44 ∨ sep = 93 ∨ sep = 125) (path : JsString) (o : Nat) (rest : JsString) :
    readMembers num (fuel + 1) path acc ⟨o, renderMember num m ++ sep :: rest⟩ =
      if sep = 125 then
        .ok (.object (acc ++ [m]), ⟨o + (renderMember num m).length + 1, rest⟩)
      else if sep ≠ 44 then
        parserFail (o + (renderMember num m).length) "Expected ',' or '\x7d' in object"
      else
        readMembers num fuel path (acc ++ [m])
          ⟨o + (renderMember num m).length + 1, rest⟩ := by
  obtain ⟨key, v⟩ := m
  have hany : acc.any (fun member => member.1 == key) = false := by
    rw [List.any_eq_false]
    intro n hn he
    exact hacc (List.mem_map.mpr ⟨n, hn, by simpa using he⟩)
  have hread := readString_stringifyString hk (58 :: (render num v ++ sep :: rest))
    (keyPath path) o
  have hlen : (renderMember num (key, v)).length =
      (stringifyString key).length + 1 + (render num v).length := renderMember_length (key, v)
  have hw : isWhitespace sep = false := by
    rcases hs with rfl | rfl | rfl <;> rfl
  have hhead : stringifyString key ++ 58 :: (render num v ++ sep :: rest) =
      34 :: ((key.flatMap escapeUnit ++ [34]) ++ 58 :: (render num v ++ sep :: rest)) := rfl
  have hvalue := hv fuel (memberPath path key) (o + (stringifyString key).length + 1)
    (sep :: rest) (show 2 * (render num v).length < fuel by omega) (delimited_cons hs rest)
  have ho : o + (renderMember num (key, v)).length =
      o + (stringifyString key).length + 1 + (render num v).length := by
    rw [hlen]
    omega
  rw [renderMember_append, ho]
  simp only at hread ⊢
  rw [hhead] at hread ⊢
  rw [readMembers, Cursor.whitespace_of_head (show isWhitespace 34 = false from rfl)]
  simp only [List.head?_cons, ne_eq, not_true_eq_false, if_false, hread, bind, Except.bind,
    pure, Except.pure, hany, Bool.false_eq_true,
    Cursor.whitespace_of_head (show isWhitespace 58 = false from rfl), Cursor.advance,
    List.drop_succ_cons, List.drop_zero, hvalue, Cursor.whitespace_of_head hw,
    Option.some.injEq]

/-- The loop of `readObject` reads the members that are left. -/
theorem readMembers_render {members : List (JsString × Json Num)} (hne : members ≠ [])
    (ih : ∀ m ∈ members, ValidUnicode m.1 ∧ Reads num m.2) :
    ∀ fuel path acc o rest, ((acc ++ members).map Prod.fst).Nodup →
      2 * (joinComma (members.map (renderMember num))).length + 1 < fuel →
      readMembers num fuel path acc
          ⟨o, joinComma (members.map (renderMember num)) ++ 125 :: rest⟩ =
        .ok (.object (acc ++ members),
          ⟨o + (joinComma (members.map (renderMember num))).length + 1, rest⟩) := by
  induction members with
  | nil => exact absurd rfl hne
  | cons m members hmembers =>
    intro fuel path acc o rest hnodup hf
    obtain ⟨fuel, rfl⟩ := Nat.exists_eq_succ_of_ne_zero (Nat.ne_zero_of_lt hf)
    obtain ⟨hk, hv⟩ := ih m (by simp)
    have hacc : m.1 ∉ acc.map Prod.fst := by
      rw [List.map_append, List.map_cons] at hnodup
      intro hm
      exact List.disjoint_of_nodup_append hnodup hm (by simp)
    cases members with
    | nil =>
      simp only [List.map_cons, List.map_nil, joinComma] at hf ⊢
      rw [readMembers_cons hk hv hacc (by omega) (by simp), if_pos rfl]
    | cons n members =>
      simp only [List.map_cons, joinComma, List.length_append, List.length_cons,
        List.append_assoc, List.cons_append] at hf hmembers ⊢
      rw [readMembers_cons hk hv hacc (by omega) (by simp), if_neg (by decide),
        if_neg (by decide),
        hmembers (by simp) (fun u hu => ih u (by simp [hu])) fuel _ _ _ _
          (by simpa using hnodup) (by omega)]
      simp [Nat.add_assoc, Nat.add_comm, Nat.add_left_comm]

theorem reads_array {items : List (Json Num)} (hp : ∀ v ∈ items, Printable num v)
    (ih : ∀ v ∈ items, Reads num v) : Reads num (.array items) := by
  intro fuel path o rest hf _
  obtain ⟨fuel, rfl⟩ := Nat.exists_eq_succ_of_ne_zero (Nat.ne_zero_of_lt hf)
  have htext : render num (.array items) ++ rest =
      91 :: (joinComma (items.map (render num)) ++ 93 :: rest) := by
    simp [render, renderItems_eq_map, lit]
  have hlen : (render num (.array items)).length =
      (joinComma (items.map (render num))).length + 2 := by
    simp [render, renderItems_eq_map, lit]
  rw [htext, readValue, Cursor.whitespace_of_head (show isWhitespace 91 = false from rfl), hlen]
  rw [hlen] at hf
  simp only [List.head?_cons, Option.some.injEq, Nat.reduceEqDiff, if_false, if_true,
    Cursor.advance, List.drop_succ_cons, List.drop_zero]
  cases items with
  | nil =>
    simp [joinComma, Cursor.whitespace_of_head (show isWhitespace 93 = false from rfl), pure,
      Except.pure]
  | cons v items =>
    -- the first item does not close the array
    obtain ⟨unit, tail, hhead, hw, hu⟩ := render_head (hp v (by simp))
    obtain ⟨tail', htail⟩ : ∃ tail', joinComma ((v :: items).map (render num)) ++ 93 :: rest =
        unit :: tail' := by
      cases items <;> simp [joinComma, hhead]
    have hloop := readItems_render (List.cons_ne_nil v items) ih fuel path [] (o + 1) rest
      (by omega)
    rw [htail] at hloop ⊢
    rw [Cursor.whitespace_of_head hw]
    simp only [List.head?_cons, Option.some.injEq, hu, if_false, hloop, List.nil_append]
    congr 3
    omega

theorem reads_object {members : List (JsString × Json Num)}
    (hnodup : (members.map Prod.fst).Nodup)
    (ih : ∀ m ∈ members, ValidUnicode m.1 ∧ Reads num m.2) :
    Reads num (.object members) := by
  intro fuel path o rest hf _
  obtain ⟨fuel, rfl⟩ := Nat.exists_eq_succ_of_ne_zero (Nat.ne_zero_of_lt hf)
  have htext : render num (.object members) ++ rest =
      123 :: (joinComma (members.map (renderMember num)) ++ 125 :: rest) := by
    simp [render, renderMembers_eq_map, lit]
  have hlen : (render num (.object members)).length =
      (joinComma (members.map (renderMember num))).length + 2 := by
    simp [render, renderMembers_eq_map, lit]
  rw [htext, readValue, Cursor.whitespace_of_head (show isWhitespace 123 = false from rfl), hlen]
  rw [hlen] at hf
  simp only [List.head?_cons, Option.some.injEq, Nat.reduceEqDiff, if_false, if_true,
    Cursor.advance, List.drop_succ_cons, List.drop_zero]
  cases members with
  | nil =>
    simp [joinComma, Cursor.whitespace_of_head (show isWhitespace 125 = false from rfl), pure,
      Except.pure]
  | cons m members =>
    obtain ⟨tail', htail⟩ :
        ∃ tail', joinComma ((m :: members).map (renderMember num)) ++ 125 :: rest =
          34 :: tail' := by
      cases members <;> simp [joinComma, renderMember, stringifyString]
    have hloop := readMembers_render (List.cons_ne_nil m members) ih fuel path [] (o + 1)
      rest hnodup (by omega)
    rw [htail] at hloop ⊢
    rw [Cursor.whitespace_of_head (show isWhitespace 34 = false from rfl)]
    simp only [List.head?_cons, Option.some.injEq, Nat.reduceEqDiff, if_false, hloop,
      List.nil_append]
    congr 3
    omega

/-- The strict parser inverts `render`. -/
theorem readValue_render (v : Json Num) : Printable num v → Reads num v := by
  induction v using induct with
  | null =>
    rintro - fuel path o rest hf -
    obtain ⟨fuel, rfl⟩ := Nat.exists_eq_succ_of_ne_zero (Nat.ne_zero_of_lt hf)
    rfl
  | bool b =>
    rintro - fuel path o rest hf -
    obtain ⟨fuel, rfl⟩ := Nat.exists_eq_succ_of_ne_zero (Nat.ne_zero_of_lt hf)
    cases b <;> rfl
  | number x =>
    intro h
    exact reads_number h.1 h.2
  | string s =>
    intro h
    exact reads_string h
  | array items ih =>
    intro h
    simp only [Printable, printableItems_iff] at h
    exact reads_array h fun v hv => ih v hv (h v hv)
  | object members ih =>
    intro h
    simp only [Printable, printableMembers_iff] at h
    exact reads_object h.1 fun m hm => ⟨(h.2 m hm).1, ih m hm (h.2 m hm).2⟩

theorem parseJsonStrict_render {v : Json Num} (h : Printable num v) :
    parseJsonStrict num (render num v) = .ok v := by
  have hread := readValue_render v h (2 * (render num v).length + 2) (lit "$") 0 [] (by omega)
    delimited_nil
  rw [List.append_nil] at hread
  simp [parseJsonStrict, hread, bind, Except.bind, pure, Except.pure, Cursor.whitespace_nil]

/-- Two values that are accepted have one text exactly when they are the same. -/
theorem canonicalize_eq_iff {a b : Json Num} {path path' s t : JsString} (ha : a.Distinct)
    (hb : b.Distinct) (hs : canonicalize num path a = .ok s)
    (ht : canonicalize num path' b = .ok t) : s = t ↔ Same num a b := by
  obtain ⟨rfl, hpa⟩ := canonicalize_eq_render a _ _ ha hs
  obtain ⟨rfl, hpb⟩ := canonicalize_eq_render b _ _ hb ht
  rw [same_iff_canon_eq a b ha hb]
  constructor
  · intro h
    have hread := parseJsonStrict_render hpa
    rw [h, parseJsonStrict_render hpb] at hread
    injection hread with he
    exact he.symm
  · intro h
    rw [h]

end Json

/-- The JSON values of JavaScript: the keys of an object are distinct. -/
def JsonDocument (Num : Type) : Type :=
  { v : Json Num // v.Distinct }

/-- Canonical JSON is an identity of values up to the order of object keys and the sign of
zero: among the values it accepts, it tells exactly those apart that are not the same, and the
strict parser reads what it prints back as the same value. -/
theorem canonicalJson_identity (num : NumberFormat Num) (a b : JsonDocument Num)
    {s t : JsString} (ha : canonicalJsonStringify num a.1 = .ok s)
    (hb : canonicalJsonStringify num b.1 = .ok t) :
    (s = t ↔ Json.Same num a.1 b.1) ∧
      ∃ v : JsonDocument Num, parseJsonStrict num s = .ok v.1 ∧ Json.Same num v.1 a.1 := by
  obtain ⟨hs, hpa⟩ := Json.canonicalize_eq_render a.1 _ _ a.2 ha
  have hcanon : (Json.canon num a.1).Distinct := Json.distinct_canon a.1 a.2
  refine ⟨Json.canonicalize_eq_iff a.2 b.2 ha hb, ⟨_, hcanon⟩, ?_, ?_⟩
  · rw [hs]
    exact Json.parseJsonStrict_render hpa
  · rw [Json.same_iff_canon_eq _ _ hcanon a.2]
    exact Json.canon_canon a.1

/-- Some doubles, as JavaScript prints and reads them. -/
inductive SampleNumber where
  | zero
  | negativeZero
  | fraction
  | large
  | notANumber
  deriving DecidableEq

namespace SampleNumber

/-- `0`, `-0`, `-1.5`, `1e21` and `NaN`. -/
def format : NumberFormat SampleNumber where
  stringify
    | .zero | .negativeZero => lit "0"
    | .fraction => lit "-1.5"
    | .large => lit "1e+21"
    | .notANumber => lit "null"
  parse token :=
    if token = lit "0" then .zero
    else if token = lit "-1.5" then .fraction
    else if token = lit "1e+21" then .large
    else .notANumber
  isFinite x := x != .notANumber
  isInteger x := x == .zero || x == .negativeZero || x == .large
  isSafeInteger x := x == .zero || x == .negativeZero
  unsigned x := if x = .negativeZero then .zero else x
  unsigned_unsigned x := by cases x <;> rfl
  parse_stringify x h := by cases x <;> rfl
  scanNumber_stringify x h := by cases x <;> first | rfl | cases h
  stringify_unsigned x := by cases x <;> rfl
  isFinite_unsigned x := by cases x <;> rfl
  isInteger_unsigned x := by cases x <;> rfl
  isSafeInteger_unsigned x := by cases x <;> rfl

/-- An object with a nested array, and the same object with its keys in the other order and
the other zero. -/
def first : JsonDocument SampleNumber :=
  ⟨.object [(lit "b", .array [.number .negativeZero, .number .large]), (lit "a", .string [10])],
    by simp [Json.Distinct, Json.DistinctMembers, Json.DistinctItems, lit]⟩

def second : JsonDocument SampleNumber :=
  ⟨.object [(lit "a", .string [10]), (lit "b", .array [.number .zero, .number .large])],
    by simp [Json.Distinct, Json.DistinctMembers, Json.DistinctItems, lit]⟩

end SampleNumber

theorem mergeSort_pair {α : Type} {k l : JsString} (h : keyLE k l = true) (hne : k ≠ l)
    (x y : α) :
    [(k, x), (l, y)].mergeSort (keyLE ·.1 ·.1) = [(k, x), (l, y)] ∧
      [(l, y), (k, x)].mergeSort (keyLE ·.1 ·.1) = [(k, x), (l, y)] := by
  have hsorted : [(k, x), (l, y)].mergeSort (keyLE ·.1 ·.1) = [(k, x), (l, y)] :=
    List.mergeSort_of_pairwise (by simpa using h)
  refine ⟨hsorted, ?_⟩
  rw [(Json.mergeSort_eq_iff_perm (by simpa using hne.symm)).mpr (List.Perm.swap ..), hsorted]

open SampleNumber in
theorem canonicalJson_identity_reordered :
    (∃ s, canonicalJsonStringify format first.1 = .ok s ∧
      canonicalJsonStringify format second.1 = .ok s) ∧
    Json.Same format first.1 second.1 := by
  have hsort := fun x y : Except CanonicalJsonError JsString =>
    mergeSort_pair (show keyLE (lit "a") (lit "b") = true by decide) (by decide) x y
  have h₁ : canonicalJsonStringify format first.1 =
      .ok (lit "\x7b\"a\":\"\\n\",\"b\":[0,1e+21]\x7d") := by
    simp only [first, canonicalJsonStringify, canonicalize, canonicalizeMembers, hsort]
    rfl
  have h₂ : canonicalJsonStringify format second.1 =
      .ok (lit "\x7b\"a\":\"\\n\",\"b\":[0,1e+21]\x7d") := by
    simp only [second, canonicalJsonStringify, canonicalize, canonicalizeMembers, hsort]
    rfl
  exact ⟨⟨_, h₁, h₂⟩, (canonicalJson_identity format first second h₁ h₂).1.mp rfl⟩

end Pactmark
