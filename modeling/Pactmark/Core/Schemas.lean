import Pactmark.Core.Capability
import Pactmark.Core.Values

/-!
# Core — schemas of JSON values

Strict objects, as `z.object(..).strict()` parses them: a key that is not declared is refused, a
required one must be there, and what comes out has the fields in their order.

* `Schema.Stable`: what a schema has parsed it parses to itself; so do objects of such fields.
-/

namespace Pactmark

/-- `schema.safeParse`. -/
abbrev Schema := JsonValue → Option JsonValue

/-- A field of a strict object. -/
structure SchemaField where
  key : String
  optional : Bool
  schema : Schema

namespace Schema

/-- `members[key]`. -/
def lookup (key : String) : List (String × JsonValue) → Option JsonValue
  | [] => none
  | (k, v) :: members => if k = key then some v else lookup key members

/-- The fields, from the members. -/
def parseFields (members : List (String × JsonValue)) :
    List SchemaField → Option (List (String × JsonValue))
  | [] => some []
  | field :: fields =>
      match lookup field.key members with
      | none => if field.optional then parseFields members fields else none
      | some value =>
          match field.schema value, parseFields members fields with
          | some value, some parsed => some ((field.key, value) :: parsed)
          | _, _ => none

/-- `z.object(fields).strict()`. -/
def strictObject (fields : List SchemaField) : Schema
  | .object members =>
      if members.all fun m => fields.any fun field => field.key = m.1 then
        (parseFields members fields).map .object
      else none
  | _ => none

/-- `z.literal(value)`. -/
def literal (value : String) : Schema
  | .string s => if s = value then some (.string s) else none
  | _ => none

/-- `z.literal(true)`. -/
def literalTrue : Schema
  | .bool true => some (.bool true)
  | _ => none

/-- `z.string()` with a check of the text. -/
def string (check : String → Bool) : Schema
  | .string s => if check s then some (.string s) else none
  | _ => none

/-- `z.string().trim().min(1).max(maximum)`. -/
def trimmed (maximum : Nat) : Schema
  | .string s => (boundedText maximum s).map .string
  | _ => none

/-- `z.number()` with a check of the number. -/
def number (check : String → Bool) : Schema
  | .number token => if check token then some (.number token) else none
  | _ => none

/-- `z.array(schema)`. -/
def array (schema : Schema) : Schema
  | .array elements => (elements.mapM schema).map .array
  | _ => none

/-- What the schema has parsed it parses to itself. -/
def Stable (schema : Schema) : Prop :=
  ∀ v parsed, schema v = some parsed → schema parsed = some parsed

theorem literal_stable (value : String) : Stable (literal value) := by
  intro v parsed h
  cases v with
  | string s =>
    simp only [literal] at h
    split at h
    · rename_i hs
      obtain rfl := Option.some.inj h
      simp [literal, hs]
    · cases h
  | _ => cases h

/-- What a literal parses is its value. -/
theorem literal_eq_some {value : String} {v parsed : JsonValue}
    (h : literal value v = some parsed) : v = .string value ∧ parsed = .string value := by
  cases v with
  | string s =>
    simp only [literal] at h
    split at h
    · rename_i hs
      obtain rfl := Option.some.inj h
      exact ⟨by rw [hs], by rw [hs]⟩
    · cases h
  | _ => cases h

theorem literalTrue_stable : Stable literalTrue := by
  intro v parsed h
  unfold literalTrue at h
  split at h
  · obtain rfl := Option.some.inj h
    rfl
  · cases h

theorem string_stable (check : String → Bool) : Stable (string check) := by
  intro v parsed h
  cases v with
  | string s =>
    simp only [string] at h
    split at h
    · rename_i hs
      obtain rfl := Option.some.inj h
      simp [string, hs]
    · cases h
  | _ => cases h

theorem number_stable (check : String → Bool) : Stable (number check) := by
  intro v parsed h
  cases v with
  | number token =>
    simp only [number] at h
    split at h
    · rename_i ht
      obtain rfl := Option.some.inj h
      simp [number, ht]
    · cases h
  | _ => cases h

theorem trimmed_stable (maximum : Nat) : Stable (trimmed maximum) := by
  intro v parsed h
  cases v with
  | string s =>
    rw [trimmed] at h
    obtain ⟨text, htext, rfl⟩ := Option.map_eq_some_iff.mp h
    simp [trimmed, boundedText_idem htext]
  | _ => cases h

theorem mapM_stable {schema : Schema} (hs : Stable schema) {elements parsed : List JsonValue}
    (h : elements.mapM schema = some parsed) : parsed.mapM schema = some parsed := by
  induction elements generalizing parsed with
  | nil =>
    obtain rfl : parsed = [] := by simpa using h.symm
    rfl
  | cons v elements ih =>
    rw [List.mapM_cons] at h
    obtain ⟨first, hfirst, h⟩ := Option.bind_eq_some_iff.mp h
    obtain ⟨rest, hrest, h⟩ := Option.bind_eq_some_iff.mp h
    obtain rfl : first :: rest = parsed := Option.some.inj h
    simp [List.mapM_cons, hs v first hfirst, ih hrest]

theorem array_stable {schema : Schema} (hs : Stable schema) : Stable (array schema) := by
  intro v parsed h
  cases v with
  | array elements =>
    obtain ⟨kept, hkept, rfl⟩ := Option.map_eq_some_iff.mp h
    simp [array, mapM_stable hs hkept]
  | _ => cases h

/-! ### Objects -/

/-- A parsed object has no key but those of its fields. -/
theorem parseFields_keys {members parsed : List (String × JsonValue)} {fields : List SchemaField}
    (h : parseFields members fields = some parsed) :
    ∀ m ∈ parsed, ∃ field ∈ fields, field.key = m.1 := by
  induction fields generalizing parsed with
  | nil =>
    obtain rfl := Option.some.inj h
    nofun
  | cons field fields ih =>
    unfold parseFields at h
    split at h
    · split at h
      · intro m hm
        obtain ⟨f, hf, hkey⟩ := ih h m hm
        exact ⟨f, List.mem_cons_of_mem _ hf, hkey⟩
      · cases h
    · split at h
      · rename_i value rest hvalue hrest
        obtain rfl := Option.some.inj h
        rintro m (_ | ⟨_, hm⟩)
        · exact ⟨field, List.mem_cons_self, rfl⟩
        · obtain ⟨f, hf, hkey⟩ := ih hrest m hm
          exact ⟨f, List.mem_cons_of_mem _ hf, hkey⟩
      · cases h

theorem lookup_none {key : String} {members : List (String × JsonValue)}
    (h : ∀ m ∈ members, m.1 ≠ key) : lookup key members = none := by
  induction members with
  | nil => rfl
  | cons m members ih =>
    obtain ⟨hm, hmembers⟩ := List.forall_mem_cons.mp h
    rw [lookup, if_neg hm, ih hmembers]

/-- A member in front that is no field changes nothing. -/
theorem parseFields_cons {key : String} {value : JsonValue} {members : List (String × JsonValue)}
    {fields : List SchemaField} (h : ∀ field ∈ fields, field.key ≠ key) :
    parseFields ((key, value) :: members) fields = parseFields members fields := by
  induction fields with
  | nil => rfl
  | cons field fields ih =>
    obtain ⟨hfield, hfields⟩ := List.forall_mem_cons.mp h
    rw [parseFields, parseFields, lookup, if_neg hfield.symm, ih hfields]

/-- **A field of a parsed object** is what its schema has parsed. -/
theorem lookup_parsed {members parsed : List (String × JsonValue)} {fields : List SchemaField}
    (hnodup : (fields.map SchemaField.key).Nodup) (h : parseFields members fields = some parsed)
    {field : SchemaField} (hfield : field ∈ fields) :
    lookup field.key parsed = (lookup field.key members).bind field.schema := by
  induction fields generalizing parsed with
  | nil => cases hfield
  | cons f fields ih =>
    obtain ⟨hnew, hnodup⟩ := List.nodup_cons.mp hnodup
    have hkeys : ∀ g ∈ fields, g.key ≠ f.key := by
      intro g hg heq
      exact hnew (heq ▸ List.mem_map_of_mem hg)
    unfold parseFields at h
    split at h
    · rename_i hnone
      split at h
      · rcases List.mem_cons.mp hfield with rfl | hfield
        · rw [hnone, Option.bind_none]
          refine lookup_none fun m hm heq => ?_
          obtain ⟨g, hg, hkey⟩ := parseFields_keys h m hm
          exact hkeys g hg (hkey.trans heq)
        · exact ih hnodup h hfield
      · cases h
    · rename_i raw hraw
      split at h
      · rename_i value rest hvalue hrest
        obtain rfl := Option.some.inj h
        rcases List.mem_cons.mp hfield with rfl | hfield
        · rw [lookup, if_pos rfl, hraw, Option.bind_some, hvalue]
        · rw [lookup, if_neg (hkeys field hfield).symm]
          exact ih hnodup hrest hfield
      · cases h

/-- A field that is required is there, and its schema takes it. -/
theorem lookup_required {members parsed : List (String × JsonValue)} {fields : List SchemaField}
    (h : parseFields members fields = some parsed) {field : SchemaField} (hfield : field ∈ fields)
    (hrequired : field.optional = false) :
    ∃ v w, lookup field.key members = some v ∧ field.schema v = some w := by
  induction fields generalizing parsed with
  | nil => cases hfield
  | cons f fields ih =>
    unfold parseFields at h
    split at h
    · split at h
      · rename_i hoptional
        rcases List.mem_cons.mp hfield with rfl | hfield
        · rw [hrequired] at hoptional
          cases hoptional
        · exact ih h hfield
      · cases h
    · rename_i raw hraw
      split at h
      · rename_i value rest hvalue hrest
        rcases List.mem_cons.mp hfield with rfl | hfield
        · exact ⟨raw, value, hraw, hvalue⟩
        · exact ih hrest hfield
      · cases h

/-- The fields of a parsed object are parsed to themselves. -/
theorem parseFields_parsed {members parsed : List (String × JsonValue)}
    {fields : List SchemaField} (hnodup : (fields.map SchemaField.key).Nodup)
    (hstable : ∀ field ∈ fields, Stable field.schema)
    (h : parseFields members fields = some parsed) :
    parseFields parsed fields = some parsed := by
  induction fields generalizing parsed with
  | nil => exact h
  | cons field fields ih =>
    obtain ⟨hnew, hnodup⟩ := List.nodup_cons.mp hnodup
    obtain ⟨hfield, hfields⟩ := List.forall_mem_cons.mp hstable
    have hkeys : ∀ f ∈ fields, f.key ≠ field.key := by
      intro f hf heq
      exact hnew (heq ▸ List.mem_map_of_mem hf)
    unfold parseFields at h
    split at h
    · rename_i hnone
      split at h
      · rename_i hoptional
        have habsent : lookup field.key parsed = none := by
          refine lookup_none fun m hm heq => ?_
          obtain ⟨f, hf, hkey⟩ := parseFields_keys h m hm
          exact hkeys f hf (hkey.trans heq)
        rw [parseFields, habsent]
        simp only [hoptional, if_true]
        exact ih hnodup hfields h
      · cases h
    · split at h
      · rename_i value rest hvalue hrest
        obtain rfl := Option.some.inj h
        rw [parseFields, lookup, if_pos rfl]
        simp only [hfield _ _ hvalue, parseFields_cons hkeys, ih hnodup hfields hrest]
      · cases h

/-- **A strict object of stable fields is stable.** -/
theorem strictObject_stable {fields : List SchemaField}
    (hnodup : (fields.map SchemaField.key).Nodup)
    (hstable : ∀ field ∈ fields, Stable field.schema) : Stable (strictObject fields) := by
  intro v parsed h
  cases v with
  | object members =>
    simp only [strictObject] at h
    split at h
    · obtain ⟨kept, hkept, rfl⟩ := Option.map_eq_some_iff.mp h
      have hall : (kept.all fun m => fields.any fun field => field.key = m.1) = true := by
        rw [List.all_eq_true]
        intro m hm
        obtain ⟨f, hf, hkey⟩ := parseFields_keys hkept m hm
        exact List.any_eq_true.mpr ⟨f, hf, by simp [hkey]⟩
      simp [strictObject, hall, parseFields_parsed hnodup hstable hkept]
    · cases h
  | _ => cases h

end Schema

end Pactmark
