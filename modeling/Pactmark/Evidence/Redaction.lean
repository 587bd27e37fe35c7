import Pactmark.Core.Positions
import Pactmark.Durable.Operations

/-!
# Evidence — typed redaction

`redactTypedFields` of `evidence/src/redaction.ts`.  A property read of a JSON object sees its own
members and then those of `Object.prototype`: functions, and `__proto__`, which is
`Object.prototype` itself.  The output is a fresh tree, so writing into it at the end of a walk is
rebuilding it on the way back.

* `accepts_after`, `accepts_before`: what a redaction does to the paths of the other rules.
* `run_refused`, `run_sorted`, `run_compatible`: the loop over the rules.
* `redactTypedFields_exact_iff`: when typed redaction is exact.
-/

namespace Pactmark

open JsString (lit)

/-- A segment of `RedactionRule.path`: a string or a number. -/
inductive Segment (Num : Type) where
  | name (s : JsString)
  | index (x : Num)

/-- `RedactionRule`. -/
structure RedactionRule (Num : Type) where
  path : List (Segment Num)
  replacement : Option JsString

namespace RedactionRule

/-- `rule.replacement ?? "[REDACTED]"`. -/
def text {Num : Type} (rule : RedactionRule Num) : JsString :=
  rule.replacement.getD (lit "[REDACTED]")

end RedactionRule

namespace Redaction

open Durable (ok_bind bind_eq_ok)

variable {Num : Type}

/-- What `redactTypedFields` throws: what the schema throws, or one of its own. -/
inductive RedactionError where
  | schema (message : JsString)
  | KAF_REDACTION_ROOT_FORBIDDEN
  | KAF_REDACTION_PATH_MISSING
  deriving DecidableEq

mutual

/-- `clone`. -/
def clone : Json Num → Json Num
  | .array items => .array (cloneItems items)
  | .object members => .object (cloneMembers members)
  | v => v

def cloneItems : List (Json Num) → List (Json Num)
  | [] => []
  | v :: items => clone v :: cloneItems items

def cloneMembers : List (JsString × Json Num) → List (JsString × Json Num)
  | [] => []
  | (key, v) :: members => (key, clone v) :: cloneMembers members

end

/-- The names of `Object.prototype`. -/
def objectPrototype : List JsString :=
  [lit "constructor", lit "__defineGetter__", lit "__defineSetter__", lit "hasOwnProperty",
    lit "__lookupGetter__", lit "__lookupSetter__", lit "isPrototypeOf",
    lit "propertyIsEnumerable", lit "toString", lit "valueOf", lit "__proto__",
    lit "toLocaleString"]

/-- What a property read finds: an own child, `Object.prototype`, one of its functions, or
`undefined`. -/
inductive Found (Num : Type) where
  | own (key : Key) (next : Json Num)
  | prototype
  | function
  | missing

/-- What a name that is not an own member finds. -/
def inherited (name : JsString) : Found Num :=
  if name = lit "__proto__" then .prototype
  else if name ∈ objectPrototype then .function
  else .missing

section Text

-- `String` on numbers
variable (numberText : Num → JsString)

/-- `String(segment)`. -/
def segmentText : Segment Num → JsString
  | .name s => s
  | .index x => numberText x

/-- `current[segment]`, or `segment in current`: an array has numbers only. -/
def look (current : Json Num) (segment : Segment Num) : Found Num :=
  match current, segment with
  | .array items, .index x =>
      match (List.range items.length).find? fun i => lit (toString i) = numberText x with
      | some i =>
          match items[i]? with
          | some next => .own (.item i) next
          | none => .missing
      | none => .missing
  | .object members, segment =>
      match members.lookup (segmentText numberText segment) with
      | some next => .own (.member (segmentText numberText segment)) next
      | none => inherited (segmentText numberText segment)
  | _, _ => .missing

/-- An object with a new member. -/
def addMember (name : JsString) (x : Json Num) : Json Num → Json Num
  | .object members => .object (members ++ [(name, x)])
  | v => v

/-- The walk of one rule from `current` on, and its assignment; what `current` is then. -/
def redactAt (replacement : JsString) :
    List (Segment Num) → Json Num → Except RedactionError (Json Num)
  | [], _ => .error .KAF_REDACTION_ROOT_FORBIDDEN
  | [leaf], current =>
      match look numberText current leaf with
      | .own key _ => .ok (current.set key (.string replacement))
      | .function => .ok (addMember (segmentText numberText leaf) (.string replacement) current)
      -- the setter of `__proto__` ignores a string
      | .prototype => .ok current
      | .missing => .error .KAF_REDACTION_PATH_MISSING
  | segment :: next :: rest, current =>
      match look numberText current segment with
      | .own key value => do
          let value ← redactAt replacement (next :: rest) value
          return current.set key value
      -- the assignment is to `Object.prototype`; below it there are functions and `null`
      | .prototype =>
          if rest.isEmpty ∧ segmentText numberText next ∈ objectPrototype then .ok current
          else .error .KAF_REDACTION_PATH_MISSING
      | .function | .missing => .error .KAF_REDACTION_PATH_MISSING

/-- The loop of `redactTypedFields`. -/
def applyRules (rules : List (RedactionRule Num)) (output : Json Num) :
    Except RedactionError (Json Num) :=
  rules.foldlM (fun output rule => redactAt numberText rule.text rule.path output) output

/-- `redactTypedFields`, with `JsonValueSchema.parse`. -/
def redactTypedFields (parse : Json Num → Except RedactionError (Json Num)) (input : Json Num)
    (rules : List (RedactionRule Num)) : Except RedactionError (Json Num) := do
  let value ← parse input
  applyRules numberText rules (clone value)

/-! ### What a path names -/

/-- The position a path addresses, through own members and indices in range. -/
def resolve : List (Segment Num) → Json Num → Option (List Key)
  | [], _ => some []
  | segment :: rest, v =>
      match look numberText v segment with
      | .own key next => (resolve rest next).map (key :: ·)
      | _ => none

/-- The path leads through own members and indices to an object, and ends there with a name the
object inherits, or with `__proto__` and a name of `Object.prototype`. -/
def EndsInherited : List (Segment Num) → Json Num → Prop
  | [], _ => False
  | segment :: rest, v =>
      match look numberText v segment with
      | .own _ next => EndsInherited rest next
      | .prototype =>
          rest = [] ∨ ∃ leaf, rest = [leaf] ∧ segmentText numberText leaf ∈ objectPrototype
      | .function => rest = []
      | .missing => False

/-- The path addresses a position, or ends with an inherited name. -/
def Accepts (path : List (Segment Num)) (v : Json Num) : Prop :=
  path ≠ [] ∧ ((resolve numberText path v).isSome ∨ EndsInherited numberText path v)

/-- A position two rules redact is redacted with one text, and none is below another. -/
def Compatible (v : Json Num) (rules : List (RedactionRule Num)) : Prop :=
  ∀ a ∈ rules, ∀ b ∈ rules, ∀ p q, resolve numberText a.path v = some p →
    resolve numberText b.path v = some q → p <+: q → p = q ∧ a.text = b.text

/-- Typed redaction is exact at a value and rules: it succeeds if and only if every path
addresses a position; then it has the replacement at each of these positions and is as before at
every position that is not below one; and the order of the rules does not matter. -/
structure Exact (parse : Json Num → Except RedactionError (Json Num)) (v : Json Num)
    (rules : List (RedactionRule Num)) : Prop where
  succeeds : (∃ w, redactTypedFields numberText parse v rules = .ok w) ↔
    ∀ rule ∈ rules, (resolve numberText rule.path v).isSome
  redacted : ∀ w, redactTypedFields numberText parse v rules = .ok w →
    ∀ rule ∈ rules, ∃ p, resolve numberText rule.path v = some p ∧
      w.get p = some (.string rule.text)
  others : ∀ w, redactTypedFields numberText parse v rules = .ok w →
    ∀ q, (∀ rule ∈ rules, ∀ p, resolve numberText rule.path v = some p → ¬ p <+: q) →
      w.label q = v.label q
  order : ∀ rules', rules.Perm rules' →
    redactTypedFields numberText parse v rules' = redactTypedFields numberText parse v rules

end Text

variable {numberText : Num → JsString}

/-! ### Reading after a change -/

mutual

theorem clone_eq : ∀ v : Json Num, clone v = v
  | .array items => by rw [clone, cloneItems_eq items]
  | .object members => by rw [clone, cloneMembers_eq members]
  | .null | .bool _ | .number _ | .string _ => rfl

theorem cloneItems_eq : ∀ items : List (Json Num), cloneItems items = items
  | [] => rfl
  | v :: items => by rw [cloneItems, clone_eq v, cloneItems_eq items]

theorem cloneMembers_eq : ∀ members : List (JsString × Json Num), cloneMembers members = members
  | [] => rfl
  | (key, v) :: members => by rw [cloneMembers, clone_eq v, cloneMembers_eq members]

end

theorem inherited_ne_own (name : JsString) (k : Key) (c : Json Num) :
    inherited name ≠ .own k c := by
  intro h
  unfold inherited at h
  split at h
  · cases h
  · split at h <;> cases h

theorem look_item (items : List (Json Num)) (x : Num) :
    look numberText (.array items) (.index x) =
      match (List.range items.length).find? fun i => lit (toString i) = numberText x with
      | some i =>
          match items[i]? with
          | some next => .own (.item i) next
          | none => .missing
      | none => .missing :=
  rfl

theorem look_object (members : List (JsString × Json Num)) (s : Segment Num) :
    look numberText (.object members) s =
      match members.lookup (segmentText numberText s) with
      | some next => .own (.member (segmentText numberText s)) next
      | none => inherited (segmentText numberText s) :=
  rfl

/-- What `look` finds as an own child is the child at its key. -/
theorem child_of_look {v c : Json Num} {s : Segment Num} {k : Key}
    (h : look numberText v s = .own k c) : v.child k = some c := by
  match v, s with
  | .array items, .index x =>
      rw [look_item] at h
      split at h
      · split at h
        · next next hitem =>
            cases h
            exact hitem
        · cases h
      · cases h
  | .object members, s =>
      rw [look_object] at h
      split at h
      · next next hmember =>
          cases h
          exact hmember
      · exact absurd h (inherited_ne_own _ k c)
  | .array _, .name _ => cases h
  | .null, _ | .bool _, _ | .number _, _ | .string _, _ => cases h

/-- Reading after an own child changed. -/
theorem look_set {v c : Json Num} {k : Key} (hk : v.child k = some c) (x : Json Num)
    (s : Segment Num) :
    look numberText (v.set k x) s =
      match look numberText v s with
      | .own k' c' => .own k' (if k' = k then x else c')
      | found => found := by
  match v, k with
  | .array items, .item j =>
      match s with
      | .name _ => rfl
      | .index n =>
          simp only [Json.set_item, look_item, List.length_set]
          cases hfind : (List.range items.length).find? fun i =>
              lit (toString i) = numberText n with
          | none => rfl
          | some i =>
              have hi : i < items.length := List.mem_range.mp (List.mem_of_find?_eq_some hfind)
              by_cases hij : i = j
              · subst hij
                simp [hi]
              · have hji : j ≠ i := fun e => hij e.symm
                simp [List.getElem_set_ne hji, hi, hij]
  | .object members, .member name =>
      simp only [Json.set_member, look_object, Json.lookup_replaced]
      cases hmember : members.lookup (segmentText numberText s) with
      | none =>
          simp only [Option.map_none, ite_self]
          cases hi : (inherited (segmentText numberText s) : Found Num) with
          | own k' c' => exact absurd hi (inherited_ne_own _ k' c')
          | prototype | function | missing => rfl
      | some c' =>
          by_cases hname : segmentText numberText s = name <;> simp [hname]
  | .null, _ | .bool _, _ | .number _, _ | .string _, _ => cases hk
  | .array _, .member _ | .object _, .item _ => cases hk

/-- A name that finds a function is one an object inherits and does not have. -/
theorem look_function {v : Json Num} {s : Segment Num}
    (h : look numberText v s = .function) :
    ∃ members, v = .object members ∧ members.lookup (segmentText numberText s) = none ∧
      (inherited (segmentText numberText s) : Found Num) = .function := by
  match v, s with
  | .array items, .index x =>
      rw [look_item] at h
      split at h
      · split at h <;> cases h
      · cases h
  | .object members, s =>
      rw [look_object] at h
      split at h
      · cases h
      · next hmember => exact ⟨members, rfl, hmember, h⟩
  | .array _, .name _ => cases h
  | .null, _ | .bool _, _ | .number _, _ | .string _, _ => cases h

/-- Reading after a name that found a function became an own member. -/
theorem look_addMember {v : Json Num} {s : Segment Num}
    (h : look numberText v s = .function) (x : Json Num) (t : Segment Num) :
    look numberText (addMember (segmentText numberText s) x v) t =
      if segmentText numberText t = segmentText numberText s then
        .own (.member (segmentText numberText s)) x
      else look numberText v t := by
  obtain ⟨members, rfl, hmember, -⟩ := look_function h
  simp only [addMember, look_object, List.lookup_append]
  by_cases hname : segmentText numberText t = segmentText numberText s
  · rw [hname, hmember]
    simp
  · have hne : (segmentText numberText t == segmentText numberText s) = false := by
      simpa using hname
    simp [hname, List.lookup_cons, hne]

/-- Two segments that name one member find the same. -/
theorem look_of_text {v : Json Num} {s t : Segment Num} (h : look numberText v s = .function)
    (hname : segmentText numberText t = segmentText numberText s) :
    look numberText v t = .function := by
  obtain ⟨members, rfl, hmember, hin⟩ := look_function h
  rw [look_object, hname, hmember]
  exact hin

/-! ### The paths of the other rules -/

theorem accepts_nil (v : Json Num) : ¬ Accepts numberText [] v := fun h => h.1 rfl

theorem accepts_cons (s : Segment Num) (rest : List (Segment Num)) (v : Json Num) :
    Accepts numberText (s :: rest) v ↔
      match look numberText v s with
      | .own _ next => rest = [] ∨ Accepts numberText rest next
      | .prototype =>
          rest = [] ∨ ∃ leaf, rest = [leaf] ∧ segmentText numberText leaf ∈ objectPrototype
      | .function => rest = []
      | .missing => False := by
  rw [Accepts, resolve, EndsInherited]
  cases look numberText v s with
  | own k next =>
      by_cases hrest : rest = []
      · subst hrest
        simp [resolve]
      · simp [Accepts, hrest]
  | prototype | function | missing => simp

theorem accepts_own {s : Segment Num} {rest : List (Segment Num)} {v c : Json Num} {k : Key}
    (h : look numberText v s = .own k c) :
    Accepts numberText (s :: rest) v ↔ rest = [] ∨ Accepts numberText rest c := by
  rw [accepts_cons, h]

/-- Below a text there is nothing. -/
theorem not_accepts_string (path : List (Segment Num)) (x : JsString) :
    ¬ Accepts numberText path (.string x) := by
  cases path with
  | nil => exact accepts_nil _
  | cons s rest =>
      have hmissing : look numberText (.string x) s = .missing := rfl
      simp [accepts_cons, hmissing]

/-- A path through a child that changed. -/
theorem accepts_set_self {s : Segment Num} {rest : List (Segment Num)} {v c : Json Num} {k : Key}
    (h : look numberText v s = .own k c) (x : Json Num) :
    Accepts numberText (s :: rest) (v.set k x) ↔ rest = [] ∨ Accepts numberText rest x := by
  rw [accepts_cons, look_set (child_of_look h), h]
  simp

/-- A path that does not lead through the child that changed. -/
theorem accepts_set_ne {s : Segment Num} {rest : List (Segment Num)} {v c : Json Num} {k : Key}
    (hk : v.child k = some c) (h : ∀ c, look numberText v s ≠ .own k c) (x : Json Num) :
    Accepts numberText (s :: rest) (v.set k x) ↔ Accepts numberText (s :: rest) v := by
  rw [accepts_cons, accepts_cons, look_set hk]
  cases hlook : look numberText v s with
  | own k' d =>
      have hne : k' ≠ k := fun e => h d (by rw [hlook, e])
      simp [hne]
  | prototype | function | missing => rfl

theorem redactAt_leaf (x : JsString) (leaf : Segment Num) (v : Json Num) :
    redactAt numberText x [leaf] v =
      match look numberText v leaf with
      | .own key _ => .ok (v.set key (.string x))
      | .function => .ok (addMember (segmentText numberText leaf) (.string x) v)
      | .prototype => .ok v
      | .missing => .error .KAF_REDACTION_PATH_MISSING :=
  rfl

theorem redactAt_next (x : JsString) (s next : Segment Num) (rest : List (Segment Num))
    (v : Json Num) :
    redactAt numberText x (s :: next :: rest) v =
      match look numberText v s with
      | .own key value => do
          let value ← redactAt numberText x (next :: rest) value
          return v.set key value
      | .prototype =>
          if rest.isEmpty ∧ segmentText numberText next ∈ objectPrototype then .ok v
          else .error .KAF_REDACTION_PATH_MISSING
      | .function | .missing => .error .KAF_REDACTION_PATH_MISSING :=
  rfl

/-- A rule succeeds if and only if its path is accepted. -/
theorem redactAt_ok_iff (x : JsString) (path : List (Segment Num)) (v : Json Num) :
    (∃ w, redactAt numberText x path v = .ok w) ↔ Accepts numberText path v := by
  induction path generalizing v with
  | nil =>
      constructor
      · rintro ⟨w, h⟩
        cases h
      · exact fun h => absurd h (accepts_nil v)
  | cons s rest ih =>
      cases rest with
      | nil =>
          rw [accepts_cons, redactAt_leaf]
          cases look numberText v s <;> simp
      | cons t rest =>
          rw [accepts_cons, redactAt_next]
          cases look numberText v s with
          | own k next =>
              simp only [reduceCtorEq, false_or]
              rw [← ih next]
              constructor
              · rintro ⟨w, h⟩
                obtain ⟨next', hnext, -⟩ := bind_eq_ok.mp h
                exact ⟨next', hnext⟩
              · rintro ⟨next', hnext⟩
                exact ⟨v.set k next', by rw [hnext, ok_bind]; rfl⟩
          | prototype =>
              by_cases h : rest = [] ∧ segmentText numberText t ∈ objectPrototype
              · simp [h]
              · have hor : ¬ (t :: rest = [] ∨ ∃ leaf, t :: rest = [leaf] ∧
                    segmentText numberText leaf ∈ objectPrototype) := by
                  rintro (hnil | ⟨leaf, hleaf, hname⟩)
                  · cases hnil
                  · cases hleaf
                    exact h ⟨rfl, hname⟩
                simp only [List.isEmpty_iff, h, if_false, hor]
                simp
          | function | missing => simp

/-- A path that is not accepted is missing. -/
theorem redactAt_refused {path : List (Segment Num)} {v : Json Num} (x : JsString)
    (hpath : path ≠ []) (h : ¬ Accepts numberText path v) :
    redactAt numberText x path v = .error .KAF_REDACTION_PATH_MISSING := by
  induction path generalizing v with
  | nil => exact absurd rfl hpath
  | cons s rest ih =>
      rw [accepts_cons] at h
      cases hlook : look numberText v s with
      | own k next =>
          rw [hlook] at h
          cases rest with
          | nil => exact absurd (.inl rfl) h
          | cons t rest =>
              simp only [reduceCtorEq, false_or] at h
              simp only [redactAt_next, hlook, ih (by simp) h]
              rfl
      | prototype =>
          rw [hlook] at h
          cases rest with
          | nil => exact absurd (.inl rfl) h
          | cons t rest =>
              have hnext : ¬ (rest.isEmpty ∧ segmentText numberText t ∈ objectPrototype) := by
                rintro ⟨hrest, hname⟩
                rw [List.isEmpty_iff.mp hrest] at h
                exact h (.inr ⟨t, rfl, hname⟩)
              simp only [redactAt_next, hlook, hnext, if_false]
      | function =>
          rw [hlook] at h
          cases rest with
          | nil => exact absurd rfl h
          | cons t rest => simp only [redactAt_next, hlook]
      | missing => cases rest <;> simp only [redactAt_leaf, redactAt_next, hlook]

/-- What a rule made of a value: it changed an own child, added an inherited name as a text, or
left the value as it is. -/
theorem redactAt_cases {x : JsString} {s : Segment Num} {rest : List (Segment Num)}
    {v w : Json Num} (h : redactAt numberText x (s :: rest) v = .ok w) :
    (∃ k c, look numberText v s = .own k c ∧ rest = [] ∧ w = v.set k (.string x)) ∨
      (∃ k c c', look numberText v s = .own k c ∧ redactAt numberText x rest c = .ok c' ∧
        w = v.set k c') ∨
      (look numberText v s = .function ∧ rest = [] ∧
        w = addMember (segmentText numberText s) (.string x) v) ∨
      w = v := by
  cases rest with
  | nil =>
      rw [redactAt_leaf] at h
      cases hlook : look numberText v s with
      | own k c =>
          rw [hlook] at h
          cases h
          exact .inl ⟨k, c, rfl, rfl, rfl⟩
      | function =>
          rw [hlook] at h
          cases h
          exact .inr (.inr (.inl ⟨rfl, rfl, rfl⟩))
      | prototype =>
          rw [hlook] at h
          cases h
          exact .inr (.inr (.inr rfl))
      | missing =>
          rw [hlook] at h
          cases h
  | cons t rest =>
      rw [redactAt_next] at h
      cases hlook : look numberText v s with
      | own k c =>
          rw [hlook] at h
          obtain ⟨c', hc', hw⟩ := bind_eq_ok.mp h
          cases hw
          exact .inr (.inl ⟨k, c, c', rfl, hc', rfl⟩)
      | prototype =>
          rw [hlook] at h
          simp only at h
          split at h
          · cases h
            exact .inr (.inr (.inr rfl))
          · cases h
      | function =>
          rw [hlook] at h
          cases h
      | missing =>
          rw [hlook] at h
          cases h

/-- After a rule, a path that is not longer than the rule's is still accepted. -/
theorem accepts_after {x : JsString} {p q : List (Segment Num)} {v w : Json Num}
    (h : redactAt numberText x p v = .ok w) (hlen : q.length ≤ p.length)
    (hq : Accepts numberText q v) : Accepts numberText q w := by
  induction p generalizing v w q with
  | nil => cases h
  | cons s rest ih =>
      cases q with
      | nil => exact absurd hq (accepts_nil v)
      | cons t q =>
          have hlen' : q.length ≤ rest.length := by simpa using hlen
          obtain ⟨k, c, hlook, rfl, rfl⟩ | ⟨k, c, c', hlook, hc, rfl⟩ | ⟨hlook, rfl, rfl⟩ | rfl :=
            redactAt_cases h
          · by_cases ht : ∃ d, look numberText v t = .own k d
            · obtain ⟨d, ht⟩ := ht
              have hq : q = [] := List.length_eq_zero_iff.mp (by simpa using hlen')
              exact (accepts_set_self ht _).mpr (.inl hq)
            · exact (accepts_set_ne (child_of_look hlook) (fun d hd => ht ⟨d, hd⟩) _).mpr hq
          · by_cases ht : ∃ d, look numberText v t = .own k d
            · obtain ⟨d, ht⟩ := ht
              obtain rfl : c = d := by
                have hd := child_of_look ht
                rw [child_of_look hlook] at hd
                exact Option.some.inj hd
              exact (accepts_set_self ht _).mpr (((accepts_own ht).mp hq).imp_right (ih hc hlen'))
            · exact (accepts_set_ne (child_of_look hlook) (fun d hd => ht ⟨d, hd⟩) _).mpr hq
          · rw [accepts_cons, look_addMember hlook]
            by_cases hname : segmentText numberText t = segmentText numberText s
            · rw [if_pos hname]
              exact .inl (List.length_eq_zero_iff.mp (by simpa using hlen'))
            · rw [if_neg hname]
              exact (accepts_cons t q v).mp hq
          · exact hq

/-- A path that is accepted after a rule was accepted before it. -/
theorem accepts_before {x : JsString} {p q : List (Segment Num)} {v w : Json Num}
    (h : redactAt numberText x p v = .ok w) (hq : Accepts numberText q w) :
    Accepts numberText q v := by
  induction p generalizing v w q with
  | nil => cases h
  | cons s rest ih =>
      cases q with
      | nil => exact absurd hq (accepts_nil w)
      | cons t q =>
          obtain ⟨k, c, hlook, rfl, rfl⟩ | ⟨k, c, c', hlook, hc, rfl⟩ | ⟨hlook, rfl, rfl⟩ | rfl :=
            redactAt_cases h
          · by_cases ht : ∃ d, look numberText v t = .own k d
            · obtain ⟨d, ht⟩ := ht
              refine (accepts_own ht).mpr (((accepts_set_self ht _).mp hq).imp_right fun hx => ?_)
              exact absurd hx (not_accepts_string q x)
            · exact (accepts_set_ne (child_of_look hlook) (fun d hd => ht ⟨d, hd⟩) _).mp hq
          · by_cases ht : ∃ d, look numberText v t = .own k d
            · obtain ⟨d, ht⟩ := ht
              obtain rfl : c = d := by
                have hd := child_of_look ht
                rw [child_of_look hlook] at hd
                exact Option.some.inj hd
              exact (accepts_own ht).mpr (((accepts_set_self ht _).mp hq).imp_right (ih hc))
            · exact (accepts_set_ne (child_of_look hlook) (fun d hd => ht ⟨d, hd⟩) _).mp hq
          · rw [accepts_cons, look_addMember hlook] at hq
            by_cases hname : segmentText numberText t = segmentText numberText s
            · rw [if_pos hname] at hq
              rw [accepts_cons, look_of_text hlook hname]
              exact hq.resolve_right (not_accepts_string q x)
            · rw [if_neg hname] at hq
              exact (accepts_cons t q v).mpr hq
          · exact hq

/-! ### A path that addresses a position -/

theorem resolve_cons {s : Segment Num} {rest : List (Segment Num)} {v : Json Num}
    {p : List Key} (h : resolve numberText (s :: rest) v = some p) :
    ∃ k c p', look numberText v s = .own k c ∧ resolve numberText rest c = some p' ∧
      p = k :: p' := by
  rw [resolve] at h
  cases hlook : look numberText v s with
  | own k c =>
      rw [hlook] at h
      obtain ⟨p', hp', rfl⟩ := Option.map_eq_some_iff.mp h
      exact ⟨k, c, p', rfl, hp', rfl⟩
  | prototype | function | missing =>
      rw [hlook] at h
      cases h

theorem get_of_resolve {path : List (Segment Num)} {v : Json Num} {p : List Key}
    (h : resolve numberText path v = some p) : (v.get p).isSome := by
  induction path generalizing v p with
  | nil =>
      cases h
      rfl
  | cons s rest ih =>
      obtain ⟨k, c, p', hlook, hp', rfl⟩ := resolve_cons h
      rw [Json.get, child_of_look hlook]
      exact ih hp'

/-- A path that addresses a position does not end with an inherited name. -/
theorem not_endsInherited {path : List (Segment Num)} {v : Json Num} {p : List Key}
    (h : resolve numberText path v = some p) : ¬ EndsInherited numberText path v := by
  induction path generalizing v p with
  | nil => exact id
  | cons s rest ih =>
      obtain ⟨k, c, p', hlook, hp', rfl⟩ := resolve_cons h
      rw [EndsInherited, hlook]
      exact ih hp'

/-- A rule replaces what is at the position its path addresses. -/
theorem redactAt_of_resolve {path : List (Segment Num)} {v : Json Num} {p : List Key}
    (x : JsString) (hpath : path ≠ []) (h : resolve numberText path v = some p) :
    redactAt numberText x path v = .ok (Json.put (.string x) p v) := by
  induction path generalizing v p with
  | nil => exact absurd rfl hpath
  | cons s rest ih =>
      obtain ⟨k, c, p', hlook, hp', rfl⟩ := resolve_cons h
      rw [Json.put_cons _ _ (child_of_look hlook)]
      cases rest with
      | nil =>
          cases hp'
          simp only [redactAt_leaf, hlook, Json.put]
      | cons t rest =>
          simp only [redactAt_next, hlook, ih (by simp) hp']
          rfl

/-- A position stays addressed when no part of it was replaced but its end. -/
theorem resolve_put {path : List (Segment Num)} {v : Json Num} {p q : List Key} (x : Json Num)
    (h : resolve numberText path v = some q) (hpq : p <+: q → p = q) :
    resolve numberText path (Json.put x p v) = some q := by
  induction path generalizing v p q with
  | nil => exact h
  | cons s rest ih =>
      obtain ⟨k, c, q', hlook, hq', rfl⟩ := resolve_cons h
      cases p with
      | nil => cases hpq List.nil_prefix
      | cons k' p =>
          cases hc' : v.child k' with
          | none => rwa [Json.put_cons_none _ _ hc']
          | some c' =>
              rw [Json.put_cons _ _ hc', resolve, look_set hc', hlook]
              by_cases hk : k = k'
              · subst hk
                obtain rfl : c = c' := by
                  rw [child_of_look hlook] at hc'
                  exact Option.some.inj hc'
                have hpq' : p <+: q' → p = q' := fun hp => by
                  simpa using hpq (List.cons_prefix_cons.mpr ⟨rfl, hp⟩)
                simp [ih hq' hpq']
              · simp [hk, hq']

/-! ### The loop over the rules -/

variable {rules : List (RedactionRule Num)} {v : Json Num}

/-- A path that is not accepted stops the loop, wherever its rule stands. -/
theorem run_refused (hpaths : ∀ r ∈ rules, r.path ≠ [])
    (h : ∃ r ∈ rules, ¬ Accepts numberText r.path v) :
    applyRules numberText rules v = .error .KAF_REDACTION_PATH_MISSING := by
  induction rules generalizing v with
  | nil =>
      obtain ⟨r, hr, -⟩ := h
      cases hr
  | cons a rules ih =>
      rw [applyRules, List.foldlM_cons]
      by_cases ha : Accepts numberText a.path v
      · obtain ⟨w, hw⟩ := (redactAt_ok_iff a.text a.path v).mpr ha
        rw [hw, ok_bind]
        obtain ⟨r, hr, hrefused⟩ := h
        have hmem : r ∈ rules := by
          rcases List.mem_cons.mp hr with rfl | hmem
          · exact absurd ha hrefused
          · exact hmem
        exact ih (fun r hr => hpaths r (List.mem_cons_of_mem a hr))
          ⟨r, hmem, fun hw' => hrefused (accepts_before hw hw')⟩
      · rw [redactAt_refused a.text (hpaths a List.mem_cons_self) ha]
        rfl

/-- When every path is accepted and longer paths come first, the loop succeeds. -/
theorem run_sorted (hsorted : rules.Pairwise fun a b => b.path.length ≤ a.path.length)
    (h : ∀ r ∈ rules, Accepts numberText r.path v) :
    ∃ w, applyRules numberText rules v = .ok w := by
  induction rules generalizing v with
  | nil => exact ⟨v, rfl⟩
  | cons a rules ih =>
      obtain ⟨w, hw⟩ := (redactAt_ok_iff a.text a.path v).mpr (h a List.mem_cons_self)
      obtain ⟨hlen, hrest⟩ := List.pairwise_cons.mp hsorted
      have hrules : ∀ r ∈ rules, Accepts numberText r.path w := fun r hr =>
        accepts_after hw (hlen r hr) (h r (List.mem_cons_of_mem a hr))
      rw [applyRules, List.foldlM_cons, hw, ok_bind]
      exact ih hrest hrules

/-- The position a rule redacts. -/
def position (numberText : Num → JsString) (v : Json Num) (rule : RedactionRule Num) :
    List Key :=
  (resolve numberText rule.path v).getD []

/-- All the rules at once, at positions that are fixed before. -/
def putAll (position : RedactionRule Num → List Key) (rules : List (RedactionRule Num))
    (v : Json Num) : Json Num :=
  rules.foldl (fun v rule => Json.put (.string rule.text) (position rule) v) v

/-- Rules whose positions are not below one another. -/
def Apart (position : RedactionRule Num → List Key) (a b : RedactionRule Num) : Prop :=
  position a <+: position b → position a = position b ∧ a.text = b.text

variable {pos : RedactionRule Num → List Key}

theorem run_apart (hpaths : ∀ r ∈ rules, r.path ≠ [])
    (hpos : ∀ r ∈ rules, resolve numberText r.path v = some (pos r))
    (hapart : ∀ a ∈ rules, ∀ b ∈ rules, Apart pos a b) :
    applyRules numberText rules v = .ok (putAll pos rules v) := by
  induction rules generalizing v with
  | nil => rfl
  | cons a rules ih =>
      rw [applyRules, List.foldlM_cons, redactAt_of_resolve a.text
        (hpaths a List.mem_cons_self) (hpos a List.mem_cons_self), ok_bind]
      refine ih (fun r hr => hpaths r (List.mem_cons_of_mem a hr)) (fun r hr => ?_)
        (fun b hb c hc => hapart b (List.mem_cons_of_mem a hb) c (List.mem_cons_of_mem a hc))
      exact resolve_put _ (hpos r (List.mem_cons_of_mem a hr)) fun hp =>
        (hapart a List.mem_cons_self r (List.mem_cons_of_mem a hr) hp).1

/-- A position no rule is above keeps its label. -/
theorem label_putAll {q : List Key} (h : ∀ r ∈ rules, ¬ pos r <+: q) :
    (putAll pos rules v).label q = v.label q := by
  induction rules generalizing v with
  | nil => rfl
  | cons a rules ih =>
      rw [putAll, List.foldl_cons]
      exact (ih fun r hr => h r (List.mem_cons_of_mem a hr)).trans
        (Json.label_put _ (h a List.mem_cons_self))

/-- A text stays when the rules put the same there, or something elsewhere. -/
theorem get_putAll_of {p : List Key} {x : JsString}
    (h : ∀ r ∈ rules, (pos r = p ∧ r.text = x) ∨ (¬ pos r <+: p ∧ ¬ p <+: pos r))
    (hv : v.get p = some (.string x)) : (putAll pos rules v).get p = some (.string x) := by
  induction rules generalizing v with
  | nil => exact hv
  | cons a rules ih =>
      rw [putAll, List.foldl_cons]
      refine ih (fun r hr => h r (List.mem_cons_of_mem a hr)) ?_
      obtain ⟨rfl, rfl⟩ | ⟨hp, hq⟩ := h a List.mem_cons_self
      · exact Json.get_put_self _ (by rw [hv]; rfl)
      · rw [Json.get_put_ne _ hp hq, hv]

theorem get_putAll (hpos : ∀ r ∈ rules, (v.get (pos r)).isSome)
    (hapart : ∀ a ∈ rules, ∀ b ∈ rules, Apart pos a b) :
    ∀ r ∈ rules, (putAll pos rules v).get (pos r) = some (.string r.text) := by
  induction rules generalizing v with
  | nil =>
      intro r hr
      cases hr
  | cons a rules ih =>
      have hapart' : ∀ b ∈ rules, ∀ c ∈ rules, Apart pos b c := fun b hb c hc =>
        hapart b (List.mem_cons_of_mem a hb) c (List.mem_cons_of_mem a hc)
      intro r hr
      rw [putAll, List.foldl_cons]
      rcases List.mem_cons.mp hr with rfl | hr
      · refine get_putAll_of (fun b hb => ?_)
          (Json.get_put_self _ (hpos r List.mem_cons_self))
        have hrb := hapart r List.mem_cons_self b (List.mem_cons_of_mem r hb)
        have hbr := hapart b (List.mem_cons_of_mem r hb) r List.mem_cons_self
        by_cases h : pos b <+: pos r
        · exact .inl (hbr h)
        · exact .inr ⟨h, fun h' => h ((hrb h').1 ▸ List.prefix_rfl)⟩
      · refine ih (fun b hb => ?_) hapart' r hr
        exact Json.get_put_isSome _
          (fun hp => (hapart a List.mem_cons_self b (List.mem_cons_of_mem a hb) hp).1)
          (hpos b (List.mem_cons_of_mem a hb))

/-- Rules that are apart may stand in any order. -/
theorem putAll_perm {rules' : List (RedactionRule Num)} (hperm : rules.Perm rules')
    (hapart : ∀ a ∈ rules, ∀ b ∈ rules, Apart pos a b) :
    putAll pos rules v = putAll pos rules' v := by
  refine hperm.foldl_eq' (fun a ha b hb w => ?_) v
  have hab := hapart a ha b hb
  have hba := hapart b hb a ha
  by_cases h : pos a <+: pos b
  · obtain ⟨hpos, htext⟩ := hab h
    rw [hpos, htext]
  · exact Json.put_comm w _ _ h (fun h' => h ((hba h').1 ▸ List.prefix_rfl))

/-! ### When it is exact -/

/-- Typed redaction of a value the schema returns as it is, by rules with non-empty paths, is
exact if and only if some path neither addresses a position nor ends with an inherited name, or
no path ends so and no rule redacts what another one redacts otherwise, or something below it. -/
theorem redactTypedFields_exact_iff (numberText : Num → JsString)
    (parse : Json Num → Except RedactionError (Json Num)) (v : Json Num)
    (rules : List (RedactionRule Num)) (hparse : parse v = .ok v)
    (hpaths : ∀ r ∈ rules, r.path ≠ []) :
    Exact numberText parse v rules ↔
      (∃ r ∈ rules, resolve numberText r.path v = none ∧
        ¬ EndsInherited numberText r.path v) ∨
      ((∀ r ∈ rules, ¬ EndsInherited numberText r.path v) ∧ Compatible numberText v rules) := by
  have hrun : ∀ rules', redactTypedFields numberText parse v rules' =
      applyRules numberText rules' v := fun rules' => by
    rw [redactTypedFields, hparse, ok_bind, clone_eq]
  have hrefused : ∀ {r : RedactionRule Num}, r ∈ rules → (¬ Accepts numberText r.path v ↔
      resolve numberText r.path v = none ∧ ¬ EndsInherited numberText r.path v) := by
    intro r hr
    simp [Accepts, hpaths r hr]
  constructor
  · intro h
    by_cases hall : ∀ r ∈ rules, Accepts numberText r.path v
    · refine .inr ?_
      -- the longest paths first: the loop succeeds in this order, so in every order
      obtain ⟨w, hw⟩ : ∃ w, redactTypedFields numberText parse v rules = .ok w := by
        let le := fun a b : RedactionRule Num => decide (b.path.length ≤ a.path.length)
        have hperm : rules.Perm (rules.mergeSort le) := (List.mergeSort_perm rules le).symm
        have hsorted : (rules.mergeSort le).Pairwise fun a b => b.path.length ≤ a.path.length := by
          refine (List.pairwise_mergeSort ?_ ?_ rules).imp fun hle => of_decide_eq_true hle
          · intro a b c hab hbc
            simp only [decide_eq_true_eq] at hab hbc ⊢
            omega
          · intro a b
            simp only [Bool.or_eq_true, decide_eq_true_eq]
            omega
        obtain ⟨w, hw⟩ := run_sorted hsorted fun r hr => hall r (hperm.mem_iff.mpr hr)
        exact ⟨w, by rw [← h.order _ hperm, hrun, hw]⟩
      have haddress := h.succeeds.mp ⟨w, hw⟩
      refine ⟨fun r hr => ?_, fun a ha b hb p q hp hq hpq => ?_⟩
      · obtain ⟨p, hp⟩ := Option.isSome_iff_exists.mp (haddress r hr)
        exact not_endsInherited hp
      · obtain ⟨p', hp', hget⟩ := h.redacted w hw a ha
        obtain ⟨q', hq', hget'⟩ := h.redacted w hw b hb
        obtain rfl : p = p' := Option.some.inj (hp.symm.trans hp')
        obtain rfl : q = q' := Option.some.inj (hq.symm.trans hq')
        obtain rfl := Json.prefix_of_get_string hget hget' hpq
        rw [hget] at hget'
        exact ⟨rfl, by simpa using hget'⟩
    · push Not at hall
      obtain ⟨r, hr, hnot⟩ := hall
      exact .inl ⟨r, hr, (hrefused hr).mp hnot⟩
  · intro h
    by_cases hall : ∀ r ∈ rules, Accepts numberText r.path v
    · obtain ⟨hends, hcompat⟩ := h.resolve_left fun ⟨r, hr, hnot⟩ =>
        (hrefused hr).mpr hnot (hall r hr)
      have haddress : ∀ r ∈ rules, (resolve numberText r.path v).isSome := fun r hr =>
        (hall r hr).2.resolve_right (hends r hr)
      have hpos : ∀ r ∈ rules, resolve numberText r.path v = some (position numberText v r) := by
        intro r hr
        obtain ⟨p, hp⟩ := Option.isSome_iff_exists.mp (haddress r hr)
        rw [position, hp, Option.getD_some]
      have hapart : ∀ a ∈ rules, ∀ b ∈ rules, Apart (position numberText v) a b :=
        fun a ha b hb => hcompat a ha b hb _ _ (hpos a ha) (hpos b hb)
      have hok : ∀ rules', rules.Perm rules' → redactTypedFields numberText parse v rules' =
          .ok (putAll (position numberText v) rules v) := by
        intro rules' hperm
        rw [hrun, run_apart (fun r hr => hpaths r (hperm.mem_iff.mpr hr))
          (fun r hr => hpos r (hperm.mem_iff.mpr hr))
          (fun a ha b hb => hapart a (hperm.mem_iff.mpr ha) b (hperm.mem_iff.mpr hb)),
          putAll_perm hperm hapart]
      refine ⟨⟨fun _ => haddress, fun _ => ⟨_, hok rules (.refl rules)⟩⟩, ?_, ?_, ?_⟩
      · intro w hw r hr
        rw [hok rules (.refl rules)] at hw
        cases hw
        exact ⟨_, hpos r hr, get_putAll (fun a ha => get_of_resolve (hpos a ha)) hapart r hr⟩
      · intro w hw q hq
        rw [hok rules (.refl rules)] at hw
        cases hw
        exact label_putAll fun r hr => hq r hr _ (hpos r hr)
      · intro rules' hperm
        rw [hok rules' hperm, hok rules (.refl rules)]
    · push Not at hall
      have herror : ∀ rules', rules.Perm rules' → redactTypedFields numberText parse v rules' =
          .error .KAF_REDACTION_PATH_MISSING := by
        intro rules' hperm
        obtain ⟨r, hr, hnot⟩ := hall
        rw [hrun]
        exact run_refused (fun r hr => hpaths r (hperm.mem_iff.mpr hr))
          ⟨r, hperm.mem_iff.mp hr, hnot⟩
      refine ⟨⟨?_, fun haddress => ?_⟩, ?_, ?_, ?_⟩
      · rintro ⟨w, hw⟩
        rw [herror rules (.refl rules)] at hw
        cases hw
      · obtain ⟨r, hr, hnot⟩ := hall
        exact absurd ⟨hpaths r hr, .inl (haddress r hr)⟩ hnot
      · intro w hw
        rw [herror rules (.refl rules)] at hw
        cases hw
      · intro w hw
        rw [herror rules (.refl rules)] at hw
        cases hw
      · intro rules' hperm
        rw [herror rules' hperm, herror rules (.refl rules)]

theorem redactTypedFields_exact_of_member :
    Exact (fun x : Int => lit (toString x)) .ok (.object [(lit "token", .number 7)])
      [⟨[.name (lit "token")], none⟩] := by
  refine (redactTypedFields_exact_iff _ _ _ _ rfl ?_).mpr (.inr ⟨?_, ?_⟩)
  · intro r hr
    rw [List.mem_singleton.mp hr]
    nofun
  · intro r hr
    rw [List.mem_singleton.mp hr]
    exact id
  · intro a ha b hb p q hp hq _
    rw [List.mem_singleton.mp ha] at hp ⊢
    rw [List.mem_singleton.mp hb] at hq ⊢
    exact ⟨Option.some.inj (hp.symm.trans hq), rfl⟩

/-- `toString` is redacted in an object without members. -/
theorem redacts_inherited_name :
    ¬ Exact (fun x : Int => lit (toString x)) .ok (.object [])
      [⟨[.name (lit "toString")], none⟩] := by
  intro h
  have haddress := h.succeeds.mp ⟨.object [(lit "toString", .string (lit "[REDACTED]"))], rfl⟩
  exact absurd (haddress _ List.mem_cons_self) (by decide)

end Redaction

end Pactmark
