import Pactmark.Core.Serialization

/-!
# Core — positions in a JSON value

A position is the list of keys from the root: own members of objects and indices of arrays.
`Json.put` replaces what is at a position and leaves every other one alone:

* `get_put_self`, `label_put`: what it changes, and what it does not.
* `put_comm`: two of them commute unless one position extends the other.
-/

namespace Pactmark

variable {Num : Type}

/-- A step from a value to one of its children. -/
inductive Key where
  | item (index : Nat)
  | member (name : JsString)
  deriving DecidableEq

namespace Json

/-- The child at a key. -/
def child : Json Num → Key → Option (Json Num)
  | .array items, .item i => items[i]?
  | .object members, .member name => members.lookup name
  | _, _ => none

/-- A value with another child at a key that has one. -/
def set : Json Num → Key → Json Num → Json Num
  | .array items, .item i, c => .array (items.set i c)
  | .object members, .member name, c =>
      .object (members.map fun m => if m.1 = name then (m.1, c) else m)
  | v, _, _ => v

/-- What a value is, apart from its children: a scalar, an array of some length, or an object
with some members. -/
def erase : Json Num → Json Num
  | .array items => .array (items.map fun _ => .null)
  | .object members => .object (members.map fun m => (m.1, .null))
  | v => v

/-- What is at a position. -/
def get : Json Num → List Key → Option (Json Num)
  | v, [] => some v
  | v, k :: p => (v.child k).bind (·.get p)

/-- A value with another value at a position it has. -/
def put (x : Json Num) : List Key → Json Num → Json Num
  | [], _ => x
  | k :: p, v =>
      match v.child k with
      | some c => v.set k (put x p c)
      | none => v

/-- What is at a position, apart from its children. -/
def label (v : Json Num) (p : List Key) : Option (Json Num) :=
  (v.get p).map erase

/-! ### One child -/

theorem child_item (items : List (Json Num)) (i : Nat) :
    (array items).child (.item i) = items[i]? :=
  rfl

theorem child_member (members : List (JsString × Json Num)) (name : JsString) :
    (object members).child (.member name) = members.lookup name :=
  rfl

theorem set_item (items : List (Json Num)) (i : Nat) (c : Json Num) :
    (array items).set (.item i) c = .array (items.set i c) :=
  rfl

theorem set_member (members : List (JsString × Json Num)) (name : JsString) (c : Json Num) :
    (object members).set (.member name) c =
      .object (members.map fun m => if m.1 = name then (m.1, c) else m) :=
  rfl

theorem erase_array (items : List (Json Num)) :
    (array items).erase = .array (items.map fun _ => .null) :=
  rfl

theorem erase_object (members : List (JsString × Json Num)) :
    (object members).erase = .object (members.map fun m => (m.1, .null)) :=
  rfl

theorem lookup_replaced {α β : Type} [DecidableEq α] [BEq α] [LawfulBEq α]
    (members : List (α × β)) (name name' : α) (x : β) :
    (members.map fun m => if m.1 = name then (m.1, x) else m).lookup name' =
      if name' = name then (members.lookup name').map fun _ => x else members.lookup name' := by
  induction members with
  | nil => simp
  | cons m members ih =>
      obtain ⟨key, c⟩ := m
      by_cases hkey : key = name
      · subst hkey
        by_cases hname : name' = key
        · subst hname
          simp
        · have hne : (name' == key) = false := by simpa using hname
          simpa [List.lookup_cons, hname, hne] using ih
      · by_cases hname : name' = key
        · subst hname
          simp [hkey]
        · have hne : (name' == key) = false := by simpa using hname
          simpa [List.lookup_cons, hkey, hne] using ih

theorem child_set_self {v c : Json Num} {k : Key} (h : v.child k = some c) (x : Json Num) :
    (v.set k x).child k = some x := by
  cases v with
  | array items =>
      cases k with
      | item i =>
          obtain ⟨hi, -⟩ := List.getElem?_eq_some_iff.mp h
          simp [set_item, child_item, hi]
      | member name => cases h
  | object members =>
      cases k with
      | item i => cases h
      | member name =>
          have hc : members.lookup name = some c := h
          simp [set_member, child_member, lookup_replaced, hc]
  | _ => cases h

theorem child_set_ne {k k' : Key} (v x : Json Num) (h : k' ≠ k) :
    (v.set k x).child k' = v.child k' := by
  cases v with
  | array items =>
      cases k with
      | item i =>
          cases k' with
          | item j =>
              have hij : i ≠ j := fun e => h (by rw [e])
              simp [set_item, child_item, List.getElem?_set_ne hij]
          | member name => rfl
      | member name => rfl
  | object members =>
      cases k with
      | item i => rfl
      | member name =>
          cases k' with
          | item j => rfl
          | member name' =>
              have hn : name' ≠ name := fun e => h (by rw [e])
              simp [set_member, child_member, lookup_replaced, hn]
  | _ => rfl

@[simp] theorem erase_set (v x : Json Num) (k : Key) : (v.set k x).erase = v.erase := by
  cases v with
  | array items =>
      cases k with
      | item i => simp [set_item, erase_array]
      | member name => rfl
  | object members =>
      cases k with
      | item i => rfl
      | member name =>
          simp only [set_member, erase_object, List.map_map, Json.object.injEq]
          refine List.map_congr_left fun m _ => ?_
          by_cases hm : m.1 = name <;> simp [hm]
  | _ => rfl

theorem set_set (v x y : Json Num) (k : Key) : (v.set k x).set k y = v.set k y := by
  cases v with
  | array items =>
      cases k with
      | item i => simp [set_item]
      | member name => rfl
  | object members =>
      cases k with
      | item i => rfl
      | member name =>
          simp only [set_member, List.map_map, Json.object.injEq]
          refine List.map_congr_left fun m _ => ?_
          by_cases hm : m.1 = name <;> simp [hm]
  | _ => rfl

theorem set_comm {k k' : Key} (v x y : Json Num) (h : k' ≠ k) :
    (v.set k x).set k' y = (v.set k' y).set k x := by
  cases v with
  | array items =>
      cases k with
      | item i =>
          cases k' with
          | item j =>
              have hij : i ≠ j := fun e => h (by rw [e])
              simp [set_item, List.set_comm _ _ hij]
          | member name => rfl
      | member name => cases k' <;> rfl
  | object members =>
      cases k with
      | item i => cases k' <;> rfl
      | member name =>
          cases k' with
          | item j => rfl
          | member name' =>
              have hn : name' ≠ name := fun e => h (by rw [e])
              simp only [set_member, List.map_map, Json.object.injEq]
              refine List.map_congr_left fun m _ => ?_
              by_cases hm : m.1 = name
              · simp [hm, hn.symm]
              · by_cases hm' : m.1 = name' <;> simp [hm, hm', hn]
  | _ => rfl

/-! ### One position -/

theorem put_cons {v c : Json Num} {k : Key} (x : Json Num) (p : List Key)
    (h : v.child k = some c) : put x (k :: p) v = v.set k (put x p c) := by
  simp only [put, h]

theorem put_cons_none {v : Json Num} {k : Key} (x : Json Num) (p : List Key)
    (h : v.child k = none) : put x (k :: p) v = v := by
  simp only [put, h]

theorem get_append (v : Json Num) (p q : List Key) :
    v.get (p ++ q) = (v.get p).bind (·.get q) := by
  induction p generalizing v with
  | nil => rfl
  | cons k p ih =>
      rw [List.cons_append, get, get]
      cases hc : v.child k with
      | none => rfl
      | some c => exact ih c

/-- Below a text there is nothing. -/
theorem prefix_of_get_string {v w : Json Num} {p q : List Key} {x : JsString}
    (hp : v.get p = some (.string x)) (hq : v.get q = some w) (h : p <+: q) : p = q := by
  obtain ⟨t, rfl⟩ := h
  rw [get_append, hp, Option.bind_some] at hq
  cases t with
  | nil => simp
  | cons k t => cases hq

theorem get_put_self {v : Json Num} {p : List Key} (x : Json Num) (h : (v.get p).isSome) :
    (put x p v).get p = some x := by
  induction p generalizing v with
  | nil => rfl
  | cons k p ih =>
      cases hc : v.child k with
      | none => simp [get, hc] at h
      | some c =>
          have hp : (c.get p).isSome := by simpa [get, hc] using h
          rw [put_cons x p hc, get, child_set_self hc]
          exact ih hp

/-- What is neither below a position nor above it stays. -/
theorem get_put_ne {v : Json Num} {p q : List Key} (x : Json Num) (hp : ¬ p <+: q)
    (hq : ¬ q <+: p) : (put x p v).get q = v.get q := by
  induction p generalizing v q with
  | nil => exact absurd List.nil_prefix hp
  | cons k p ih =>
      cases q with
      | nil => exact absurd List.nil_prefix hq
      | cons k' q =>
          cases hc : v.child k with
          | none => rw [put_cons_none x p hc]
          | some c =>
              rw [put_cons x p hc, get, get]
              by_cases hk : k' = k
              · subst hk
                rw [child_set_self hc, hc]
                simp only [List.cons_prefix_cons, true_and] at hp hq
                exact ih hp hq
              · rw [child_set_ne v _ hk]

/-- What is not below a position keeps its kind, its length and its members. -/
theorem label_put {v : Json Num} {p q : List Key} (x : Json Num) (h : ¬ p <+: q) :
    (put x p v).label q = v.label q := by
  induction p generalizing v q with
  | nil => exact absurd List.nil_prefix h
  | cons k p ih =>
      cases hc : v.child k with
      | none => rw [put_cons_none x p hc]
      | some c =>
          rw [put_cons x p hc]
          cases q with
          | nil => simp [label, get]
          | cons k' q =>
              by_cases hk : k' = k
              · subst hk
                have hpq : ¬ p <+: q := by simpa using h
                simpa [label, get, child_set_self hc, hc] using ih (v := c) hpq
              · simp [label, get, child_set_ne v _ hk]

/-- Replacing at two positions, neither of which is below the other. -/
theorem put_comm {p q : List Key} (v x y : Json Num) (hp : ¬ p <+: q) (hq : ¬ q <+: p) :
    put y q (put x p v) = put x p (put y q v) := by
  induction p generalizing v q with
  | nil => exact absurd List.nil_prefix hp
  | cons k p ih =>
      cases q with
      | nil => exact absurd List.nil_prefix hq
      | cons k' q =>
          by_cases hk : k' = k
          · subst hk
            cases hc : v.child k' with
            | none => rw [put_cons_none x p hc, put_cons_none y q hc, put_cons_none x p hc]
            | some c =>
                simp only [List.cons_prefix_cons, true_and] at hp hq
                rw [put_cons x p hc, put_cons y q hc, put_cons y q (child_set_self hc _),
                  put_cons x p (child_set_self hc _), set_set, set_set, ih c hp hq]
          · cases hc : v.child k with
            | none =>
                rw [put_cons_none x p hc]
                cases hc' : v.child k' with
                | none => rw [put_cons_none y q hc', put_cons_none x p hc]
                | some c' =>
                    rw [put_cons y q hc', put_cons_none x p]
                    rw [child_set_ne v _ (Ne.symm hk), hc]
            | some c =>
                rw [put_cons x p hc]
                cases hc' : v.child k' with
                | none =>
                    rw [put_cons_none y q hc', put_cons x p hc, put_cons_none]
                    rw [child_set_ne v _ hk, hc']
                | some c' =>
                    rw [put_cons y q hc', put_cons y q (by rw [child_set_ne v _ hk, hc']),
                      put_cons x p (by rw [child_set_ne v _ (Ne.symm hk), hc]),
                      set_comm v _ _ hk]

/-- A position that is not below another one is a position after a replacement there. -/
theorem get_put_isSome {v : Json Num} {p q : List Key} (x : Json Num)
    (h : p <+: q → p = q) (hq : (v.get q).isSome) : ((put x p v).get q).isSome := by
  by_cases hpq : p <+: q
  · obtain rfl := h hpq
    simp [get_put_self x hq]
  · have hl := label_put (v := v) x hpq
    have hs : ((put x p v).label q).isSome := by
      rw [hl]
      simpa [label] using hq
    simpa [label] using hs

end Json

end Pactmark
