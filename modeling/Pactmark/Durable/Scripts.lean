import Mathlib

/-!
# Durable — the tokens of a script

The part of ECMAScript's lexical grammar that calls of functions are written in: names, the
punctuators of calls, member accesses and declarations, and string literals between double quotes.
A script is a list of UTF-16 code units.  Escapes of a digit and of a code point in braces are not
read.

* `Reads`: a script starts with some tokens, whatever comes after them.
* `Reads.trans`: tokens after tokens.
* `string_flatMap`: a string literal is read back from an escaping that is read back unit by unit.
-/

namespace Durable.Script

/-- A token. -/
inductive Token where
  | name (units : List Nat)
  | punctuator (unit : Nat)
  | string (value : List Nat)
  deriving DecidableEq

/-- The value of a hexadecimal digit. -/
def hexadecimal (unit : Nat) : Option Nat :=
  if 48 ≤ unit ∧ unit ≤ 57 then some (unit - 48)
  else if 97 ≤ unit ∧ unit ≤ 102 then some (unit - 87)
  else if 65 ≤ unit ∧ unit ≤ 70 then some (unit - 55)
  else none

/-- What an escape of one unit stands for, other than a digit, `u` or `x`. -/
def escaped (unit : Nat) : List Nat :=
  if unit = 98 then [8]
  else if unit = 102 then [12]
  else if unit = 110 then [10]
  else if unit = 114 then [13]
  else if unit = 116 then [9]
  else if unit = 118 then [11]
  else if unit = 10 ∨ unit = 13 ∨ unit = 0x2028 ∨ unit = 0x2029 then []
  else [unit]

/-- A string literal after its first quote: its value, and what comes after its last one. -/
def string : List Nat → Option (List Nat × List Nat)
  | [] => none
  | 34 :: rest => some ([], rest)
  | 92 :: 117 :: a :: b :: c :: d :: rest =>
      match hexadecimal a, hexadecimal b, hexadecimal c, hexadecimal d with
      | some a, some b, some c, some d =>
          (string rest).map fun p => ((4096 * a + 256 * b + 16 * c + d) :: p.1, p.2)
      | _, _, _, _ => none
  | 92 :: 120 :: a :: b :: rest =>
      match hexadecimal a, hexadecimal b with
      | some a, some b => (string rest).map fun p => ((16 * a + b) :: p.1, p.2)
      | _, _ => none
  | 92 :: 13 :: 10 :: rest => string rest
  | 92 :: unit :: rest =>
      if unit = 117 ∨ unit = 120 ∨ 48 ≤ unit ∧ unit ≤ 57 then none
      else (string rest).map fun p => (escaped unit ++ p.1, p.2)
  | unit :: rest =>
      if unit = 92 ∨ unit = 10 ∨ unit = 13 then none
      else (string rest).map fun p => (unit :: p.1, p.2)

/-- White space and line terminators. -/
def isSpace (unit : Nat) : Bool :=
  unit ∈ [9, 10, 11, 12, 13, 32, 0xa0, 0x2028, 0x2029, 0xfeff]

/-- A letter, a digit, `$` or `_`. -/
def isName (unit : Nat) : Bool :=
  (48 ≤ unit && unit ≤ 57) || (65 ≤ unit && unit ≤ 90) || (97 ≤ unit && unit ≤ 122) ||
    unit == 36 || unit == 95

/-- `(`, `)`, `.`, `;`, `=`, `[` or `]`. -/
def isPunctuator (unit : Nat) : Bool :=
  unit ∈ [40, 41, 46, 59, 61, 91, 93]

/-- The first token, and what comes after it. -/
def next (script : List Nat) : Option (Token × List Nat) :=
  match script.dropWhile isSpace with
  | [] => none
  | unit :: rest =>
      if unit = 34 then (string rest).map fun p => (.string p.1, p.2)
      else if isName unit then
        some (.name ((unit :: rest).takeWhile isName), (unit :: rest).dropWhile isName)
      else if isPunctuator unit then some (.punctuator unit, rest)
      else none

/-- At most so many tokens, and nothing after them. -/
def tokens : Nat → List Nat → Option (List Token)
  | 0, script => if script.dropWhile isSpace = [] then some [] else none
  | fuel + 1, script =>
      if script.dropWhile isSpace = [] then some []
      else
        match next script with
        | none => none
        | some (token, rest) => (tokens fuel rest).map (token :: ·)

variable {script rest later : List Nat} {ts us : List Token} {token : Token}

/-- The script starts with the tokens, and the rest of it comes after them. -/
def Reads (script : List Nat) (ts : List Token) (rest : List Nat) : Prop :=
  ∀ fuel, tokens (ts.length + fuel) script = (tokens fuel rest).map (ts ++ ·)

theorem reads_next (h : next script = some (token, rest)) : Reads script [token] rest := by
  intro fuel
  have hspace : script.dropWhile isSpace ≠ [] := by
    intro hnil
    rw [next, hnil] at h
    cases h
  rw [List.length_singleton, Nat.add_comm, tokens, if_neg hspace, h]
  rfl

/-- **Tokens after tokens.** -/
theorem Reads.trans (h : Reads script ts rest) (h' : Reads rest us later) :
    Reads script (ts ++ us) later := by
  intro fuel
  rw [List.length_append, Nat.add_assoc, h, h', Option.map_map]
  congr 1
  funext l
  simp

/-- A script that ends after its tokens. -/
theorem Reads.tokens (h : Reads script ts []) {fuel : Nat} (hfuel : ts.length ≤ fuel) :
    tokens fuel script = some ts := by
  obtain ⟨more, rfl⟩ := Nat.exists_eq_add_of_le hfuel
  rw [h]
  cases more <;> simp [Script.tokens]

/-- A unit that stands for itself. -/
theorem string_plain {unit : Nat} (hquote : unit ≠ 34) (hescape : unit ≠ 92) (hfeed : unit ≠ 10)
    (hreturn : unit ≠ 13) (rest : List Nat) :
    string (unit :: rest) = (string rest).map fun p => (unit :: p.1, p.2) := by
  have hnone : ¬ (unit = 92 ∨ unit = 10 ∨ unit = 13) := by
    rintro (h | h | h)
    · exact hescape h
    · exact hfeed h
    · exact hreturn h
  rw [string]
  · rw [if_neg hnone]
  · exact hquote
  all_goals
    intros
    contradiction

/-- **A string literal is read back** when every unit of it is. -/
theorem string_flatMap {escape : Nat → List Nat}
    (h : ∀ unit rest, string (escape unit ++ rest) =
      (string rest).map fun p => (unit :: p.1, p.2)) (value rest : List Nat) :
    string (value.flatMap escape ++ 34 :: rest) = some (value, rest) := by
  induction value with
  | nil => rfl
  | cons unit value ih =>
      rw [List.flatMap_cons, List.append_assoc, h, ih]
      rfl

end Durable.Script
