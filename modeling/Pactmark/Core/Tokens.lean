import Pactmark.Core.Serialization
import Pactmark.Durable.Operations

/-!
# Core — tokens are read back

The strict parser reads the numbers and the strings that canonical JSON prints: a number token
ends where a separator follows it (`scanNumber_append`), and the escapes of a string are undone
unit by unit (`readString_stringifyString`).
-/

namespace Pactmark

open JsString (lit)

variable {Num : Type} {num : NumberFormat Num}

theorem lit_injective {s t : String} (h : lit s = lit t) : s = t := by
  have hlist := (List.map_injective_iff.mpr fun _ _ => Char.toNat_inj.mp) h
  exact String.ext hlist

/-- The digits of a number. -/
theorem toDigits_injective {m n : Nat} (h : Nat.toDigits 10 m = Nat.toDigits 10 n) : m = n := by
  rw [← Nat.ofDigitChars_ten_toDigits (n := m), h, Nat.ofDigitChars_ten_toDigits]

theorem natText_injective {m n : Nat} (h : m.repr = n.repr) : m = n := by
  have htext := congrArg String.toList h
  rw [Nat.toList_repr, Nat.toList_repr] at htext
  exact toDigits_injective htext

/-- No text of a natural number starts with a sign. -/
theorem natText_ne_minus (m n : Nat) : m.repr ≠ "-" ++ n.repr := by
  intro h
  have htext := congrArg String.toList h
  rw [Nat.toList_repr, String.toList_append] at htext
  have hsign : '-' ∈ Nat.toDigits 10 m := by
    rw [htext]
    exact List.mem_append_left _ List.mem_cons_self
  have hdigit := Nat.isDigit_of_mem_toDigits (by decide) (by decide) hsign
  exact absurd hdigit (by decide)

theorem intText_injective {e f : Int} (h : e.repr = f.repr) : e = f := by
  cases e with
  | ofNat m =>
    cases f with
    | ofNat n => rw [natText_injective h]
    | negSucc n => exact absurd h (natText_ne_minus m (n + 1))
  | negSucc m =>
    cases f with
    | ofNat n => exact absurd h.symm (natText_ne_minus n (m + 1))
    | negSucc n =>
      have htext := congrArg String.toList h
      simp only [Int.repr, String.toList_append, List.append_cancel_left_eq, Nat.toList_repr]
        at htext
      have hsucc := toDigits_injective htext
      rw [Nat.succ.inj hsucc]

/-- What may follow a value: the end of the source, or a separator. -/
def Delimited (rest : JsString) : Prop :=
  ∀ unit, rest.head? = some unit → unit = 44 ∨ unit = 93 ∨ unit = 125

theorem delimited_nil : Delimited [] := by
  intro unit h
  cases h

theorem Delimited.isDigit_eq {unit : Nat} {rest : JsString} (h : Delimited (unit :: rest)) :
    isDigit unit = false := by
  rcases h unit rfl with rfl | rfl | rfl <;> rfl

theorem Delimited.ne {unit : Nat} {rest : JsString} (h : Delimited (unit :: rest)) :
    unit ≠ 43 ∧ unit ≠ 45 ∧ unit ≠ 46 ∧ unit ≠ 101 ∧ unit ≠ 69 := by
  rcases h unit rfl with rfl | rfl | rfl <;> decide

/-! ### Number tokens -/

section Numbers

variable {rest : JsString}

theorem scanDigits_append (h : Delimited rest) (s : JsString) :
    scanDigits (s ++ rest) = ((scanDigits s).1, (scanDigits s).2 ++ rest) := by
  induction s with
  | nil =>
    cases rest with
    | nil => rfl
    | cons unit rest => simp [scanDigits, h.isDigit_eq]
  | cons unit s ih =>
    simp only [scanDigits, Prod.mk.injEq] at ih
    by_cases hd : isDigit unit <;> simp [scanDigits, hd, ih]

theorem scanSign_append (h : Delimited rest) (s : JsString) :
    scanSign (s ++ rest) = ((scanSign s).1, (scanSign s).2 ++ rest) := by
  cases s with
  | nil =>
    cases rest with
    | nil => rfl
    | cons unit rest => simp [scanSign, h.ne]
  | cons unit s => by_cases hu : unit = 45 <;> simp [scanSign, hu]

theorem scanExponentSign_append (h : Delimited rest) (s : JsString) :
    scanExponentSign (s ++ rest) =
      ((scanExponentSign s).1, (scanExponentSign s).2 ++ rest) := by
  cases s with
  | nil =>
    cases rest with
    | nil => rfl
    | cons unit rest => simp [scanExponentSign, h.ne]
  | cons unit s =>
    by_cases hp : unit = 43
    · simp [scanExponentSign, hp]
    · by_cases hm : unit = 45 <;> simp [scanExponentSign, hp, hm]

theorem scanInteger_append (h : Delimited rest) (s : JsString) :
    scanInteger (s ++ rest) = (scanInteger s).map fun p => (p.1, p.2 ++ rest) := by
  cases s with
  | nil =>
    cases rest with
    | nil => rfl
    | cons unit rest =>
      have hz : unit ≠ 48 := by
        rintro rfl
        exact absurd h.isDigit_eq (by decide)
      simp [scanInteger, hz, h.isDigit_eq]
  | cons unit s =>
    by_cases hz : unit = 48
    · simp [scanInteger, hz]
    · by_cases hd : isDigit unit <;> simp [scanInteger, hz, hd, scanDigits_append h]

theorem scanFraction_append (h : Delimited rest) (s : JsString) :
    scanFraction (s ++ rest) = ((scanFraction s).1, (scanFraction s).2 ++ rest) := by
  cases s with
  | nil =>
    cases rest with
    | nil => rfl
    | cons unit rest => simp [scanFraction, h.ne]
  | cons unit s =>
    simp only [scanFraction, List.cons_append, List.drop_succ_cons, List.drop_zero,
      scanDigits_append h, List.head?_cons]
    split <;> simp

theorem scanExponent_append (h : Delimited rest) (s : JsString) :
    scanExponent (s ++ rest) = ((scanExponent s).1, (scanExponent s).2 ++ rest) := by
  cases s with
  | nil =>
    cases rest with
    | nil => rfl
    | cons unit rest => simp [scanExponent, h.ne]
  | cons unit s =>
    simp only [scanExponent, List.cons_append, scanExponentSign_append h, scanDigits_append h]
    split <;> simp

/-- A separator does not change what the token before it is. -/
theorem scanNumber_append (h : Delimited rest) (s : JsString) :
    scanNumber (s ++ rest) = (scanNumber s).map fun p => (p.1, p.2 ++ rest) := by
  simp only [scanNumber, scanSign_append h, scanInteger_append h]
  cases scanInteger (scanSign s).2 with
  | none => rfl
  | some p => simp [scanFraction_append h, scanExponent_append h]

/-- A number starts with its sign or a digit. -/
theorem scanNumber_head {s token rest : JsString} (h : scanNumber s = some (token, rest)) :
    ∃ unit tail, s = unit :: tail ∧ (unit = 45 ∨ isDigit unit) := by
  cases s with
  | nil => simp [scanNumber, scanSign, scanInteger] at h
  | cons unit tail =>
    refine ⟨unit, tail, rfl, ?_⟩
    by_contra hu
    simp only [not_or] at hu
    have hz : unit ≠ 48 := by
      rintro rfl
      exact hu.2 rfl
    simp [scanNumber, scanSign, scanInteger, hu.1, hu.2, hz] at h

end Numbers

/-- `serializeCanonicalNumber` accepts a number. -/
def NumberFormat.Accepts (num : NumberFormat Num) (x : Num) : Prop :=
  num.isFinite x ∧
    (num.isInteger x = true → num.isSafeInteger x = false →
      (num.stringify x).any (fun unit => unit == 101 || unit == 69) = true)

theorem serializeCanonicalNumber_eq_ok {x : Num} {path s : JsString} :
    serializeCanonicalNumber num x path = .ok s ↔ num.Accepts x ∧ s = num.stringify x := by
  simp only [serializeCanonicalNumber, NumberFormat.Accepts]
  cases hf : num.isFinite x <;> cases hi : num.isInteger x <;>
    cases hs : num.isSafeInteger x <;>
    cases ha : (num.stringify x).any (fun unit => unit == 101 || unit == 69) <;>
    simp [eq_comm]

theorem NumberFormat.Accepts.unsigned {x : Num} (h : num.Accepts x) :
    num.Accepts (num.unsigned x) := by
  simpa [NumberFormat.Accepts, num.isFinite_unsigned, num.isInteger_unsigned,
    num.isSafeInteger_unsigned, num.stringify_unsigned] using h

/-- A printed number is read back. -/
theorem readNumber_stringify {x : Num} (h : num.Accepts x) (hx : num.unsigned x = x)
    {rest : JsString} (hr : Delimited rest) (path : JsString) (o : Nat) :
    readNumber num path ⟨o, num.stringify x ++ rest⟩ =
      .ok (x, ⟨o + (num.stringify x).length, rest⟩) := by
  have hscan : scanNumber (num.stringify x ++ rest) = some (num.stringify x, rest) := by
    rw [scanNumber_append hr, num.scanNumber_stringify x h.1]
    rfl
  have hparse : num.parse (num.stringify x) = x := by rw [num.parse_stringify x h.1, hx]
  have hser : serializeCanonicalNumber num x path = .ok (num.stringify x) :=
    serializeCanonicalNumber_eq_ok.mpr ⟨h, rfl⟩
  simp [readNumber, hscan, hparse, hser, raised, assertUnroundedIntegerToken, bind,
    Except.bind, pure, Except.pure]

/-! ### Strings -/

/-- A string without lone surrogates. -/
def ValidUnicode (s : JsString) : Prop :=
  ∀ path, assertValidUnicode path s = .ok ()

/-- Whether a string is accepted does not depend on the path named in the error. -/
theorem assertValidUnicode_path {path : JsString} (path' : JsString) :
    ∀ {s : JsString}, assertValidUnicode path s = .ok () → assertValidUnicode path' s = .ok ()
  | [], _ => by rw [assertValidUnicode]
  | [unit], h => by
    simp only [assertValidUnicode] at h ⊢
    split_ifs at h ⊢
    simp_all
  | unit :: next :: rest, h => by
    rw [assertValidUnicode] at h ⊢
    split_ifs at h ⊢
    · exact assertValidUnicode_path path' h
    · exact assertValidUnicode_path path' h

theorem quote_eq_ok {value path s : JsString} (h : quote value path = .ok s) :
    ValidUnicode value ∧ s = stringifyString value := by
  obtain ⟨u, hu, h⟩ := Durable.bind_eq_ok.mp h
  cases h
  exact ⟨fun path' => assertValidUnicode_path path' hu, rfl⟩

/-- The scanner passes over a unit it neither stops nor skips at. -/
theorem scanString_plain {unit : Nat} (h₁ : 31 < unit) (h₂ : unit ≠ 34) (h₃ : unit ≠ 92)
    (o : Nat) (s : JsString) :
    scanString o (unit :: s) =
      (scanString (o + 1) s).map fun p => (unit :: p.1, p.2) := by
  rw [scanString.eq_def]
  split <;> simp_all
  split
  · omega
  · cases scanString (o + 1) s <;> rfl

theorem scanString_escaped (letter o : Nat) (s : JsString) :
    scanString o (92 :: letter :: s) =
      (scanString (o + 2) s).map fun p => (92 :: letter :: p.1, p.2) := by
  rw [scanString]
  cases scanString (o + 2) s <;> rfl

theorem hexDigit_plain {n : Nat} (h : n < 16) :
    31 < hexDigit n ∧ hexDigit n ≠ 34 ∧ hexDigit n ≠ 92 := by
  unfold hexDigit
  split <;> omega

theorem hexValue_hexDigit : ∀ n, n < 16 → hexValue (hexDigit n) = some n := by
  decide

/-- What `escapeUnit` prints: a one-letter escape, a hexadecimal one, or the unit itself. -/
theorem escapeUnit_cases (unit : Nat) :
    (∃ letter, escapeUnit unit = [92, letter] ∧ letter ≠ 117 ∧ escapedUnit letter = some unit) ∨
    (unit < 32 ∧ escapeUnit unit =
      [92, 117, 48, 48, hexDigit (unit / 16), hexDigit (unit % 16)]) ∨
    (31 < unit ∧ unit ≠ 34 ∧ unit ≠ 92 ∧ escapeUnit unit = [unit]) := by
  unfold escapeUnit
  split_ifs with h₁ h₂ h₃ h₄ h₅ h₆ h₇ h₈
  · exact .inl ⟨98, by subst h₁; decide⟩
  · exact .inl ⟨116, by subst h₂; decide⟩
  · exact .inl ⟨110, by subst h₃; decide⟩
  · exact .inl ⟨102, by subst h₄; decide⟩
  · exact .inl ⟨114, by subst h₅; decide⟩
  · exact .inl ⟨34, by subst h₆; decide⟩
  · exact .inl ⟨92, by subst h₇; decide⟩
  · exact .inr (.inl ⟨h₈, rfl⟩)
  · exact .inr (.inr ⟨by omega, h₆, h₇, rfl⟩)

theorem scanString_escapeUnit (unit o : Nat) (s : JsString) :
    scanString o (escapeUnit unit ++ s) =
      (scanString (o + (escapeUnit unit).length) s).map fun p =>
        (escapeUnit unit ++ p.1, p.2) := by
  obtain ⟨letter, he, -, -⟩ | ⟨hu, he⟩ | ⟨h₁, h₂, h₃, he⟩ := escapeUnit_cases unit
  · simp [he, scanString_escaped]
  · obtain ⟨a₁, a₂, a₃⟩ := hexDigit_plain (n := unit / 16) (by omega)
    obtain ⟨b₁, b₂, b₃⟩ := hexDigit_plain (n := unit % 16) (by omega)
    simp only [he, List.cons_append, List.nil_append, scanString_escaped,
      scanString_plain (show 31 < 48 by decide) (show 48 ≠ 34 by decide)
        (show 48 ≠ 92 by decide),
      scanString_plain a₁ a₂ a₃, scanString_plain b₁ b₂ b₃, List.length_cons,
      List.length_nil, Nat.add_assoc]
    cases scanString (o + (2 + (1 + (1 + (1 + 1))))) s <;> rfl
  · simp [he, scanString_plain h₁ h₂ h₃]

theorem parseStringBody_escapeUnit (unit : Nat) (s : JsString) :
    parseStringBody (escapeUnit unit ++ s) = (parseStringBody s).map (unit :: ·) := by
  obtain ⟨letter, he, hl, hd⟩ | ⟨hu, he⟩ | ⟨h₁, h₂, h₃, he⟩ := escapeUnit_cases unit
  · have hne : ∀ a b c d rest, letter = 117 → s = a :: b :: c :: d :: rest → False :=
      fun _ _ _ _ _ h => absurd h hl
    rw [he, List.cons_append, List.cons_append, List.nil_append, parseStringBody, hd]
    · simp [Option.map_eq_bind]
    · exact hne
  · have ha := hexValue_hexDigit (unit / 16) (by omega)
    have hb := hexValue_hexDigit (unit % 16) (by omega)
    have hz : hexValue 48 = some 0 := rfl
    have hval : 16 * (unit / 16) + unit % 16 = unit := by omega
    simp only [he, List.cons_append, List.nil_append, parseStringBody, ha, hb, hz]
    cases parseStringBody s <;> simp [hval]
  · rw [he, List.cons_append, List.nil_append, parseStringBody.eq_def]
    split <;> simp_all
    split
    · omega
    · rw [Option.map_eq_bind]
      rfl

theorem scanString_escaped_units (s rest : JsString) (o : Nat) :
    scanString o (s.flatMap escapeUnit ++ 34 :: rest) =
      .ok (s.flatMap escapeUnit, ⟨o + (s.flatMap escapeUnit).length + 1, rest⟩) := by
  induction s generalizing o with
  | nil => simp [scanString]
  | cons unit s ih =>
    rw [List.flatMap_cons, List.append_assoc, scanString_escapeUnit, ih]
    simp [Except.map, Nat.add_assoc]

theorem parseStringBody_escaped_units (s : JsString) :
    parseStringBody (s.flatMap escapeUnit) = some s := by
  induction s with
  | nil => rfl
  | cons unit s ih => rw [List.flatMap_cons, parseStringBody_escapeUnit, ih, Option.map_some]

/-- A printed string is read back. -/
theorem readString_stringifyString {s : JsString} (h : ValidUnicode s) (rest path : JsString)
    (o : Nat) :
    readString path ⟨o, stringifyString s ++ rest⟩ =
      .ok (s, ⟨o + (stringifyString s).length, rest⟩) := by
  have hbody : (stringifyString s ++ rest).drop 1 = s.flatMap escapeUnit ++ 34 :: rest := by
    simp [stringifyString]
  have hlen : o + (stringifyString s).length = o + 1 + (s.flatMap escapeUnit).length + 1 := by
    simp [stringifyString]
    omega
  simp only [readString, hbody, scanString_escaped_units, parseStringBody_escaped_units, hlen,
    h path, raised, bind, Except.bind, pure, Except.pure]

end Pactmark
