import Mathlib.Algebra.Order.Field.Rat
import Mathlib.Tactic.FieldSimp
import Mathlib.Tactic.Linarith
import Mathlib.Tactic.Ring
import Pactmark.Core.Grammar
import Pactmark.Core.Tokens

/-!
# Core — the identity of a decimal

`normalizedDecimalIdentity` of `core/src/serialization.ts` against what a number of the grammar
denotes: two tokens have one identity exactly if they denote one rational number.

* `identity_of_number`: the identity is the sign, the digits without the zeros at either end, and
  the exponent that belongs to them.
* `normal_unique`: a rational number has one such form.
* `identity_eq_iff`: what follows for two tokens.
-/

namespace Pactmark

open JsString (lit)

open Grammar

/-! ### Digits -/

section Digits

variable {digits others rest : JsString}

theorem isDigit_iff {unit : Nat} : isDigit unit = true ↔ Digit unit := by
  simp [isDigit, Digit]

theorem foldl_digits (n : Nat) (digits : JsString) :
    digits.foldl (fun n d => 10 * n + (d - 48)) n =
      n * 10 ^ digits.length + digitsValue digits := by
  unfold digitsValue
  induction digits generalizing n with
  | nil => simp
  | cons d digits ih =>
    simp only [List.foldl_cons, List.length_cons]
    rw [ih (10 * n + (d - 48)), ih (10 * 0 + (d - 48))]
    ring

theorem digitsValue_append (digits others : JsString) :
    digitsValue (digits ++ others) =
      digitsValue digits * 10 ^ others.length + digitsValue others := by
  rw [digitsValue, List.foldl_append, foldl_digits]
  rfl

theorem digitsValue_cons (d : Nat) (digits : JsString) :
    digitsValue (d :: digits) = (d - 48) * 10 ^ digits.length + digitsValue digits := by
  have h := digitsValue_append [d] digits
  simpa [digitsValue] using h

theorem digitsValue_concat (digits : JsString) (d : Nat) :
    digitsValue (digits ++ [d]) = 10 * digitsValue digits + (d - 48) := by
  rw [digitsValue_append]
  simp [digitsValue]
  ring

theorem digitsValue_zeros (k : Nat) : digitsValue (List.replicate k 48) = 0 := by
  induction k with
  | zero => rfl
  | succ k ih => rw [List.replicate_succ, digitsValue_cons, ih, Nat.sub_self, Nat.zero_mul]

theorem digitsValue_dropWhile (digits : JsString) :
    digitsValue (digits.dropWhile (· == 48)) = digitsValue digits := by
  induction digits with
  | nil => rfl
  | cons d digits ih =>
    by_cases hd : d = 48
    · rw [hd, List.dropWhile_cons_of_pos (by simp), ih, digitsValue_cons]
      simp
    · rw [List.dropWhile_cons_of_neg (by simpa using hd)]

/-- **Digits that start with no zero** denote a positive number. -/
theorem digitsValue_pos (hdigits : ∀ d ∈ digits, Digit d) (hne : digits ≠ [])
    (hhead : digits.head? ≠ some 48) : 0 < digitsValue digits := by
  cases digits with
  | nil => exact absurd rfl hne
  | cons d digits =>
    have hd := hdigits d List.mem_cons_self
    have hne48 : d ≠ 48 := fun h => hhead (by rw [h, List.head?_cons])
    unfold Digit at hd
    rw [digitsValue_cons]
    have hpos : 0 < (d - 48) * 10 ^ digits.length :=
      Nat.mul_pos (by omega) (Nat.pow_pos (by decide))
    omega

/-- **Digits that start with no zero** are determined by the number they denote. -/
theorem digitsValue_inj (hdigits : ∀ d ∈ digits, Digit d) (hothers : ∀ d ∈ others, Digit d)
    (hhead : digits.head? ≠ some 48) (hhead' : others.head? ≠ some 48)
    (h : digitsValue digits = digitsValue others) : digits = others := by
  induction digits using List.reverseRecOn generalizing others with
  | nil =>
    by_contra hne
    have hpos := digitsValue_pos hothers (fun heq => hne heq.symm) hhead'
    rw [← h] at hpos
    cases hpos
  | append_singleton digits d ih =>
    rcases List.eq_nil_or_concat' others with rfl | ⟨others, e, rfl⟩
    · have hpos := digitsValue_pos hdigits (by simp) hhead
      rw [h] at hpos
      cases hpos
    · have hd := hdigits d (by simp)
      have he := hothers e (by simp)
      unfold Digit at hd he
      rw [digitsValue_concat, digitsValue_concat] at h
      have hprefix : digitsValue digits = digitsValue others := by omega
      have hlast : d = e := by omega
      have hinit : digits = others := by
        refine ih (fun u hu => hdigits u (by simp [hu])) (fun u hu => hothers u (by simp [hu]))
          (fun hzero => hhead ?_) (fun hzero => hhead' ?_) hprefix
        · rw [List.head?_append, hzero, Option.some_or]
        · rw [List.head?_append, hzero, Option.some_or]
      rw [hinit, hlast]

end Digits

/-! ### What the scanners make of a number -/

section Scanners

variable {text digits minus int frac exp fraction rest : JsString} {negative : Bool}
  {exponent : Int}

theorem scanSign_minus (h : Minus minus negative) (hrest : rest.head? ≠ some 45) :
    scanSign (minus ++ rest) = (minus, rest) := by
  cases h with
  | absent => simp [scanSign, hrest]
  | present => simp [scanSign]

theorem scanDigits_digits (h : ∀ d ∈ digits, Digit d)
    (hrest : ∀ unit, rest.head? = some unit → isDigit unit = false) :
    scanDigits (digits ++ rest) = (digits, rest) := by
  induction digits with
  | nil =>
    cases rest with
    | nil => rfl
    | cons unit rest => simp [scanDigits, hrest unit rfl]
  | cons d digits ih =>
    have hd := isDigit_iff.mpr (h d List.mem_cons_self)
    have htail := ih fun d hd => h d (List.mem_cons_of_mem _ hd)
    simp only [scanDigits, Prod.mk.injEq] at htail
    simp [scanDigits, hd, htail]

theorem Grammar.IntPart.digit (h : IntPart int) : ∀ d ∈ int, Digit d := by
  cases h with
  | zero => simp [Digit]
  | digits hfirst hdigits =>
    intro d hd
    rcases List.mem_cons.mp hd with rfl | hd
    · exact ⟨by omega, hfirst.2⟩
    · exact hdigits d hd

theorem Grammar.IntPart.ne_nil (h : IntPart int) : int ≠ [] := by
  cases h <;> simp

theorem scanInteger_int (h : IntPart int)
    (hrest : ∀ unit, rest.head? = some unit → isDigit unit = false) :
    scanInteger (int ++ rest) = some (int, rest) := by
  cases h with
  | zero => simp [scanInteger]
  | digits hfirst hdigits =>
    rename_i unit digits
    have hscan := scanDigits_digits hdigits hrest
    have hdigit : isDigit unit = true := isDigit_iff.mpr ⟨by omega, hfirst.2⟩
    have hne : unit ≠ 48 := by omega
    simp [scanInteger, hne, hdigit, hscan]

theorem scanFraction_frac (h : Frac frac fraction)
    (hrest : ∀ unit, rest.head? = some unit → isDigit unit = false ∧ unit ≠ 46) :
    scanFraction (frac ++ rest) = (frac, rest) := by
  cases h with
  | absent =>
    have hne : rest.head? ≠ some 46 := fun hhead => (hrest 46 hhead).2 rfl
    simp [scanFraction, hne]
  | present hne hdigits =>
    have hscan := scanDigits_digits hdigits fun unit hunit => (hrest unit hunit).1
    simp [scanFraction, hscan, hne]

theorem scanExponentSign_digits (hne : digits ≠ []) (h : ∀ d ∈ digits, Digit d) :
    scanExponentSign (digits ++ rest) = ([], digits ++ rest) := by
  cases digits with
  | nil => exact absurd rfl hne
  | cons d digits =>
    have hd := h d List.mem_cons_self
    unfold Digit at hd
    have hplus : d ≠ 43 := by omega
    have hminus : d ≠ 45 := by omega
    simp [scanExponentSign, hplus, hminus]

theorem scanExponent_exp (h : Exp exp exponent)
    (hrest : ∀ unit, rest.head? = some unit → isDigit unit = false ∧ unit ≠ 101 ∧ unit ≠ 69) :
    scanExponent (exp ++ rest) = (exp, rest) := by
  have hdigit : ∀ unit, rest.head? = some unit → isDigit unit = false := fun unit hunit =>
    (hrest unit hunit).1
  cases h with
  | absent =>
    cases rest with
    | nil => rfl
    | cons unit rest =>
      have hunit := hrest unit rfl
      simp [scanExponent, hunit.2.1, hunit.2.2]
  | unsigned he hne hdigits =>
    simp [scanExponent, scanExponentSign_digits hne hdigits, scanDigits_digits hdigits hdigit, hne,
      he]
  | plus he hne hdigits =>
    simp [scanExponent, scanExponentSign, scanDigits_digits hdigits hdigit, hne, he]
  | minus he hne hdigits =>
    simp [scanExponent, scanExponentSign, scanDigits_digits hdigits hdigit, hne, he]

/-- An exponent starts with its letter. -/
theorem Grammar.Exp.head (h : Exp exp exponent) :
    exp = [] ∨ ∃ unit tail, exp = unit :: tail ∧ (unit = 101 ∨ unit = 69) := by
  cases h with
  | absent => exact .inl rfl
  | unsigned he | plus he | minus he => exact .inr ⟨_, _, rfl, he⟩

/-- What may follow a number. -/
def NumberEnds (rest : JsString) : Prop :=
  ∀ unit, rest.head? = some unit →
    isDigit unit = false ∧ unit ≠ 46 ∧ unit ≠ 101 ∧ unit ≠ 69

theorem numberEnds_nil : NumberEnds [] := by
  intro unit h
  cases h

theorem exp_append_head (h : Exp exp exponent) (hrest : NumberEnds rest) :
    ∀ unit, (exp ++ rest).head? = some unit → isDigit unit = false ∧ unit ≠ 46 := by
  intro unit hunit
  rcases h.head with rfl | ⟨e, tail, rfl, he⟩
  · exact ⟨(hrest unit hunit).1, (hrest unit hunit).2.1⟩
  · obtain rfl := Option.some.inj hunit
    rcases he with rfl | rfl <;> decide

theorem frac_append_head (hf : Frac frac fraction) (h : Exp exp exponent)
    (hrest : NumberEnds rest) :
    ∀ unit, (frac ++ (exp ++ rest)).head? = some unit → isDigit unit = false := by
  intro unit hunit
  cases hf with
  | absent => exact (exp_append_head h hrest unit hunit).1
  | present hne hdigits =>
    obtain rfl := Option.some.inj hunit
    rfl

theorem int_append_head (h : IntPart int) : (int ++ rest).head? ≠ some 45 := by
  intro hhead
  cases int with
  | nil => exact h.ne_nil rfl
  | cons d int =>
    obtain rfl := Option.some.inj hhead
    have hd := h.digit 45 List.mem_cons_self
    unfold Digit at hd
    omega

/-- **A number is scanned** to its end. -/
theorem scanNumber_number {token : JsString} {q : ℚ} (h : Number token q)
    (hrest : NumberEnds rest) : scanNumber (token ++ rest) = some (token, rest) := by
  obtain ⟨hminus, hint, hfrac, hexp⟩ := h
  simp only [scanNumber, List.append_assoc]
  rw [scanSign_minus hminus (int_append_head hint)]
  dsimp only
  rw [scanInteger_int hint (frac_append_head hfrac hexp hrest)]
  simp only [Option.bind_eq_bind, Option.bind_some]
  rw [scanFraction_frac hfrac (exp_append_head hexp hrest),
    scanExponent_exp hexp fun unit hunit =>
      ⟨(hrest unit hunit).1, (hrest unit hunit).2.2.1, (hrest unit hunit).2.2.2⟩]
  simp

/-! ### What is scanned is a number -/

theorem scanSign_sound (text : JsString) :
    ∃ negative, Minus (scanSign text).1 negative ∧
      text = (scanSign text).1 ++ (scanSign text).2 := by
  unfold scanSign
  split
  · rename_i hhead
    obtain ⟨tail, rfl⟩ := List.head?_eq_some_iff.mp hhead
    exact ⟨true, .present, rfl⟩
  · exact ⟨false, .absent, rfl⟩

theorem scanDigits_sound (text : JsString) :
    (∀ d ∈ (scanDigits text).1, Digit d) ∧ text = (scanDigits text).1 ++ (scanDigits text).2 := by
  refine ⟨fun d hd => isDigit_iff.mp (List.mem_takeWhile_imp hd), ?_⟩
  exact List.takeWhile_append_dropWhile.symm

theorem scanInteger_sound (h : scanInteger text = some (int, rest)) :
    IntPart int ∧ text = int ++ rest := by
  cases text with
  | nil => cases h
  | cons unit tail =>
    rw [scanInteger] at h
    split at h
    · rename_i hzero
      obtain ⟨rfl, rfl⟩ := Prod.mk.inj (Option.some.inj h)
      exact ⟨.zero, by rw [hzero]; rfl⟩
    split at h
    · rename_i hne hdigit
      obtain ⟨rfl, rfl⟩ := Prod.mk.inj (Option.some.inj h)
      have hd := isDigit_iff.mp hdigit
      unfold Digit at hd
      obtain ⟨hdigits, htail⟩ := scanDigits_sound tail
      exact ⟨.digits (by omega) hdigits, congrArg (unit :: ·) htail⟩
    · cases h

theorem scanFraction_sound (text : JsString) :
    ∃ fraction, Frac (scanFraction text).1 fraction ∧
      text = (scanFraction text).1 ++ (scanFraction text).2 := by
  unfold scanFraction
  obtain ⟨hdigits, htail⟩ := scanDigits_sound (text.drop 1)
  dsimp only
  split
  · rename_i hpoint
    obtain ⟨tail, rfl⟩ := List.head?_eq_some_iff.mp hpoint.1
    exact ⟨_, .present hpoint.2 hdigits, congrArg (46 :: ·) htail⟩
  · exact ⟨[], .absent, rfl⟩

theorem scanExponentSign_sound (text : JsString) :
    text = (scanExponentSign text).1 ++ (scanExponentSign text).2 ∧
      ((scanExponentSign text).1 = [43] ∨ (scanExponentSign text).1 = [45] ∨
        (scanExponentSign text).1 = []) := by
  unfold scanExponentSign
  split
  · rename_i hhead
    obtain ⟨tail, rfl⟩ := List.head?_eq_some_iff.mp hhead
    exact ⟨rfl, .inl rfl⟩
  split
  · rename_i hhead
    obtain ⟨tail, rfl⟩ := List.head?_eq_some_iff.mp hhead
    exact ⟨rfl, .inr (.inl rfl)⟩
  · exact ⟨rfl, .inr (.inr rfl)⟩

theorem scanExponent_sound (text : JsString) :
    ∃ exponent, Exp (scanExponent text).1 exponent ∧
      text = (scanExponent text).1 ++ (scanExponent text).2 := by
  cases text with
  | nil => exact ⟨0, .absent, rfl⟩
  | cons unit tail =>
    simp only [scanExponent]
    obtain ⟨hdigits, htail⟩ := scanDigits_sound (scanExponentSign tail).2
    split
    · rename_i hletter
      obtain ⟨hunit, hne⟩ := hletter
      obtain ⟨hsplit, hsign⟩ := scanExponentSign_sound tail
      have htext : unit :: tail =
          unit :: ((scanExponentSign tail).1 ++ (scanDigits (scanExponentSign tail).2).1) ++
            (scanDigits (scanExponentSign tail).2).2 := by
        rw [List.cons_append, List.append_assoc, ← htail, ← hsplit]
      rcases hsign with hsign | hsign | hsign
      · refine ⟨digitsValue (scanDigits (scanExponentSign tail).2).1, ?_, htext⟩
        rw [hsign]
        exact .plus hunit hne hdigits
      · refine ⟨-digitsValue (scanDigits (scanExponentSign tail).2).1, ?_, htext⟩
        rw [hsign]
        exact .minus hunit hne hdigits
      · refine ⟨digitsValue (scanDigits (scanExponentSign tail).2).1, ?_, htext⟩
        rw [hsign]
        exact .unsigned hunit hne hdigits
    · exact ⟨0, .absent, rfl⟩

/-- **What is scanned** is a number, and the text goes on behind it. -/
theorem scanNumber_sound {token : JsString} (h : scanNumber text = some (token, rest)) :
    text = token ++ rest ∧ ∃ q, Number token q := by
  unfold scanNumber at h
  obtain ⟨negative, hminus, htext⟩ := scanSign_sound text
  dsimp only at h
  cases hinteger : scanInteger (scanSign text).2 with
  | none => simp [hinteger] at h
  | some scanned =>
    obtain ⟨int, afterInt⟩ := scanned
    obtain ⟨hint, hafter⟩ := scanInteger_sound hinteger
    obtain ⟨fraction, hfrac, hafterFrac⟩ := scanFraction_sound afterInt
    obtain ⟨exponent, hexp, hafterExp⟩ := scanExponent_sound (scanFraction afterInt).2
    simp only [hinteger, Option.bind_eq_bind, Option.bind_some, Option.pure_def,
      Option.some.injEq, Prod.mk.injEq] at h
    obtain ⟨rfl, rfl⟩ := h
    constructor
    · rw [List.append_assoc, List.append_assoc, List.append_assoc, ← hafterExp, ← hafterFrac,
        ← hafter, ← htext]
    · refine ⟨decimal negative int fraction exponent, ?_⟩
      rw [List.append_assoc, List.append_assoc]
      exact .mk hminus hint hfrac hexp

/-- **The groups of a number** as the normalization takes them. -/
theorem matchDecimal_number (hminus : Minus minus negative) (hint : IntPart int)
    (hfrac : Frac frac fraction) (hexp : Exp exp exponent) :
    matchDecimal (minus ++ (int ++ (frac ++ exp))) =
      some (minus, int, frac.drop 1, exp.drop 1) := by
  have hexp' : exp ++ [] = exp := List.append_nil exp
  have hends : ∀ unit, (frac ++ exp).head? = some unit → isDigit unit = false := by
    have h := frac_append_head hfrac hexp numberEnds_nil
    rwa [hexp'] at h
  have hfracends : ∀ unit, exp.head? = some unit → isDigit unit = false ∧ unit ≠ 46 := by
    have h := exp_append_head hexp numberEnds_nil
    rwa [hexp'] at h
  have hscan : scanExponent exp = (exp, []) := by
    have h : scanExponent (exp ++ []) = (exp, []) := scanExponent_exp hexp nofun
    rwa [hexp'] at h
  simp only [matchDecimal]
  rw [scanSign_minus hminus (int_append_head hint)]
  dsimp only
  rw [scanDigits_digits hint.digit hends]
  dsimp only
  rw [scanFraction_frac hfrac hfracends, hscan]
  simp [hint.ne_nil]

theorem Grammar.Frac.drop (h : Frac frac fraction) :
    frac.drop 1 = fraction ∧ ∀ d ∈ fraction, Digit d := by
  cases h with
  | absent => exact ⟨rfl, nofun⟩
  | present hne hdigits => exact ⟨rfl, hdigits⟩

theorem bigInt_digits (hne : digits ≠ []) (h : ∀ d ∈ digits, Digit d) :
    bigInt digits = digitsValue digits := by
  cases digits with
  | nil => exact absurd rfl hne
  | cons d digits =>
    have hd := h d List.mem_cons_self
    unfold Digit at hd
    unfold bigInt
    split
    · rename_i heq
      obtain ⟨rfl, -⟩ := List.cons.inj heq
      omega
    · rename_i heq
      obtain ⟨rfl, -⟩ := List.cons.inj heq
      omega
    · rfl

theorem Grammar.Exp.bigInt (h : Exp exp exponent) : bigInt (exp.drop 1) = exponent := by
  cases h with
  | absent => rfl
  | unsigned he hne hdigits => exact bigInt_digits hne hdigits
  | plus he hne hdigits => rfl
  | minus he hne hdigits => rfl

end Scanners

/-! ### The identity -/

/-- Digits without a zero at either end. -/
structure Significant (text : JsString) : Prop where
  digits : ∀ d ∈ text, Digit d
  ne_nil : text ≠ []
  head : text.head? ≠ some 48
  last : text.getLast? ≠ some 48

/-- The sign of a number. -/
def signOf (negative : Bool) : ℚ :=
  if negative then -1 else 1

/-- The normal form of a number, printed. -/
def printNormal (negative : Bool) (digits : JsString) (exponent : Int) : JsString :=
  (if negative then [45] else []) ++ digits ++ lit "e" ++ lit (toString exponent)

theorem Significant.pos {digits : JsString} (h : Significant digits) : 0 < digitsValue digits :=
  digitsValue_pos h.digits h.ne_nil h.head

theorem Significant.not_dvd {digits : JsString} (h : Significant digits) :
    ¬ 10 ∣ digitsValue digits := by
  rcases List.eq_nil_or_concat' digits with rfl | ⟨init, d, rfl⟩
  · exact absurd rfl h.ne_nil
  · have hd := h.digits d (by simp)
    have hlast : d ≠ 48 := fun heq => h.last (by rw [heq]; simp)
    unfold Digit at hd
    rw [digitsValue_concat]
    omega

theorem decimal_eq (negative : Bool) (int fraction : JsString) (exponent : Int) :
    decimal negative int fraction exponent =
      signOf negative * digitsValue (int ++ fraction) *
        (10 : ℚ) ^ (exponent - fraction.length) := by
  have hten : (10 : ℚ) ≠ 0 := by norm_num
  rw [decimal, digitsValue_append, zpow_sub₀ hten, zpow_natCast]
  unfold signOf
  push_cast
  field_simp

/-- The digits of a number, without the zeros at its start, and those at its end apart. -/
theorem significant_of_digits {digits : JsString} (h : ∀ d ∈ digits, Digit d)
    (hne : digits.dropWhile (· == 48) ≠ []) :
    ∃ k, Significant ((digits.dropWhile (· == 48)).rdropWhile (· == 48)) ∧
      digits.dropWhile (· == 48) =
        (digits.dropWhile (· == 48)).rdropWhile (· == 48) ++ List.replicate k 48 := by
  have hdigits : ∀ d ∈ digits.dropWhile (· == 48), Digit d := fun d hd =>
    h d ((List.dropWhile_sublist _).mem hd)
  have hhead : (digits.dropWhile (· == 48)).head? ≠ some 48 := by
    intro hzero
    have hnot := List.head?_dropWhile_not (· == 48) digits
    rw [hzero] at hnot
    cases hnot
  generalize digits.dropWhile (· == 48) = coefficient at hne hdigits hhead ⊢
  have hsplit :
      coefficient.rdropWhile (· == 48) ++ coefficient.rtakeWhile (· == 48) = coefficient :=
    List.rdropWhile_append_rtakeWhile
  have hzeros : coefficient.rtakeWhile (· == 48) =
      List.replicate (coefficient.rtakeWhile (· == 48)).length 48 :=
    List.eq_replicate_iff.mpr ⟨rfl, fun d hd => by simpa using List.mem_rtakeWhile_imp hd⟩
  have hsig : coefficient.rdropWhile (· == 48) ≠ [] := by
    intro hnil
    cases coefficient with
    | nil => exact hne rfl
    | cons d tail =>
      have hall := List.rdropWhile_eq_nil_iff.mp hnil d List.mem_cons_self
      exact hhead (by simpa using hall)
  refine ⟨_, ⟨fun d hd => hdigits d ?_, hsig, fun hzero => hhead ?_, fun hzero => ?_⟩,
    hsplit.symm.trans (by rw [← hzeros])⟩
  · exact (List.rdropWhile_prefix _ _).subset hd
  · rw [← hsplit, List.head?_append, hzero, Option.some_or]
  · have hlast := List.rdropWhile_last_not (· == 48) coefficient hsig
    rw [List.getLast?_eq_getLast_of_ne_nil hsig] at hzero
    exact hlast (by simpa using Option.some.inj hzero)

/-- **The identity of a number**: that of zero, or the print of its normal form. -/
theorem identity_of_number {token : JsString} {q : ℚ} (h : Number token q) :
    (q = 0 ∧ normalizedDecimalIdentity token = some (lit "0e0")) ∨
      ∃ negative digits exponent, Significant digits ∧
        q = signOf negative * digitsValue digits * (10 : ℚ) ^ (exponent : ℤ) ∧
        normalizedDecimalIdentity token = some (printNormal negative digits exponent) := by
  obtain ⟨hminus, hint, hfrac, hexp⟩ := h
  rename_i minus int frac exp fraction negative exponent
  obtain ⟨hdrop, hfraction⟩ := hfrac.drop
  have hdigits : ∀ d ∈ int ++ fraction, Digit d := by
    intro d hd
    rcases List.mem_append.mp hd with hd | hd
    · exact hint.digit d hd
    · exact hfraction d hd
  have hsign : minus = if negative then [45] else [] := by
    cases hminus <;> rfl
  rw [decimal_eq, ← digitsValue_dropWhile]
  simp only [normalizedDecimalIdentity, matchDecimal_number hminus hint hfrac hexp, hdrop,
    hexp.bigInt, Option.bind_eq_bind, Option.bind_some, Option.pure_def]
  by_cases hzero : (int ++ fraction).dropWhile (· == 48) = []
  · rw [if_pos hzero]
    refine .inl ⟨?_, rfl⟩
    rw [hzero]
    simp [digitsValue]
  · rw [if_neg hzero]
    obtain ⟨k, hsignificant, hsplit⟩ := significant_of_digits hdigits hzero
    generalize hsig : ((int ++ fraction).dropWhile (· == 48)).rdropWhile (· == 48) = significant
      at hsignificant hsplit ⊢
    refine .inr ⟨negative, significant, exponent - fraction.length + k, hsignificant, ?_, ?_⟩
    · have hten : (10 : ℚ) ≠ 0 := by norm_num
      rw [hsplit, digitsValue_append, digitsValue_zeros, List.length_replicate, Nat.add_zero,
        zpow_add₀ hten, zpow_natCast]
      push_cast
      ring
    · have hk : ((int ++ fraction).dropWhile (· == 48)).length - significant.length = k := by
        rw [hsplit, List.length_append, List.length_replicate]
        omega
      rw [hk, hsign, printNormal]

/-- **A rational number has one normal form.** -/
theorem normal_unique {negative negative' : Bool} {m n : Nat} {e f : ℤ} (hm : ¬ 10 ∣ m)
    (hn : ¬ 10 ∣ n)
    (h : signOf negative * m * (10 : ℚ) ^ e = signOf negative' * n * (10 : ℚ) ^ f) :
    negative = negative' ∧ m = n ∧ e = f := by
  have hmpos : (0 : ℚ) < m := Nat.cast_pos.mpr (Nat.pos_of_ne_zero fun h => hm (h ▸ dvd_zero 10))
  have hnpos : (0 : ℚ) < n := Nat.cast_pos.mpr (Nat.pos_of_ne_zero fun h => hn (h ▸ dvd_zero 10))
  have hepos : (0 : ℚ) < (10 : ℚ) ^ e := zpow_pos (by norm_num) e
  have hfpos : (0 : ℚ) < (10 : ℚ) ^ f := zpow_pos (by norm_num) f
  have hlpos : 0 < (m : ℚ) * 10 ^ e := mul_pos hmpos hepos
  have hrpos : 0 < (n : ℚ) * 10 ^ f := mul_pos hnpos hfpos
  have hsign : negative = negative' ∧ (m : ℚ) * 10 ^ e = n * 10 ^ f := by
    unfold signOf at h
    cases negative <;> cases negative' <;> simp only [Bool.false_eq_true, if_true, if_false] at h
    · exact ⟨rfl, by linarith⟩
    · linarith
    · linarith
    · exact ⟨rfl, by linarith⟩
  obtain ⟨hnegative, hvalue⟩ := hsign
  refine ⟨hnegative, ?_⟩
  -- The side with the smaller exponent has the other's power of ten in its digits.
  have hshift : ∀ {a b : Nat} {x y : ℤ}, x ≤ y → ¬ 10 ∣ a → (a : ℚ) * 10 ^ x = b * 10 ^ y →
      a = b ∧ x = y := by
    intro a b x y hle ha heq
    obtain ⟨k, rfl⟩ := Int.le.dest hle
    have hten : (10 : ℚ) ≠ 0 := by norm_num
    have hx : (10 : ℚ) ^ x ≠ 0 := zpow_ne_zero x hten
    rw [zpow_add₀ hten, zpow_natCast] at heq
    have hcancel : (a : ℚ) = b * 10 ^ k := by
      apply mul_right_cancel₀ hx
      rw [heq]
      ring
    have hnat : a = b * 10 ^ k := by exact_mod_cast hcancel
    cases k with
    | zero => exact ⟨by simpa using hnat, by simp⟩
    | succ k => exact absurd ⟨b * 10 ^ k, by rw [hnat]; ring⟩ ha
  rcases le_total e f with hle | hle
  · exact hshift hle hm hvalue
  · obtain ⟨hnm, hfe⟩ := hshift hle hn hvalue.symm
    exact ⟨hnm.symm, hfe.symm⟩

/-- The place of a unit that occurs first at the end of what is before it. -/
theorem append_cons_inj {unit : Nat} {before before' after after' : JsString}
    (h₁ : unit ∉ before) (h₂ : unit ∉ before')
    (h : before ++ unit :: after = before' ++ unit :: after') :
    before = before' ∧ after = after' := by
  induction before generalizing before' with
  | nil =>
    cases before' with
    | nil => exact ⟨rfl, (List.cons.inj h).2⟩
    | cons x before' =>
      obtain ⟨rfl, -⟩ := List.cons.inj h
      exact absurd List.mem_cons_self h₂
  | cons x before ih =>
    cases before' with
    | nil =>
      obtain ⟨rfl, -⟩ := List.cons.inj h
      exact absurd List.mem_cons_self h₁
    | cons y before' =>
      obtain ⟨rfl, htail⟩ := List.cons.inj h
      obtain ⟨rfl, hafter⟩ := ih (fun hu => h₁ (List.mem_cons_of_mem _ hu))
        (fun hu => h₂ (List.mem_cons_of_mem _ hu)) htail
      exact ⟨rfl, hafter⟩

theorem Significant.cons {digits : JsString} (h : Significant digits) :
    ∃ d tail, digits = d :: tail ∧ 48 < d := by
  cases digits with
  | nil => exact absurd rfl h.ne_nil
  | cons d tail =>
    have hd := h.digits d List.mem_cons_self
    have hne : d ≠ 48 := fun heq => h.head (by rw [heq, List.head?_cons])
    unfold Digit at hd
    exact ⟨d, tail, rfl, by omega⟩

/-- **A normal form is determined by its print.** -/
theorem printNormal_inj {negative negative' : Bool} {digits others : JsString} {e f : ℤ}
    (hd : Significant digits) (ho : Significant others)
    (h : printNormal negative digits e = printNormal negative' others f) :
    negative = negative' ∧ digits = others ∧ e = f := by
  have hletter : ∀ {n : Bool} {ds : JsString}, Significant ds →
      101 ∉ (if n then [45] else []) ++ ds := by
    intro n ds hs hmem
    rcases List.mem_append.mp hmem with hsign | hdigit
    · cases n <;> simp at hsign
    · have h101 := hs.digits 101 hdigit
      unfold Digit at h101
      omega
  unfold printNormal at h
  rw [List.append_assoc, List.append_assoc (_ ++ others)] at h
  obtain ⟨hfront, hexponent⟩ := append_cons_inj (hletter hd) (hletter ho) h
  have he : e = f := intText_injective (lit_injective hexponent)
  obtain ⟨d, tail, rfl, hdpos⟩ := hd.cons
  obtain ⟨d', tail', rfl, hdpos'⟩ := ho.cons
  cases negative <;> cases negative' <;>
    simp only [Bool.false_eq_true, if_true, if_false, List.nil_append, List.cons_append,
      List.cons.injEq] at hfront
  · exact ⟨rfl, by rw [hfront.1, hfront.2], he⟩
  · omega
  · omega
  · exact ⟨rfl, by rw [hfront.2.1, hfront.2.2], he⟩

/-- No normal form prints as zero. -/
theorem printNormal_ne_zero {negative : Bool} {digits : JsString} {e : ℤ}
    (h : Significant digits) : printNormal negative digits e ≠ lit "0e0" := by
  obtain ⟨d, tail, rfl, hd⟩ := h.cons
  intro heq
  have hzero : lit "0e0" = [48, 101, 48] := rfl
  rw [hzero, printNormal] at heq
  cases negative <;>
    simp only [Bool.false_eq_true, if_true, if_false, List.nil_append, List.cons_append,
      List.cons.injEq] at heq
  · omega
  · omega

/-- No normal form denotes zero. -/
theorem normal_ne_zero {negative : Bool} {digits : JsString} {e : ℤ} (h : Significant digits) :
    signOf negative * digitsValue digits * (10 : ℚ) ^ e ≠ 0 := by
  have hdigits : (digitsValue digits : ℚ) ≠ 0 := Nat.cast_ne_zero.mpr h.pos.ne'
  have hsign : signOf negative ≠ 0 := by
    cases negative <;> simp [signOf]
  exact mul_ne_zero (mul_ne_zero hsign hdigits) (zpow_ne_zero e (by norm_num))

/-- **Two tokens have one identity** exactly if they denote one number. -/
theorem identity_eq_iff {token token' : JsString} {q r : ℚ} (h : Number token q)
    (h' : Number token' r) :
    normalizedDecimalIdentity token = normalizedDecimalIdentity token' ↔ q = r := by
  rcases identity_of_number h with ⟨hq, hi⟩ | ⟨negative, digits, e, hs, hq, hi⟩ <;>
    rcases identity_of_number h' with ⟨hr, hi'⟩ | ⟨negative', digits', f, hs', hr, hi'⟩ <;>
    rw [hi, hi', Option.some.injEq, hq, hr]
  · simp
  · exact ⟨fun heq => absurd heq.symm (printNormal_ne_zero hs'),
      fun heq => absurd heq.symm (normal_ne_zero hs')⟩
  · exact ⟨fun heq => absurd heq (printNormal_ne_zero hs),
      fun heq => absurd heq (normal_ne_zero hs)⟩
  · constructor
    · intro heq
      obtain ⟨rfl, rfl, rfl⟩ := printNormal_inj hs hs' heq
      rfl
    · intro heq
      obtain ⟨rfl, hvalue, rfl⟩ := normal_unique hs.not_dvd hs'.not_dvd heq
      rw [digitsValue_inj hs.digits hs'.digits hs.head hs'.head hvalue]

/-- A token denotes one number. -/
theorem Grammar.Number.unique {token : JsString} {q r : ℚ} (h : Number token q)
    (h' : Number token r) : q = r :=
  (identity_eq_iff h h').mp rfl

/-- **The identity of a decimal is exact**: two numbers of the grammar have the same one if and
only if they denote the same rational number. -/
theorem normalizedDecimalIdentity_exact {t u : JsString} (ht : ∃ q, Number t q)
    (hu : ∃ q, Number u q) :
    normalizedDecimalIdentity t = normalizedDecimalIdentity u ↔
      ∀ q, Number t q ↔ Number u q := by
  obtain ⟨q, hq⟩ := ht
  obtain ⟨r, hr⟩ := hu
  rw [identity_eq_iff hq hr]
  constructor
  · rintro rfl p
    constructor
    · intro hp
      rwa [hp.unique hq]
    · intro hp
      rwa [hp.unique hr]
  · intro h
    exact ((h q).mp hq).unique hr

/-- `1.50e1` and `15`. -/
theorem normalizedDecimalIdentity_exact_fifteen :
    normalizedDecimalIdentity (lit "1.50e1") = normalizedDecimalIdentity (lit "15") := by
  have hfifteen : Number (lit "15") 15 := by
    have hint : IntPart [49, 53] := .digits (by decide) (by decide)
    have h := Number.mk .absent hint .absent .absent
    norm_num [decimal, digitsValue] at h
    exact h
  have hexponent : Number (lit "1.50e1") 15 := by
    have hint : IntPart [49] := .digits (by decide) (by decide)
    have hfrac : Frac [46, 53, 48] [53, 48] := .present (by decide) (by decide)
    have hexp : Exp [101, 49] 1 := .unsigned (.inl rfl) (by decide) (by decide)
    have h := Number.mk .absent hint hfrac hexp
    norm_num [decimal, digitsValue] at h
    exact h
  refine (normalizedDecimalIdentity_exact ⟨15, hexponent⟩ ⟨15, hfifteen⟩).mpr fun q => ?_
  exact ⟨fun hq => hq.unique hexponent ▸ hfifteen, fun hq => hq.unique hfifteen ▸ hexponent⟩

/-- Zero has no sign. -/
example : normalizedDecimalIdentity (lit "-0") = normalizedDecimalIdentity (lit "0.0e7") := by
  decide

end Pactmark
