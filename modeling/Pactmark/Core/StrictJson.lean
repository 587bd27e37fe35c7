import Pactmark.Core.Decimals
import Pactmark.Core.Tokens

/-!
# Core — the strict parser and the grammar

`parseJsonStrict` of `core/src/serialization.ts` against the grammar of RFC 8259: it reads the
strict texts, and no others, into their standard values.  The fuel of the parser always lasts.

* `chars_iff`, `readString_outcome`, `readString_str`: strings.
* `readNumber_outcome`, `readNumber_number`: numbers.
* `reader_sound`, `reader_complete`: values, by induction on the fuel.
* `parseJsonStrict_iff`: texts.
-/

namespace Pactmark

open JsString (lit)

open Grammar

variable {Num : Type} {num : NumberFormat Num}

/-! ### Outcomes -/

/-- What a part of the parser answers: a value as stated, or an error of the source. -/
def Outcome {α : Type} (P : α → Prop) : Except ParseFailure α → Prop
  | .ok a => P a
  | .error (.error _) => True
  | .error .outOfFuel => False

section Outcome

variable {α β : Type} {P : α → Prop} {Q : β → Prop} {r : Except ParseFailure α}

theorem Outcome.bind {f : α → Except ParseFailure β} (h : Outcome P r)
    (hf : ∀ a, P a → Outcome Q (f a)) : Outcome Q (r >>= f) := by
  cases r with
  | ok a => exact hf a h
  | error failure =>
    cases failure with
    | error e => trivial
    | outOfFuel => exact h.elim

theorem Outcome.ok {a : α} (h : Outcome P r) (ha : r = .ok a) : P a := by
  rw [ha] at h
  exact h

/-- What the serialization of numbers and strings throws is an error of the source. -/
theorem outcome_raised (checked : Except CanonicalJsonError α) :
    Outcome (fun a => checked = .ok a) (raised checked) := by
  cases checked with
  | ok a => exact rfl
  | error e => trivial

end Outcome

/-! ### White space -/

theorem Cursor.advance_one {c : Cursor} {unit : Nat} {tail : JsString}
    (h : c.rest = unit :: tail) : (c.advance 1).rest = tail := by
  simp only [Cursor.advance, h, List.drop_one, List.tail_cons]

theorem isWhitespace_iff {unit : Nat} :
    isWhitespace unit = true ↔ unit = 0x20 ∨ unit = 0x09 ∨ unit = 0x0a ∨ unit = 0x0d := by
  simp only [isWhitespace, Bool.or_eq_true, beq_iff_eq]
  omega

/-- What `whitespace` leaves: the source behind all of its white space. -/
theorem Cursor.whitespace_sound (c : Cursor) :
    ∃ ws, Whitespace ws ∧ c.rest = ws ++ c.whitespace.rest ∧
      c.whitespace.offset = c.offset + ws.length := by
  refine ⟨c.rest.takeWhile isWhitespace,
    fun unit hunit => isWhitespace_iff.mp (List.mem_takeWhile_imp hunit), ?_, rfl⟩
  exact (List.prefix_iff_eq_append.mp (List.takeWhile_prefix isWhitespace)).symm

theorem Cursor.whitespace_append {ws : JsString} (hws : Whitespace ws) (rest : JsString)
    (hrest : ∀ unit, rest.head? = some unit → isWhitespace unit = false) (o : Nat) :
    (Cursor.mk o (ws ++ rest)).whitespace = ⟨o + ws.length, rest⟩ := by
  have htake : (ws ++ rest).takeWhile isWhitespace = ws := by
    rw [List.takeWhile_append_of_pos fun unit hunit => isWhitespace_iff.mpr (hws unit hunit)]
    cases rest with
    | nil => simp
    | cons unit rest => rw [List.takeWhile_cons_of_neg (by simp [hrest unit rfl]), List.append_nil]
  simp [Cursor.whitespace, Cursor.advance, htake]

/-! ### Strings -/

theorem hexValue_iff {unit value : Nat} : hexValue unit = some value ↔ HexDigit unit value := by
  constructor
  · intro h
    unfold hexValue at h
    split at h
    · rename_i hdigit
      obtain rfl := Option.some.inj h
      exact .digit hdigit
    split at h
    · rename_i hlower
      obtain rfl := Option.some.inj h
      have hvalue : unit - 87 = unit - 0x61 + 10 := by omega
      rw [hvalue]
      exact .lower hlower
    split at h
    · rename_i hupper
      obtain rfl := Option.some.inj h
      have hvalue : unit - 55 = unit - 0x41 + 10 := by omega
      rw [hvalue]
      exact .upper hupper
    · cases h
  · intro h
    unfold hexValue
    cases h with
    | digit h => rw [if_pos h]
    | upper h =>
      rw [if_neg (by omega), if_neg (by omega), if_pos h, Option.some.injEq]
      omega
    | lower h =>
      rw [if_neg (by omega), if_pos h, Option.some.injEq]
      omega

theorem escapedUnit_iff {letter unit : Nat} :
    escapedUnit letter = some unit ↔ Escape letter unit := by
  constructor
  · intro h
    unfold escapedUnit at h
    split at h
    · rename_i hsame
      obtain rfl := Option.some.inj h
      rcases hsame with rfl | rfl | rfl
      · exact .quotation
      · exact .reverseSolidus
      · exact .solidus
    split at h
    · rename_i hletter
      subst hletter
      obtain rfl := Option.some.inj h
      exact .backspace
    split at h
    · rename_i hletter
      subst hletter
      obtain rfl := Option.some.inj h
      exact .formFeed
    split at h
    · rename_i hletter
      subst hletter
      obtain rfl := Option.some.inj h
      exact .lineFeed
    split at h
    · rename_i hletter
      subst hletter
      obtain rfl := Option.some.inj h
      exact .carriageReturn
    split at h
    · rename_i hletter
      subst hletter
      obtain rfl := Option.some.inj h
      exact .tab
    · cases h
  · intro h
    cases h <;> rfl

theorem Grammar.Escape.ne {letter unit : Nat} (h : Escape letter unit) : letter ≠ 117 := by
  cases h <;> decide

theorem parseStringBody_plain {unit : Nat} (h : 32 ≤ unit ∧ unit ≠ 34 ∧ unit ≠ 92)
    (s : JsString) : parseStringBody (unit :: s) = (parseStringBody s).map (unit :: ·) := by
  obtain ⟨hcontrol, hquote, hescape⟩ := h
  rw [parseStringBody.eq_def]
  split <;> simp_all
  split
  · omega
  · rw [Option.map_eq_bind]
    rfl

theorem parseStringBody_control {unit : Nat} (h : unit = 34 ∨ unit ≤ 31) (s : JsString) :
    parseStringBody (unit :: s) = none := by
  have hescape : unit ≠ 92 := by omega
  rw [parseStringBody.eq_def]
  split <;> simp_all
  intro hquote hcontrol
  omega

/-- **What `JSON.parse` makes of a literal** is what the grammar says. -/
theorem chars_iff {body value : JsString} :
    parseStringBody body = some value ↔ Chars body value := by
  constructor
  · intro h
    induction body using parseStringBody.induct generalizing value with
    | case1 =>
      obtain rfl := Option.some.inj h
      exact .nil
    | case2 => cases h
    | case3 a b c d rest ih =>
      simp only [parseStringBody, Option.bind_eq_bind, Option.bind_eq_some_iff] at h
      obtain ⟨x, hx, y, hy, z, hz, w, hw, tail, htail, heq⟩ := h
      obtain rfl := Option.some.inj heq
      exact .unicode (hexValue_iff.mp hx) (hexValue_iff.mp hy) (hexValue_iff.mp hz)
        (hexValue_iff.mp hw) (ih htail)
    | case4 letter rest hne ih =>
      rw [parseStringBody] at h
      · simp only [Option.bind_eq_bind, Option.bind_eq_some_iff] at h
        obtain ⟨unit, hunit, tail, htail, heq⟩ := h
        obtain rfl := Option.some.inj heq
        exact .escaped (escapedUnit_iff.mp hunit) (ih htail)
      · exact hne
    | case5 unit rest _ _ _ hcontrol =>
      rw [parseStringBody_control hcontrol] at h
      cases h
    | case6 unit rest hnil _ hletter hplain ih =>
      have hescape : unit ≠ 92 := by
        intro heq
        cases rest with
        | nil => exact hnil heq rfl
        | cons letter rest => exact hletter letter rest heq rfl
      have hunit : 32 ≤ unit ∧ unit ≠ 34 ∧ unit ≠ 92 := by omega
      rw [parseStringBody_plain hunit, Option.map_eq_some_iff] at h
      obtain ⟨tail, htail, rfl⟩ := h
      exact .unescaped hunit (ih htail)
  · intro h
    induction h with
    | nil => rfl
    | unescaped hunit h ih => rw [parseStringBody_plain hunit, ih, Option.map_some]
    | escaped hletter h ih =>
      rw [parseStringBody, escapedUnit_iff.mpr hletter, ih]
      · rfl
      · intro a b c d rest heq
        exact absurd heq hletter.ne
    | unicode ha hb hc hd h ih =>
      simp only [parseStringBody, hexValue_iff.mpr ha, hexValue_iff.mpr hb, hexValue_iff.mpr hc,
        hexValue_iff.mpr hd, ih]
      rfl

theorem Grammar.HexDigit.plain {unit value : Nat} (h : HexDigit unit value) :
    31 < unit ∧ unit ≠ 34 ∧ unit ≠ 92 := by
  cases h <;> omega

/-- **The scanner finds the closing quote** of a literal of the grammar. -/
theorem scanString_chars {body value : JsString} (h : Chars body value) (o : Nat)
    (rest : JsString) :
    scanString o (body ++ 34 :: rest) = .ok (body, ⟨o + body.length + 1, rest⟩) := by
  induction h generalizing o with
  | nil => simp [scanString]
  | unescaped hunit h ih =>
    rw [List.cons_append, scanString_plain (by omega) hunit.2.1 hunit.2.2, ih]
    simp only [Except.map, List.length_cons]
    congr 3
    omega
  | escaped hletter h ih =>
    rw [List.cons_append, List.cons_append, scanString_escaped, ih]
    simp only [Except.map, List.length_cons]
    congr 3
    omega
  | unicode ha hb hc hd h ih =>
    simp only [List.cons_append]
    rw [scanString_escaped, scanString_plain ha.plain.1 ha.plain.2.1 ha.plain.2.2,
      scanString_plain hb.plain.1 hb.plain.2.1 hb.plain.2.2,
      scanString_plain hc.plain.1 hc.plain.2.1 hc.plain.2.2,
      scanString_plain hd.plain.1 hd.plain.2.1 hd.plain.2.2, ih]
    simp only [Except.map, List.length_cons]
    congr 3
    omega

/-- What the scanner takes is followed by a quote. -/
theorem scanString_outcome (o : Nat) (s : JsString) :
    Outcome (fun p : JsString × Cursor => s = p.1 ++ 34 :: p.2.rest) (scanString o s) := by
  induction o, s using scanString.induct with
  | case1 o => trivial
  | case2 o rest => exact rfl
  | case3 o => trivial
  | case4 o escaped rest ih =>
    rw [scanString]
    exact ih.bind fun p hp => congrArg (92 :: escaped :: ·) hp
  | case5 o unit rest hquote hend hescaped hcontrol =>
    rw [scanString.eq_def]
    split <;> simp_all
    trivial
  | case6 o unit rest hquote hend hescaped hplain ih =>
    have hplain' : 31 < unit ∧ unit ≠ 34 ∧ unit ≠ 92 := by
      refine ⟨by omega, fun h => hquote h, fun h => ?_⟩
      cases rest with
      | nil => exact hend h rfl
      | cons e rest => exact hescaped e rest h rfl
    rw [scanString_plain hplain'.1 hplain'.2.1 hplain'.2.2]
    cases hscan : scanString (o + 1) rest with
    | ok p => exact congrArg (unit :: ·) (ih.ok hscan)
    | error failure =>
      rw [hscan] at ih
      cases failure with
      | error e => trivial
      | outOfFuel => exact ih

/-! ### Surrogates -/

theorem not_low_of_high {unit : Nat} (h : isHighSurrogate unit = true) :
    isLowSurrogate unit = false := by
  simp only [isHighSurrogate, isLowSurrogate, Bool.and_eq_true, decide_eq_true_eq,
    Bool.and_eq_false_iff, decide_eq_false_iff_not] at *
  omega

theorem paired_cons {unit : Nat} {s : JsString} (hhigh : isHighSurrogate unit = false)
    (hlow : isLowSurrogate unit = false) : Paired (unit :: s) ↔ Paired s := by
  constructor
  · rintro ⟨hfirst, hsecond⟩
    refine ⟨fun i u hu hh => hfirst (i + 1) u hu hh, fun i u hu hl => ?_⟩
    obtain ⟨j, previous, hj, hprevious, hph⟩ := hsecond (i + 1) u hu hl
    obtain rfl : i = j := by omega
    cases i with
    | zero =>
      obtain rfl := Option.some.inj hprevious
      rw [hhigh] at hph
      cases hph
    | succ i => exact ⟨i, previous, rfl, hprevious, hph⟩
  · rintro ⟨hfirst, hsecond⟩
    constructor
    · intro i u hu hh
      cases i with
      | zero =>
        obtain rfl := Option.some.inj hu
        rw [hhigh] at hh
        cases hh
      | succ i => exact hfirst i u hu hh
    · intro i u hu hl
      cases i with
      | zero =>
        obtain rfl := Option.some.inj hu
        rw [hlow] at hl
        cases hl
      | succ i =>
        obtain ⟨j, previous, rfl, hprevious, hph⟩ := hsecond i u hu hl
        exact ⟨j + 1, previous, rfl, hprevious, hph⟩

theorem paired_pair {unit next : Nat} {s : JsString} (hhigh : isHighSurrogate unit = true)
    (hlow : isLowSurrogate next = true) : Paired (unit :: next :: s) ↔ Paired s := by
  have hnext : isHighSurrogate next = false := by
    by_contra hne
    rw [not_low_of_high (eq_true_of_ne_false hne)] at hlow
    cases hlow
  constructor
  · rintro ⟨hfirst, hsecond⟩
    refine ⟨fun i u hu hh => hfirst (i + 2) u hu hh, fun i u hu hl => ?_⟩
    obtain ⟨j, previous, hj, hprevious, hph⟩ := hsecond (i + 2) u hu hl
    obtain rfl : i + 1 = j := by omega
    cases i with
    | zero =>
      obtain rfl := Option.some.inj hprevious
      rw [hnext] at hph
      cases hph
    | succ i => exact ⟨i, previous, rfl, hprevious, hph⟩
  · rintro ⟨hfirst, hsecond⟩
    constructor
    · intro i u hu hh
      match i with
      | 0 => exact ⟨next, rfl, hlow⟩
      | 1 =>
        obtain rfl := Option.some.inj hu
        rw [hnext] at hh
        cases hh
      | i + 2 => exact hfirst i u hu hh
    · intro i u hu hl
      match i with
      | 0 =>
        obtain rfl := Option.some.inj hu
        rw [not_low_of_high hhigh] at hl
        cases hl
      | 1 => exact ⟨0, unit, rfl, rfl, hhigh⟩
      | i + 2 =>
        obtain ⟨j, previous, rfl, hprevious, hph⟩ := hsecond i u hu hl
        exact ⟨j + 2, previous, rfl, hprevious, hph⟩

/-- **The check of surrogates** accepts the strings without an unpaired one. -/
theorem assertValidUnicode_iff (path s : JsString) :
    assertValidUnicode path s = .ok () ↔ Paired s := by
  induction s using assertValidUnicode.induct with
  | case1 => simp [assertValidUnicode, Paired]
  | case2 unit hhigh next rest hlow ih =>
    rw [assertValidUnicode, if_pos hhigh, if_pos hlow, ih, paired_pair hhigh hlow]
  | case3 unit hhigh next rest hlow =>
    rw [assertValidUnicode, if_pos hhigh, if_neg hlow]
    refine ⟨by rintro ⟨⟩, fun h => ?_⟩
    obtain ⟨u, hu, hl⟩ := h.1 0 unit rfl hhigh
    obtain rfl := Option.some.inj hu
    exact absurd hl hlow
  | case4 unit hhigh =>
    rw [assertValidUnicode, if_pos hhigh]
    refine ⟨by rintro ⟨⟩, fun h => ?_⟩
    obtain ⟨u, hu, -⟩ := h.1 0 unit rfl hhigh
    cases hu
  | case5 unit rest hhigh hlow =>
    rw [assertValidUnicode.eq_def]
    dsimp only
    rw [if_neg hhigh, if_pos hlow]
    refine ⟨by rintro ⟨⟩, fun h => ?_⟩
    obtain ⟨j, _, hj, -⟩ := h.2 0 unit rfl hlow
    cases hj
  | case6 unit rest hhigh hlow ih =>
    rw [assertValidUnicode.eq_def]
    dsimp only
    rw [if_neg hhigh, if_neg hlow, ih,
      paired_cons (eq_false_of_ne_true hhigh) (eq_false_of_ne_true hlow)]

/-- **A string that is read** is one of the grammar without an unpaired surrogate. -/
theorem readString_outcome (path : JsString) {c : Cursor} (hquote : c.rest.head? = some 34) :
    Outcome (fun p : JsString × Cursor =>
        ∃ text, Str text p.1 ∧ Paired p.1 ∧ c.rest = text ++ p.2.rest)
      (readString path c) := by
  obtain ⟨s, hs⟩ := List.head?_eq_some_iff.mp hquote
  unfold readString
  refine (scanString_outcome (c.offset + 1) (c.rest.drop 1)).bind fun p hp => ?_
  obtain ⟨body, c'⟩ := p
  dsimp only
  cases hbody : parseStringBody body with
  | none => trivial
  | some value =>
    refine (outcome_raised (assertValidUnicode path value)).bind fun u hu => ?_
    refine ⟨34 :: (body ++ [34]), .mk (chars_iff.mp hbody), (assertValidUnicode_iff path _).mp hu,
      ?_⟩
    rw [hs, List.drop_one, List.tail_cons] at hp
    dsimp only at hp
    rw [hs, hp]
    simp

/-- **A string of the grammar** without an unpaired surrogate is read. -/
theorem readString_str {text value : JsString} (h : Str text value) (hpaired : Paired value)
    (path rest : JsString) (o : Nat) :
    readString path ⟨o, text ++ rest⟩ = .ok (value, ⟨o + text.length, rest⟩) := by
  obtain ⟨hchars⟩ := h
  rename_i body
  have hbody : (34 :: (body ++ [34]) ++ rest).drop 1 = body ++ 34 :: rest := by simp
  have hlength : o + (34 :: (body ++ [34])).length = o + 1 + body.length + 1 := by
    simp
    omega
  simp only [readString, hbody, scanString_chars hchars, chars_iff.mpr hchars, bind, Except.bind,
    (assertValidUnicode_iff path value).mpr hpaired, raised, pure, Except.pure, hlength]

/-! ### Numbers -/

/-- A token is strict exactly if the serialization accepts its double, and the check of rounded
integers does. -/
theorem strictNumber_iff {token : JsString} {q : ℚ} (h : Number token q) (path : JsString) :
    StrictNumber num token ↔ num.Accepts (num.parse token) ∧
      assertUnroundedIntegerToken num token (num.parse token)
        (num.stringify (num.parse token)) path = .ok () := by
  have hsafe : (num.isInteger (num.parse token) = true →
      num.isSafeInteger (num.parse token) = false →
        (num.stringify (num.parse token)).any (fun unit => unit == 101 || unit == 69) = true) ↔
      ¬ (num.isInteger (num.parse token) = true ∧ num.isSafeInteger (num.parse token) = false ∧
        ∀ unit ∈ num.stringify (num.parse token), unit ≠ 0x65 ∧ unit ≠ 0x45) := by
    rw [List.any_eq_true]
    constructor
    · rintro hany ⟨hinteger, hunsafe, hnone⟩
      obtain ⟨unit, hunit, hletter⟩ := hany hinteger hunsafe
      have hne := hnone unit hunit
      simp only [Bool.or_eq_true, beq_iff_eq] at hletter
      omega
    · intro hnot hinteger hunsafe
      by_contra hnone
      refine hnot ⟨hinteger, hunsafe, fun unit hunit => ?_⟩
      by_contra hletter
      refine hnone ⟨unit, hunit, ?_⟩
      simp only [Bool.or_eq_true, beq_iff_eq]
      omega
  have hexact : num.isFinite (num.parse token) = true →
      (assertUnroundedIntegerToken num token (num.parse token)
          (num.stringify (num.parse token)) path = .ok () ↔
        (num.isInteger (num.parse token) = true →
          ∃ q, Number token q ∧ Number (num.stringify (num.parse token)) q)) := by
    intro hfinite
    obtain ⟨-, r, hr⟩ := scanNumber_sound (num.scanNumber_stringify _ hfinite)
    have hidentity := identity_eq_iff h hr
    unfold assertUnroundedIntegerToken
    by_cases hinteger : num.isInteger (num.parse token) = true
    · by_cases hsame : q = r
      · simp only [hinteger, hidentity.mpr hsame]
        simp only [Bool.not_true, Bool.false_eq_true, if_false, ne_eq, not_true_eq_false,
          true_iff]
        exact fun _ => ⟨q, h, hsame ▸ hr⟩
      · have hdiffer := (not_congr hidentity).mpr hsame
        simp only [hinteger, Bool.not_true, Bool.false_eq_true, if_false, ne_eq, hdiffer,
          not_false_eq_true, if_true, reduceCtorEq, false_iff, forall_const]
        rintro ⟨p, hp, hp'⟩
        exact hdiffer ((identity_eq_iff hp hp').mpr rfl)
    · simp [hinteger]
  constructor
  · intro hs
    exact ⟨⟨hs.finite, hsafe.mpr hs.safe⟩, (hexact hs.finite).mpr hs.exact⟩
  · rintro ⟨⟨hfinite, hs⟩, hround⟩
    exact ⟨hfinite, hsafe.mp hs, (hexact hfinite).mp hround⟩

/-- **A number that is read** is a strict one of the grammar. -/
theorem readNumber_outcome (path : JsString) (c : Cursor) :
    Outcome (fun p : Num × Cursor => ∃ token q, Number token q ∧ StrictNumber num token ∧
        p.1 = num.parse token ∧ c.rest = token ++ p.2.rest)
      (readNumber num path c) := by
  unfold readNumber
  cases hscan : scanNumber c.rest with
  | none => trivial
  | some scanned =>
    obtain ⟨token, rest⟩ := scanned
    obtain ⟨htext, q, hq⟩ := scanNumber_sound hscan
    dsimp only
    refine (outcome_raised _).bind fun canonicalToken hcanonical => ?_
    obtain ⟨haccepts, rfl⟩ := serializeCanonicalNumber_eq_ok.mp hcanonical
    refine (outcome_raised _).bind fun u hround => ?_
    exact ⟨token, q, hq, (strictNumber_iff hq path).mpr ⟨haccepts, hround⟩, rfl, htext⟩

/-- **A strict number** is read. -/
theorem readNumber_number {token rest : JsString} {q : ℚ} (h : Number token q)
    (hstrict : StrictNumber num token) (hrest : NumberEnds rest) (path : JsString) (o : Nat) :
    readNumber num path ⟨o, token ++ rest⟩ =
      .ok (num.parse token, ⟨o + token.length, rest⟩) := by
  obtain ⟨haccepts, hround⟩ := (strictNumber_iff h path).mp hstrict
  simp only [readNumber, scanNumber_number h hrest,
    serializeCanonicalNumber_eq_ok.mpr ⟨haccepts, rfl⟩, hround, raised, bind, Except.bind, pure,
    Except.pure]

/-! ### What is read -/

/-- What `readValue` reads of a source: white space and a strict value. -/
def ReadsValue (num : NumberFormat Num) (source : JsString) (p : Json Num × Cursor) : Prop :=
  ∃ before text t, Whitespace before ∧ Value text t ∧ Strict num t ∧ p.1 = t.value num ∧
    source = before ++ (text ++ p.2.rest)

/-- What the loop of `readArray` reads: items up to the bracket, after those of before. -/
def ReadsItems (num : NumberFormat Num) (source : JsString) (result : List (Json Num))
    (p : Json Num × Cursor) : Prop :=
  ∃ text ts, Items text ts ∧ (∀ t ∈ ts, Strict num t) ∧
    p.1 = .array (result ++ Json.values num ts) ∧ source = text ++ 93 :: p.2.rest

/-- Members that are strict, under names that differ from each other and from those of before. -/
structure StrictMembers (num : NumberFormat Num) (names : List JsString)
    (members : List (JsString × Json JsString)) : Prop where
  nodup : (members.map Prod.fst).Nodup
  fresh : ∀ member ∈ members, member.1 ∉ names
  paired : ∀ member ∈ members, Paired member.1
  strict : ∀ member ∈ members, Strict num member.2

/-- What the loop of `readObject` reads: members up to the brace, after those of before. -/
def ReadsMembers (num : NumberFormat Num) (source : JsString)
    (result : List (JsString × Json Num)) (p : Json Num × Cursor) : Prop :=
  ∃ text members, Members text members ∧
    StrictMembers num (result.map Prod.fst) members ∧
    p.1 = .object (result ++ Json.memberValues num members) ∧
    source = text ++ 125 :: p.2.rest

theorem strictMembers_nil {names : List JsString} : StrictMembers num names [] :=
  ⟨List.nodup_nil, nofun, nofun, nofun⟩

/-- **One member, and the ones behind it.** -/
theorem strictMembers_cons {names : List JsString} {member : JsString × Json JsString}
    {members : List (JsString × Json JsString)} :
    StrictMembers num names (member :: members) ↔
      member.1 ∉ names ∧ Paired member.1 ∧ Strict num member.2 ∧
        StrictMembers num (names ++ [member.1]) members := by
  constructor
  · rintro ⟨hnodup, hfresh, hpaired, hstrict⟩
    rw [List.map_cons, List.nodup_cons] at hnodup
    refine ⟨hfresh _ List.mem_cons_self, hpaired _ List.mem_cons_self,
      hstrict _ List.mem_cons_self, hnodup.2, fun m hm hname => ?_,
      fun m hm => hpaired m (List.mem_cons_of_mem _ hm),
      fun m hm => hstrict m (List.mem_cons_of_mem _ hm)⟩
    rcases List.mem_append.mp hname with hname | hname
    · exact hfresh m (List.mem_cons_of_mem _ hm) hname
    · exact hnodup.1 (List.mem_singleton.mp hname ▸ List.mem_map_of_mem hm)
  · rintro ⟨hnew, hpaired, hstrict, hmembers⟩
    refine ⟨?_, fun m hm => ?_, fun m hm => ?_, fun m hm => ?_⟩
    · rw [List.map_cons, List.nodup_cons]
      refine ⟨fun hmem => ?_, hmembers.nodup⟩
      obtain ⟨m, hm, heq⟩ := List.mem_map.mp hmem
      exact hmembers.fresh m hm (by simp [heq])
    · rcases List.mem_cons.mp hm with rfl | hm
      · exact hnew
      · exact fun hname => hmembers.fresh m hm (List.mem_append_left _ hname)
    · rcases List.mem_cons.mp hm with rfl | hm
      · exact hpaired
      · exact hmembers.paired m hm
    · rcases List.mem_cons.mp hm with rfl | hm
      · exact hstrict
      · exact hmembers.strict m hm

theorem whitespace_nil : Whitespace [] :=
  fun _ h => absurd h List.not_mem_nil

theorem whitespace_append {ws ws' : JsString} (h : Whitespace ws) (h' : Whitespace ws') :
    Whitespace (ws ++ ws') := by
  intro unit hunit
  rcases List.mem_append.mp hunit with hunit | hunit
  · exact h unit hunit
  · exact h' unit hunit

theorem Grammar.Element.prepend {ws text : JsString} {t : Json JsString} (hws : Whitespace ws)
    (h : Element text t) : Element (ws ++ text) t := by
  obtain ⟨hbefore, hvalue, hafter⟩ := h
  rw [← List.append_assoc]
  exact .mk (whitespace_append hws hbefore) hvalue hafter

theorem Grammar.Items.prepend {ws text : JsString} {ts : List (Json JsString)}
    (hws : Whitespace ws) (h : Items text ts) : Items (ws ++ text) ts := by
  cases h with
  | one h => exact .one (h.prepend hws)
  | more h hs =>
    rw [← List.append_assoc]
    exact .more (h.prepend hws) hs

theorem Grammar.Member.prepend {ws text : JsString} {m : JsString × Json JsString}
    (hws : Whitespace ws) (h : Member text m) : Member (ws ++ text) m := by
  obtain ⟨hbefore, hname, hafter, hvalue⟩ := h
  rw [← List.append_assoc]
  exact .mk (whitespace_append hws hbefore) hname hafter hvalue

theorem Grammar.Members.prepend {ws text : JsString} {ms : List (JsString × Json JsString)}
    (hws : Whitespace ws) (h : Members text ms) : Members (ws ++ text) ms := by
  cases h with
  | one h => exact .one (h.prepend hws)
  | more h hs =>
    rw [← List.append_assoc]
    exact .more (h.prepend hws) hs

/-- What a call of the parser at some fuel reads, of a source that is short enough for it. -/
structure ReaderSound (num : NumberFormat Num) (fuel : Nat) : Prop where
  value : ∀ path c, 2 * c.rest.length < fuel →
    Outcome (ReadsValue num c.rest) (readValue num fuel path c)
  items : ∀ path result c, 2 * c.rest.length + 1 < fuel →
    Outcome (ReadsItems num c.rest result) (readItems num fuel path result c)
  members : ∀ path result c, 2 * c.rest.length + 1 < fuel →
    Outcome (ReadsMembers num c.rest result) (readMembers num fuel path result c)

theorem Outcome.mono {α : Type} {P Q : α → Prop} {r : Except ParseFailure α} (h : Outcome P r)
    (hpq : ∀ a, P a → Q a) : Outcome Q r := by
  cases r with
  | ok a => exact hpq a h
  | error failure =>
    cases failure with
    | error e => trivial
    | outOfFuel => exact h

/-- A literal is taken as it stands. -/
theorem isPrefixOf_drop {s source : JsString} (h : s.isPrefixOf source = true) :
    source = s ++ source.drop s.length :=
  (List.prefix_iff_eq_append.mp (List.isPrefixOf_iff_prefix.mp h)).symm

/-- **The loop of an array** with one more call to spend. -/
theorem ReaderSound.items_succ {fuel : Nat} (h : ReaderSound num fuel) (path : JsString)
    (result : List (Json Num)) (c : Cursor) (hfuel : 2 * c.rest.length + 1 < fuel + 1) :
    Outcome (ReadsItems num c.rest result) (readItems num (fuel + 1) path result c) := by
  rw [readItems]
  refine (h.value _ c (by omega)).bind fun p hp => ?_
  obtain ⟨value, c'⟩ := p
  obtain ⟨before, text, t, hbefore, htext, hstrict, hvalue, hsource⟩ := hp
  dsimp only at hvalue hsource ⊢
  subst hvalue
  obtain ⟨after, hafter, hrest, -⟩ := c'.whitespace_sound
  have helement : Element (before ++ (text ++ after)) t := .mk hbefore htext hafter
  split
  · rename_i hend
    obtain ⟨tail, htail⟩ := List.head?_eq_some_iff.mp hend
    refine ⟨_, [t], .one helement, by simpa using hstrict, rfl, ?_⟩
    simp only [Cursor.advance]
    rw [hsource, hrest, htail]
    simp
  split
  · trivial
  · rename_i hcomma
    obtain ⟨tail, htail⟩ := List.head?_eq_some_iff.mp (not_not.mp hcomma)
    have hadvance : (c'.whitespace.advance 1).rest = tail := Cursor.advance_one htail
    have hlong : c.rest = before ++ (text ++ after) ++ 44 :: tail := by
      rw [hsource, hrest, htail]
      simp
    refine (h.items path _ _ ?_).mono fun p hp => ?_
    · rw [hadvance]
      rw [hlong] at hfuel
      simp only [List.length_append, List.length_cons] at hfuel
      omega
    · obtain ⟨texts, ts, hitems, hstricts, hvalues, hsource'⟩ := hp
      rw [hadvance] at hsource'
      refine ⟨_, t :: ts, .more helement hitems, ?_, ?_, ?_⟩
      · simpa using ⟨hstrict, hstricts⟩
      · rw [hvalues]
        simp [Json.values]
      · rw [hlong, hsource']
        simp

/-- **The loop of an object** with one more call to spend. -/
theorem ReaderSound.members_succ {fuel : Nat} (h : ReaderSound num fuel) (path : JsString)
    (result : List (JsString × Json Num)) (c : Cursor)
    (hfuel : 2 * c.rest.length + 1 < fuel + 1) :
    Outcome (ReadsMembers num c.rest result) (readMembers num (fuel + 1) path result c) := by
  rw [readMembers]
  dsimp only
  obtain ⟨before, hbefore, hrest, -⟩ := c.whitespace_sound
  split
  · trivial
  · rename_i hquote
    refine (readString_outcome _ (not_not.mp hquote)).bind fun p hp => ?_
    obtain ⟨key, c₁⟩ := p
    obtain ⟨name, hname, hpaired, hsource₁⟩ := hp
    dsimp only at hname hpaired hsource₁ ⊢
    split
    · trivial
    · rename_i hfresh
      obtain ⟨after, hafter, hrest₁, -⟩ := c₁.whitespace_sound
      split
      · trivial
      · rename_i hcolon
        obtain ⟨tail, htail⟩ := List.head?_eq_some_iff.mp (not_not.mp hcolon)
        have hadvance : (c₁.whitespace.advance 1).rest = tail := Cursor.advance_one htail
        have hlong : c.rest = before ++ (name ++ (after ++ 58 :: tail)) := by
          rw [hrest, hsource₁, hrest₁, htail]
        refine (h.value _ (c₁.whitespace.advance 1) ?_).bind fun p hp => ?_
        · rw [hadvance]
          rw [hlong] at hfuel
          simp only [List.length_append, List.length_cons] at hfuel
          omega
        · obtain ⟨value, c₂⟩ := p
          obtain ⟨ws, text, t, hws, htext, hstrict, hvalue, hsource₂⟩ := hp
          dsimp only at hvalue hsource₂ ⊢
          subst hvalue
          rw [hadvance] at hsource₂
          obtain ⟨ws', hws', hrest₂, -⟩ := c₂.whitespace_sound
          have hmember : Member (before ++ (name ++ (after ++ 58 :: (ws ++ (text ++ ws')))))
              (key, t) := .mk hbefore hname hafter (.mk hws htext hws')
          have hnew : key ∉ result.map Prod.fst := by
            intro hmem
            obtain ⟨m, hm, heq⟩ := List.mem_map.mp hmem
            exact hfresh (List.any_eq_true.mpr ⟨m, hm, by simp [heq]⟩)
          split
          · rename_i hend
            obtain ⟨tail', htail'⟩ := List.head?_eq_some_iff.mp hend
            refine ⟨_, [(key, t)], .one hmember,
              strictMembers_cons.mpr ⟨hnew, hpaired, hstrict, strictMembers_nil⟩, rfl, ?_⟩
            simp only [Cursor.advance]
            rw [hlong, hsource₂, hrest₂, htail']
            simp
          split
          · trivial
          · rename_i hcomma
            obtain ⟨tail', htail'⟩ := List.head?_eq_some_iff.mp (not_not.mp hcomma)
            have hadvance' : (c₂.whitespace.advance 1).rest = tail' := Cursor.advance_one htail'
            have hlong' : c.rest =
                before ++ (name ++ (after ++ 58 :: (ws ++ (text ++ ws')))) ++ 44 :: tail' := by
              rw [hlong, hsource₂, hrest₂, htail']
              simp
            refine (h.members path _ _ ?_).mono fun p hp => ?_
            · rw [hadvance']
              rw [hlong'] at hfuel
              simp only [List.length_append, List.length_cons] at hfuel
              omega
            · obtain ⟨texts, members, hmembers, hstricts, hvalues, hsource'⟩ := hp
              rw [hadvance'] at hsource'
              rw [List.map_append] at hstricts
              refine ⟨_, (key, t) :: members, .more hmember hmembers,
                strictMembers_cons.mpr ⟨hnew, hpaired, hstrict, hstricts⟩, ?_, ?_⟩
              · rw [hvalues]
                simp [Json.memberValues]
              · rw [hlong', hsource']
                simp

/-- What stands behind an opening bracket or brace. -/
theorem opened {c : Cursor} {unit : Nat} (h : c.rest.head? = some unit) :
    ∃ ws, Whitespace ws ∧ c.rest = unit :: (ws ++ (c.advance 1).whitespace.rest) := by
  obtain ⟨tail, htail⟩ := List.head?_eq_some_iff.mp h
  obtain ⟨ws, hws, hrest, -⟩ := (c.advance 1).whitespace_sound
  have hadvance : (c.advance 1).rest = tail := Cursor.advance_one htail
  refine ⟨ws, hws, ?_⟩
  rw [← hrest, hadvance, htail]

/-- **A value** with one more call to spend. -/
theorem ReaderSound.value_succ {fuel : Nat} (h : ReaderSound num fuel) (path : JsString)
    (c : Cursor) (hfuel : 2 * c.rest.length < fuel + 1) :
    Outcome (ReadsValue num c.rest) (readValue num (fuel + 1) path c) := by
  rw [readValue]
  dsimp only
  obtain ⟨before, hbefore, hrest, -⟩ := c.whitespace_sound
  have hlength : c.whitespace.rest.length ≤ c.rest.length := by
    rw [hrest, List.length_append]
    omega
  split
  · -- A string.
    rename_i hquote
    refine (readString_outcome _ hquote).bind fun p hp => ?_
    obtain ⟨text, htext, hpaired, hsource⟩ := hp
    exact ⟨before, text, .string p.1, hbefore, .string htext, .string hpaired, rfl,
      by rw [hrest, hsource]⟩
  split
  · -- An object.
    rename_i hbrace
    obtain ⟨ws, hws, hopened⟩ := opened hbrace
    split
    · rename_i hend
      obtain ⟨tail, htail⟩ := List.head?_eq_some_iff.mp hend
      refine ⟨before, _, .object [], hbefore, .emptyObject hws,
        .object List.nodup_nil nofun nofun, rfl, ?_⟩
      dsimp only
      rw [Cursor.advance_one htail, hrest, hopened, htail]
      simp
    · refine (h.members path [] _ ?_).mono fun p hp => ?_
      · rw [hopened] at hlength
        simp only [List.length_append, List.length_cons] at hlength
        omega
      · obtain ⟨text, members, hmembers, hstrict, hvalue, hsource⟩ := hp
        refine ⟨before, _, .object members, hbefore, .object (hmembers.prepend hws),
          .object hstrict.nodup hstrict.paired hstrict.strict, hvalue, ?_⟩
        rw [hrest, hopened, hsource]
        simp
  split
  · -- An array.
    rename_i hbracket
    obtain ⟨ws, hws, hopened⟩ := opened hbracket
    split
    · rename_i hend
      obtain ⟨tail, htail⟩ := List.head?_eq_some_iff.mp hend
      refine ⟨before, _, .array [], hbefore, .emptyArray hws, .array nofun, rfl, ?_⟩
      dsimp only
      rw [Cursor.advance_one htail, hrest, hopened, htail]
      simp
    · refine (h.items path [] _ ?_).mono fun p hp => ?_
      · rw [hopened] at hlength
        simp only [List.length_append, List.length_cons] at hlength
        omega
      · obtain ⟨text, items, hitems, hstrict, hvalue, hsource⟩ := hp
        refine ⟨before, _, .array items, hbefore, .array (hitems.prepend hws), .array hstrict,
          hvalue, ?_⟩
        rw [hrest, hopened, hsource]
        simp
  split
  · rename_i htrue
    refine ⟨before, _, .bool true, hbefore, .literalTrue, .bool true, rfl, ?_⟩
    rw [hrest, isPrefixOf_drop htrue]
    rfl
  split
  · rename_i hfalse
    refine ⟨before, _, .bool false, hbefore, .literalFalse, .bool false, rfl, ?_⟩
    rw [hrest, isPrefixOf_drop hfalse]
    rfl
  split
  · rename_i hnull
    refine ⟨before, _, .null, hbefore, .literalNull, .null, rfl, ?_⟩
    rw [hrest, isPrefixOf_drop hnull]
    rfl
  · -- A number.
    refine (readNumber_outcome path c.whitespace).bind fun p hp => ?_
    obtain ⟨token, q, htoken, hstrict, hvalue, hsource⟩ := hp
    refine ⟨before, token, .number token, hbefore, .number htoken, .number hstrict, ?_, ?_⟩
    · exact congrArg Json.number hvalue
    · rw [hrest, hsource]

/-- **What the parser reads is strict JSON**, and its fuel lasts. -/
theorem reader_sound (num : NumberFormat Num) (fuel : Nat) : ReaderSound num fuel := by
  induction fuel with
  | zero => exact ⟨nofun, nofun, nofun⟩
  | succ fuel ih => exact ⟨ih.value_succ, ih.items_succ, ih.members_succ⟩

/-! ### What the parser takes -/

/-- What may follow a value: white space, a separator, or a closing bracket or brace. -/
def Follow (rest : JsString) : Prop :=
  ∀ unit, rest.head? = some unit →
    isWhitespace unit = true ∨ unit = 44 ∨ unit = 93 ∨ unit = 125

theorem Follow.numberEnds {rest : JsString} (h : Follow rest) : NumberEnds rest := by
  intro unit hunit
  rcases h unit hunit with hws | rfl | rfl | rfl
  · rcases isWhitespace_iff.mp hws with rfl | rfl | rfl | rfl <;> decide
  · decide
  · decide
  · decide

theorem follow_append {ws rest : JsString} (hws : Whitespace ws) (h : Follow rest) :
    Follow (ws ++ rest) := by
  cases ws with
  | nil => exact h
  | cons unit ws =>
    intro first hfirst
    obtain rfl := Option.some.inj hfirst
    exact .inl (isWhitespace_iff.mpr (hws unit List.mem_cons_self))

theorem follow_cons {unit : Nat} (h : unit = 44 ∨ unit = 93 ∨ unit = 125) (rest : JsString) :
    Follow (unit :: rest) := by
  intro first hfirst
  obtain rfl := Option.some.inj hfirst
  exact .inr h

/-- A number starts with its sign or a digit. -/
theorem Grammar.Number.head {token : JsString} {q : ℚ} (h : Number token q) :
    ∃ unit tail, token = unit :: tail ∧ (unit = 45 ∨ Digit unit) := by
  have hscan := scanNumber_number h numberEnds_nil
  rw [List.append_nil] at hscan
  obtain ⟨unit, tail, htoken, hunit⟩ := scanNumber_head hscan
  exact ⟨unit, tail, htoken, hunit.imp_right isDigit_iff.mp⟩

/-- A value starts with no white space and with nothing that closes. -/
theorem Grammar.Value.head {text : JsString} {t : Json JsString} (h : Value text t) :
    ∃ unit tail, text = unit :: tail ∧ isWhitespace unit = false ∧ unit ≠ 93 := by
  cases h with
  | literalFalse | literalNull | literalTrue => exact ⟨_, _, rfl, by decide, by decide⟩
  | number h =>
    obtain ⟨unit, tail, rfl, hunit⟩ := h.head
    refine ⟨unit, tail, rfl, ?_, ?_⟩
    · rcases hunit with rfl | hdigit
      · rfl
      · unfold Digit at hdigit
        by_contra hws
        have := isWhitespace_iff.mp (eq_true_of_ne_false hws)
        omega
    · rcases hunit with rfl | hdigit
      · decide
      · unfold Digit at hdigit
        omega
  | string h =>
    obtain ⟨hchars⟩ := h
    exact ⟨_, _, rfl, by decide, by decide⟩
  | emptyArray hws | emptyObject hws => exact ⟨_, _, rfl, by decide, by decide⟩
  | array h | object h => exact ⟨_, _, rfl, by decide, by decide⟩

/-- The cursor at a value, behind the white space before it. -/
theorem Grammar.Value.whitespace {text : JsString} {t : Json JsString} (h : Value text t)
    {before : JsString} (hbefore : Whitespace before) (rest : JsString) (o : Nat) :
    (Cursor.mk o (before ++ (text ++ rest))).whitespace = ⟨o + before.length, text ++ rest⟩ := by
  obtain ⟨unit, tail, rfl, hws, -⟩ := h.head
  refine Cursor.whitespace_append hbefore _ (fun first hfirst => ?_) o
  obtain rfl := Option.some.inj hfirst
  exact hws

/-- Items are white space and items that start with a value. -/
theorem Grammar.Items.start {text : JsString} {ts : List (Json JsString)} (h : Items text ts) :
    ∃ ws rest, Whitespace ws ∧ text = ws ++ rest ∧ Items rest ts ∧
      ∃ unit tail, rest = unit :: tail ∧ isWhitespace unit = false ∧ unit ≠ 93 := by
  cases h with
  | one h =>
    obtain ⟨hbefore, hvalue, hafter⟩ := h
    obtain ⟨unit, tail, rfl, hunit⟩ := hvalue.head
    have helement := Element.mk whitespace_nil hvalue hafter
    exact ⟨_, _, hbefore, rfl, .one helement, unit, _, rfl, hunit⟩
  | more h hs =>
    obtain ⟨hbefore, hvalue, hafter⟩ := h
    obtain ⟨unit, tail, rfl, hunit⟩ := hvalue.head
    have helement := Element.mk whitespace_nil hvalue hafter
    exact ⟨_, _, hbefore, List.append_assoc _ _ _, .more helement hs, unit, _, rfl, hunit⟩

/-- Members are white space and members that start with a string. -/
theorem Grammar.Members.start {text : JsString} {ms : List (JsString × Json JsString)}
    (h : Members text ms) :
    ∃ ws rest, Whitespace ws ∧ text = ws ++ rest ∧ Members rest ms ∧
      ∃ tail, rest = 34 :: tail := by
  cases h with
  | one h =>
    obtain ⟨hbefore, hname, hafter, hvalue⟩ := h
    have hmember := Member.mk whitespace_nil hname hafter hvalue
    obtain ⟨hchars⟩ := hname
    exact ⟨_, _, hbefore, rfl, .one hmember, _, rfl⟩
  | more h hs =>
    obtain ⟨hbefore, hname, hafter, hvalue⟩ := h
    have hmember := Member.mk whitespace_nil hname hafter hvalue
    obtain ⟨hchars⟩ := hname
    exact ⟨_, _, hbefore, List.append_assoc _ _ _, .more hmember hs, _, rfl⟩

/-- What the parser takes at some fuel: every strict text that is short enough for it. -/
structure ReaderComplete (num : NumberFormat Num) (fuel : Nat) : Prop where
  value : ∀ text t, Value text t → Strict num t → ∀ before rest path o, Whitespace before →
    Follow rest → 2 * text.length < fuel → ∃ o',
      readValue num fuel path ⟨o, before ++ (text ++ rest)⟩ = .ok (t.value num, ⟨o', rest⟩)
  items : ∀ text ts, Items text ts → (∀ t ∈ ts, Strict num t) → ∀ rest path result o,
    2 * text.length + 1 < fuel → ∃ o',
      readItems num fuel path result ⟨o, text ++ 93 :: rest⟩ =
        .ok (.array (result ++ Json.values num ts), ⟨o', rest⟩)
  members : ∀ text ms rest path result o, Members text ms →
    StrictMembers num (result.map Prod.fst) ms → 2 * text.length + 1 < fuel → ∃ o',
      readMembers num fuel path result ⟨o, text ++ 125 :: rest⟩ =
        .ok (.object (result ++ Json.memberValues num ms), ⟨o', rest⟩)

/-- **The items of an array** are taken with one more call to spend. -/
theorem ReaderComplete.items_succ {fuel : Nat} (h : ReaderComplete num fuel) {text : JsString}
    {ts : List (Json JsString)} (hitems : Items text ts) (hstrict : ∀ t ∈ ts, Strict num t)
    (rest path : JsString) (result : List (Json Num)) (o : Nat)
    (hfuel : 2 * text.length + 1 < fuel + 1) :
    ∃ o', readItems num (fuel + 1) path result ⟨o, text ++ 93 :: rest⟩ =
      .ok (.array (result ++ Json.values num ts), ⟨o', rest⟩) := by
  rw [readItems]
  cases hitems with
  | one helement =>
    obtain ⟨hbefore, hvalue, hafter⟩ := helement
    rename_i t before text after
    simp only [List.length_append] at hfuel
    obtain ⟨o₁, hread⟩ := h.value text t hvalue (hstrict t List.mem_cons_self) before
      (after ++ 93 :: rest) (indexPath path result.length) o hbefore
      (follow_append hafter (follow_cons (by simp) rest)) (by omega)
    have hws : (Cursor.mk o₁ (after ++ 93 :: rest)).whitespace =
        ⟨o₁ + after.length, 93 :: rest⟩ :=
      Cursor.whitespace_append hafter _ (fun unit hunit => by cases hunit; rfl) o₁
    refine ⟨o₁ + after.length + 1, ?_⟩
    rw [List.append_assoc, List.append_assoc, hread]
    simp only [bind, Except.bind, hws, List.head?_cons, if_true, pure, Except.pure,
      Cursor.advance, List.drop_one, List.tail_cons, Json.values]
  | more helement hs =>
    obtain ⟨hbefore, hvalue, hafter⟩ := helement
    rename_i texts t ts before text after
    simp only [List.length_append, List.length_cons] at hfuel
    obtain ⟨o₁, hread⟩ := h.value text t hvalue (hstrict t List.mem_cons_self) before
      (after ++ 44 :: (texts ++ 93 :: rest)) (indexPath path result.length) o hbefore
      (follow_append hafter (follow_cons (by simp) _)) (by omega)
    have hws : (Cursor.mk o₁ (after ++ 44 :: (texts ++ 93 :: rest))).whitespace =
        ⟨o₁ + after.length, 44 :: (texts ++ 93 :: rest)⟩ :=
      Cursor.whitespace_append hafter _ (fun unit hunit => by cases hunit; rfl) o₁
    obtain ⟨o₂, hreads⟩ := h.items texts ts hs (fun t ht => hstrict t (List.mem_cons_of_mem _ ht))
      rest path (result ++ [t.value num]) (o₁ + after.length + 1) (by omega)
    refine ⟨o₂, ?_⟩
    have hsource : before ++ (text ++ after) ++ 44 :: texts ++ 93 :: rest =
        before ++ (text ++ (after ++ 44 :: (texts ++ 93 :: rest))) := by simp
    rw [hsource, hread]
    simp only [bind, Except.bind, hws, List.head?_cons, Cursor.advance, List.drop_one,
      List.tail_cons]
    rw [if_neg (by decide), if_neg (by decide), hreads]
    simp [Json.values]

theorem Grammar.Str.whitespace {name key before : JsString} (h : Str name key)
    (hbefore : Whitespace before) (rest : JsString) (o : Nat) :
    (Cursor.mk o (before ++ (name ++ rest))).whitespace = ⟨o + before.length, name ++ rest⟩ ∧
      (name ++ rest).head? = some 34 := by
  obtain ⟨hchars⟩ := h
  exact ⟨Cursor.whitespace_append hbefore _ (fun unit hunit => by cases hunit; rfl) o, rfl⟩

/-- **One member of an object** is read up to the separator behind it. -/
theorem ReaderComplete.member {fuel : Nat} (h : ReaderComplete num fuel) {text key tail : JsString}
    {t : Json JsString} {unit : Nat} (path : JsString) (result : List (JsString × Json Num))
    (o : Nat) (hmember : Member text (key, t)) (hnew : key ∉ result.map Prod.fst)
    (hpaired : Paired key) (ht : Strict num t) (hunit : unit = 44 ∨ unit = 93 ∨ unit = 125)
    (hfuel : 2 * text.length < fuel + 2) :
    ∃ o', readMembers num (fuel + 1) path result ⟨o, text ++ unit :: tail⟩ =
      if unit = 125 then .ok (.object (result ++ [(key, t.value num)]), ⟨o' + 1, tail⟩)
      else if unit ≠ 44 then parserFail o' "Expected ',' or '\x7d' in object"
      else readMembers num fuel path (result ++ [(key, t.value num)]) ⟨o' + 1, tail⟩ := by
  obtain ⟨hbefore, hname, hafter, hvalue⟩ := hmember
  rename_i before name after text
  obtain ⟨hws, hvalue, hws'⟩ := hvalue
  rename_i ws text ws'
  have hsource : before ++ (name ++ (after ++ 58 :: (ws ++ (text ++ ws')))) ++ unit :: tail =
      before ++ (name ++ (after ++ 58 :: (ws ++ (text ++ (ws' ++ unit :: tail))))) := by simp
  simp only [List.length_append, List.length_cons] at hfuel
  obtain ⟨hstart, hquote⟩ := hname.whitespace hbefore
    (after ++ 58 :: (ws ++ (text ++ (ws' ++ unit :: tail)))) o
  have hcolon : ∀ o₁, (Cursor.mk o₁
      (after ++ 58 :: (ws ++ (text ++ (ws' ++ unit :: tail))))).whitespace =
        ⟨o₁ + after.length, 58 :: (ws ++ (text ++ (ws' ++ unit :: tail)))⟩ := fun o₁ =>
    Cursor.whitespace_append hafter _ (fun unit hunit => by cases hunit; rfl) o₁
  have hend : ∀ o₁, (Cursor.mk o₁ (ws' ++ unit :: tail)).whitespace =
      ⟨o₁ + ws'.length, unit :: tail⟩ := by
    refine fun o₁ => Cursor.whitespace_append hws' _ (fun first hfirst => ?_) o₁
    obtain rfl := Option.some.inj hfirst
    rcases hunit with rfl | rfl | rfl <;> rfl
  have hfresh : result.any (fun member => member.1 == key) = false := by
    rw [List.any_eq_false]
    intro member hmember heq
    exact hnew (List.mem_map.mpr ⟨member, hmember, by simpa using heq⟩)
  have hname₁ : 2 ≤ name.length := by
    obtain ⟨hchars⟩ := hname
    simp
  obtain ⟨o₁, hread⟩ := h.value text t hvalue ht ws (ws' ++ unit :: tail) (memberPath path key)
    (o + before.length + name.length + after.length + 1) hws
    (follow_append hws' (follow_cons hunit tail)) (by omega)
  refine ⟨o₁ + ws'.length, ?_⟩
  rw [hsource, readMembers]
  dsimp only
  rw [hstart, if_neg (by rw [not_not]; exact hquote)]
  simp only [readString_str hname hpaired, bind, Except.bind, hfresh, Bool.false_eq_true, if_false,
    hcolon, List.head?_cons, Cursor.advance, List.drop_one, List.tail_cons, ne_eq,
    not_true_eq_false, hread, hend, Option.some.injEq, pure, Except.pure]

/-- **The members of an object** are taken with one more call to spend. -/
theorem ReaderComplete.members_succ {fuel : Nat} (h : ReaderComplete num fuel) {text : JsString}
    {ms : List (JsString × Json JsString)} (rest path : JsString)
    (result : List (JsString × Json Num)) (o : Nat) (hmembers : Members text ms)
    (hstrict : StrictMembers num (result.map Prod.fst) ms)
    (hfuel : 2 * text.length + 1 < fuel + 1) :
    ∃ o', readMembers num (fuel + 1) path result ⟨o, text ++ 125 :: rest⟩ =
      .ok (.object (result ++ Json.memberValues num ms), ⟨o', rest⟩) := by
  cases hmembers with
  | one hmember =>
    rename_i member
    obtain ⟨key, t⟩ := member
    obtain ⟨hnew, hpaired, ht, -⟩ := strictMembers_cons.mp hstrict
    obtain ⟨o₁, hread⟩ := h.member path result o hmember hnew hpaired ht (.inr (.inr rfl))
      (by omega)
    exact ⟨o₁ + 1, hread⟩
  | more hmember hs =>
    rename_i text texts member members
    obtain ⟨key, t⟩ := member
    obtain ⟨hnew, hpaired, ht, hrest⟩ := strictMembers_cons.mp hstrict
    simp only [List.length_append, List.length_cons] at hfuel
    obtain ⟨o₁, hread⟩ := h.member path result o hmember hnew hpaired ht (.inl rfl) (by omega)
    obtain ⟨o₂, hreads⟩ := h.members texts members rest path
      (result ++ [(key, t.value num)]) (o₁ + 1) hs (by simpa using hrest) (by omega)
    refine ⟨o₂, ?_⟩
    rw [List.append_assoc, List.cons_append, hread, if_neg (by decide), if_neg (by decide), hreads]
    simp [Json.memberValues]

/-- **A value** is taken with one more call to spend. -/
theorem ReaderComplete.value_succ {fuel : Nat} (h : ReaderComplete num fuel) {text : JsString}
    {t : Json JsString} (hvalue : Value text t) (hstrict : Strict num t) {before rest : JsString}
    (path : JsString) (o : Nat) (hbefore : Whitespace before) (hrest : Follow rest)
    (hfuel : 2 * text.length < fuel + 1) :
    ∃ o', readValue num (fuel + 1) path ⟨o, before ++ (text ++ rest)⟩ =
      .ok (t.value num, ⟨o', rest⟩) := by
  rw [readValue]
  dsimp only
  rw [hvalue.whitespace hbefore]
  cases hvalue with
  | literalFalse => exact ⟨_, rfl⟩
  | literalNull => exact ⟨_, rfl⟩
  | literalTrue => exact ⟨_, rfl⟩
  | number hnumber =>
    have hnum : StrictNumber num text := by
      cases hstrict with
      | number hnum => exact hnum
    have hread := readNumber_number hnumber hnum hrest.numberEnds path (o + before.length)
    obtain ⟨unit, tail, rfl, hunit⟩ := hnumber.head
    have hne : unit ≠ 34 ∧ unit ≠ 123 ∧ unit ≠ 91 ∧ unit ≠ 116 ∧ unit ≠ 102 ∧ unit ≠ 110 := by
      unfold Digit at hunit
      omega
    obtain ⟨h₁, h₂, h₃, h₄, h₅, h₆⟩ := hne
    have hlit : ∀ (first : Nat) (others : JsString), first ≠ unit →
        (first :: others).isPrefixOf (unit :: (tail ++ rest)) = false := by
      intro first others hfirst
      simp [List.isPrefixOf, hfirst]
    have htrue : (lit "true").isPrefixOf (unit :: (tail ++ rest)) = false :=
      hlit 116 [114, 117, 101] h₄.symm
    have hfalse : (lit "false").isPrefixOf (unit :: (tail ++ rest)) = false :=
      hlit 102 [97, 108, 115, 101] h₅.symm
    have hnull : (lit "null").isPrefixOf (unit :: (tail ++ rest)) = false :=
      hlit 110 [117, 108, 108] h₆.symm
    rw [List.cons_append] at hread ⊢
    refine ⟨o + before.length + (unit :: tail).length, ?_⟩
    simp only [List.head?_cons, Option.some.injEq, h₁, h₂, h₃, if_false, htrue, hfalse, hnull,
      Bool.false_eq_true, hread, bind, Except.bind, pure, Except.pure, Json.value]
  | string hstring =>
    rename_i value
    have hpaired : Paired value := by
      cases hstrict with
      | string hpaired => exact hpaired
    have hread := readString_str hstring hpaired path rest (o + before.length)
    have hquote : (text ++ rest).head? = some 34 := by
      obtain ⟨hchars⟩ := hstring
      rfl
    refine ⟨o + before.length + text.length, ?_⟩
    simp only [hquote, if_true, hread, bind, Except.bind, pure, Except.pure, Json.value]
  | emptyArray hws =>
    rename_i ws
    have hopened : (Cursor.mk (o + before.length) (91 :: (ws ++ [93]) ++ rest)).advance 1 =
        ⟨o + before.length + 1, ws ++ 93 :: rest⟩ := by simp [Cursor.advance]
    have hclosed := Cursor.whitespace_append hws (93 :: rest)
      (fun unit hunit => by cases hunit; rfl) (o + before.length + 1)
    refine ⟨o + before.length + 1 + ws.length + 1, ?_⟩
    rw [hopened, hclosed]
    rfl
  | array hitems =>
    rename_i text items
    have hitemsStrict : ∀ item ∈ items, Strict num item := by
      cases hstrict with
      | array hitemsStrict => exact hitemsStrict
    obtain ⟨ws, items', hws, rfl, hitems', unit, tail, rfl, hunit, hne⟩ := hitems.start
    have hopened :
        (Cursor.mk (o + before.length)
          (91 :: (ws ++ (unit :: tail) ++ [93]) ++ rest)).advance 1 =
            ⟨o + before.length + 1, ws ++ (unit :: tail ++ 93 :: rest)⟩ := by
      simp [Cursor.advance]
    have hstart := Cursor.whitespace_append hws (unit :: tail ++ 93 :: rest)
      (fun first hfirst => by cases hfirst; exact hunit) (o + before.length + 1)
    simp only [List.length_append, List.length_cons] at hfuel
    obtain ⟨o', hread⟩ := h.items (unit :: tail) items hitems' hitemsStrict rest path []
      (o + before.length + 1 + ws.length) (by simp; omega)
    refine ⟨o', ?_⟩
    rw [hopened, hstart]
    rw [List.nil_append] at hread
    rw [if_neg (by simp), if_neg (by simp), if_pos (by simp), if_neg (by simpa using hne), hread]
    rfl
  | emptyObject hws =>
    rename_i ws
    have hopened : (Cursor.mk (o + before.length) (123 :: (ws ++ [125]) ++ rest)).advance 1 =
        ⟨o + before.length + 1, ws ++ 125 :: rest⟩ := by simp [Cursor.advance]
    have hclosed := Cursor.whitespace_append hws (125 :: rest)
      (fun unit hunit => by cases hunit; rfl) (o + before.length + 1)
    refine ⟨o + before.length + 1 + ws.length + 1, ?_⟩
    rw [hopened, hclosed]
    rfl
  | object hmembers =>
    rename_i text members
    cases hstrict with
    | object hkeys hpaired hstrict =>
      have hmembersStrict : StrictMembers num ([] : List (JsString × Json Num)).unzip.1 members :=
        ⟨hkeys, fun _ _ => List.not_mem_nil, hpaired, hstrict⟩
      obtain ⟨ws, members', hws, rfl, hmembers', tail, rfl⟩ := hmembers.start
      have hopened :
          (Cursor.mk (o + before.length)
            (123 :: (ws ++ (34 :: tail) ++ [125]) ++ rest)).advance 1 =
              ⟨o + before.length + 1, ws ++ (34 :: tail ++ 125 :: rest)⟩ := by
        simp [Cursor.advance]
      have hstart := Cursor.whitespace_append hws (34 :: tail ++ 125 :: rest)
        (fun first hfirst => by cases hfirst; rfl) (o + before.length + 1)
      simp only [List.length_append, List.length_cons] at hfuel
      obtain ⟨o', hread⟩ := h.members (34 :: tail) members rest path []
        (o + before.length + 1 + ws.length) hmembers' hmembersStrict (by simp; omega)
      refine ⟨o', ?_⟩
      rw [hopened, hstart]
      rw [List.nil_append] at hread
      rw [if_neg (by simp), if_pos (by simp), if_neg (by simp), hread]
      rfl

/-- **The parser takes strict JSON.** -/
theorem reader_complete (num : NumberFormat Num) (fuel : Nat) : ReaderComplete num fuel := by
  induction fuel with
  | zero => exact ⟨nofun, nofun, nofun⟩
  | succ fuel ih =>
    exact ⟨fun text t hvalue hstrict before rest path o hbefore hrest hfuel =>
        ih.value_succ hvalue hstrict path o hbefore hrest hfuel,
      fun text ts hitems hstrict rest path result o hfuel =>
        ih.items_succ hitems hstrict rest path result o hfuel,
      fun text ms rest path result o hmembers hstrict hfuel =>
        ih.members_succ rest path result o hmembers hstrict hfuel⟩

/-- What the strict parser ends with. -/
theorem parseJsonStrict_outcome (num : NumberFormat Num) (source : JsString) :
    Outcome (fun value => ∃ t, Element source t ∧ Strict num t ∧ t.value num = value)
      (parseJsonStrict num source) := by
  unfold parseJsonStrict
  refine ((reader_sound num _).value (lit "$") ⟨0, source⟩ (by simp)).bind fun p hp => ?_
  obtain ⟨before, text, t, hbefore, htext, hstrict, hvalue, hsource⟩ := hp
  obtain ⟨after, hafter, hrest, -⟩ := p.2.whitespace_sound
  dsimp only at hsource ⊢
  split
  · trivial
  · rename_i hend
    rw [not_not.mp hend, List.append_nil] at hrest
    exact ⟨t, hsource ▸ hrest ▸ .mk hbefore htext hafter, hstrict, hvalue.symm⟩

theorem parseJsonStrict_element {num : NumberFormat Num} {source : JsString} {t : Json JsString}
    (helement : Element source t) (hstrict : Strict num t) :
    parseJsonStrict num source = .ok (t.value num) := by
  obtain ⟨hbefore, hvalue, hafter⟩ := helement
  rename_i before text after
  have hfollow : Follow after := by
    have h : Follow (after ++ []) := follow_append hafter (fun _ h => nomatch h)
    rwa [List.append_nil] at h
  have hcomplete := reader_complete num (2 * (before ++ (text ++ after)).length + 2)
  obtain ⟨o', hread⟩ := hcomplete.value text t hvalue hstrict before after (lit "$") 0 hbefore
    hfollow (by simp only [List.length_append]; omega)
  have hws : (Cursor.mk o' after).whitespace = ⟨o' + after.length, []⟩ := by
    have h := Cursor.whitespace_append hafter [] (fun _ h => nomatch h) o'
    rwa [List.append_nil] at h
  simp only [parseJsonStrict, hread, bind, Except.bind, hws]
  rfl

/-- White space after a text does not change what it is read as. -/
theorem parseJsonStrict_append {num : NumberFormat Num} {source ws : JsString} {value : Json Num}
    (hws : Whitespace ws) (h : parseJsonStrict num source = .ok value) :
    parseJsonStrict num (source ++ ws) = .ok value := by
  obtain ⟨t, ⟨hbefore, hvalue, hafter⟩, hstrict, rfl⟩ := (parseJsonStrict_outcome num source).ok h
  refine parseJsonStrict_element ?_ hstrict
  rw [List.append_assoc, List.append_assoc]
  exact .mk hbefore hvalue (whitespace_append hafter hws)

/-- **The strict parser** accepts the strict JSON texts and no others, reads them into their
standard values, and always ends. -/
theorem parseJsonStrict_iff (num : NumberFormat Num) (source : JsString) :
    (∀ value, parseJsonStrict num source = .ok value ↔
      ∃ t, Element source t ∧ Strict num t ∧ t.value num = value) ∧
    parseJsonStrict num source ≠ .error .outOfFuel := by
  have hsound := parseJsonStrict_outcome num source
  constructor
  · intro value
    constructor
    · exact fun h => hsound.ok h
    · rintro ⟨t, helement, hstrict, rfl⟩
      exact parseJsonStrict_element helement hstrict
  · intro h
    rw [h] at hsound
    exact hsound

end Pactmark
