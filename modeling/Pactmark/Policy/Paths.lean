import Mathlib.Logic.Relation
import Pactmark.Core.Capability
import Pactmark.Core.Encodings
import Pactmark.Durable.Operations
import Pactmark.Durable.Segments

/-!
# Policy — resource paths

The paths of `policy/src/canonicalization.ts`: those of a package, which are decoded and compared
by their text, and those that the host has resolved.  A text is its UTF-16 code units.  The
normalization form C of Unicode is a parameter.

* `decodeURIComponent_fixed_iff`: nothing is left to decode where there is no percent sign.
* `canonicalizeResourcePath_ok`: which texts have a canonical path.
* `canonicalizeResourcePath_sound_iff`: when a canonical path is canonical itself.
* `isResourceWithinScope_iff`, `assertResolvedPathWithinRoot_iff`: containment is that of segments.
-/

namespace Pactmark

open Durable
open JsString (lit)

namespace Paths

/-! ### Texts -/

/-- `String.prototype.normalize("NFC")`.  The percent sign is no normal form of another text. -/
structure Unicode where
  nfc : JsString → JsString
  percent : ∀ text : JsString, 37 ∉ text → 37 ∉ nfc text

/-- `PolicyNormalizationError`. -/
structure PolicyNormalizationError where
  reason : String
  deriving DecidableEq, Repr

/-- The code points of a text; a lone surrogate is one of its own. -/
def codePoints : JsString → List Nat
  | [] => []
  | unit :: rest =>
    if isHighSurrogate unit then
      match rest with
      | next :: rest =>
        if isLowSurrogate next then
          (0x10000 + (unit - 0xd800) * 0x400 + (next - 0xdc00)) :: codePoints rest
        else unit :: codePoints (next :: rest)
      | [] => [unit]
    else unit :: codePoints rest

/-- `\p{Cc}` -/
def isControl (point : Nat) : Bool :=
  point < 0x20 || (0x7f ≤ point && point ≤ 0x9f)

/-- The ranges of `\p{Cf}`. -/
def formatRanges : List (Nat × Nat) :=
  [(0xad, 0xad), (0x600, 0x605), (0x61c, 0x61c), (0x6dd, 0x6dd), (0x70f, 0x70f), (0x890, 0x891),
    (0x8e2, 0x8e2), (0x180e, 0x180e), (0x200b, 0x200f), (0x202a, 0x202e), (0x2060, 0x2064),
    (0x2066, 0x206f), (0xfeff, 0xfeff), (0xfff9, 0xfffb), (0x110bd, 0x110bd), (0x110cd, 0x110cd),
    (0x13430, 0x1343f), (0x1bca0, 0x1bca3), (0x1d173, 0x1d17a), (0xe0001, 0xe0001),
    (0xe0020, 0xe007f)]

/-- `\p{Cf}` -/
def isFormat (point : Nat) : Bool :=
  formatRanges.any fun range => range.1 ≤ point && point ≤ range.2

/-- `/\p{Cc}|\p{Cf}/u.test(value)` -/
def hasControls (value : JsString) : Bool :=
  (codePoints value).any fun point => isControl point || isFormat point

/-- `rejectControls`. -/
def rejectControls (value : JsString) : Except PolicyNormalizationError Unit :=
  if hasControls value then .error ⟨"Control and format characters are not permitted"⟩ else .ok ()

/-- `normalizedText`. -/
def normalizedText (U : Unicode) (value : JsString) : Except PolicyNormalizationError JsString := do
  let normalized := U.nfc value
  rejectControls normalized
  return normalized

/-! ### Percent decoding -/

/-- A unit of a text, or an octet that is written with a percent sign. -/
inductive UriToken where
  | unit (unit : Nat)
  | octet (byte : Nat)
  deriving DecidableEq, Repr

/-- The tokens of a text, if every percent sign is followed by two hexadecimal digits. -/
def uriTokens : JsString → Option (List UriToken)
  | [] => some []
  | unit :: rest =>
    if unit = 37 then
      match rest with
      | high :: low :: rest =>
        match hexValue high, hexValue low with
        | some h, some l => (uriTokens rest).map (.octet (16 * h + l) :: ·)
        | _, _ => none
      | _ => none
    else (uriTokens rest).map (.unit unit :: ·)

/-- An octet that continues a code point. -/
def trailing (byte : Nat) : Bool :=
  0x80 ≤ byte && byte ≤ 0xbf

/-- The text of tokens, if the octets between two units are UTF-8. -/
def decodeTokens : List UriToken → Option JsString
  | [] => some []
  | .unit unit :: rest => (decodeTokens rest).map (unit :: ·)
  | .octet a :: rest =>
    if a < 0x80 then (decodeTokens rest).map (a :: ·)
    else if 0xc2 ≤ a ∧ a ≤ 0xdf then
      match rest with
      | .octet b :: rest =>
        if trailing b then
          (decodeTokens rest).map (codePointUnits (a % 0x20 * 0x40 + b % 0x40) ++ ·)
        else none
      | _ => none
    else if 0xe0 ≤ a ∧ a ≤ 0xef then
      match rest with
      | .octet b :: .octet c :: rest =>
        if trailing b && trailing c && (a != 0xe0 || 0xa0 ≤ b) && (a != 0xed || b ≤ 0x9f) then
          (decodeTokens rest).map
            (codePointUnits ((a % 0x10 * 0x40 + b % 0x40) * 0x40 + c % 0x40) ++ ·)
        else none
      | _ => none
    else if 0xf0 ≤ a ∧ a ≤ 0xf4 then
      match rest with
      | .octet b :: .octet c :: .octet d :: rest =>
        if trailing b && trailing c && trailing d && (a != 0xf0 || 0x90 ≤ b) &&
            (a != 0xf4 || b ≤ 0x8f) then
          (decodeTokens rest).map (codePointUnits
            (((a % 0x08 * 0x40 + b % 0x40) * 0x40 + c % 0x40) * 0x40 + d % 0x40) ++ ·)
        else none
      | _ => none
    else none

/-- `decodeURIComponent`; none when it throws. -/
def decodeURIComponent (value : JsString) : Option JsString :=
  (uriTokens value).bind decodeTokens

/-- The loop of `repeatedlyDecode`, with the rounds that are left. -/
def decodeRounds : Nat → JsString → Except PolicyNormalizationError JsString
  | 0, _ => .error ⟨"Excessively nested percent encoding"⟩
  | rounds + 1, current =>
      match decodeURIComponent current with
      | none => .error ⟨"Malformed percent encoding"⟩
      | some next => if next = current then .ok current else decodeRounds rounds next

/-- `repeatedlyDecode`. -/
def repeatedlyDecode (value : JsString) : Except PolicyNormalizationError JsString :=
  decodeRounds 4 value

/-! ### Package paths -/

/-- `[a-zA-Z]` -/
def isLetter (unit : Nat) : Bool :=
  (65 ≤ unit && unit ≤ 90) || (97 ≤ unit && unit ≤ 122)

/-- `/^[a-zA-Z]:/u.test(value)` -/
def hasDrive : JsString → Bool
  | letter :: 58 :: _ => isLetter letter
  | _ => false

/-- `value.startsWith("/")` -/
def isRooted (value : JsString) : Bool :=
  value.head? = some 47

/-- `segment === "." || segment === ".."` -/
def isTraversal (segment : JsString) : Bool :=
  segment = [46] ∨ segment = [46, 46]

/-- `canonicalizeResourcePath`. -/
def canonicalizeResourcePath (U : Unicode) (value : JsString) :
    Except PolicyNormalizationError JsString := do
  let normalized ← normalizedText U value
  if normalized.contains 92 || isRooted normalized || hasDrive normalized then
    throw ⟨"Only package-relative slash-separated paths are permitted"⟩
  else
    let decoded ← repeatedlyDecode normalized
    if decoded.contains 92 || isRooted decoded then
      throw ⟨"Encoded absolute or backslash path is not permitted"⟩
    else
      let segments := decoded.splitOn 47
      if segments.length = 0 ||
          segments.any fun segment => segment.isEmpty || isTraversal segment then
        throw ⟨"Path traversal or ambiguous path segment is not permitted"⟩
      else
        segments.forM rejectControls
        return [47].intercalate segments

/-! ### Resolved paths -/

/-- `/^[a-zA-Z]:\//u.test(value)` -/
def hasDriveRoot : JsString → Bool
  | letter :: 58 :: 47 :: _ => isLetter letter
  | _ => false

/-- `toLowerCase` of a letter. -/
def toLowerCase (unit : Nat) : Nat :=
  if 65 ≤ unit ∧ unit ≤ 90 then unit + 32 else unit

/-- `value.replace(/\/$/u, "")` -/
def withoutTrailingSlash (value : JsString) : JsString :=
  if value.getLast? = some 47 then value.dropLast else value

/-- `normalizePhysicalAbsolutePath`, after its root. -/
def joinPhysical (root remainder : JsString) : Except PolicyNormalizationError JsString := do
  let segments := (remainder.splitOn 47).filter fun segment => !segment.isEmpty
  if segments.any isTraversal then
    throw ⟨"A physically resolved path cannot contain traversal"⟩
  else
    segments.forM rejectControls
    let text := withoutTrailingSlash (root ++ [47].intercalate segments)
    return if text.isEmpty then [47] else text

/-- `normalizePhysicalAbsolutePath`. -/
def normalizePhysicalAbsolutePath (U : Unicode) (value : JsString) :
    Except PolicyNormalizationError JsString := do
  let normalized ← normalizedText U value
  let slashPath := normalized.map fun unit => if unit = 92 then 47 else unit
  if !isRooted slashPath && !hasDriveRoot slashPath then
    throw ⟨"A physically resolved path must be absolute"⟩
  else
    let root := if isRooted slashPath then [47]
      else (slashPath.take 1).map toLowerCase ++ [58, 47]
    joinPhysical root (slashPath.drop root.length)

/-- `assertResolvedPathWithinRoot`. -/
def assertResolvedPathWithinRoot (U : Unicode)
    (physicallyResolvedRoot physicallyResolvedPath : JsString) :
    Except PolicyNormalizationError Unit := do
  let canonicalRoot ← normalizePhysicalAbsolutePath U physicallyResolvedRoot
  let canonicalResolved ← normalizePhysicalAbsolutePath U physicallyResolvedPath
  let descendantPrefix := if canonicalRoot = [47] then [47] else canonicalRoot ++ [47]
  if canonicalResolved ≠ canonicalRoot ∧ ¬ descendantPrefix <+: canonicalResolved then
    throw ⟨"Resolved path escapes the authorized root"⟩
  else return ()

/-! ### Scopes -/

/-- A `ResourceScope`, with the units of its value. -/
structure Scope where
  kind : ResourceScopeKind
  value : JsString

/-- The scopes that are not paths: the canonical form of a value, and whether a canonical value is
within another. -/
structure OtherScopes where
  canonical : ResourceScopeKind → JsString → Except PolicyNormalizationError JsString
  within : ResourceScopeKind → JsString → JsString → Bool

/-- `canonicalizeResourceScope`, on the value. -/
def canonicalizeResourceScope (U : Unicode) (O : OtherScopes) (scope : Scope) :
    Except PolicyNormalizationError JsString :=
  match scope.kind with
  | .path => canonicalizeResourcePath U scope.value
  | kind => O.canonical kind scope.value

/-- `isResourceWithinScope`. -/
def isResourceWithinScope (U : Unicode) (O : OtherScopes) (candidate ceiling : Scope) : Bool :=
  if candidate.kind ≠ ceiling.kind then false
  else
    match canonicalizeResourceScope U O candidate, canonicalizeResourceScope U O ceiling with
    | .ok child, .ok parent =>
        match candidate.kind with
        | .path => child = parent ∨ parent ++ [47] <+: child
        | kind => O.within kind child parent
    | _, _ => false

/-! ### What is left to decode -/

/-- An octet, not a unit. -/
def UriToken.isOctet : UriToken → Bool
  | .unit _ => false
  | .octet _ => true

/-- How many octets are among the tokens. -/
def octets (tokens : List UriToken) : Nat :=
  tokens.countP UriToken.isOctet

theorem uriTokens_length {text : JsString} {tokens : List UriToken}
    (h : uriTokens text = some tokens) : text.length = tokens.length + 2 * octets tokens := by
  fun_induction uriTokens text generalizing tokens with
  | case1 =>
    obtain rfl := Option.some.inj h
    rfl
  | case2 high low rest a b ha hb ih =>
    obtain ⟨tokens', htokens, rfl⟩ := Option.map_eq_some_iff.mp h
    have := ih htokens
    simp only [List.length_cons, octets, List.countP_cons, UriToken.isOctet, if_true] at this ⊢
    omega
  | case3 | case4 => cases h
  | case5 unit rest hunit ih =>
    obtain ⟨tokens', htokens, rfl⟩ := Option.map_eq_some_iff.mp h
    have := ih htokens
    simp only [List.length_cons, octets, List.countP_cons, UriToken.isOctet, Bool.false_eq_true,
      if_false] at this ⊢
    omega

theorem codePointUnits_length (point : Nat) : (codePointUnits point).length ≤ 2 := by
  unfold codePointUnits
  split <;> simp

theorem decodeTokens_length {tokens : List UriToken} {text : JsString}
    (h : decodeTokens tokens = some text) : text.length ≤ tokens.length := by
  fun_induction decodeTokens tokens generalizing text with
  | case1 =>
    obtain rfl := Option.some.inj h
    rfl
  | case2 unit rest ih =>
    obtain ⟨text', htext, rfl⟩ := Option.map_eq_some_iff.mp h
    have := ih htext
    simp only [List.length_cons]
    omega
  | case3 a rest ha ih =>
    obtain ⟨text', htext, rfl⟩ := Option.map_eq_some_iff.mp h
    have := ih htext
    simp only [List.length_cons]
    omega
  | case4 a _ _ b rest hb ih =>
    obtain ⟨text', htext, rfl⟩ := Option.map_eq_some_iff.mp h
    have := ih htext
    have := codePointUnits_length (a % 0x20 * 0x40 + b % 0x40)
    simp only [List.length_cons, List.length_append]
    omega
  | case7 a _ _ _ b c rest hb ih =>
    obtain ⟨text', htext, rfl⟩ := Option.map_eq_some_iff.mp h
    have := ih htext
    have := codePointUnits_length ((a % 0x10 * 0x40 + b % 0x40) * 0x40 + c % 0x40)
    simp only [List.length_cons, List.length_append]
    omega
  | case10 a _ _ _ _ b c d rest hb ih =>
    obtain ⟨text', htext, rfl⟩ := Option.map_eq_some_iff.mp h
    have := ih htext
    have := codePointUnits_length
      (((a % 0x08 * 0x40 + b % 0x40) * 0x40 + c % 0x40) * 0x40 + d % 0x40)
    simp only [List.length_cons, List.length_append]
    omega
  | case5 | case6 | case8 | case9 | case11 | case12 | case13 => cases h

theorem uriTokens_plain {text : JsString} (h : 37 ∉ text) :
    uriTokens text = some (text.map .unit) := by
  induction text with
  | nil => rfl
  | cons unit rest ih =>
    rw [List.mem_cons, not_or] at h
    obtain ⟨hunit, hrest⟩ := h
    rw [uriTokens.eq_def]
    simp only [if_neg (Ne.symm hunit), ih hrest, Option.map_some, List.map_cons]

theorem decodeTokens_units (text : JsString) : decodeTokens (text.map .unit) = some text := by
  induction text with
  | nil => rfl
  | cons unit rest ih => simp only [List.map_cons, decodeTokens, ih, Option.map_some]

/-- A text with a percent sign has an octet. -/
theorem octets_pos {text : JsString} {tokens : List UriToken} (h : uriTokens text = some tokens)
    (hpercent : 37 ∈ text) : 0 < octets tokens := by
  fun_induction uriTokens text generalizing tokens with
  | case1 => cases hpercent
  | case2 high low rest a b ha hb ih =>
    obtain ⟨tokens', htokens, rfl⟩ := Option.map_eq_some_iff.mp h
    simp [octets, UriToken.isOctet]
  | case3 | case4 => cases h
  | case5 unit rest hunit ih =>
    obtain ⟨tokens', htokens, rfl⟩ := Option.map_eq_some_iff.mp h
    have hrest := ih htokens ((List.mem_cons.mp hpercent).resolve_left (Ne.symm hunit))
    unfold octets at hrest ⊢
    rw [List.countP_cons]
    omega

/-- **Nothing is left to decode** exactly where there is no percent sign: a text that has one gets
shorter. -/
theorem decodeURIComponent_fixed_iff {text : JsString} :
    decodeURIComponent text = some text ↔ 37 ∉ text := by
  constructor
  · intro h hpercent
    obtain ⟨tokens, htokens, hdecode⟩ := Option.bind_eq_some_iff.mp h
    have := uriTokens_length htokens
    have := decodeTokens_length hdecode
    have := octets_pos htokens hpercent
    omega
  · intro h
    rw [decodeURIComponent, uriTokens_plain h, Option.bind_some, decodeTokens_units]

/-- One text decodes to another one, in some rounds, with nothing left to decode. -/
def DecodesTo (text decoded : JsString) : Prop :=
  Relation.ReflTransGen (fun a b => decodeURIComponent a = some b) text decoded ∧ 37 ∉ decoded

theorem decodeRounds_ok {rounds : Nat} {text decoded : JsString}
    (h : decodeRounds rounds text = .ok decoded) : DecodesTo text decoded := by
  induction rounds generalizing text with
  | zero => cases h
  | succ rounds ih =>
    unfold decodeRounds at h
    split at h
    · cases h
    rename_i next hnext
    split at h
    · rename_i hfixed
      obtain rfl := Except.ok.inj h
      rw [hfixed] at hnext
      exact ⟨.refl, decodeURIComponent_fixed_iff.mp hnext⟩
    · obtain ⟨hrest, hplain⟩ := ih h
      exact ⟨.head hnext hrest, hplain⟩

/-- What a text decodes to is one text. -/
theorem DecodesTo.unique {text d d' : JsString} (h : DecodesTo text d) (h' : DecodesTo text d') :
    d = d' := by
  have hfixed : ∀ {a b : JsString}, 37 ∉ a →
      Relation.ReflTransGen (fun a b => decodeURIComponent a = some b) a b → a = b := by
    intro a b ha hab
    induction hab with
    | refl => rfl
    | tail _ hstep ih =>
      subst ih
      exact Option.some.inj ((decodeURIComponent_fixed_iff.mpr ha).symm.trans hstep)
  have hunique : Relator.RightUnique
      (fun a b : JsString => decodeURIComponent a = some b) :=
    fun a b c hb hc => Option.some.inj (hb.symm.trans hc)
  rcases Relation.ReflTransGen.total_of_right_unique hunique h.1 h'.1 with hdd | hdd
  · exact hfixed h.2 hdd
  · exact (hfixed h'.2 hdd).symm

/-- A text without a percent sign decodes to itself, at once. -/
theorem repeatedlyDecode_plain {text : JsString} (h : 37 ∉ text) :
    repeatedlyDecode text = .ok text := by
  simp [repeatedlyDecode, decodeRounds, decodeURIComponent_fixed_iff.mpr h]

/-! ### Canonical paths -/

theorem codePoints_append_slash (a b : JsString) :
    codePoints (a ++ 47 :: b) = codePoints a ++ 47 :: codePoints b := by
  have hslash : codePoints (47 :: b) = 47 :: codePoints b := by
    rw [codePoints.eq_def]
    simp [isHighSurrogate]
  fun_induction codePoints a with
  | case1 => exact hslash
  | case2 unit hunit next rest hnext ih =>
    rw [List.cons_append, List.cons_append, codePoints.eq_def]
    simp [hunit, hnext, ih]
  | case3 unit hunit next rest hnext ih =>
    rw [List.cons_append, List.cons_append, codePoints.eq_def]
    rw [List.cons_append] at ih
    simp [hunit, hnext, ih]
  | case4 unit hunit =>
    rw [List.singleton_append, codePoints.eq_def]
    simp [hunit, isLowSurrogate, hslash]
  | case5 unit rest hunit ih =>
    rw [List.cons_append, codePoints.eq_def]
    simp [hunit, ih]

/-- A text has the control and format characters of its segments. -/
theorem hasControls_intercalate (segments : List JsString) :
    hasControls ([47].intercalate segments) = segments.any hasControls := by
  induction segments with
  | nil => rfl
  | cons segment rest ih =>
    cases rest with
    | nil => simp
    | cons next rest =>
      have hne : next :: rest ≠ [] := List.cons_ne_nil next rest
      rw [List.intercalate_cons_of_ne_nil hne, List.append_assoc, List.singleton_append,
        List.any_cons, ← ih]
      unfold hasControls
      rw [codePoints_append_slash, List.any_append, List.any_cons]
      rfl

/-- A canonical path: relative, of segments that are names, without control and format
characters. -/
structure Canonical (path : JsString) : Prop where
  backslash : 92 ∉ path
  relative : isRooted path = false
  segments : ∀ segment ∈ path.splitOn 47, segment ≠ [] ∧ isTraversal segment = false
  controls : hasControls path = false

theorem rejectControls_ok {value : JsString} :
    rejectControls value = .ok () ↔ hasControls value = false := by
  unfold rejectControls
  cases hasControls value <;> simp

theorem normalizedText_ok {U : Unicode} {value text : JsString} :
    normalizedText U value = .ok text ↔ text = U.nfc value ∧ hasControls text = false := by
  unfold normalizedText
  rw [bind_eq_ok]
  constructor
  · rintro ⟨⟨⟩, hcontrols, h⟩
    obtain rfl := Except.ok.inj h
    exact ⟨rfl, rejectControls_ok.mp hcontrols⟩
  · rintro ⟨rfl, hcontrols⟩
    exact ⟨(), rejectControls_ok.mpr hcontrols, rfl⟩

theorem forM_rejectControls {segments : List JsString} :
    segments.forM rejectControls = .ok () ↔ segments.any hasControls = false := by
  induction segments with
  | nil => simp [pure, Except.pure]
  | cons segment rest ih =>
    rw [List.any_cons, Bool.or_eq_false_iff, ← ih, ← rejectControls_ok]
    refine bind_eq_ok.trans ?_
    constructor
    · rintro ⟨⟨⟩, hsegment, hrest⟩
      exact ⟨hsegment, hrest⟩
    · rintro ⟨hsegment, hrest⟩
      exact ⟨(), hsegment, hrest⟩

variable {U : Unicode} {value path : JsString}

/-- **The texts that have a canonical path**: their normal form is relative, and what it decodes to
is that path. -/
theorem canonicalizeResourcePath_ok :
    canonicalizeResourcePath U value = .ok path ↔
      (hasControls (U.nfc value) = false ∧ 92 ∉ U.nfc value ∧ isRooted (U.nfc value) = false ∧
        hasDrive (U.nfc value) = false) ∧
      repeatedlyDecode (U.nfc value) = .ok path ∧ Canonical path := by
  have hsplit : [47].intercalate (path.splitOn 47) = path := List.intercalate_splitOn 47
  have hcontrols := hasControls_intercalate (path.splitOn 47)
  rw [hsplit] at hcontrols
  have hnames : ((path.splitOn 47).any fun segment => segment.isEmpty || isTraversal segment) =
      false ↔ ∀ segment ∈ path.splitOn 47, segment ≠ [] ∧ isTraversal segment = false := by
    simp [List.any_eq_false]
  have hlength : decide ((path.splitOn 47).length = 0) = false := by simp
  unfold canonicalizeResourcePath
  constructor
  · intro h
    obtain ⟨normalized, hnormalized, h⟩ := bind_eq_ok.mp h
    obtain ⟨rfl, hnfc⟩ := normalizedText_ok.mp hnormalized
    split at h
    · cases h
    rename_i hplain
    obtain ⟨decoded, hdecoded, h⟩ := bind_eq_ok.mp h
    split at h
    · cases h
    rename_i hrelative
    dsimp only at h
    split at h
    · cases h
    rename_i hsegments
    obtain ⟨u, hforM, h⟩ := bind_eq_ok.mp h
    obtain rfl : [47].intercalate (decoded.splitOn 47) = path := Except.ok.inj h
    have hdecodedEq : [47].intercalate (decoded.splitOn 47) = decoded :=
      List.intercalate_splitOn 47
    rw [hdecodedEq] at hcontrols hnames hlength ⊢
    simp only [Bool.or_eq_true, not_or, Bool.not_eq_true, List.contains_eq_mem,
      decide_eq_false_iff_not] at hplain hrelative hsegments
    refine ⟨⟨hnfc, hplain.1.1, hplain.1.2, hplain.2⟩, hdecoded, hrelative.1, hrelative.2,
      hnames.mp hsegments.2, ?_⟩
    rw [hcontrols]
    exact forM_rejectControls.mp hforM
  · rintro ⟨⟨hnfc, hbackslash, hrooted, hdrive⟩, hdecoded, hpath⟩
    refine bind_eq_ok.mpr ⟨U.nfc value, normalizedText_ok.mpr ⟨rfl, hnfc⟩, ?_⟩
    rw [if_neg (by simp [hbackslash, hrooted, hdrive])]
    refine bind_eq_ok.mpr ⟨path, hdecoded, ?_⟩
    rw [if_neg (by simp [hpath.backslash, hpath.relative])]
    dsimp only
    rw [if_neg (by rw [hlength, hnames.mpr hpath.segments]; simp)]
    refine bind_eq_ok.mpr ⟨(), forM_rejectControls.mpr (hcontrols ▸ hpath.controls), ?_⟩
    rw [hsplit]
    rfl

/-- **A canonical path** decodes to itself. -/
theorem canonicalizeResourcePath_decodes (h : canonicalizeResourcePath U value = .ok path) :
    DecodesTo (U.nfc value) path :=
  decodeRounds_ok (canonicalizeResourcePath_ok.mp h).2.1

/-- A canonical path is canonical itself exactly when it is in normal form and has no drive. -/
theorem canonicalizeResourcePath_fixed_iff (hpath : Canonical path) (hplain : 37 ∉ path) :
    canonicalizeResourcePath U path = .ok path ∧ hasDrive path = false ↔
      U.nfc path = path ∧ hasDrive path = false := by
  have hdecode := repeatedlyDecode_plain (U.percent path hplain)
  constructor
  · rintro ⟨h, hdrive⟩
    obtain ⟨-, hdecoded, -⟩ := canonicalizeResourcePath_ok.mp h
    exact ⟨Except.ok.inj (hdecode.symm.trans hdecoded), hdrive⟩
  · rintro ⟨hnfc, hdrive⟩
    refine ⟨canonicalizeResourcePath_ok.mpr ?_, hdrive⟩
    rw [hnfc] at hdecode ⊢
    exact ⟨⟨hpath.controls, hpath.backslash, hpath.relative, hdrive⟩, hdecode, hpath⟩

/-- What a text encodes in percent signs is in normal form, and has no drive. -/
def EncodesPlainly (U : Unicode) (value : JsString) : Prop :=
  ∀ decoded, DecodesTo (U.nfc value) decoded → U.nfc decoded = decoded ∧ hasDrive decoded = false

/-- **The canonical path of a text** is canonical itself, relative and free of percent signs,
traversal and control characters exactly when what the text encodes is in normal form and has no
drive; and of two such texts with one normal form the canonical path is one. -/
theorem canonicalizeResourcePath_sound_iff
    (h : canonicalizeResourcePath U value = .ok path) :
    ((canonicalizeResourcePath U path = .ok path ∧
        (isRooted path = false ∧ 92 ∉ path ∧ hasDrive path = false) ∧ 37 ∉ path ∧
        (∀ segment ∈ path.splitOn 47, segment ≠ [] ∧ segment ≠ [46] ∧ segment ≠ [46, 46]) ∧
        ∀ point ∈ codePoints path, isControl point = false ∧ isFormat point = false) ↔
      EncodesPlainly U value) ∧
    ∀ value' path', canonicalizeResourcePath U value' = .ok path' → EncodesPlainly U value →
      EncodesPlainly U value' → U.nfc path = U.nfc path' → path = path' := by
  have hdecodes := canonicalizeResourcePath_decodes h
  have hcanonical := (canonicalizeResourcePath_ok.mp h).2.2
  have hfixed := canonicalizeResourcePath_fixed_iff (U := U) hcanonical hdecodes.2
  have hencodes : EncodesPlainly U value ↔ U.nfc path = path ∧ hasDrive path = false := by
    constructor
    · exact fun hplain => hplain path hdecodes
    · intro hplain decoded hdecoded
      rwa [← hdecodes.unique hdecoded]
  refine ⟨?_, fun value' path' h' hplain hplain' hnfc => ?_⟩
  · rw [hencodes, ← hfixed]
    constructor
    · rintro ⟨hagain, ⟨-, -, hdrive⟩, -⟩
      exact ⟨hagain, hdrive⟩
    · rintro ⟨hagain, hdrive⟩
      refine ⟨hagain, ⟨hcanonical.relative, hcanonical.backslash, hdrive⟩, hdecodes.2,
        fun segment hsegment => ?_, fun point hpoint => ?_⟩
      · obtain ⟨hname, htraversal⟩ := hcanonical.segments segment hsegment
        simp only [isTraversal, decide_eq_false_iff_not, not_or] at htraversal
        exact ⟨hname, htraversal⟩
      · have hcontrols := hcanonical.controls
        unfold hasControls at hcontrols
        have := List.any_eq_false.mp hcontrols point hpoint
        simpa using this
  · obtain ⟨hself, -⟩ := hencodes.mp hplain
    obtain ⟨hself', -⟩ := hplain' path' (canonicalizeResourcePath_decodes h')
    rw [← hself, ← hself', hnfc]

/-- The normal form of the ASCII texts. -/
def ascii : Unicode :=
  ⟨id, fun _ h => h⟩

theorem canonicalizeResourcePath_sound_iff_encoded :
    canonicalizeResourcePath ascii (lit "%61%2Fb") = .ok (lit "a/b") ∧
      canonicalizeResourcePath ascii (lit "a/b") = .ok (lit "a/b") := by
  have h : canonicalizeResourcePath ascii (lit "%61%2Fb") = .ok (lit "a/b") := by decide +kernel
  have hplain : EncodesPlainly ascii (lit "%61%2Fb") := by
    intro decoded hdecoded
    rw [← (canonicalizeResourcePath_decodes h).unique hdecoded]
    exact ⟨rfl, by decide⟩
  exact ⟨h, ((canonicalizeResourcePath_sound_iff h).1.mpr hplain).1⟩

/-- A drive that is encoded is found by no check, and the path that has it is not canonical. -/
theorem canonicalizeResourcePath_encoded_drive :
    ¬ ∀ value path, canonicalizeResourcePath ascii value = .ok path →
      canonicalizeResourcePath ascii path = .ok path ∧ hasDrive path = false := by
  intro h
  have hdrive := (h (lit "%43%3A/x") (lit "C:/x") (by decide +kernel)).2
  exact absurd hdrive (by decide)

/-! ### Containment of scopes -/

/-- A scope of a path. -/
def pathScope (value : JsString) : Scope :=
  ⟨.path, value⟩

/-- The segments of a path. -/
def segments (path : JsString) : List JsString :=
  path.splitOn 47

variable {O : OtherScopes}

/-- **Containment of package paths** is that of the segments of their canonical forms; it is
reflexive and transitive, and a name that goes on is another one. -/
theorem isResourceWithinScope_iff (U : Unicode) (O : OtherScopes) :
    (∀ c p, isResourceWithinScope U O (pathScope c) (pathScope p) = true ↔
      ∃ child parent, canonicalizeResourcePath U c = .ok child ∧
        canonicalizeResourcePath U p = .ok parent ∧ segments parent <+: segments child) ∧
    (∀ c path, canonicalizeResourcePath U c = .ok path →
      isResourceWithinScope U O (pathScope c) (pathScope c) = true) ∧
    (∀ a b c, isResourceWithinScope U O (pathScope a) (pathScope b) = true →
      isResourceWithinScope U O (pathScope b) (pathScope c) = true →
      isResourceWithinScope U O (pathScope a) (pathScope c) = true) ∧
    ∀ c p child parent, canonicalizeResourcePath U c = .ok child →
      canonicalizeResourcePath U p = .ok parent →
      (∃ unit rest, child = parent ++ unit :: rest ∧ unit ≠ 47) →
      isResourceWithinScope U O (pathScope c) (pathScope p) = false := by
  have hiff : ∀ c p, isResourceWithinScope U O (pathScope c) (pathScope p) = true ↔
      ∃ child parent, canonicalizeResourcePath U c = .ok child ∧
        canonicalizeResourcePath U p = .ok parent ∧ segments parent <+: segments child := by
    intro c p
    unfold isResourceWithinScope canonicalizeResourceScope pathScope
    dsimp only
    rw [if_neg (by simp)]
    cases canonicalizeResourcePath U c with
    | error e => simp
    | ok child =>
      cases canonicalizeResourcePath U p with
      | error e => simp
      | ok parent =>
        simp only [segments, splitOn_prefix_iff]
        simp
  refine ⟨hiff, fun c path h => (hiff c c).mpr ⟨path, path, h, h, List.prefix_refl _⟩,
    fun a b c hab hbc => ?_, fun c p child parent hchild hparent hsibling => ?_⟩
  · obtain ⟨child, middle, ha, hb, hchild⟩ := (hiff a b).mp hab
    obtain ⟨middle', parent, hb', hc, hparent⟩ := (hiff b c).mp hbc
    obtain rfl := Except.ok.inj (hb.symm.trans hb')
    exact (hiff a c).mpr ⟨child, parent, ha, hc, hparent.trans hchild⟩
  · obtain ⟨unit, rest, rfl, hunit⟩ := hsibling
    rw [← Bool.not_eq_true, hiff]
    rintro ⟨child', parent', hchild', hparent', hstart⟩
    obtain rfl := Except.ok.inj (hchild.symm.trans hchild')
    obtain rfl := Except.ok.inj (hparent.symm.trans hparent')
    rcases splitOn_prefix_iff.mp hstart with heq | ⟨later, hlater⟩
    · simpa using congrArg List.length heq
    · rw [List.append_assoc, List.append_cancel_left_eq] at hlater
      exact hunit (List.cons.inj hlater).1.symm

/-! ### Containment of resolved paths -/

/-- A normalized absolute path: its drive, if it has one, and its segments. -/
structure AbsolutePath where
  drive : Option Nat
  segments : List JsString
  drive_letter : ∀ letter ∈ drive, isLetter letter = true
  names : ∀ segment ∈ segments, segment ≠ [] ∧ 47 ∉ segment

namespace AbsolutePath

/-- What stands before the first slash. -/
def root (path : AbsolutePath) : JsString :=
  match path.drive with
  | none => []
  | some letter => [letter, 58]

/-- The path as a text. -/
def text (path : AbsolutePath) : JsString :=
  if path.drive = none ∧ path.segments = [] then [47]
  else path.root ++ path.segments.flatMap (47 :: ·)

theorem slash_not_mem_root (path : AbsolutePath) : 47 ∉ path.root := by
  unfold root
  split
  · simp
  · rename_i letter hdrive
    have hletter := path.drive_letter letter hdrive
    intro hmem
    rcases List.mem_cons.mp hmem with rfl | hmem
    · exact absurd hletter (by decide)
    · simp at hmem

/-- The text of a path, but for the root of the file system, splits into its root and its
segments. -/
theorem splitOn_text {path : AbsolutePath} (h : ¬ (path.drive = none ∧ path.segments = [])) :
    path.text.splitOn 47 = path.root :: path.segments := by
  unfold text
  rw [if_neg h]
  exact splitOn_append_flatMap path.slash_not_mem_root fun s hs => (path.names s hs).2

end AbsolutePath

/-- The root of a normalized path: nothing before the first slash, or a drive. -/
def pathRoot (path : JsString) : JsString :=
  if isRooted path then [] else path.take 2

/-- The segments of a normalized path after its root. -/
def pathSegments (path : JsString) : List JsString :=
  ((path.drop (pathRoot path).length).splitOn 47).filter fun segment => !segment.isEmpty

namespace AbsolutePath

variable (path : AbsolutePath)

theorem isRooted_text : isRooted path.text = path.drive.isNone := by
  unfold text root
  cases hdrive : path.drive with
  | none =>
    cases path.segments <;> simp [isRooted]
  | some letter =>
    have hletter := path.drive_letter letter hdrive
    have hne : letter ≠ 47 := by
      rintro rfl
      exact absurd hletter (by decide)
    simp [isRooted, hne]

theorem pathRoot_text : pathRoot path.text = path.root := by
  unfold pathRoot
  rw [isRooted_text]
  unfold text root
  cases path.drive <;> simp

theorem filter_names : (path.segments.filter fun segment => !segment.isEmpty) = path.segments := by
  rw [List.filter_eq_self]
  intro segment hsegment
  simpa using (path.names segment hsegment).1

theorem pathSegments_text : pathSegments path.text = path.segments := by
  have hnames : ∀ s ∈ path.segments, 47 ∉ s := fun s hs => (path.names s hs).2
  have hempty : 47 ∉ ([] : JsString) := List.not_mem_nil
  have hsplit : (path.segments.flatMap (47 :: ·)).splitOn 47 = [] :: path.segments :=
    splitOn_append_flatMap hempty hnames
  unfold pathSegments
  rw [pathRoot_text]
  by_cases hroot : path.drive = none ∧ path.segments = []
  · simp [text, root, hroot]
    decide
  · rw [text, if_neg hroot, List.drop_left, hsplit, List.filter_cons_of_neg (by simp),
      filter_names]

end AbsolutePath

theorem lowerCase_letter {unit : Nat} (h : isLetter unit = true) :
    isLetter (toLowerCase unit) = true := by
  unfold isLetter at h
  unfold toLowerCase isLetter
  simp only [Bool.or_eq_true, Bool.and_eq_true, decide_eq_true_eq] at h ⊢
  split <;> omega

/-- What is left of a text without its trailing slash. -/
theorem withoutTrailingSlash_text (root : JsString) {segments : List JsString}
    (hnames : ∀ s ∈ segments, s ≠ [] ∧ 47 ∉ s) :
    withoutTrailingSlash (root ++ 47 :: [47].intercalate segments) =
      root ++ segments.flatMap (47 :: ·) := by
  induction segments using List.reverseRecOn with
  | nil =>
    simp [withoutTrailingSlash]
  | append_singleton segments last ih =>
    obtain ⟨hlast, hslash⟩ := hnames last (by simp)
    have hjoin : 47 :: [47].intercalate (segments ++ [last]) =
        (segments ++ [last]).flatMap (47 :: ·) := by
      clear ih hnames
      induction segments with
      | nil => simp
      | cons s segments ih =>
        rw [List.cons_append, List.flatMap_cons, ← ih,
          List.intercalate_cons_of_ne_nil (by simp)]
        simp
    rw [hjoin]
    unfold withoutTrailingSlash
    rw [if_neg]
    intro hend
    rw [List.flatMap_append, List.flatMap_singleton, ← List.append_assoc,
      List.getLast?_append] at hend
    obtain ⟨init, final, rfl⟩ := List.eq_nil_or_concat' last |>.resolve_left hlast
    simp only [← List.cons_append, List.getLast?_append, List.getLast?_singleton,
      Option.some.injEq, Option.some_or] at hend
    subst hend
    simp at hslash

/-- What is joined is the text of an absolute path. -/
theorem joinPhysical_text {root remainder : JsString} (drive : Option Nat)
    (hdrive : ∀ letter ∈ drive, isLetter letter = true)
    (hroot : root = (match drive with | none => [] | some letter => [letter, 58]) ++ [47])
    (h : joinPhysical root remainder = .ok path) :
    ∃ absolute : AbsolutePath, path = absolute.text := by
  unfold joinPhysical at h
  dsimp only at h
  split at h
  · cases h
  obtain ⟨u, -, h⟩ := bind_eq_ok.mp h
  let absolute : AbsolutePath :=
    { drive
      segments := (remainder.splitOn 47).filter fun segment => !segment.isEmpty
      drive_letter := hdrive
      names := fun s hs => by
        obtain ⟨hmem, hne⟩ := List.mem_filter.mp hs
        exact ⟨by simpa using hne, not_mem_of_mem_splitOn hmem⟩ }
  refine ⟨absolute, ?_⟩
  have htext := withoutTrailingSlash_text absolute.root absolute.names
  have hroot' : root ++ [47].intercalate absolute.segments =
      absolute.root ++ 47 :: [47].intercalate absolute.segments := by
    rw [hroot, List.append_assoc]
    rfl
  obtain rfl := Except.ok.inj h
  change (if (withoutTrailingSlash (root ++ [47].intercalate absolute.segments)).isEmpty then _
    else withoutTrailingSlash (root ++ [47].intercalate absolute.segments)) = _
  rw [hroot', htext]
  unfold AbsolutePath.text AbsolutePath.root
  cases absolute.drive <;> cases absolute.segments <;> simp

/-- **What a resolved path is normalized to** is the text of an absolute path. -/
theorem normalizePhysicalAbsolutePath_text
    (h : normalizePhysicalAbsolutePath U value = .ok path) :
    ∃ absolute : AbsolutePath, path = absolute.text := by
  unfold normalizePhysicalAbsolutePath at h
  obtain ⟨normalized, -, h⟩ := bind_eq_ok.mp h
  dsimp only at h
  generalize (normalized.map fun unit => if unit = 92 then 47 else unit) = slashPath at h
  split at h
  · cases h
  rename_i habsolute
  by_cases hrooted : isRooted slashPath = true
  · rw [if_pos hrooted] at h
    exact joinPhysical_text none nofun rfl h
  · rw [if_neg hrooted] at h
    simp only [Bool.and_eq_true, Bool.not_eq_true', not_and, Bool.not_eq_false] at habsolute
    have hdrive := habsolute (Bool.eq_false_iff.mpr hrooted)
    unfold hasDriveRoot at hdrive
    split at hdrive
    · rename_i letter rest
      refine joinPhysical_text (some (toLowerCase letter)) (fun l hl => ?_) rfl h
      obtain rfl := Option.some.inj hl
      exact lowerCase_letter hdrive
    · cases hdrive

/-- A path is one under a root exactly when its text is that of the root, or goes on after it with
a slash. -/
theorem descends_iff (r p : AbsolutePath) :
    (p.text = r.text ∨ (if r.text = [47] then [47] else r.text ++ [47]) <+: p.text) ↔
      r.root = p.root ∧ r.segments <+: p.segments := by
  have hslash : ∀ a : AbsolutePath, a.text = [47] ↔ a.drive = none ∧ a.segments = [] := by
    intro a
    constructor
    · intro htext
      have hrooted := a.isRooted_text
      have hsegments := a.pathSegments_text
      rw [htext] at hrooted hsegments
      exact ⟨Option.isNone_iff_eq_none.mp (hrooted.symm.trans (by decide)),
        hsegments.symm.trans (by decide)⟩
    · exact fun h => if_pos h
  have hroot : ∀ a : AbsolutePath, a.root = [] ↔ a.drive = none := by
    intro a
    unfold AbsolutePath.root
    cases a.drive <;> simp
  by_cases hr : r.drive = none ∧ r.segments = []
  · -- the root of the file system: every path without a drive is under it
    rw [if_pos ((hslash r).mpr hr), (hslash r).mpr hr, hr.2, (hroot r).mpr hr.1]
    have hstart : [47] <+: p.text ↔ p.drive = none := by
      have hrooted := p.isRooted_text
      cases htext : p.text with
      | nil =>
        rw [htext] at hrooted
        refine iff_of_false (by simp) fun hdrive => ?_
        rw [hdrive] at hrooted
        exact absurd hrooted (by decide)
      | cons unit rest =>
        rw [htext] at hrooted
        simp only [isRooted, List.head?_cons, Option.some.injEq] at hrooted
        rw [List.cons_prefix_cons, ← Option.isNone_iff_eq_none, ← hrooted, decide_eq_true_eq]
        simp [eq_comm]
    rw [hstart]
    constructor
    · rintro (htext | hdrive)
      · exact ⟨((hroot p).mpr ((hslash p).mp htext).1).symm, List.nil_prefix⟩
      · exact ⟨((hroot p).mpr hdrive).symm, List.nil_prefix⟩
    · rintro ⟨hempty, -⟩
      exact .inr ((hroot p).mp hempty.symm)
  · rw [if_neg (fun h => hr ((hslash r).mp h)), ← splitOn_prefix_iff, AbsolutePath.splitOn_text hr]
    by_cases hp : p.drive = none ∧ p.segments = []
    · rw [(hslash p).mpr hp, (hroot p).mpr hp.1, hp.2, List.prefix_nil]
      have hsplit : ([47] : JsString).splitOn 47 = [[], []] := by decide
      rw [hsplit, List.cons_prefix_cons]
      refine and_congr_right fun hempty => ?_
      have hdrive := (hroot r).mp hempty
      constructor
      · intro hstart
        cases hsegments : r.segments with
        | nil => rfl
        | cons segment rest =>
          rw [hsegments, List.cons_prefix_cons] at hstart
          exact absurd hstart.1 (r.names segment (by simp [hsegments])).1
      · exact fun hnil => absurd ⟨hdrive, hnil⟩ hr
    · rw [AbsolutePath.splitOn_text hp, List.cons_prefix_cons]

/-- **Containment of resolved paths** is that of their segments under one root. -/
theorem assertResolvedPathWithinRoot_iff (U : Unicode) (root path : JsString) :
    assertResolvedPathWithinRoot U root path = .ok () ↔
      ∃ r p, normalizePhysicalAbsolutePath U root = .ok r ∧
        normalizePhysicalAbsolutePath U path = .ok p ∧
        pathRoot r = pathRoot p ∧ pathSegments r <+: pathSegments p := by
  unfold assertResolvedPathWithinRoot
  rw [bind_eq_ok]
  refine exists_congr fun r => ?_
  rw [bind_eq_ok, ← exists_and_left]
  refine exists_congr fun p => and_congr_right fun hr => and_congr_right fun hp => ?_
  obtain ⟨absoluteRoot, rfl⟩ := normalizePhysicalAbsolutePath_text hr
  obtain ⟨absolute, rfl⟩ := normalizePhysicalAbsolutePath_text hp
  rw [AbsolutePath.pathRoot_text, AbsolutePath.pathRoot_text, AbsolutePath.pathSegments_text,
    AbsolutePath.pathSegments_text, ← descends_iff]
  dsimp only
  generalize (if absoluteRoot.text = [47] then [47] else absoluteRoot.text ++ [47]) =
    descendantPrefix
  split
  · rename_i hescapes
    exact iff_of_false nofun fun h => h.elim hescapes.1 hescapes.2
  · rename_i hwithin
    refine iff_of_true rfl ?_
    by_contra hnot
    exact hwithin ⟨fun h => hnot (.inl h), fun h => hnot (.inr h)⟩

/-- **Containment is that of segments**: of package paths, and of resolved paths under one root. -/
theorem containment_of_segments (U : Unicode) (O : OtherScopes) :
    ((∀ c p, isResourceWithinScope U O (pathScope c) (pathScope p) = true ↔
        ∃ child parent, canonicalizeResourcePath U c = .ok child ∧
          canonicalizeResourcePath U p = .ok parent ∧ segments parent <+: segments child) ∧
      (∀ c path, canonicalizeResourcePath U c = .ok path →
        isResourceWithinScope U O (pathScope c) (pathScope c) = true) ∧
      (∀ a b c, isResourceWithinScope U O (pathScope a) (pathScope b) = true →
        isResourceWithinScope U O (pathScope b) (pathScope c) = true →
        isResourceWithinScope U O (pathScope a) (pathScope c) = true) ∧
      ∀ c p child parent, canonicalizeResourcePath U c = .ok child →
        canonicalizeResourcePath U p = .ok parent →
        (∃ unit rest, child = parent ++ unit :: rest ∧ unit ≠ 47) →
        isResourceWithinScope U O (pathScope c) (pathScope p) = false) ∧
    ∀ root path, assertResolvedPathWithinRoot U root path = .ok () ↔
      ∃ r p, normalizePhysicalAbsolutePath U root = .ok r ∧
        normalizePhysicalAbsolutePath U path = .ok p ∧
        pathRoot r = pathRoot p ∧ pathSegments r <+: pathSegments p :=
  ⟨isResourceWithinScope_iff U O, assertResolvedPathWithinRoot_iff U⟩

/-- The root of the file system and a drive. -/
example : assertResolvedPathWithinRoot ascii (lit "/") (lit "/etc//hosts") = .ok () ∧
    assertResolvedPathWithinRoot ascii (lit "C:\\") (lit "c:/data") = .ok () ∧
    assertResolvedPathWithinRoot ascii (lit "/") (lit "c:/data") ≠ .ok () := by decide +kernel

end Paths

end Pactmark
