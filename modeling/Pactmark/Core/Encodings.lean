import Mathlib.Tactic.Common
import Pactmark.Core.Serialization

/-!
# Core — bytes and texts

`TextEncoder`, `TextDecoder` and `base64url` over UTF-16 code units.

* `decode_encode`: what `base64url` prints is read back.
* `utf8Decode_utf8Encode`: so is an ASCII text that was encoded.
-/

namespace Pactmark

/-- `Uint8Array`. -/
abbrev Bytes := List UInt8

/-! ### base64url -/

namespace Base64Url

/-- The unit of a sextet. -/
def letter (sextet : Nat) : Nat :=
  if sextet < 26 then 65 + sextet
  else if sextet < 52 then 71 + sextet
  else if sextet < 62 then sextet - 4
  else if sextet = 62 then 45
  else 95

/-- The sextet of a unit, if it is one of `[A-Za-z0-9_-]`. -/
def sextet (unit : Nat) : Option Nat :=
  if 65 ≤ unit ∧ unit ≤ 90 then some (unit - 65)
  else if 97 ≤ unit ∧ unit ≤ 122 then some (unit - 71)
  else if 48 ≤ unit ∧ unit ≤ 57 then some (unit + 4)
  else if unit = 45 then some 62
  else if unit = 95 then some 63
  else none

/-- The sextets of bytes, without padding. -/
def sextets : Bytes → List Nat
  | [] => []
  | [a] => [a.toNat / 4, a.toNat % 4 * 16]
  | [a, b] => [a.toNat / 4, a.toNat % 4 * 16 + b.toNat / 16, b.toNat % 16 * 4]
  | a :: b :: c :: rest =>
      a.toNat / 4 :: (a.toNat % 4 * 16 + b.toNat / 16) :: (b.toNat % 16 * 4 + c.toNat / 64) ::
        c.toNat % 64 :: sextets rest

/-- The bytes of sextets; bits that are left over are dropped. -/
def ofSextets : List Nat → Bytes
  | a :: b :: c :: d :: rest =>
      .ofNat (a * 4 + b / 16) :: .ofNat (b % 16 * 16 + c / 4) :: .ofNat (c % 4 * 64 + d) ::
        ofSextets rest
  | [a, b, c] => [.ofNat (a * 4 + b / 16), .ofNat (b % 16 * 16 + c / 4)]
  | [a, b] => [.ofNat (a * 4 + b / 16)]
  | _ => []

/-- `toBase64Url`. -/
def encode (value : Bytes) : JsString :=
  (sextets value).map letter

/-- `fromBase64Url`; none when it throws. -/
def decode (value : JsString) : Option Bytes :=
  match value.mapM sextet with
  | none => none
  | some digits => if encode (ofSextets digits) = value then some (ofSextets digits) else none

theorem sextet_letter {n : Nat} (h : n < 64) : sextet (letter n) = some n := by
  unfold letter
  split_ifs with h₁ h₂ h₃ h₄ <;> unfold sextet <;> split_ifs <;> first | omega | (congr 1; omega)

theorem sextets_lt (value : Bytes) : ∀ n ∈ sextets value, n < 64 := by
  fun_induction sextets value with
  | case1 => simp
  | case2 a =>
    have ha := a.toNat_lt
    simp only [List.forall_mem_cons, List.not_mem_nil, false_imp_iff, implies_true, and_true]
    omega
  | case3 a b =>
    have ha := a.toNat_lt
    have hb := b.toNat_lt
    simp only [List.forall_mem_cons, List.not_mem_nil, false_imp_iff, implies_true, and_true]
    omega
  | case4 a b c rest ih =>
    have ha := a.toNat_lt
    have hb := b.toNat_lt
    have hc := c.toNat_lt
    simp only [List.forall_mem_cons]
    exact ⟨by omega, by omega, by omega, by omega, ih⟩

theorem sextets_length (value : Bytes) : (sextets value).length = (4 * value.length + 2) / 3 := by
  fun_induction sextets value with
  | case1 => rfl
  | case2 a => simp
  | case3 a b => simp
  | case4 a b c rest ih =>
    simp only [List.length_cons, ih]
    omega

theorem ofSextets_sextets (value : Bytes) : ofSextets (sextets value) = value := by
  have hbyte : ∀ {n : Nat} {x : UInt8}, n = x.toNat → UInt8.ofNat n = x := by
    rintro n x rfl
    exact UInt8.ofNat_toNat
  fun_induction sextets value with
  | case1 => rfl
  | case2 a =>
    simp only [ofSextets, List.cons.injEq, and_true]
    exact hbyte (by omega)
  | case3 a b =>
    simp only [ofSextets, List.cons.injEq, and_true]
    have hb := b.toNat_lt
    exact ⟨hbyte (by omega), hbyte (by omega)⟩
  | case4 a b c rest ih =>
    have hb := b.toNat_lt
    have hc := c.toNat_lt
    simp only [ofSextets, List.cons.injEq, ih, and_true]
    exact ⟨hbyte (by omega), hbyte (by omega), hbyte (by omega)⟩

theorem mapM_sextet {digits : List Nat} (h : ∀ n ∈ digits, n < 64) :
    (digits.map letter).mapM sextet = some digits := by
  induction digits with
  | nil => rfl
  | cons n digits ih =>
    obtain ⟨hn, hdigits⟩ := List.forall_mem_cons.mp h
    simp [List.mapM_cons, sextet_letter hn, ih hdigits]

/-- What is printed is read back. -/
theorem decode_encode (value : Bytes) : decode (encode value) = some value := by
  simp [decode, encode, mapM_sextet (sextets_lt value), ofSextets_sextets]

/-- What is printed is ASCII, and needs no escape in JSON. -/
theorem encode_ascii (value : Bytes) : ∀ unit ∈ encode value, 45 ≤ unit ∧ unit < 128 ∧ unit ≠ 92 := by
  intro unit hunit
  obtain ⟨n, hn, rfl⟩ := List.mem_map.mp hunit
  have := sextets_lt value n hn
  unfold letter
  split_ifs <;> omega

end Base64Url

/-! ### UTF-8 -/

/-- The bytes of a code point. -/
def codePointBytes (point : Nat) : Bytes :=
  if point < 0x80 then [.ofNat point]
  else if point < 0x800 then [.ofNat (0xc0 + point / 0x40), .ofNat (0x80 + point % 0x40)]
  else if point < 0x10000 then
    [.ofNat (0xe0 + point / 0x1000), .ofNat (0x80 + point / 0x40 % 0x40),
      .ofNat (0x80 + point % 0x40)]
  else
    [.ofNat (0xf0 + point / 0x40000), .ofNat (0x80 + point / 0x1000 % 0x40),
      .ofNat (0x80 + point / 0x40 % 0x40), .ofNat (0x80 + point % 0x40)]

/-- `TextEncoder.encode`; a lone surrogate is encoded as the replacement character. -/
def utf8Encode : JsString → Bytes
  | [] => []
  | unit :: rest =>
    if isHighSurrogate unit then
      match rest with
      | next :: rest =>
        if isLowSurrogate next then
          codePointBytes (0x10000 + (unit - 0xd800) * 0x400 + (next - 0xdc00)) ++ utf8Encode rest
        else codePointBytes 0xfffd ++ utf8Encode (next :: rest)
      | [] => codePointBytes 0xfffd
    else if isLowSurrogate unit then codePointBytes 0xfffd ++ utf8Encode rest
    else codePointBytes unit ++ utf8Encode rest

/-- The decoder between two bytes: how many more it needs, in which range the next one is, and
the code point as far as it has been read. -/
structure Utf8Decoder where
  needed : Nat
  lower : Nat
  upper : Nat
  codePoint : Nat

/-- The decoder at the start of a code point. -/
def Utf8Decoder.ready : Utf8Decoder :=
  ⟨0, 0x80, 0xbf, 0⟩

/-- The units of a code point. -/
def codePointUnits (point : Nat) : JsString :=
  if point < 0x10000 then [point]
  else [0xd800 + (point - 0x10000) / 0x400, 0xdc00 + (point - 0x10000) % 0x400]

/-- A byte at the start of a code point. -/
def Utf8Decoder.first (byte : Nat) : JsString × Utf8Decoder :=
  if byte < 0x80 then ([byte], ready)
  else if 0xc2 ≤ byte ∧ byte ≤ 0xdf then ([], ⟨1, 0x80, 0xbf, byte % 0x20⟩)
  else if 0xe0 ≤ byte ∧ byte ≤ 0xef then
    ([], ⟨2, if byte = 0xe0 then 0xa0 else 0x80, if byte = 0xed then 0x9f else 0xbf, byte % 0x10⟩)
  else if 0xf0 ≤ byte ∧ byte ≤ 0xf4 then
    ([], ⟨3, if byte = 0xf0 then 0x90 else 0x80, if byte = 0xf4 then 0x8f else 0xbf, byte % 0x08⟩)
  else ([0xfffd], ready)

/-- A byte; one that does not continue the code point starts another one. -/
def Utf8Decoder.step (d : Utf8Decoder) (byte : Nat) : JsString × Utf8Decoder :=
  if d.needed = 0 then first byte
  else if byte < d.lower ∨ d.upper < byte then
    let (units, d) := first byte
    (0xfffd :: units, d)
  else if d.needed = 1 then (codePointUnits (d.codePoint * 0x40 + byte % 0x40), ready)
  else ([], ⟨d.needed - 1, 0x80, 0xbf, d.codePoint * 0x40 + byte % 0x40⟩)

/-- The units of the bytes from here on. -/
def Utf8Decoder.run (d : Utf8Decoder) : Bytes → JsString
  | [] => if d.needed = 0 then [] else [0xfffd]
  | byte :: bytes =>
      let (units, d) := d.step byte.toNat
      units ++ d.run bytes

/-- `TextDecoder.decode`; a byte order mark at the start is left out. -/
def utf8Decode (bytes : Bytes) : JsString :=
  match Utf8Decoder.ready.run bytes with
  | 0xfeff :: units => units
  | units => units

/-- An ASCII text is read back. -/
theorem utf8Decode_utf8Encode {text : JsString} (h : ∀ unit ∈ text, unit < 128) :
    utf8Decode (utf8Encode text) = text := by
  have hrun : Utf8Decoder.ready.run (utf8Encode text) = text := by
    induction text with
    | nil => rfl
    | cons unit text ih =>
      obtain ⟨hunit, htext⟩ := List.forall_mem_cons.mp h
      have hhigh : isHighSurrogate unit = false := by
        simp only [isHighSurrogate, Bool.and_eq_false_iff, decide_eq_false_iff_not]
        omega
      have hlow : isLowSurrogate unit = false := by
        simp only [isLowSurrogate, Bool.and_eq_false_iff, decide_eq_false_iff_not]
        omega
      have hbyte : (UInt8.ofNat unit).toNat = unit := by
        rw [UInt8.toNat_ofNat']
        omega
      rw [utf8Encode.eq_def]
      simp only [hhigh, hlow, Bool.false_eq_true, if_false, codePointBytes, if_pos hunit,
        List.cons_append, List.nil_append, Utf8Decoder.run, Utf8Decoder.step]
      simp only [Utf8Decoder.ready, if_true, Utf8Decoder.first, hbyte, if_pos hunit,
        List.cons_append, List.nil_append]
      exact congrArg _ (ih htext)
  unfold utf8Decode
  rw [hrun]
  split
  · have := h 0xfeff (by simp)
    omega
  · rfl

end Pactmark
