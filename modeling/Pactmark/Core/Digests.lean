import Mathlib.Data.Countable.Defs
import Mathlib.Data.List.Basic
import Mathlib.Logic.Encodable.Basic
import Mathlib.Logic.Equiv.List
import Pactmark.Core.Canonical
import Pactmark.Core.Values
import Pactmark.Durable.Reordering

/-!
# Core — digests of canonical JSON

`digestCanonicalJson` of `core/src/serialization.ts` over the canonical text, with the hash a
parameter.  What the packages digest is built of strings, lists and object literals; strings are
those that have a UTF-16 text.

* `Stringifies`: a value built of such strings has a canonical text.
* `digest_eq_iff`: without a collision, two values have one digest exactly when they are the same.
-/

namespace Pactmark

open Durable

/-! ### Strings -/

namespace JsString

/-- The code units of a character. -/
def ofChar (c : Char) : JsString :=
  if c.toNat < 0x10000 then [c.toNat]
  else [0xd800 + (c.toNat - 0x10000) / 0x400, 0xdc00 + (c.toNat - 0x10000) % 0x400]

/-- The code units of a string. -/
def ofString (s : String) : JsString :=
  s.toList.flatMap ofChar

/-- A character is no surrogate. -/
theorem char_range (c : Char) :
    c.toNat < 0xd800 ∨ 0xdfff < c.toNat ∧ c.toNat < 0x110000 :=
  c.valid

theorem assertValidUnicode_ofChar (path : JsString) (c : Char) (rest : JsString) :
    assertValidUnicode path (ofChar c ++ rest) = assertValidUnicode path rest := by
  have hc := char_range c
  unfold ofChar
  split
  · have hhigh : isHighSurrogate c.toNat = false := by
      simp only [isHighSurrogate, Bool.and_eq_false_iff, decide_eq_false_iff_not]
      omega
    have hlow : isLowSurrogate c.toNat = false := by
      simp only [isLowSurrogate, Bool.and_eq_false_iff, decide_eq_false_iff_not]
      omega
    cases rest <;> simp [assertValidUnicode, hhigh, hlow]
  · have hhigh : isHighSurrogate (0xd800 + (c.toNat - 0x10000) / 0x400) = true := by
      simp only [isHighSurrogate, Bool.and_eq_true, decide_eq_true_eq]
      omega
    have hlow : isLowSurrogate (0xdc00 + (c.toNat - 0x10000) % 0x400) = true := by
      simp only [isLowSurrogate, Bool.and_eq_true, decide_eq_true_eq]
      omega
    simp [assertValidUnicode, hhigh, hlow]

theorem validUnicode_ofString (s : String) : ValidUnicode (ofString s) := by
  intro path
  unfold ofString
  induction s.toList with
  | nil => rw [List.flatMap_nil, assertValidUnicode]
  | cons c cs ih => rw [List.flatMap_cons, assertValidUnicode_ofChar, ih]

/-- The code units of a character are no start of those of another one. -/
theorem ofChar_append_inj {c d : Char} {s t : JsString} (h : ofChar c ++ s = ofChar d ++ t) :
    c = d ∧ s = t := by
  have hc := char_range c
  have hd := char_range d
  have hchar : c.toNat = d.toNat ∧ s = t := by
    unfold ofChar at h
    split at h <;> split at h <;> simp only [List.cons_append, List.nil_append,
      List.cons.injEq] at h
    · exact h
    · omega
    · omega
    · exact ⟨by omega, h.2.2⟩
  exact ⟨Char.toNat_inj.mp hchar.1, hchar.2⟩

theorem ofString_injective : Function.Injective ofString := by
  have hchars : ∀ cs ds : List Char, cs.flatMap ofChar = ds.flatMap ofChar → cs = ds := by
    intro cs
    induction cs with
    | nil =>
      rintro (- | ⟨d, ds⟩) h
      · rfl
      · rw [List.flatMap_nil, List.flatMap_cons] at h
        unfold ofChar at h
        split at h <;> simp at h
    | cons c cs ih =>
      rintro (- | ⟨d, ds⟩) h
      · rw [List.flatMap_nil, List.flatMap_cons] at h
        unfold ofChar at h
        split at h <;> simp at h
      · obtain ⟨rfl, hrest⟩ := ofChar_append_inj (by simpa only [List.flatMap_cons] using h)
        rw [ih ds hrest]
  intro s t h
  exact String.toList_inj.mp (hchars _ _ h)

end JsString

/-! ### Literals -/

namespace Json

variable {Num : Type} {num : NumberFormat Num}

/-- A string. -/
def text (s : String) : Json Num :=
  .string (.ofString s)

/-- An object literal. -/
def record (fields : List (String × Json Num)) : Json Num :=
  .object (fields.map fun field => (.ofString field.1, field.2))

/-- The value has a canonical text, wherever it stands. -/
def Stringifies (num : NumberFormat Num) (v : Json Num) : Prop :=
  ∀ path, ∃ s, canonicalize num path v = .ok s

@[simp] theorem distinct_text (s : String) : (text s : Json Num).Distinct := by
  simp [text, Distinct]

theorem distinct_record {fields : List (String × Json Num)}
    (hnodup : (fields.map Prod.fst).Nodup) (h : ∀ field ∈ fields, field.2.Distinct) :
    (record fields).Distinct := by
  simp only [record, Distinct, distinctMembers_iff, List.map_map]
  refine ⟨?_, ?_⟩
  · have hkeys := hnodup.map JsString.ofString_injective
    rwa [List.map_map] at hkeys
  · intro m hm
    obtain ⟨field, hfield, rfl⟩ := List.mem_map.mp hm
    exact h field hfield

theorem quote_ofString (s : String) (path : JsString) :
    quote (.ofString s) path = .ok (stringifyString (.ofString s)) := by
  simp [quote, JsString.validUnicode_ofString s path, bind, Except.bind, pure, Except.pure]

@[simp] theorem stringifies_text (s : String) : Stringifies num (text s) := by
  intro path
  exact ⟨_, by rw [text, canonicalize, quote_ofString]⟩

theorem stringifies_array {items : List (Json Num)} (h : ∀ v ∈ items, Stringifies num v) :
    Stringifies num (.array items) := by
  have hitems : ∀ path index, ∃ entries, canonicalizeItems num path index items = .ok entries := by
    intro path
    induction items with
    | nil => exact fun index => ⟨[], rfl⟩
    | cons v items ih =>
      intro index
      obtain ⟨entry, hentry⟩ := h v List.mem_cons_self (indexPath path index)
      obtain ⟨entries, hentries⟩ := ih (fun w hw => h w (List.mem_cons_of_mem _ hw)) (index + 1)
      exact ⟨entry :: entries, by
        simp [canonicalizeItems, hentry, hentries, bind, Except.bind, pure, Except.pure]⟩
  intro path
  obtain ⟨entries, hentries⟩ := hitems path 0
  exact ⟨_, by rw [canonicalize, hentries]; rfl⟩

theorem stringifies_record {fields : List (String × Json Num)}
    (h : ∀ field ∈ fields, Stringifies num field.2) : Stringifies num (record fields) := by
  intro path
  have hfields : ∃ texts, ((canonicalizeMembers num path (fields.map fun field =>
      (JsString.ofString field.1, field.2))).mergeSort (keyLE ·.1 ·.1)).mapM (·.2) =
        .ok texts := by
    refine exists_mapM fun member hmember => ?_
    rw [(List.mergeSort_perm _ _).mem_iff, canonicalizeMembers_eq_map] at hmember
    obtain ⟨_, hm, rfl⟩ := List.mem_map.mp hmember
    obtain ⟨f, hf, rfl⟩ := List.mem_map.mp hm
    obtain ⟨value, hvalue⟩ := h f hf (memberPath path (.ofString f.1))
    exact ⟨stringifyString (.ofString f.1) ++ JsString.lit ":" ++ value, by
      simp only [Json.field, quote_ofString, hvalue, bind, Except.bind, pure, Except.pure]⟩
  obtain ⟨texts, htexts⟩ := hfields
  exact ⟨_, by rw [record, canonicalize, htexts]; rfl⟩

end Json

/-! ### Digests -/

/-- What a digest rests on: how numbers print, and the hash of a text. -/
structure Hashing (Num : Type) where
  num : NumberFormat Num
  sha256 : JsString → Digest

namespace Hashing

variable {Num : Type} (H : Hashing Num)

/-- `digestCanonicalJson`. -/
def digestCanonicalJson (v : Json Num) : Except CanonicalJsonError Digest :=
  (canonicalJsonStringify H.num v).map H.sha256

/-- The digest of a value that has a canonical text. -/
def digest (v : Json Num) : Digest :=
  match H.digestCanonicalJson v with
  | .ok digest => digest
  | .error _ => ""

variable {H}

theorem digestCanonicalJson_ok {v : Json Num} (h : v.Stringifies H.num) :
    H.digestCanonicalJson v = .ok (H.digest v) := by
  obtain ⟨s, hs⟩ := h (JsString.lit "$")
  simp [digest, digestCanonicalJson, canonicalJsonStringify, hs, Except.map]

/-- Without a collision, two values have one digest exactly when they are the same. -/
theorem digest_eq_iff (hsha : Function.Injective H.sha256) {a b : Json Num} {d d' : Digest}
    (ha : a.Distinct) (hb : b.Distinct) (h : H.digestCanonicalJson a = .ok d)
    (h' : H.digestCanonicalJson b = .ok d') : d = d' ↔ Json.Same H.num a b := by
  unfold digestCanonicalJson at h h'
  cases hs : canonicalJsonStringify H.num a with
  | error e => rw [hs] at h; cases h
  | ok s =>
    cases ht : canonicalJsonStringify H.num b with
    | error e => rw [ht] at h'; cases h'
    | ok t =>
      rw [hs] at h
      rw [ht] at h'
      obtain rfl := Except.ok.inj h
      obtain rfl := Except.ok.inj h'
      exact hsha.eq_iff.trans (Json.canonicalize_eq_iff ha hb hs ht)

/-- There is a hash without a collision. -/
theorem exists_injective : ∃ sha256 : JsString → Digest, Function.Injective sha256 := by
  obtain ⟨code, hcode⟩ := exists_injective_nat JsString
  refine ⟨fun s => String.ofList (List.replicate (code s) 'a'), fun s t h => hcode ?_⟩
  have hlength := congrArg (fun digest : Digest => digest.toList.length) h
  simpa using hlength

end Hashing

end Pactmark
