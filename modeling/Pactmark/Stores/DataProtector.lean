import Pactmark.Core.Capability
import Pactmark.Core.Digests
import Pactmark.Core.Encodings
import Pactmark.Core.Run

/-!
# Stores — the data protector

`Aes256GcmDataProtector` of `store-postgres/src/data-protector.ts`, and the three bindings that the
runtime protects records under: of a submitted input, of a context snapshot and of an effect
result.  What the protector calls outside is a `Platform`; what the key provider, the nonce
generator and the registry answer is anything.

* `protectionAad_ok`: which bindings have authenticated data.
* `unprotect_protect`: what was protected under a binding is unprotected under it.
* `unprotect_other`: under another one it is not.
* `protected_iff`: the runtime's bindings are protected and unprotected, but for that of an input.
-/

namespace Pactmark

open Durable

/-- `Readonly<Record<string, string>>`: its keys are distinct. -/
structure Binding where
  fields : List (String × String)
  nodup : (fields.map Prod.fst).Nodup

namespace Binding

/-- `binding[name]`. -/
def get (binding : Binding) (name : String) : Option String :=
  (binding.fields.find? fun field => field.1 = name).map Prod.snd

/-- The binding as it is digested. -/
def json {Num : Type} (binding : Binding) : Json Num :=
  .record (binding.fields.map fun field => (field.1, .text field.2))

/-- Two bindings have the same fields. -/
def Same (a b : Binding) : Prop :=
  ∀ field, field ∈ a.fields ↔ field ∈ b.fields

end Binding

/-- What the protector calls: numbers and hashes, `JSON.parse`, the order of `localeCompare`, and
AES-256-GCM with a tag of sixteen bytes. -/
structure Platform (Num : Type) extends Hashing Num where
  digestBytes : Bytes → Digest
  jsonParse : JsString → Option (Json Num)
  localeLE : String → String → Bool
  encrypt : Bytes → Bytes → Bytes → Bytes → Bytes × Bytes
  decrypt : Bytes → Bytes → Bytes → Bytes → Bytes → Option Bytes
  /-- Two texts have two digests. -/
  sha256_injective : Function.Injective sha256
  /-- `JSON.parse` reads what `JSON.stringify` prints. -/
  jsonParse_render : ∀ v : Json Num, Json.Printable num v → jsonParse (Json.render num v) = some v
  tag_length : ∀ key nonce aad plaintext, (encrypt key nonce aad plaintext).2.length = 16
  decrypt_encrypt : ∀ key nonce aad plaintext,
    decrypt key nonce aad (encrypt key nonce aad plaintext).1 (encrypt key nonce aad plaintext).2 =
      some plaintext

/-- `DataProtectionKey`. -/
structure DataProtectionKey where
  keyId : String
  key : Bytes

/-- `DataProtectionKeyProvider`. -/
structure DataProtectionKeyProvider where
  current : DataProtectionKey
  resolve : String → Option DataProtectionKey

/-- `ProtectionNonceReservation`. -/
inductive ProtectionNonceReservation where
  | reserved
  | collision
  | ceiling_reached
  | key_binding_mismatch
  | ceiling_configuration_mismatch
  deriving DecidableEq, Repr

/-- `ProtectedValueRef`. -/
structure ProtectedValueRef where
  protectorId : String
  keyId : String
  ciphertextRef : JsString
  ciphertextDigest : Digest
  aadDigest : Digest
  algorithm : String

/-- `CiphertextEnvelope`, without its version. -/
structure CiphertextEnvelope where
  nonce : JsString
  ciphertext : JsString
  tag : JsString

/-- `rejectProtection`. -/
def rejectProtection (reason : String) : Thrown :=
  kafReason .KAF_STORAGE_SECURITY_PROFILE reason

/-- `requireNonempty`. -/
def requireNonempty (value : Option String) (field : String) : Except Thrown String :=
  match value with
  | none => .error (rejectProtection (field ++ "_required"))
  | some value =>
      if trim value = "" then .error (rejectProtection (field ++ "_required")) else .ok value

namespace Aes256GcmDataProtector

/-- `PROTECTOR_ID`. -/
def PROTECTOR_ID : String :=
  "pactmark.aes-256-gcm@1"

/-- `ALGORITHM`. -/
def ALGORITHM : String :=
  "AES-256-GCM"

/-- The fields that `protectionAad` requires. -/
def requiredFields : List String :=
  ["tenantId", "recordId", "storeKind", "schemaVersion", "purposeCode", "dataClass"]

/-- `pactmark:aesgcm:v1:`. -/
def referencePrefix : JsString :=
  .ofString "pactmark:aesgcm:v1:"

/-- Throws what the first of them throws. -/
def all {α : Type} (check : α → Except Thrown String) : List α → Except Thrown Unit
  | [] => .ok ()
  | a :: rest =>
      match check a with
      | .error e => .error e
      | .ok _ => all check rest

variable {Num : Type} (P : Platform Num)

/-- `protectionAad`. -/
def protectionAad (binding : Binding) (keyId : String) :
    Except Thrown (List (String × String)) :=
  match all (fun name => requireNonempty (binding.get name) ("binding." ++ name))
      requiredFields with
  | .error e => .error e
  | .ok () =>
    if (binding.get "keyId").isSome then .error (rejectProtection "binding_must_not_supply_key_id")
    else
      let sorted := binding.fields.mergeSort fun left right => P.localeLE left.1 right.1
      match all (fun field =>
          match requireNonempty (some field.1) "binding key" with
          | .error e => .error e
          | .ok _ => requireNonempty (some field.2) field.1) sorted with
      | .error e => .error e
      | .ok () =>
        match requireNonempty (some keyId) "keyId" with
        | .error e => .error e
        | .ok keyId => .ok (sorted ++ [("keyId", keyId)])

/-- `validateKey`. -/
def validateKey (keyRecord : DataProtectionKey) : Except Thrown Bytes :=
  match requireNonempty (some keyRecord.keyId) "keyId" with
  | .error e => .error e
  | .ok _ =>
      if keyRecord.key.length ≠ 32 then .error (rejectProtection "aes_256_key_length")
      else .ok keyRecord.key

/-- `new TextEncoder().encode(canonicalJsonStringify(aadMaterial))`. -/
def aadBytes (aadMaterial : List (String × String)) : Except Thrown Bytes :=
  match canonicalJsonStringify P.num
      (.record (aadMaterial.map fun field => (field.1, .text field.2))) with
  | .error _ => .error (.host "CanonicalJsonError" true)
  | .ok text => .ok (utf8Encode text)

/-- The envelope as it is printed. -/
def envelopeJson (envelope : CiphertextEnvelope) : Json Num :=
  .object [(.ofString "version", .text "1"), (.ofString "nonce", .string envelope.nonce),
    (.ofString "ciphertext", .string envelope.ciphertext), (.ofString "tag", .string envelope.tag)]

/-- The encryption with a reserved nonce. -/
def sealed (keyId : String) (key aad : Bytes) (aadDigest : Digest) (plaintext nonce : Bytes) :
    ProtectedValueRef :=
  let (ciphertext, tag) := P.encrypt key nonce aad plaintext
  let serialized := utf8Encode <| Json.render P.num <| envelopeJson
    ⟨Base64Url.encode nonce, Base64Url.encode ciphertext, Base64Url.encode tag⟩
  { protectorId := PROTECTOR_ID
    keyId
    ciphertextRef := referencePrefix ++ Base64Url.encode serialized
    ciphertextDigest := P.digestBytes serialized
    aadDigest
    algorithm := ALGORITHM }

/-- The loop of `protect` over the nonces that are generated and what the registry answers. -/
def attempt (encrypted : Bytes → ProtectedValueRef) :
    List (Bytes × ProtectionNonceReservation) → Except Thrown ProtectedValueRef
  | [] => .error (rejectProtection "nonce_collision_retry_exhausted")
  | (nonce, reservation) :: rest =>
    if nonce.length ≠ 12 then .error (rejectProtection "nonce_must_be_96_bits")
    else
      match reservation with
      | .collision => attempt encrypted rest
      | .ceiling_reached => .error (rejectProtection "key_invocation_ceiling_reached")
      | .key_binding_mismatch => .error (rejectProtection "key_namespace_mismatch")
      | .ceiling_configuration_mismatch =>
          .error (rejectProtection "key_invocation_ceiling_configuration_mismatch")
      | .reserved => .ok (encrypted nonce)

/-- `protect`. -/
def protect (provider : DataProtectionKeyProvider)
    (attempts : List (Bytes × ProtectionNonceReservation)) (binding : Binding)
    (plaintext : Bytes) : Except Thrown ProtectedValueRef := do
  let keyRecord := provider.current
  let key ← validateKey keyRecord
  let aadMaterial ← protectionAad P binding keyRecord.keyId
  let aad ← aadBytes P aadMaterial
  match P.digestCanonicalJson binding.json with
  | .error _ => .error (.host "CanonicalJsonError" true)
  | .ok aadDigest => attempt (sealed P keyRecord.keyId key aad aadDigest plaintext) attempts

/-- `decodeCiphertextReference`. -/
def decodeCiphertextReference (reference : JsString) : Except Thrown Bytes :=
  if ¬ referencePrefix <+: reference then .error (rejectProtection "ciphertext_reference_format")
  else
    match Base64Url.decode (reference.drop referencePrefix.length) with
    | none => .error (rejectProtection "ciphertext_reference_encoding")
    | some serialized => .ok serialized

/-- The value of a member of an object; of a key that is repeated, the last one. -/
def member (members : List (JsString × Json Num)) (name : String) : Option (Json Num) :=
  (members.reverse.find? fun m => m.1 = .ofString name).map Prod.snd

/-- The keys of an envelope. -/
def envelopeKeys : List JsString :=
  ["ciphertext", "nonce", "tag", "version"].map .ofString

/-- `parseEnvelope`. -/
def parseEnvelope (bytes : Bytes) : Except Thrown CiphertextEnvelope :=
  match P.jsonParse (utf8Decode bytes) with
  | some (.object members) =>
      if ¬ (members.map Prod.fst ⊆ envelopeKeys ∧ envelopeKeys ⊆ members.map Prod.fst) then
        .error (rejectProtection "ciphertext_envelope_invalid")
      else
        match member members "version", member members "nonce", member members "ciphertext",
          member members "tag" with
        | some (.string version), some (.string nonce), some (.string ciphertext),
          some (.string tag) =>
            if version ≠ .ofString "1" then .error (rejectProtection "ciphertext_envelope_invalid")
            else .ok ⟨nonce, ciphertext, tag⟩
        | _, _, _, _ => .error (rejectProtection "ciphertext_envelope_invalid")
  | _ => .error (rejectProtection "ciphertext_envelope_invalid")

/-- `fromBase64Url`. -/
def fromBase64Url (value : JsString) (field : String) : Except Thrown Bytes :=
  match Base64Url.decode value with
  | none => .error (rejectProtection (field ++ "_encoding"))
  | some decoded => .ok decoded

/-- `unprotect`. -/
def unprotect (resolve : String → Option DataProtectionKey) (binding : Binding)
    (reference : ProtectedValueRef) : Except Thrown Bytes := do
  if reference.protectorId ≠ PROTECTOR_ID ∨ reference.algorithm ≠ ALGORITHM then
    throw (rejectProtection "protector_or_algorithm_mismatch")
  let aadMaterial ← protectionAad P binding reference.keyId
  if P.digestCanonicalJson binding.json ≠ .ok reference.aadDigest then
    throw (rejectProtection "aad_mismatch")
  let serialized ← decodeCiphertextReference reference.ciphertextRef
  if reference.ciphertextDigest ≠ P.digestBytes serialized then
    throw (rejectProtection "ciphertext_digest_mismatch")
  let envelope ← parseEnvelope P serialized
  let nonce ← fromBase64Url envelope.nonce "nonce"
  let ciphertext ← fromBase64Url envelope.ciphertext "ciphertext"
  let tag ← fromBase64Url envelope.tag "tag"
  if nonce.length ≠ 12 then throw (rejectProtection "nonce_must_be_96_bits")
  if tag.length ≠ 16 then throw (rejectProtection "authentication_tag_length")
  match resolve reference.keyId with
  | none => throw (rejectProtection "key_unavailable")
  | some keyRecord =>
    if keyRecord.keyId ≠ reference.keyId then throw (rejectProtection "key_unavailable")
    let key ← validateKey keyRecord
    let aad ← aadBytes P aadMaterial
    match P.decrypt key nonce aad ciphertext tag with
    | none => throw (rejectProtection "authentication_failed")
    | some plaintext => return plaintext

/-! ### Which bindings have authenticated data -/

variable {P}

/-- The text has something besides white space. -/
def Nonblank (text : String) : Prop :=
  trim text ≠ ""

instance (text : String) : Decidable (Nonblank text) :=
  inferInstanceAs (Decidable (trim text ≠ ""))

theorem requireNonempty_ok {value : Option String} {field : String} :
    (∃ text, requireNonempty value field = .ok text) ↔
      ∃ text, value = some text ∧ Nonblank text := by
  cases value with
  | none => simp [requireNonempty]
  | some text =>
    by_cases htrim : trim text = "" <;> simp [requireNonempty, Nonblank, htrim]

theorem nonblank_ok {text : String} (h : Nonblank text) (field : String) :
    ∃ text', requireNonempty (some text) field = .ok text' :=
  requireNonempty_ok.mpr ⟨text, rfl, h⟩

theorem all_ok {α : Type} {check : α → Except Thrown String} {l : List α} :
    all check l = .ok () ↔ ∀ a ∈ l, ∃ text, check a = .ok text := by
  induction l with
  | nil => simp [all]
  | cons a l ih =>
    rw [all, List.forall_mem_cons]
    cases hcheck : check a with
    | error e => simp
    | ok text => simpa using ih

/-- **The bindings that have authenticated data** have the six fields, no `keyId`, and nothing
blank. -/
theorem protectionAad_ok {binding : Binding} {keyId : String} :
    (∃ aadMaterial, protectionAad P binding keyId = .ok aadMaterial) ↔
      (∀ name ∈ requiredFields, ∃ text, binding.get name = some text ∧ Nonblank text) ∧
        binding.get "keyId" = none ∧
        (∀ field ∈ binding.fields, Nonblank field.1 ∧ Nonblank field.2) ∧ Nonblank keyId := by
  have hrequired : all (fun name => requireNonempty (binding.get name) ("binding." ++ name))
      requiredFields = .ok () ↔
        ∀ name ∈ requiredFields, ∃ text, binding.get name = some text ∧ Nonblank text := by
    rw [all_ok]
    exact forall₂_congr fun name _ => requireNonempty_ok
  have hfields : all (fun field : String × String =>
      match requireNonempty (some field.1) "binding key" with
      | .error e => .error e
      | .ok _ => requireNonempty (some field.2) field.1)
      (binding.fields.mergeSort fun left right => P.localeLE left.1 right.1) = .ok () ↔
        ∀ field ∈ binding.fields, Nonblank field.1 ∧ Nonblank field.2 := by
    rw [all_ok]
    simp only [(List.mergeSort_perm binding.fields _).mem_iff]
    refine forall₂_congr fun field _ => ?_
    cases hok : requireNonempty (some field.1) "binding key" with
    | error e =>
      have hblank : ¬ Nonblank field.1 := by
        intro hnonblank
        obtain ⟨text, htext⟩ := nonblank_ok hnonblank "binding key"
        rw [hok] at htext
        cases htext
      simp [hblank]
    | ok text =>
      obtain ⟨key, hkey, hnonblank⟩ := requireNonempty_ok.mp ⟨text, hok⟩
      obtain rfl := Option.some.inj hkey
      simp [hnonblank, requireNonempty_ok]
  unfold protectionAad
  rw [← hrequired, ← hfields]
  cases all (fun name => requireNonempty (binding.get name) ("binding." ++ name))
      requiredFields with
  | error e => simp
  | ok u =>
    cases hkeyId : binding.get "keyId" with
    | some text => simp
    | none =>
      simp only [Option.isSome_none, Bool.false_eq_true, if_false, true_and]
      cases all (fun field : String × String =>
          match requireNonempty (some field.1) "binding key" with
          | .error e => .error e
          | .ok _ => requireNonempty (some field.2) field.1)
          (binding.fields.mergeSort fun left right => P.localeLE left.1 right.1) with
      | error e => simp
      | ok u =>
        by_cases htrim : trim keyId = "" <;> simp [requireNonempty, Nonblank, htrim]

theorem aadBytes_ok (aadMaterial : List (String × String)) :
    ∃ aad, aadBytes P aadMaterial = .ok aad := by
  have htexts : (Json.record (aadMaterial.map fun field => (field.1, Json.text field.2))).Stringifies
      P.num := by
    refine Json.stringifies_record fun field hfield => ?_
    obtain ⟨f, -, rfl⟩ := List.mem_map.mp hfield
    exact Json.stringifies_text _
  obtain ⟨text, htext⟩ := htexts (JsString.lit "$")
  exact ⟨utf8Encode text, by rw [aadBytes, canonicalJsonStringify, htext]⟩

end Aes256GcmDataProtector

namespace Binding

variable {Num : Type}

theorem stringifies_json {num : NumberFormat Num} (binding : Binding) :
    binding.json.Stringifies num := by
  refine Json.stringifies_record fun field hfield => ?_
  obtain ⟨f, -, rfl⟩ := List.mem_map.mp hfield
  exact Json.stringifies_text _

theorem distinct_json (binding : Binding) : (binding.json : Json Num).Distinct := by
  refine Json.distinct_record ?_ fun field hfield => ?_
  · simpa [List.map_map, Function.comp_def] using binding.nodup
  · obtain ⟨f, -, rfl⟩ := List.mem_map.mp hfield
    exact Json.distinct_text _

theorem mem_of_same_json {num : NumberFormat Num} {a b : Binding}
    (h : Json.Same num a.json b.json) {field : String × String} (hfield : field ∈ a.fields) :
    field ∈ b.fields := by
  obtain ⟨-, hmembers⟩ := h
  obtain ⟨w, hw, hsame⟩ := Json.sameMembers_iff.mp hmembers
    (JsString.ofString field.1, .text field.2)
    (List.mem_map.mpr ⟨(field.1, .text field.2), List.mem_map_of_mem hfield, rfl⟩)
  simp only [List.map_map, List.mem_map, Function.comp_apply, Prod.mk.injEq] at hw
  obtain ⟨f, hf, hkey, rfl⟩ := hw
  have hvalue : JsString.ofString field.2 = JsString.ofString f.2 := hsame
  rw [show field = f from Prod.ext (JsString.ofString_injective hkey.symm)
    (JsString.ofString_injective hvalue)]
  exact hf

/-- Two bindings are digested to the same value when they have the same fields. -/
theorem same_of_same_json {num : NumberFormat Num} {a b : Binding}
    (h : Json.Same num a.json b.json) : a.Same b := by
  intro field
  have hsymm : Json.Same num b.json a.json := by
    rw [Json.same_iff_canon_eq _ _ b.distinct_json a.distinct_json]
    exact ((Json.same_iff_canon_eq _ _ a.distinct_json b.distinct_json).mp h).symm
  exact ⟨mem_of_same_json h, mem_of_same_json hsymm⟩

end Binding

namespace Aes256GcmDataProtector

variable {Num : Type} {P : Platform Num}

/-! ### The envelope -/

theorem validUnicode_of_ascii {s : JsString} (h : ∀ unit ∈ s, unit < 128) : ValidUnicode s := by
  intro path
  induction s with
  | nil => rw [assertValidUnicode]
  | cons unit s ih =>
    obtain ⟨hunit, hs⟩ := List.forall_mem_cons.mp h
    have hhigh : isHighSurrogate unit = false := by
      simp only [isHighSurrogate, Bool.and_eq_false_iff, decide_eq_false_iff_not]
      omega
    have hlow : isLowSurrogate unit = false := by
      simp only [isLowSurrogate, Bool.and_eq_false_iff, decide_eq_false_iff_not]
      omega
    rw [assertValidUnicode.eq_def]
    simp only [hhigh, hlow, Bool.false_eq_true, if_false]
    exact ih hs

/-- An ASCII text is printed in ASCII. -/
theorem stringifyString_ascii {s : JsString} (h : ∀ unit ∈ s, unit < 128) :
    ∀ unit ∈ stringifyString s, unit < 128 := by
  have hescape : ∀ unit < 128, ∀ v ∈ escapeUnit unit, v < 128 := by
    decide +kernel
  intro v hv
  simp only [stringifyString, List.mem_cons, List.mem_append, List.mem_flatMap,
    List.not_mem_nil, or_false] at hv
  rcases hv with rfl | ⟨unit, hunit, hv⟩ | rfl
  · decide
  · exact hescape unit (h unit hunit) v hv
  · decide

/-- What is in an envelope. -/
structure Plain (envelope : CiphertextEnvelope) : Prop where
  nonce : ∀ unit ∈ envelope.nonce, unit < 128
  ciphertext : ∀ unit ∈ envelope.ciphertext, unit < 128
  tag : ∀ unit ∈ envelope.tag, unit < 128

theorem printable_envelope {num : NumberFormat Num} {envelope : CiphertextEnvelope}
    (h : Plain envelope) : Json.Printable num (envelopeJson envelope) := by
  have hkeys : [JsString.ofString "version", .ofString "nonce", .ofString "ciphertext",
      .ofString "tag"].Nodup := by decide +kernel
  refine ⟨hkeys, ?_⟩
  rw [Json.printableMembers_iff]
  simp only [List.forall_mem_cons, List.not_mem_nil, false_imp_iff, implies_true, and_true]
  exact ⟨⟨JsString.validUnicode_ofString _, JsString.validUnicode_ofString _⟩,
    ⟨JsString.validUnicode_ofString _, validUnicode_of_ascii h.nonce⟩,
    ⟨JsString.validUnicode_ofString _, validUnicode_of_ascii h.ciphertext⟩,
    JsString.validUnicode_ofString _, validUnicode_of_ascii h.tag⟩

theorem render_envelope_ascii {num : NumberFormat Num} {envelope : CiphertextEnvelope}
    (h : Plain envelope) : ∀ unit ∈ Json.render num (envelopeJson envelope), unit < 128 := by
  have hkeys : ∀ key ∈ ["version", "nonce", "ciphertext", "tag", "1"],
      ∀ unit ∈ stringifyString (.ofString key), unit < 128 := by decide +kernel
  simp only [List.forall_mem_cons, List.not_mem_nil, false_imp_iff, implies_true, and_true] at hkeys
  obtain ⟨hversion, hnonce, hciphertext, htag, hone⟩ := hkeys
  have hnonce' := stringifyString_ascii h.nonce
  have hciphertext' := stringifyString_ascii h.ciphertext
  have htag' := stringifyString_ascii h.tag
  intro unit hunit
  simp only [envelopeJson, Json.render, Json.renderMembers, Json.text, JsString.joinComma,
    List.mem_append, List.mem_cons] at hunit
  have hlit : ∀ s ∈ [JsString.lit "\x7b", JsString.lit "\x7d", JsString.lit ":"],
      ∀ unit ∈ s, unit < 128 := by decide
  simp only [List.forall_mem_cons, List.not_mem_nil, false_imp_iff, implies_true, and_true] at hlit
  obtain ⟨hopen, hclose, hcolon⟩ := hlit
  grind

/-- An envelope is read back from its bytes. -/
theorem parseEnvelope_render {envelope : CiphertextEnvelope} (h : Plain envelope) :
    parseEnvelope P (utf8Encode (Json.render P.num (envelopeJson envelope))) = .ok envelope := by
  unfold parseEnvelope
  rw [utf8Decode_utf8Encode (render_envelope_ascii h),
    P.jsonParse_render _ (printable_envelope h)]
  have hkeys : [JsString.ofString "version", .ofString "nonce", .ofString "ciphertext",
      .ofString "tag"] ⊆ envelopeKeys ∧ envelopeKeys ⊆ [JsString.ofString "version",
        .ofString "nonce", .ofString "ciphertext", .ofString "tag"] := by decide +kernel
  simp only [envelopeJson, List.map_cons, List.map_nil, hkeys, and_self, not_true_eq_false,
    if_false]
  simp [member, JsString.ofString_injective.eq_iff, Json.text]

/-! ### The round trip -/

/-- The key is one of AES-256, under an id. -/
structure DataProtectionKeyValid (keyRecord : DataProtectionKey) : Prop where
  keyId : Nonblank keyRecord.keyId
  key : keyRecord.key.length = 32

/-- The nonce is the first that does not collide, and it is reserved. -/
def Reserves (attempts : List (Bytes × ProtectionNonceReservation)) (nonce : Bytes) : Prop :=
  nonce.length = 12 ∧ ∃ before after, attempts = before ++ (nonce, .reserved) :: after ∧
    ∀ a ∈ before, a.1.length = 12 ∧ a.2 = .collision

theorem validateKey_ok {keyRecord : DataProtectionKey} (h : DataProtectionKeyValid keyRecord) :
    validateKey keyRecord = .ok keyRecord.key := by
  obtain ⟨text, htext⟩ := nonblank_ok h.keyId "keyId"
  simp [validateKey, htext, h.key]

theorem attempt_reserved {encrypted : Bytes → ProtectedValueRef}
    {attempts : List (Bytes × ProtectionNonceReservation)} {nonce : Bytes}
    (h : Reserves attempts nonce) : attempt encrypted attempts = .ok (encrypted nonce) := by
  obtain ⟨hnonce, before, after, rfl, hbefore⟩ := h
  induction before with
  | nil => simp [attempt, hnonce]
  | cons a before ih =>
    obtain ⟨⟨hlength, hcollision⟩, hrest⟩ := List.forall_mem_cons.mp hbefore
    obtain ⟨nonce', reservation⟩ := a
    dsimp only at hlength hcollision
    subst hcollision
    simp only [List.cons_append, attempt, hlength, ne_eq, not_true_eq_false, if_false]
    exact ih hrest

theorem plain_encode (nonce ciphertext tag : Bytes) :
    Plain ⟨Base64Url.encode nonce, Base64Url.encode ciphertext, Base64Url.encode tag⟩ where
  nonce unit hunit := (Base64Url.encode_ascii _ unit hunit).2.1
  ciphertext unit hunit := (Base64Url.encode_ascii _ unit hunit).2.1
  tag unit hunit := (Base64Url.encode_ascii _ unit hunit).2.1

theorem decodeCiphertextReference_encode (serialized : Bytes) :
    decodeCiphertextReference (referencePrefix ++ Base64Url.encode serialized) =
      .ok serialized := by
  simp [decodeCiphertextReference, Base64Url.decode_encode]

theorem digest_json (binding : Binding) :
    P.digestCanonicalJson binding.json = .ok (P.digest binding.json) :=
  Hashing.digestCanonicalJson_ok binding.stringifies_json

/-- What a protected value is. -/
theorem protect_ok {provider : DataProtectionKeyProvider}
    {attempts : List (Bytes × ProtectionNonceReservation)} {nonce plaintext : Bytes}
    {binding : Binding} {aadMaterial : List (String × String)} {aad : Bytes}
    (hkey : DataProtectionKeyValid provider.current) (hnonce : Reserves attempts nonce)
    (haad : protectionAad P binding provider.current.keyId = .ok aadMaterial)
    (hbytes : aadBytes P aadMaterial = .ok aad) :
    protect P provider attempts binding plaintext =
      .ok (sealed P provider.current.keyId provider.current.key aad (P.digest binding.json)
        plaintext nonce) := by
  simp [protect, validateKey_ok hkey, haad, hbytes, digest_json, attempt_reserved hnonce, bind,
    Except.bind]

/-- What is protected has authenticated data. -/
theorem protect_aad {provider : DataProtectionKeyProvider}
    {attempts : List (Bytes × ProtectionNonceReservation)} {plaintext : Bytes} {binding : Binding}
    {reference : ProtectedValueRef}
    (h : protect P provider attempts binding plaintext = .ok reference) :
    ∃ aadMaterial, protectionAad P binding provider.current.keyId = .ok aadMaterial := by
  obtain ⟨key, -, h⟩ := bind_eq_ok.mp h
  obtain ⟨aadMaterial, haad, -⟩ := bind_eq_ok.mp h
  exact ⟨aadMaterial, haad⟩

/-- **What was protected under a binding is unprotected under it**, with any provider that still
resolves the key. -/
theorem unprotect_protect {keyRecord : DataProtectionKey} {nonce plaintext : Bytes}
    {binding : Binding} {aadMaterial : List (String × String)} {aad : Bytes}
    (hkey : DataProtectionKeyValid keyRecord) (hnonce : nonce.length = 12)
    (haad : protectionAad P binding keyRecord.keyId = .ok aadMaterial)
    (hbytes : aadBytes P aadMaterial = .ok aad) {resolve : String → Option DataProtectionKey}
    (hresolve : resolve keyRecord.keyId = some keyRecord) :
    unprotect P resolve binding
        (sealed P keyRecord.keyId keyRecord.key aad (P.digest binding.json) plaintext nonce) =
      .ok plaintext := by
  have htag := P.tag_length keyRecord.key nonce aad plaintext
  have hdecrypt := P.decrypt_encrypt keyRecord.key nonce aad plaintext
  simp [unprotect, sealed, haad, hbytes, digest_json, decodeCiphertextReference_encode,
    parseEnvelope_render (plain_encode _ _ _), fromBase64Url, Base64Url.decode_encode, hnonce, htag,
    hresolve, validateKey_ok hkey, hdecrypt, bind, Except.bind, pure, Except.pure]

/-- **Under another binding it is not.** -/
theorem unprotect_other {keyId : String} {key aad nonce plaintext : Bytes} {binding other : Binding}
    (h : ¬ other.Same binding) (resolve : String → Option DataProtectionKey) :
    ∃ e, unprotect P resolve other
      (sealed P keyId key aad (P.digest binding.json) plaintext nonce) = .error e := by
  have hdigest : P.digest other.json ≠ P.digest binding.json := by
    intro heq
    exact h (Binding.same_of_same_json ((Hashing.digest_eq_iff P.sha256_injective
      other.distinct_json binding.distinct_json (digest_json other) (digest_json binding)).mp heq))
  cases haad : protectionAad P other keyId with
  | error e => exact ⟨e, by simp [unprotect, sealed, haad, bind, Except.bind]⟩
  | ok aadMaterial =>
    exact ⟨rejectProtection "aad_mismatch", by
      simp [unprotect, sealed, haad, digest_json, hdigest, bind, Except.bind, throw,
        throwThe, MonadExceptOf.throw]⟩

end Aes256GcmDataProtector

/-! ### The bindings of the runtime -/

open Aes256GcmDataProtector

/-- The text of a data class. -/
def DataClass.text : DataClass → String
  | .public_data => "public"
  | .internal => "internal"
  | .confidential => "confidential"
  | .restricted => "restricted"
  | .highly_restricted => "highly_restricted"

/-- The text of a strategy. -/
def EffectStrategyKind.text : EffectStrategyKind → String
  | .native => "native"
  | .transactional => "transactional"
  | .reconcilable => "reconcilable"
  | .none => "none"

/-- `canonicalJsonStringify(executionDefinition)`; the keys stand in their order. -/
def ExecutionDefinition.canonicalText : ExecutionDefinition → String
  | .agent id version agentDefinitionDigest =>
      JsonValue.stringify <| .object
        [("agentDefinitionDigest", .string agentDefinitionDigest), ("id", .string id),
          ("kind", .string "agent"), ("version", .string version)]
  | .compensation id version compensationRunDefinitionDigest originalAgentDefinitionDigest
      originalEffectDigest compensationStrategyRegistrationDigest
      compensationToolRegistrationDigest =>
      JsonValue.stringify <| .object
        [("compensationRunDefinitionDigest", .string compensationRunDefinitionDigest),
          ("compensationStrategyRegistrationDigest",
            .string compensationStrategyRegistrationDigest),
          ("compensationToolRegistrationDigest", .string compensationToolRegistrationDigest),
          ("id", .string id), ("kind", .string "compensation"),
          ("originalAgentDefinitionDigest", .string originalAgentDefinitionDigest),
          ("originalEffectDigest", .string originalEffectDigest), ("version", .string version)]

/-- What is bound of an input submission. -/
structure InputSubmission where
  tenantId : String
  runId : String
  requestId : String
  inputSubmissionRecordId : String
  workOrderBindingDigest : Digest
  inputSchemaDigest : Digest
  valueDigest : Digest
  consumingCommandId : String

/-- What is bound of a `ContextSnapshot`. -/
structure BoundContextSnapshot where
  snapshotId : String
  tenantId : String
  runId : String
  sequence : Nat
  stepId : String
  executionDefinitionDigest : Digest
  workOrderBindingDigest : Digest
  contextSchemaDigest : Digest
  contextDigest : Digest
  purpose : Purpose
  dataClass : DataClass

/-- `ProtectedEffectResultAadRecord`. -/
structure ProtectedEffectResultAadRecord where
  tenantId : String
  runId : String
  effectId : String
  effectDigest : Digest
  resultDigest : Digest
  byteSize : Nat
  workOrderId : String
  workOrderBindingDigest : Digest
  executionDefinition : ExecutionDefinition
  executionDefinitionDigest : Digest
  toolId : String
  toolVersion : String
  toolRegistrationDigest : Digest
  strategy : EffectStrategyKind
  strategyRegistrationDigest : Digest
  resultSchemaDigest : Digest
  purpose : Purpose
  dataClass : DataClass
  createdAt : String

/-- The binding of `submitInput`, of the values it makes the record of. -/
def submitInputBinding (record : InputSubmission) : Binding where
  fields :=
    [("tenantId", record.tenantId), ("runId", record.runId), ("requestId", record.requestId),
      ("recordId", record.inputSubmissionRecordId),
      ("workOrderBindingDigest", record.workOrderBindingDigest),
      ("inputSchemaDigest", record.inputSchemaDigest), ("valueDigest", record.valueDigest),
      ("commandId", record.consumingCommandId)]
  nodup := by simp

/-- The binding of `#loadSubmittedInput`, of the record. -/
def loadSubmittedInputBinding (record : InputSubmission) : Binding where
  fields :=
    [("tenantId", record.tenantId), ("runId", record.runId), ("requestId", record.requestId),
      ("recordId", record.inputSubmissionRecordId),
      ("workOrderBindingDigest", record.workOrderBindingDigest),
      ("inputSchemaDigest", record.inputSchemaDigest), ("valueDigest", record.valueDigest),
      ("commandId", record.consumingCommandId)]
  nodup := by simp

/-- `#contextBinding`. -/
def BoundContextSnapshot.contextBinding (snapshot : BoundContextSnapshot) : Binding where
  fields :=
    [("tenantId", snapshot.tenantId), ("recordId", snapshot.snapshotId),
      ("storeKind", "context"), ("schemaVersion", "1"), ("purposeCode", snapshot.purpose.code),
      ("purposeRegistryVersion", snapshot.purpose.registryVersion),
      ("dataClass", snapshot.dataClass.text), ("runId", snapshot.runId),
      ("stepId", snapshot.stepId), ("sequence", toString snapshot.sequence),
      ("executionDefinitionDigest", snapshot.executionDefinitionDigest),
      ("workOrderBindingDigest", snapshot.workOrderBindingDigest),
      ("contextSchemaDigest", snapshot.contextSchemaDigest),
      ("contextDigest", snapshot.contextDigest)]
  nodup := by simp

/-- `protectedEffectResultAad`. -/
def protectedEffectResultAad (record : ProtectedEffectResultAadRecord) : Binding where
  fields :=
    [("storeKind", "acknowledged_effect_result"), ("schemaVersion", "1"),
      ("tenantId", record.tenantId), ("runId", record.runId), ("effectId", record.effectId),
      ("recordId", record.effectId), ("effectDigest", record.effectDigest),
      ("resultDigest", record.resultDigest), ("byteSize", toString record.byteSize),
      ("workOrderId", record.workOrderId),
      ("workOrderBindingDigest", record.workOrderBindingDigest),
      ("executionDefinition", record.executionDefinition.canonicalText),
      ("executionDefinitionDigest", record.executionDefinitionDigest),
      ("toolId", record.toolId), ("toolVersion", record.toolVersion),
      ("toolRegistrationDigest", record.toolRegistrationDigest),
      ("strategy", record.strategy.text),
      ("strategyRegistrationDigest", record.strategyRegistrationDigest),
      ("resultSchemaDigest", record.resultSchemaDigest), ("purposeCode", record.purpose.code),
      ("purposeRegistryVersion", record.purpose.registryVersion),
      ("dataClass", record.dataClass.text), ("createdAt", record.createdAt)]
  nodup := by simp

/-- A record whose content the runtime protects. -/
inductive ProtectedRecord where
  | input (record : InputSubmission)
  | context (snapshot : BoundContextSnapshot)
  | effectResult (record : ProtectedEffectResultAadRecord)

namespace ProtectedRecord

/-- The binding when it is written. -/
def written : ProtectedRecord → Binding
  | .input record => submitInputBinding record
  | .context snapshot => snapshot.contextBinding
  | .effectResult record => protectedEffectResultAad record

/-- The binding when it is read. -/
def rebuilt : ProtectedRecord → Binding
  | .input record => loadSubmittedInputBinding record
  | .context snapshot => snapshot.contextBinding
  | .effectResult record => protectedEffectResultAad record

/-- The identifiers, digests and texts of the record. -/
def identifiers : ProtectedRecord → List String
  | .input r =>
      [r.tenantId, r.runId, r.requestId, r.inputSubmissionRecordId, r.workOrderBindingDigest,
        r.inputSchemaDigest, r.valueDigest, r.consumingCommandId]
  | .context s =>
      [s.snapshotId, s.tenantId, s.runId, s.stepId, s.executionDefinitionDigest,
        s.workOrderBindingDigest, s.contextSchemaDigest, s.contextDigest, s.purpose.code,
        s.purpose.registryVersion]
  | .effectResult r =>
      [r.tenantId, r.runId, r.effectId, r.effectDigest, r.resultDigest, r.workOrderId,
        r.workOrderBindingDigest, r.executionDefinitionDigest, r.toolId, r.toolVersion,
        r.toolRegistrationDigest, r.strategyRegistrationDigest, r.resultSchemaDigest,
        r.purpose.code, r.purpose.registryVersion, r.createdAt]

/-- None of them is blank. -/
def Identified (record : ProtectedRecord) : Prop :=
  ∀ text ∈ record.identifiers, Nonblank text

/-- The reader builds the binding that the writer built. -/
theorem rebuilt_eq_written (record : ProtectedRecord) : record.rebuilt = record.written := by
  cases record <;> rfl

end ProtectedRecord

/-- A text with something besides white space is not blank. -/
theorem nonblank_of_mem {text : String} {c : Char} (h : c ∈ text.toList)
    (hc : isWhiteSpace c = false) : Nonblank text := by
  intro htrim
  have hnil : (text.toList.dropWhile isWhiteSpace).rdropWhile isWhiteSpace = [] := by
    have := congrArg String.toList htrim
    simpa [trim] using this
  rw [List.rdropWhile_eq_nil_iff] at hnil
  rw [← List.takeWhile_append_dropWhile (p := isWhiteSpace) (l := text.toList)] at h
  rcases List.mem_append.mp h with hmem | hmem
  · rw [List.mem_takeWhile_imp hmem] at hc
    cases hc
  · rw [hnil c hmem] at hc
    cases hc

theorem nonblank_toString (n : Nat) : Nonblank (toString n) := by
  obtain ⟨c, digits, hdigits⟩ := List.exists_cons_of_ne_nil (Nat.toDigits_ne_nil (n := n) (b := 10))
  have hmem : c ∈ Nat.toDigits 10 n := by simp [hdigits]
  have hc := Nat.isDigit_of_mem_toDigits (by decide) (by decide) hmem
  refine nonblank_of_mem (by simpa [Nat.toString_eq_repr] using hmem) ?_
  have hrange : 48 ≤ c.toNat ∧ c.toNat ≤ 57 := by
    simpa [Char.isDigit, UInt32.le_iff_toNat_le] using hc
  have hplain : c.toNat ∉ [9, 10, 11, 12, 13, 32, 0xa0, 0x1680, 0x2028, 0x2029, 0x202f, 0x205f,
      0x3000, 0xfeff] := by
    simp only [List.mem_cons, List.not_mem_nil, not_or, not_false_eq_true, and_true]
    omega
  rw [isWhiteSpace, decide_eq_false_iff_not, not_or]
  exact ⟨hplain, by omega⟩

theorem nonblank_canonicalText (definition : ExecutionDefinition) :
    Nonblank definition.canonicalText := by
  have hbrace : '\x7b' ∈ definition.canonicalText.toList := by
    cases definition <;> simp [ExecutionDefinition.canonicalText, JsonValue.stringify]
  exact nonblank_of_mem hbrace (by decide)

/-- A binding without a blank text that has the six fields has authenticated data. -/
theorem protectionAad_of_nonblank {Num : Type} {P : Platform Num} {binding : Binding}
    {keyId : String} (hrequired : ∀ name ∈ requiredFields, (binding.get name).isSome)
    (hnone : binding.get "keyId" = none)
    (hfields : ∀ field ∈ binding.fields, Nonblank field.1 ∧ Nonblank field.2)
    (hkeyId : Nonblank keyId) :
    ∃ aadMaterial, protectionAad P binding keyId = .ok aadMaterial := by
  refine protectionAad_ok.mpr ⟨fun name hname => ?_, hnone, hfields, hkeyId⟩
  obtain ⟨text, htext⟩ := Option.isSome_iff_exists.mp (hrequired name hname)
  obtain ⟨field, hfield, rfl⟩ := Option.map_eq_some_iff.mp htext
  exact ⟨field.2, htext, (hfields field (List.mem_of_find?_eq_some hfield)).2⟩

/-- **The bindings of the runtime** have authenticated data, but for that of an input. -/
theorem written_aad {Num : Type} {P : Platform Num} {record : ProtectedRecord} {keyId : String}
    (h : record.Identified) (hkeyId : Nonblank keyId) :
    (∃ aadMaterial, protectionAad P record.written keyId = .ok aadMaterial) ↔
      ∀ submission, record ≠ .input submission := by
  have hnames : ∀ dataClass : DataClass, Nonblank dataClass.text := by
    intro dataClass
    cases dataClass <;> decide +kernel
  have hstrategies : ∀ strategy : EffectStrategyKind, Nonblank strategy.text := by
    intro strategy
    cases strategy <;> decide +kernel
  cases record with
  | input record =>
    refine iff_of_false ?_ fun hne => hne record rfl
    intro hok
    obtain ⟨text, htext, -⟩ := (protectionAad_ok.mp hok).1 "storeKind" (by decide)
    simp [Binding.get, ProtectedRecord.written, submitInputBinding] at htext
  | context snapshot =>
    refine iff_of_true (protectionAad_of_nonblank ?_ ?_ ?_ hkeyId) (by rintro _ ⟨⟩)
    · simp [requiredFields, Binding.get, ProtectedRecord.written, BoundContextSnapshot.contextBinding]
    · simp [Binding.get, ProtectedRecord.written, BoundContextSnapshot.contextBinding]
    · simp only [ProtectedRecord.Identified, ProtectedRecord.identifiers, List.forall_mem_cons,
        List.not_mem_nil, false_imp_iff, implies_true, and_true] at h
      have hkeys : ∀ name ∈ ["tenantId", "recordId", "storeKind", "schemaVersion", "purposeCode",
          "purposeRegistryVersion", "dataClass", "runId", "stepId", "sequence",
          "executionDefinitionDigest", "workOrderBindingDigest", "contextSchemaDigest",
          "contextDigest", "context", "1"], Nonblank name := by decide +kernel
      simp only [List.forall_mem_cons, List.not_mem_nil, false_imp_iff, implies_true, and_true]
        at hkeys
      simp only [ProtectedRecord.written, BoundContextSnapshot.contextBinding,
        List.forall_mem_cons, List.not_mem_nil, false_imp_iff, implies_true, and_true]
      simp only [h, hkeys, hnames, nonblank_toString, and_self]
  | effectResult record =>
    refine iff_of_true (protectionAad_of_nonblank ?_ ?_ ?_ hkeyId) (by rintro _ ⟨⟩)
    · simp [requiredFields, Binding.get, ProtectedRecord.written, protectedEffectResultAad]
    · simp [Binding.get, ProtectedRecord.written, protectedEffectResultAad]
    · simp only [ProtectedRecord.Identified, ProtectedRecord.identifiers, List.forall_mem_cons,
        List.not_mem_nil, false_imp_iff, implies_true, and_true] at h
      have hkeys : ∀ name ∈ ["storeKind", "schemaVersion", "tenantId", "runId", "effectId",
          "recordId", "effectDigest", "resultDigest", "byteSize", "workOrderId",
          "workOrderBindingDigest", "executionDefinition", "executionDefinitionDigest", "toolId",
          "toolVersion", "toolRegistrationDigest", "strategy", "strategyRegistrationDigest",
          "resultSchemaDigest", "purposeCode", "purposeRegistryVersion", "dataClass", "createdAt",
          "acknowledged_effect_result", "1"], Nonblank name := by decide +kernel
      simp only [List.forall_mem_cons, List.not_mem_nil, false_imp_iff, implies_true, and_true]
        at hkeys
      simp only [ProtectedRecord.written, protectedEffectResultAad, List.forall_mem_cons,
        List.not_mem_nil, false_imp_iff, implies_true, and_true]
      simp only [h, hkeys, hnames, hstrategies, nonblank_toString, nonblank_canonicalText,
        and_self]

/-- **What the runtime protects is unprotected**, under the binding that is rebuilt when it is
read and under no other one, but for the submitted inputs: they are not protected at all. -/
theorem protected_iff {Num : Type} (P : Platform Num) {provider : DataProtectionKeyProvider}
    {attempts : List (Bytes × ProtectionNonceReservation)} {nonce : Bytes}
    {record : ProtectedRecord} (hkey : DataProtectionKeyValid provider.current)
    (hnonce : Reserves attempts nonce) (h : record.Identified) (plaintext : Bytes) :
    (∃ reference, protect P provider attempts record.written plaintext = .ok reference ∧
      P.digestCanonicalJson record.written.json = .ok reference.aadDigest ∧
      (∀ resolve : String → Option DataProtectionKey,
        resolve reference.keyId = some provider.current →
          unprotect P resolve record.rebuilt reference = .ok plaintext) ∧
      ∀ (resolve : String → Option DataProtectionKey) (other : Binding),
        ¬ other.Same record.written → ∃ e, unprotect P resolve other reference = .error e) ↔
      ∀ submission, record ≠ .input submission := by
  rw [← written_aad (P := P) h hkey.keyId]
  constructor
  · rintro ⟨reference, hprotect, -⟩
    exact protect_aad hprotect
  · rintro ⟨aadMaterial, haad⟩
    obtain ⟨aad, hbytes⟩ := aadBytes_ok (P := P) aadMaterial
    refine ⟨_, protect_ok hkey hnonce haad hbytes, digest_json _, ?_, ?_⟩
    · intro resolve hresolve
      rw [record.rebuilt_eq_written]
      exact unprotect_protect hkey hnonce.1 haad hbytes hresolve
    · intro resolve other hother
      exact unprotect_other hother resolve

/-! ### A protected context -/

open SampleNumber in
/-- A platform that prints some doubles, and whose cipher takes everything as it is. -/
theorem exists_platform : Nonempty (Platform SampleNumber) := by
  obtain ⟨sha256, hsha⟩ := Hashing.exists_injective
  exact ⟨{
    num := format
    sha256
    digestBytes := fun _ => "sha256"
    jsonParse := fun text => (parseJsonStrict format text).toOption
    localeLE := fun left right => decide (left ≤ right)
    encrypt := fun _ _ _ plaintext => (plaintext, List.replicate 16 0)
    decrypt := fun _ _ _ ciphertext _ => some ciphertext
    sha256_injective := hsha
    jsonParse_render := fun v hv => by rw [Json.parseJsonStrict_render hv]; rfl
    tag_length := fun _ _ _ _ => rfl
    decrypt_encrypt := fun _ _ _ _ => rfl }⟩

/-- A provider with one key. -/
def oneKey : DataProtectionKeyProvider where
  current := ⟨"key", List.replicate 32 7⟩
  resolve _ := none

theorem oneKey_valid : DataProtectionKeyValid oneKey.current :=
  ⟨by decide +kernel, rfl⟩

/-- The registry reserves the first nonce. -/
def oneNonce : List (Bytes × ProtectionNonceReservation) :=
  [(List.replicate 12 1, .reserved)]

theorem oneNonce_reserves : Reserves oneNonce (List.replicate 12 1) :=
  ⟨rfl, [], [], rfl, nofun⟩

/-- A snapshot of a run. -/
def someSnapshot : ProtectedRecord :=
  .context
    { snapshotId := "context-event"
      tenantId := "tenant"
      runId := "run"
      sequence := 3
      stepId := "step"
      executionDefinitionDigest := "definition"
      workOrderBindingDigest := "binding"
      contextSchemaDigest := "schema"
      contextDigest := "context"
      purpose := ⟨"purpose", "1"⟩
      dataClass := .internal }

/-- An input to a run. -/
def someInput : ProtectedRecord :=
  .input ⟨"tenant", "run", "request", "record", "binding", "schema", "value", "command"⟩

theorem protected_iff_snapshot : ∃ (P : Platform SampleNumber) (reference : ProtectedValueRef),
    protect P oneKey oneNonce someSnapshot.written [1, 2, 3] = .ok reference := by
  obtain ⟨P⟩ := exists_platform
  have hid : someSnapshot.Identified := by
    unfold ProtectedRecord.Identified
    decide +kernel
  obtain ⟨reference, hprotect, -⟩ :=
    (protected_iff P oneKey_valid oneNonce_reserves hid [1, 2, 3]).mpr nofun
  exact ⟨P, reference, hprotect⟩

/-- The protector does not accept the binding of an input. -/
theorem input_not_protected :
    ¬ ∀ (P : Platform SampleNumber) (provider : DataProtectionKeyProvider)
      (attempts : List (Bytes × ProtectionNonceReservation)) (nonce : Bytes)
      (record : ProtectedRecord) (plaintext : Bytes), DataProtectionKeyValid provider.current →
        Reserves attempts nonce → record.Identified →
          ∃ reference, protect P provider attempts record.written plaintext = .ok reference := by
  intro h
  obtain ⟨P⟩ := exists_platform
  have hid : someInput.Identified := by
    unfold ProtectedRecord.Identified
    decide +kernel
  obtain ⟨reference, hprotect⟩ :=
    h P oneKey oneNonce _ someInput [1, 2, 3] oneKey_valid oneNonce_reserves hid
  exact (written_aad hid oneKey_valid.keyId).mp (protect_aad hprotect) _ rfl

end Pactmark
