import Pactmark.Core.StrictJson
import Pactmark.Evidence.RecordOrder

/-!
# Evidence — what a record says

A record that was built verifies, is read back from its export, and refers to nothing that no
event of the input records.

* `verifies_of_build`, `exported_of_build`: the digest and the export of a record.
* `artifactRefs_backed`, `approvalRefs_backed`, `verificationRefs_backed`, `exceptionRefs_backed`,
  `required_of_build`: its references, and its required verifiers.
* `buildEvidenceRecord_evident_iff`: when building evidence is order-independent, backed and
  self-verifying.
-/

namespace Pactmark

open JsString (lit ofString)

open Durable

namespace Records

variable {Num : Type} {E : Environment Num}

/-! ### What a record is backed by -/

section Backed

variable {input : BuildEvidenceInput Num} {r : EvidenceRecord Num}

theorem completeRecord_ok {approvals : List (Approval Num)}
    (h : complete E input approvals = .ok r) :
    ∃ refs, approvals.mapM (approvalRef E) = .ok refs ∧
      digestCanonicalJson E r.materialJson = .ok r.evidenceDigest ∧
      E.acceptsRecord r.json = true ∧
      r = { recordWithoutDigest E input.material input.artifacts input.events refs
        input.verifications input.verificationExceptions with
          evidenceDigest := r.evidenceDigest } := by
  obtain ⟨refs, hrefs, h⟩ := bind_eq_ok.mp h
  obtain ⟨digest, hdigest, h⟩ := bind_eq_ok.mp h
  obtain ⟨haccepts, rfl⟩ := parse_ok.mp h
  exact ⟨refs, hrefs, hdigest, haccepts, rfl⟩

/-- The digest of a record that was built verifies. -/
theorem verifies_of_build (h : buildEvidenceRecord E input = .ok r) :
    verifyEvidenceDigest E r = .ok true := by
  obtain ⟨approvals, keys, -, hr, -⟩ := build_ok_iff.mp h
  obtain ⟨refs, -, hdigest, haccepts, -⟩ := completeRecord_ok hr
  refine bind_eq_ok.mpr ⟨r, parse_ok.mpr ⟨haccepts, rfl⟩, ?_⟩
  refine bind_eq_ok.mpr ⟨_, hdigest, ?_⟩
  simp [pure, Except.pure]

theorem artifactRefs_backed (h : buildEvidenceRecord E input = .ok r) :
    ∀ ref ∈ r.artifactRefs, ∃ e ∈ input.events, ∃ stepId digest,
      e.payload = .ArtifactProduced stepId (text (prop ref "artifactId")) digest := by
  obtain ⟨approvals, keys, hc, hr, -⟩ := build_ok_iff.mp h
  obtain ⟨refs, -, -, -, hrecord⟩ := completeRecord_ok hr
  intro ref href
  rw [hrecord] at href
  obtain ⟨a, ha, rfl⟩ := List.mem_map.mp ((List.mergeSort_perm _ _).mem_iff.mp href)
  obtain ⟨_, -, hcheck⟩ := bind_eq_ok.mp (hc.artifactsChecked a ha)
  obtain ⟨_, -, hcheck⟩ := bind_eq_ok.mp hcheck
  obtain ⟨_, -, hcheck⟩ := bind_eq_ok.mp hcheck
  obtain ⟨_, -, hcheck⟩ := bind_eq_ok.mp hcheck
  obtain ⟨_, -, hcheck⟩ := bind_eq_ok.mp hcheck
  obtain ⟨-, -, hproduced⟩ := require_ok.mp hcheck
  obtain ⟨e, he, hproduces⟩ := List.any_eq_true.mp hproduced
  refine ⟨e, he, ?_⟩
  unfold producesArtifact at hproduces
  cases hp : e.payload with
  | ArtifactProduced stepId artifactId digest =>
      simp only [hp, Bool.and_eq_true, decide_eq_true_eq] at hproduces
      exact ⟨stepId, digest, by rw [artifactRef_id, hproduces.2.1.2]⟩
  | _ => simp [hp] at hproduces

theorem approvalRefs_backed (h : buildEvidenceRecord E input = .ok r) :
    ∀ ref ∈ r.approvalRefs, ∃ e ∈ input.events, ∃ stepId decisionId,
      e.payload = .ApprovalRecorded stepId decisionId (text (prop ref "approvalId")) := by
  obtain ⟨approvals, keys, hc, hr, -⟩ := build_ok_iff.mp h
  obtain ⟨refs, hrefs, -, -, hrecord⟩ := completeRecord_ok hr
  intro ref href
  rw [hrecord] at href
  obtain ⟨a, ha, hof⟩ := (mem_of_mapM hrefs).2 ref ((List.mergeSort_perm _ _).mem_iff.mp href)
  rw [approvalRef_id hof]
  obtain ⟨_, -, hcheck⟩ := bind_eq_ok.mp (hc.approvalsChecked a ha)
  obtain ⟨_, -, hcheck⟩ := bind_eq_ok.mp hcheck
  obtain ⟨_, -, hcheck⟩ := bind_eq_ok.mp hcheck
  obtain ⟨-, -, hrecorded⟩ := require_ok.mp hcheck
  obtain ⟨e, he, hrecords⟩ := List.any_eq_true.mp hrecorded
  refine ⟨e, he, ?_⟩
  unfold recordsApproval at hrecords
  cases hp : e.payload with
  | ApprovalRecorded stepId decisionId approvalId =>
      simp only [hp, Bool.and_eq_true, decide_eq_true_eq] at hrecords
      exact ⟨stepId, decisionId, by rw [hrecords.1.2]⟩
  | _ => simp [hp] at hrecords

theorem verificationRefs_backed (h : buildEvidenceRecord E input = .ok r) :
    ∀ ref ∈ r.verificationRefs, ∃ e ∈ input.events, ∃ stepId verifierId status digest,
      e.payload = .VerificationRecorded stepId (text (prop ref "verificationId")) verifierId
        status digest := by
  obtain ⟨approvals, keys, hc, hr, -⟩ := build_ok_iff.mp h
  obtain ⟨refs, -, -, -, hrecord⟩ := completeRecord_ok hr
  intro ref href
  rw [hrecord] at href
  obtain ⟨v, hv, rfl⟩ := List.mem_map.mp ((List.mergeSort_perm _ _).mem_iff.mp href)
  obtain ⟨key, hkey⟩ := hc.verificationsChecked v hv
  obtain ⟨-, -, artifact, hrecorded⟩ := checkVerification_key hkey
  obtain ⟨e, he, hrecords⟩ := List.any_eq_true.mp hrecorded
  refine ⟨e, he, ?_⟩
  unfold recordsVerification at hrecords
  cases hp : e.payload with
  | VerificationRecorded stepId verificationId verifierId status digest =>
      simp only [hp, Bool.and_eq_true, decide_eq_true_eq] at hrecords
      exact ⟨stepId, verifierId, status, digest, by
        rw [verificationRef_id, hrecords.1.1.1.2]⟩
  | _ => simp [hp] at hrecords

theorem exceptionRefs_backed (h : buildEvidenceRecord E input = .ok r) :
    ∀ ref ∈ r.verificationExceptionRefs, ∃ e ∈ input.events, ∃ p,
      e.payload = .VerificationExceptionRecorded p ∧
        p.exceptionId = text (prop ref "exceptionId") := by
  obtain ⟨approvals, keys, -, hr, -⟩ := build_ok_iff.mp h
  obtain ⟨refs, -, -, -, hrecord⟩ := completeRecord_ok hr
  intro ref href
  rw [hrecord] at href
  obtain ⟨x, hx, rfl⟩ := List.mem_map.mp ((List.mergeSort_perm _ _).mem_iff.mp href)
  obtain ⟨-, -, artifact, -, e, he, hrecords⟩ := (passes_of_build h).exceptions x hx
  refine ⟨e, he, ?_⟩
  unfold recordsException at hrecords
  cases hp : e.payload with
  | VerificationExceptionRecorded p =>
      simp only [hp] at hrecords
      split at hrecords
      · next hfields => exact ⟨p, rfl, by rw [exceptionRef_id, hfields.2.1]⟩
      · cases hrecords
  | _ =>
      simp only [hp] at hrecords
      cases hrecords

/-- Every required verifier has passed, or has an exception, and has not failed. -/
theorem required_of_build (h : buildEvidenceRecord E input = .ok r) :
    ∀ e ∈ input.events, ∀ digest ids, e.payload = .RunAccepted digest ids → ∀ id ∈ ids,
      (∀ v ∈ input.verifications, v.isOf id = true → v.status ≠ ofString "fail") ∧
      ((∃ v ∈ input.verifications, v.isOf id = true ∧ v.status = ofString "pass") ∨
        ∃ x ∈ input.verificationExceptions, x.isOf id = true ∧
          ¬ dateNotAfter E x.expiresAt input.material.createdAt) := by
  have hpasses := passes_of_build h
  obtain ⟨approvals, keys, hc, -⟩ := build_ok_iff.mp h
  obtain ⟨required, haccepted, hrequired⟩ := hc.required
  intro e he digest ids hp id hid
  have hids : ids = required := by
    unfold acceptedVerifierIds at haccepted
    split at haccepted
    · next ids' hone =>
        cases haccepted
        have hmem : ids ∈ input.events.filterMap RunEvent.requiredVerifierIds :=
          List.mem_filterMap.mpr ⟨e, he, by simp only [RunEvent.requiredVerifierIds, hp]⟩
        rw [hone] at hmem
        exact List.mem_singleton.mp hmem
    · cases haccepted
  have hcheck := hrequired id (hids ▸ hid)
  simp only [checkRequired] at hcheck
  split at hcheck
  · cases hcheck
  · next hnot =>
      simp only [Bool.or_eq_true, Bool.and_eq_true, Bool.not_eq_true', not_or, not_and,
        Bool.not_eq_true, Bool.not_eq_false] at hnot
      obtain ⟨hfailed, hpassed⟩ := hnot
      refine ⟨fun v hv hof hfail => ?_, ?_⟩
      · have := List.any_eq_false.mp hfailed v hv
        simp [hfail, hof] at this
      · by_cases hpass : input.verifications.any
            (fun v => v.status = ofString "pass" && v.isOf id) = true
        · obtain ⟨v, hv, hboth⟩ := List.any_eq_true.mp hpass
          simp only [Bool.and_eq_true, decide_eq_true_eq] at hboth
          exact .inl ⟨v, hv, hboth.2, hboth.1⟩
        · obtain ⟨x, hx, hof⟩ := List.any_eq_true.mp (hpassed (by simpa using hpass))
          exact .inr ⟨x, hx, hof, (hpasses.exceptions x hx).1.2.2.2.1⟩

end Backed

/-! ### What a record is exported as -/

theorem canonicalize_object_iff {num : NumberFormat Num} {path : JsString}
    {members : List (JsString × Json Num)} :
    (∃ s, canonicalize num path (.object members) = .ok s) ↔
      ∀ m ∈ members, ∃ s, Json.field num path m.1 m.2 = .ok s := by
  have hperm := List.mergeSort_perm members (keyLE ·.1 ·.1)
  simp only [canonicalize, Json.canonicalizeMembers_eq_map,
    Json.mergeSort_map fun key v => Json.field num path key v, List.mapM_map]
  constructor
  · rintro ⟨s, h⟩ m hm
    obtain ⟨fields, hfields, -⟩ := bind_eq_ok.mp h
    obtain ⟨field, -, hfield⟩ := (mem_of_mapM hfields).1 m (hperm.mem_iff.mpr hm)
    exact ⟨field, hfield⟩
  · intro h
    obtain ⟨fields, hfields⟩ := exists_mapM fun m hm => h m (hperm.mem_iff.mp hm)
    exact ⟨_, bind_eq_ok.mpr ⟨fields, hfields, rfl⟩⟩

/-- An object of strings whose names are distinct. -/
theorem distinct_object {fields : List (String × JsString)} (h : (fields.map Prod.fst).Nodup) :
    (object fields : Json Num).Distinct := by
  refine Json.distinct_record (by rwa [List.map_map]) fun field hfield => ?_
  obtain ⟨f, -, rfl⟩ := List.mem_map.mp hfield
  simp [Json.Distinct]

theorem distinct_refs {α : Type} {ref : α → Json Num} {le : Json Num → Json Num → Bool}
    (h : ∀ a, (ref a).Distinct) (l : List α) :
    (Json.array ((l.map ref).mergeSort le)).Distinct := by
  simp only [Json.Distinct, Json.distinctItems_iff]
  intro v hv
  obtain ⟨a, -, rfl⟩ := List.mem_map.mp ((List.mergeSort_perm _ _).mem_iff.mp hv)
  exact h a

theorem canonical_of_digest {v : Json Num} {digest : Digest}
    (h : E.toHashing.digestCanonicalJson v = .ok digest) :
    ∃ s, canonicalize E.num (lit "$") v = .ok s := by
  unfold Hashing.digestCanonicalJson canonicalJsonStringify at h
  cases hs : canonicalize E.num (lit "$") v with
  | error e =>
      rw [hs] at h
      cases h
  | ok s => exact ⟨s, rfl⟩

section Exported

variable {input : BuildEvidenceInput Num} {r : EvidenceRecord Num}

theorem distinct_of_build (h : buildEvidenceRecord E input = .ok r) : r.json.Distinct := by
  obtain ⟨approvals, keys, hc, hr, -⟩ := build_ok_iff.mp h
  obtain ⟨refs, hrefs, -, -, hrecord⟩ := completeRecord_ok hr
  have hartifacts : (Json.array r.artifactRefs).Distinct := by
    rw [hrecord]
    exact distinct_refs (fun a => distinct_object (by simp)) input.artifacts
  have hevents : (Json.array r.eventRefs).Distinct := by
    rw [hrecord]
    simp only [recordWithoutDigest, Json.Distinct, Json.distinctItems_iff]
    intro v hv
    obtain ⟨e, -, rfl⟩ := List.mem_map.mp hv
    have hne : ofString "eventId" ≠ ofString "sequence" := fun heq =>
      absurd (JsString.ofString_injective heq) (by simp)
    simp [eventRef, Json.Distinct, Json.DistinctMembers, hne]
  have happrovals : (Json.array r.approvalRefs).Distinct := by
    rw [hrecord]
    simp only [recordWithoutDigest, Json.Distinct, Json.distinctItems_iff]
    intro v hv
    obtain ⟨a, -, hof⟩ := (mem_of_mapM hrefs).2 v ((List.mergeSort_perm _ _).mem_iff.mp hv)
    obtain ⟨digest, -, hof⟩ := bind_eq_ok.mp hof
    cases hof
    exact distinct_object (by simp)
  have hverifications : (Json.array r.verificationRefs).Distinct := by
    rw [hrecord]
    exact distinct_refs (fun v => distinct_object (by simp)) input.verifications
  have hexceptions : (Json.array r.verificationExceptionRefs).Distinct := by
    rw [hrecord]
    exact distinct_refs (fun x => distinct_object (by simp)) input.verificationExceptions
  have hmaterial := r.material.distinct
  simp only [EvidenceRecord.json, Json.Distinct, Json.distinctMembers_iff] at hmaterial ⊢
  rw [List.append_assoc]
  refine ⟨?_, ?_⟩
  · -- no member of the material has the name of a reference
    have hreserved : reserved.Nodup := by
      have hnames : ["artifactRefs", "eventRefs", "approvalRefs", "verificationRefs",
          "verificationExceptionRefs", "evidenceDigest"].Nodup := by simp
      exact hnames.map fun _ _ heq => JsString.ofString_injective heq
    rw [List.map_append]
    refine List.nodup_append.mpr ⟨hmaterial.1, hreserved, ?_⟩
    rintro _ hname _ hn rfl
    obtain ⟨m, hm, rfl⟩ := List.mem_map.mp hname
    exact r.material.names m hm hn
  · intro m hm
    rcases List.mem_append.mp hm with hm | hm
    · exact hmaterial.2 m hm
    · simp only [List.cons_append, List.nil_append, List.mem_cons, List.not_mem_nil,
        or_false] at hm
      rcases hm with rfl | rfl | rfl | rfl | rfl | rfl
      · exact hartifacts
      · exact hevents
      · exact happrovals
      · exact hverifications
      · exact hexceptions
      · simp [Json.Distinct]

/-- The export of a record that was built is read back as the record. -/
theorem exported_of_build (h : buildEvidenceRecord E input = .ok r) :
    ∃ source v, exportEvidenceJson E r = .ok source ∧ parseJsonStrict E.num source = .ok v ∧
      E.acceptsRecord v = true ∧ Json.Same E.num v r.json := by
  have hdistinct := distinct_of_build h
  obtain ⟨approvals, keys, -, hr, -⟩ := build_ok_iff.mp h
  obtain ⟨refs, -, hdigest, haccepts, -⟩ := completeRecord_ok hr
  obtain ⟨digest, hof, hd⟩ := digest_of_ok hdigest
  obtain ⟨s, hs⟩ := canonical_of_digest hof
  -- the digest adds a member to what it is of
  have hmembers := canonicalize_object_iff.mp ⟨s, hs⟩
  obtain ⟨t, ht⟩ : ∃ t, canonicalize E.num (lit "$") r.json = .ok t := by
    refine canonicalize_object_iff.mpr fun m hm => ?_
    rcases List.mem_append.mp hm with hm | hm
    · exact hmembers m hm
    · rw [List.mem_singleton.mp hm, hd]
      simp only [Json.field, quote, canonicalize, JsString.validUnicode_ofString _ _, ok_bind]
      exact ⟨_, rfl⟩
  obtain ⟨hrender, hprintable⟩ := Json.canonicalize_eq_render _ _ _ hdistinct ht
  have hsame : Json.Same E.num (Json.canon E.num r.json) r.json := by
    rw [Json.same_iff_canon_eq _ _ (Json.distinct_canon _ hdistinct) hdistinct]
    exact Json.canon_canon _
  refine ⟨t ++ [10], Json.canon E.num r.json, ?_, ?_, ?_, hsame⟩
  · refine bind_eq_ok.mpr ⟨r, parse_ok.mpr ⟨haccepts, rfl⟩, ?_⟩
    simp only [canonicalJsonStringify, ht]
  · refine parseJsonStrict_append (fun unit hunit => ?_) ?_
    · simp [List.mem_singleton.mp hunit]
    · rw [hrender]
      exact Json.parseJsonStrict_render hprintable
  · rw [E.acceptsRecord_same _ _ (Json.distinct_canon _ hdistinct) hdistinct hsame]
    exact haccepts

end Exported

/-! ### When evidence is evident -/

/-- Building evidence from the input is order-independent, backed and self-verifying. -/
structure Evident (E : Environment Num) (input : BuildEvidenceInput Num) : Prop where
  order : ∀ input', Reordered input input' → ∀ r,
    buildEvidenceRecord E input = .ok r ↔ buildEvidenceRecord E input' = .ok r
  verifies : ∀ r, buildEvidenceRecord E input = .ok r → verifyEvidenceDigest E r = .ok true
  exported : ∀ r, buildEvidenceRecord E input = .ok r → ∃ source v,
    exportEvidenceJson E r = .ok source ∧ parseJsonStrict E.num source = .ok v ∧
      E.acceptsRecord v = true ∧ Json.Same E.num v r.json
  artifactRefs : ∀ r, buildEvidenceRecord E input = .ok r → ∀ ref ∈ r.artifactRefs,
    ∃ e ∈ input.events, ∃ stepId digest,
      e.payload = .ArtifactProduced stepId (text (prop ref "artifactId")) digest
  approvalRefs : ∀ r, buildEvidenceRecord E input = .ok r → ∀ ref ∈ r.approvalRefs,
    ∃ e ∈ input.events, ∃ stepId decisionId,
      e.payload = .ApprovalRecorded stepId decisionId (text (prop ref "approvalId"))
  verificationRefs : ∀ r, buildEvidenceRecord E input = .ok r → ∀ ref ∈ r.verificationRefs,
    ∃ e ∈ input.events, ∃ stepId verifierId status digest,
      e.payload = .VerificationRecorded stepId (text (prop ref "verificationId")) verifierId
        status digest
  exceptionRefs : ∀ r, buildEvidenceRecord E input = .ok r →
    ∀ ref ∈ r.verificationExceptionRefs, ∃ e ∈ input.events, ∃ p,
      e.payload = .VerificationExceptionRecorded p ∧
        p.exceptionId = text (prop ref "exceptionId")
  required : ∀ r, buildEvidenceRecord E input = .ok r → ∀ e ∈ input.events, ∀ digest ids,
    e.payload = .RunAccepted digest ids → ∀ id ∈ ids,
      (∀ v ∈ input.verifications, v.isOf id = true → v.status ≠ ofString "fail") ∧
      ((∃ v ∈ input.verifications, v.isOf id = true ∧ v.status = ofString "pass") ∨
        ∃ x ∈ input.verificationExceptions, x.isOf id = true ∧
          ¬ dateNotAfter E x.expiresAt input.material.createdAt)

/-- A settled input is built, or refused, whatever its order. -/
theorem build_iff_of_settled {input input' : BuildEvidenceInput Num}
    (hsha : Function.Injective E.sha256) (hsettled : Passes E input → Settled E input)
    (hre : Reordered input input') (r : EvidenceRecord Num) :
    buildEvidenceRecord E input = .ok r ↔ buildEvidenceRecord E input' = .ok r := by
  constructor
  · intro h
    have hpasses := passes_of_build h
    obtain ⟨r', hr'⟩ := build_of_settled (hpasses.perm hsha hre)
      ((hsettled hpasses).perm hsha hpasses hre)
    rw [hr', build_perm hsha hre h hr']
  · intro h
    have hpasses := (passes_of_build h).perm hsha hre.symm
    obtain ⟨r', hr'⟩ := build_of_settled hpasses (hsettled hpasses)
    rw [hr', ← build_perm hsha hre hr' h]

/-- Without being settled, an input that some order accepts is refused in another one. -/
theorem not_evident {input : BuildEvidenceInput Num} (hsha : Function.Injective E.sha256)
    (hpasses : Passes E input) (hsettled : ¬ Settled E input) : ¬ Evident E input := by
  intro h
  obtain ⟨accepted, hre, r, hr⟩ := hpasses.exists_ok hsha
  obtain ⟨refused, hre', hrefused⟩ := exists_refused hsettled
  exact hrefused r ((h.order refused hre' r).mp ((h.order accepted hre r).mpr hr))

/-! ### Two references of one verifier -/

namespace Sample

/-- Numbers of one digit. -/
def format : NumberFormat (Fin 10) where
  stringify digit := [48 + digit.val]
  parse token := Fin.ofNat 10 (token.headD 48 - 48)
  isFinite _ := true
  isInteger _ := true
  isSafeInteger _ := true
  unsigned := id
  unsigned_unsigned _ := rfl
  parse_stringify := by decide
  scanNumber_stringify := by decide
  stringify_unsigned _ := rfl
  isFinite_unsigned _ := rfl
  isInteger_unsigned _ := rfl
  isSafeInteger_unsigned _ := rfl

@[simp] theorem prop_record (field : String × Json (Fin 10))
    (fields : List (String × Json (Fin 10))) (name : String) :
    prop (.record (field :: fields)) name =
      if name = field.1 then field.2 else prop (.record fields) name := by
  by_cases hname : name = field.1
  · subst hname
    simp [prop, Json.record, Json.child]
  · have hbeq : (ofString name == ofString field.1) = false := by
      simpa using fun h => hname (JsString.ofString_injective h)
    simp [prop, Json.record, Json.child, List.lookup_cons, hbeq, hname]

@[simp] theorem text_text (s : String) : text (.text s : Json (Fin 10)) = ofString s :=
  rfl

@[simp] theorem texts_text (s : String) : texts (.array [.text s] : Json (Fin 10)) = [ofString s] :=
  rfl

/-! #### What is built from -/

section

variable (sha : JsString → Digest)

/-- The timestamps are of one length, and compare as their texts. -/
def instant (s : JsString) : Int :=
  s.foldl (fun n unit => n * 128 + unit) 0

def environment : Environment (Fin 10) where
  num := format
  sha256 := sha
  integer n := Fin.ofNat 10 n
  dateParse s := some (instant s)
  acceptsArtifact _ := true
  acceptsEvent _ := true
  parseApproval := some
  acceptsVerification _ := true
  acceptsException _ := true
  acceptsRecord _ := true
  acceptsRecord_same _ _ _ _ _ := rfl

def digest (v : Json (Fin 10)) : Digest :=
  (environment sha).toHashing.digest v

def definition : Json (Fin 10) :=
  .record [("id", .text "review")]

def fields : List (String × Json (Fin 10)) :=
  [("tenantId", .text "tenant"), ("runId", .text "run"), ("executionDefinition", definition),
    ("executionDefinitionDigest", .text (digest sha definition)),
    ("workOrderBindingDigest", .text "order"), ("context", .record [("riskClass", .text "low")]),
    ("supports", .array [.text "x"]), ("doesNotProve", .array [.text "x"]),
    ("createdAt", .text "2026-01-02T00:00:00Z")]

theorem distinct_fields : (Json.record (fields sha)).Distinct := by
  refine Json.distinct_record (by simp [fields]) fun field hfield => ?_
  simp only [fields, List.mem_cons, List.not_mem_nil, or_false] at hfield
  rcases hfield with rfl | rfl | rfl | rfl | rfl | rfl | rfl | rfl | rfl
  all_goals first
    | exact Json.distinct_text _
    | exact Json.distinct_record (by simp) (by simp)
    | simp [Json.Distinct, Json.DistinctItems]

def material : EvidenceMaterial (Fin 10) where
  members := (fields sha).map fun field : String × Json (Fin 10) => (ofString field.1, field.2)
  distinct := distinct_fields sha
  names := by
    intro m hm
    obtain ⟨field, hfield, rfl⟩ := List.mem_map.mp hm
    simp only [fields, List.mem_cons, List.not_mem_nil, or_false] at hfield
    rcases hfield with rfl | rfl | rfl | rfl | rfl | rfl | rfl | rfl | rfl
    all_goals
      dsimp only
      decide

def artifactMaterial (id : String) : Json (Fin 10) :=
  .record [("artifactId", .text id), ("tenantId", .text "tenant"), ("producingRunId", .text "run"),
    ("producingStepId", .text "step"),
    ("provenance", .record [("producingEventId", .text id), ("executionDefinition", definition),
      ("executionDefinitionDigest", .text (digest sha definition)),
      ("workOrderBindingDigest", .text "order")])]

theorem distinct_artifactMaterial (id : String) : (artifactMaterial sha id).Distinct := by
  refine Json.distinct_record (by simp) fun field hfield => ?_
  simp only [List.mem_cons, List.not_mem_nil, or_false] at hfield
  rcases hfield with rfl | rfl | rfl | rfl | rfl
  all_goals first
    | exact Json.distinct_text _
    | exact Json.distinct_record (by simp) (by simp [definition, Json.distinct_record])

/-- The artifact that the event with its id produced. -/
def artifact (id : String) : Artifact (Fin 10) where
  artifactDigest := ofString (digest sha (artifactMaterial sha id))
  material := ⟨artifactMaterial sha id, distinct_artifactMaterial sha id⟩

def reference (version : String) : VerifierReferenceIdentity :=
  ⟨ofString "verifier", ofString version, ofString "registration", ofString "1", ofString "rubric"⟩

def verificationMaterial : Json (Fin 10) :=
  .record [("verificationId", .text "verification"), ("status", .text "pass"),
    ("method", .text "deterministic"),
    ("artifactDigest", .text (digest sha (artifactMaterial sha "first"))),
    ("verifierId", .text "verifier"), ("verifierVersion", .text "2"),
    ("verifierRegistrationDigest", .text "registration"), ("rubricVersion", .text "1"),
    ("rubricDigest", .text "rubric")]

def verification : VerificationResult (Fin 10) where
  verificationDigest := ofString (digest sha (verificationMaterial sha))
  material := verificationMaterial sha

def exceptionMaterial : Json (Fin 10) :=
  .record [("exceptionId", .text "x"), ("tenantId", .text "tenant"), ("runId", .text "run"),
    ("artifactDigest", .text (digest sha (artifactMaterial sha "second"))),
    ("verifierId", .text "verifier"), ("verifierRegistrationDigest", .text "registration"),
    ("rubricVersion", .text "1"), ("rubricDigest", .text "rubric"),
    ("reviewer", .record [("role", .text "reviewer")]), ("reason", .text "offline"),
    ("compensatingControls", .array [.text "manual"]), ("issuedAt", .text "2026-01-01T00:00:00Z"),
    ("expiresAt", .text "2026-02-01T00:00:00Z")]

def exception : VerificationException (Fin 10) where
  exceptionDigest := ofString (digest sha (exceptionMaterial sha))
  material := exceptionMaterial sha

def event (id : String) (sequence : Nat) (payload : Payload) : RunEvent (Fin 10) where
  eventId := ofString id
  sequence := sequence
  tenantId := ofString "tenant"
  runId := ofString "run"
  executionDefinition := definition
  executionDefinitionDigest := ofString (digest sha definition)
  payload := payload

def produced (id : String) (sequence : Nat) : RunEvent (Fin 10) :=
  event sha id sequence (.ArtifactProduced (ofString "step") (ofString id)
    (artifact sha id).artifactDigest)

def verified : RunEvent (Fin 10) :=
  event sha "verified" 3 (.VerificationRecorded (ofString "step") (ofString "verification")
    (ofString "verifier") (ofString "pass") (verification sha).verificationDigest)

def excepted : RunEvent (Fin 10) :=
  event sha "excepted" 4 (.VerificationExceptionRecorded
    { stepId := ofString "step", exceptionId := ofString "x",
      exceptionDigest := (exception sha).exceptionDigest, verifierId := ofString "verifier",
      verifierRegistrationDigest := ofString "registration",
      artifactDigest := (artifact sha "second").artifactDigest, rubricVersion := ofString "1",
      rubricDigest := ofString "rubric", reviewerRole := ofString "reviewer",
      expiresAt := ofString "2026-02-01T00:00:00Z", reason := ofString "offline",
      compensatingControls := [ofString "manual"] })

/-- The second version of a verifier verified the first artifact, and the verifier is excepted
for the second one.  The references are of both versions. -/
def input : BuildEvidenceInput (Fin 10) where
  material := material sha
  artifacts := [artifact sha "first", artifact sha "second"]
  events := [event sha "accepted" 0 (.RunAccepted (ofString "order") [ofString "verifier"]),
    produced sha "first" 1, produced sha "second" 2, verified sha, excepted sha]
  approvals := []
  verifications := [verification sha]
  verificationExceptions := [exception sha]
  verifierReferences := [reference "1", reference "2"]

end

/-! #### What is read -/

variable {sha : JsString → Digest}

theorem digest_ok {v : Json (Fin 10)} (h : v.Stringifies format) :
    digestCanonicalJson (environment sha) v = .ok (ofString (digest sha v)) := by
  have hdigest : (environment sha).toHashing.digestCanonicalJson v = .ok (digest sha v) :=
    Hashing.digestCanonicalJson_ok h
  simp [digestCanonicalJson, hdigest]

theorem stringifies_definition : definition.Stringifies format :=
  Json.stringifies_record (by simp)

theorem stringifies_artifactMaterial (id : String) :
    (artifactMaterial sha id).Stringifies format :=
  Json.stringifies_record (by simp [Json.stringifies_record, stringifies_definition])

theorem stringifies_fields : ∀ field ∈ fields sha, field.2.Stringifies format := by
  simp [fields, Json.stringifies_record, Json.stringifies_array, stringifies_definition]

theorem material_json : (material sha).json = .record (fields sha) :=
  rfl

theorem material_tenantId : (material sha).tenantId = ofString "tenant" := by
  simp [EvidenceMaterial.tenantId, material_json, fields]

theorem material_runId : (material sha).runId = ofString "run" := by
  simp [EvidenceMaterial.runId, material_json, fields]

theorem material_definition : (material sha).executionDefinition = definition := by
  simp [EvidenceMaterial.executionDefinition, material_json, fields]

theorem material_digest :
    (material sha).executionDefinitionDigest = ofString (digest sha definition) := by
  simp [EvidenceMaterial.executionDefinitionDigest, material_json, fields]

theorem material_order : (material sha).workOrderBindingDigest = ofString "order" := by
  simp [EvidenceMaterial.workOrderBindingDigest, material_json, fields]

theorem material_createdAt : (material sha).createdAt = ofString "2026-01-02T00:00:00Z" := by
  simp [EvidenceMaterial.createdAt, material_json, fields]

theorem material_riskClass : (material sha).riskClass = ofString "low" := by
  simp [EvidenceMaterial.riskClass, material_json, fields]

theorem material_supports : (material sha).supports = [ofString "x"] ∧
    (material sha).doesNotProve = [ofString "x"] := by
  simp [EvidenceMaterial.supports, EvidenceMaterial.doesNotProve, material_json, fields]

theorem verification_reference : (verification sha).reference = reference "2" := by
  simp [VerificationResult.reference, VerificationResult.verifierId,
    VerificationResult.verifierVersion, VerificationResult.verifierRegistrationDigest,
    VerificationResult.rubricVersion, VerificationResult.rubricDigest, verification,
    verificationMaterial, reference]

theorem exception_names (version : String) : (exception sha).names (reference version) = true := by
  refine names_iff.mpr ?_
  simp [VerificationException.verifierId, VerificationException.verifierRegistrationDigest,
    VerificationException.rubricVersion, VerificationException.rubricDigest, exception,
    exceptionMaterial, reference]

variable (sha) in
theorem artifact_ids (id : String) : (artifact sha id).artifactId = ofString id ∧
    (artifact sha id).tenantId = ofString "tenant" ∧
    (artifact sha id).producingRunId = ofString "run" ∧
    (artifact sha id).producingStepId = ofString "step" := by
  simp [Artifact.artifactId, Artifact.tenantId, Artifact.producingRunId, Artifact.producingStepId,
    artifact, artifactMaterial]

/-- The two artifacts have two digests. -/
theorem artifactDigest_ne (hsha : Function.Injective sha) :
    (artifact sha "first").artifactDigest ≠ (artifact sha "second").artifactDigest := by
  intro h
  have hdigest := JsString.ofString_injective h
  have hsame := (Hashing.digest_eq_iff (H := (environment sha).toHashing) hsha
    (distinct_artifactMaterial sha "first") (distinct_artifactMaterial sha "second")
    (Hashing.digestCanonicalJson_ok (stringifies_artifactMaterial _))
    (Hashing.digestCanonicalJson_ok (stringifies_artifactMaterial _))).mp hdigest
  have hid := same_prop (distinct_artifactMaterial sha "first")
    (distinct_artifactMaterial sha "second") hsame "artifactId"
  simp only [artifactMaterial, prop_record, if_true, text_text] at hid
  exact absurd (JsString.ofString_injective hid) (by simp)

/-! #### What is checked -/

theorem checkEvent_ok (id : String) (sequence : Nat) {payload : Payload}
    (h : ∀ bindingDigest ids, payload = .RunAccepted bindingDigest ids →
      bindingDigest = ofString "order") :
    checkEvent (environment sha) (material sha) (event sha id sequence payload) = .ok () := by
  have hdigest : digestCanonicalJson (environment sha)
      (event sha id sequence payload).executionDefinition =
        .ok (ofString (digest sha definition)) := digest_ok stringifies_definition
  refine bind_eq_ok.mpr ⟨(), require_ok.mpr ⟨material_tenantId.symm, material_runId.symm,
    material_digest.symm⟩, bind_eq_ok.mpr ⟨_, hdigest, bind_eq_ok.mpr ⟨(), require_ok.mpr
      material_digest.symm, ?_⟩⟩⟩
  cases payload with
  | RunAccepted bindingDigest ids =>
      refine require_ok.mpr ?_
      rw [h bindingDigest ids rfl, material_order]
  | _ => rfl

theorem checkArtifact_ok {id : String} {sequence : Nat} {events : List (RunEvent (Fin 10))}
    (h : produced sha id sequence ∈ events) :
    checkArtifact (environment sha) (material sha) events (artifact sha id) = .ok () := by
  obtain ⟨hid, htenant, hrun, hstep⟩ := artifact_ids sha id
  have hdigest : digestCanonicalJson (environment sha) (artifact sha id).material.1 =
      .ok (artifact sha id).artifactDigest := digest_ok (stringifies_artifactMaterial id)
  have hprovenance : (artifact sha id).provenance = .record [("producingEventId", .text id),
      ("executionDefinition", definition),
      ("executionDefinitionDigest", .text (digest sha definition)),
      ("workOrderBindingDigest", .text "order")] := by
    simp [Artifact.provenance, artifact, artifactMaterial]
  have hdefinition : digestCanonicalJson (environment sha)
      (prop (artifact sha id).provenance "executionDefinition") =
        .ok (ofString (digest sha definition)) := by
    simpa [hprovenance] using digest_ok stringifies_definition
  refine bind_eq_ok.mpr ⟨(), require_ok.mpr ⟨htenant.trans material_tenantId.symm,
    hrun.trans material_runId.symm⟩, bind_eq_ok.mpr ⟨_, hdigest, bind_eq_ok.mpr ⟨(),
      require_ok.mpr rfl, bind_eq_ok.mpr ⟨_, hdefinition, bind_eq_ok.mpr ⟨(), require_ok.mpr
        material_digest.symm, require_ok.mpr ⟨?_, ?_, List.any_eq_true.mpr ⟨_, h, ?_⟩⟩⟩⟩⟩⟩⟩
  · rw [hprovenance, material_digest]
    simp
  · rw [hprovenance, material_order]
    simp
  · simp [producesArtifact, produced, event, hprovenance, hid, hstep]

variable (sha) in
theorem exists_key (version : String) :
    ∃ key, verifierKey (environment sha) (reference version) = .ok key := by
  have hstringifies : (Json.array [.text "verifier", .text version, .text "registration", .text "1",
      .text "rubric"] : Json (Fin 10)).Stringifies format := Json.stringifies_array (by simp)
  obtain ⟨key, hkey⟩ := hstringifies (lit "$")
  refine ⟨key, ?_⟩
  have hcanonical : canonicalJsonStringify (environment sha).num (.array [.text "verifier",
      .text version, .text "registration", .text "1", .text "rubric"]) = .ok key := hkey
  simp only [verifierKey, reference]
  simp only [Json.text] at hcanonical
  rw [hcanonical]

theorem find_first : (input sha).artifacts.find?
    (fun a => a.artifactDigest = (verification sha).artifactDigest) =
      some (artifact sha "first") := by
  have hdigest : (verification sha).artifactDigest = (artifact sha "first").artifactDigest := by
    simp [VerificationResult.artifactDigest, verification, verificationMaterial, artifact]
  simp [input, hdigest]

theorem find_second (hsha : Function.Injective sha) :
    artifactOf (input sha).artifacts (exception sha).artifactDigest =
      some (artifact sha "second") := by
  have hdigest : (exception sha).artifactDigest = (artifact sha "second").artifactDigest := by
    simp [VerificationException.artifactDigest, exception, exceptionMaterial, artifact]
  simp [artifactOf, input, hdigest, artifactDigest_ne hsha]

variable (sha) in
theorem verification_fields : (verification sha).verificationId = ofString "verification" ∧
    (verification sha).status = ofString "pass" ∧
    (verification sha).verifierId = ofString "verifier" := by
  simp [VerificationResult.verificationId, VerificationResult.status,
    VerificationResult.verifierId, verification, verificationMaterial]

theorem checkVerification_ok {keys : List JsString} {key : JsString}
    (hkey : verifierKey (environment sha) (reference "2") = .ok key) (hmem : key ∈ keys) :
    checkVerification (environment sha) (input sha).artifacts (input sha).events keys
      (verification sha) = .ok key := by
  obtain ⟨hid, hstatus, hverifier⟩ := verification_fields sha
  obtain ⟨-, -, -, hstep⟩ := artifact_ids sha "first"
  have hreference : verifierKey (environment sha) (verification sha).reference = .ok key := by
    rw [verification_reference, hkey]
  have hdigest : digestCanonicalJson (environment sha) (verification sha).material =
      .ok (verification sha).verificationDigest := digest_ok (Json.stringifies_record (by simp))
  unfold checkVerification
  simp only [find_first]
  refine bind_eq_ok.mpr ⟨key, hreference, bind_eq_ok.mpr ⟨_, hdigest, bind_eq_ok.mpr ⟨(),
    require_ok.mpr rfl, bind_eq_ok.mpr ⟨(), require_ok.mpr ⟨hmem, ?_⟩, rfl⟩⟩⟩⟩
  refine List.any_eq_true.mpr ⟨verified sha, by simp [input], ?_⟩
  simp [recordsVerification, verified, event, hid, hstatus, hverifier, hstep]

variable (sha) in
theorem exception_fields : (exception sha).exceptionId = ofString "x" ∧
    (exception sha).tenantId = ofString "tenant" ∧ (exception sha).runId = ofString "run" ∧
    (exception sha).artifactDigest = (artifact sha "second").artifactDigest ∧
    (exception sha).issuedAt = ofString "2026-01-01T00:00:00Z" ∧
    (exception sha).expiresAt = ofString "2026-02-01T00:00:00Z" := by
  simp [VerificationException.exceptionId, VerificationException.tenantId,
    VerificationException.runId, VerificationException.artifactDigest,
    VerificationException.issuedAt, VerificationException.expiresAt, exception,
    exceptionMaterial, artifact]

theorem exceptionChecks_ok (hsha : Function.Injective sha) :
    exceptionChecks (environment sha) (material sha) [verification sha] (exception sha) := by
  obtain ⟨hid, htenant, hrun, hartifact, hissued, hexpires⟩ := exception_fields sha
  have hdigest : digestCanonicalJson (environment sha) (exception sha).material =
      .ok (exception sha).exceptionDigest :=
    digest_ok (Json.stringifies_record
      (by simp [Json.stringifies_record, Json.stringifies_array]))
  have hverified : (verification sha).artifactDigest ≠ (exception sha).artifactDigest := by
    have hof : (verification sha).artifactDigest = (artifact sha "first").artifactDigest := by
      simp [VerificationResult.artifactDigest, verification, verificationMaterial, artifact]
    rw [hof, hartifact]
    exact artifactDigest_ne hsha
  refine ⟨⟨htenant.trans material_tenantId.symm, hrun.trans material_runId.symm⟩, ?_, ?_, ?_, ?_,
    ?_, ?_⟩
  · refine bind_eq_ok.mpr ⟨exception sha, rfl, bind_eq_ok.mpr ⟨_, hdigest, ?_⟩⟩
    simp [pure, Except.pure]
  · rw [hissued, material_createdAt]
    simp only [dateAfter, environment]
    decide
  · rw [hexpires, material_createdAt]
    simp only [dateNotAfter, environment]
    decide
  · simp [hverified]
  · simp [material_supports.1, hid]
  · simp [material_supports.2, hid]

theorem recordsException_excepted :
    recordsException (environment sha) (exception sha) (artifact sha "second") (excepted sha) =
      .ok true := by
  obtain ⟨-, -, -, hstep⟩ := artifact_ids sha "second"
  have hcontrols : (exception sha).compensatingControls = .array [.text "manual"] := by
    simp [VerificationException.compensatingControls, exception, exceptionMaterial]
  have hdigest : digestCanonicalJson (environment sha) (.array [.text "manual"]) =
      .ok (ofString (digest sha (.array [.text "manual"]))) :=
    digest_ok (Json.stringifies_array (by simp))
  unfold recordsException
  dsimp only [excepted, event]
  rw [if_pos, hcontrols]
  · refine bind_eq_ok.mpr ⟨_, hdigest, bind_eq_ok.mpr ⟨_, hdigest, ?_⟩⟩
    simp [pure, Except.pure]
  · refine ⟨hstep.symm, ?_⟩
    simp [VerificationException.exceptionId, VerificationException.verifierId,
      VerificationException.verifierRegistrationDigest, VerificationException.artifactDigest,
      VerificationException.rubricVersion, VerificationException.rubricDigest,
      VerificationException.reviewerRole, VerificationException.expiresAt,
      VerificationException.reason, exception, exceptionMaterial, artifact]

theorem stringifies_object (fields : List (String × String)) :
    (object (fields.map fun field => (field.1, ofString field.2)) : Json (Fin 10)).Stringifies
      format := by
  refine Json.stringifies_record fun field hfield => ?_
  obtain ⟨f, hf, rfl⟩ := List.mem_map.mp hfield
  obtain ⟨g, -, rfl⟩ := List.mem_map.mp hf
  exact Json.stringifies_text g.2

theorem completes : ∃ r, complete (environment sha) (input sha) [] = .ok r := by
  let r := recordWithoutDigest (environment sha) (material sha) (input sha).artifacts
    (input sha).events [] (input sha).verifications (input sha).verificationExceptions
  have hartifacts : (Json.array r.artifactRefs).Stringifies format := by
    refine Json.stringifies_array fun v hv => ?_
    obtain ⟨a, ha, rfl⟩ := List.mem_map.mp ((List.mergeSort_perm _ _).mem_iff.mp hv)
    simp only [input, List.mem_cons, List.not_mem_nil, or_false] at ha
    have hof : ∀ id, (artifactRef (artifact sha id)).Stringifies format := by
      intro id
      rw [artifactRef, (artifact_ids sha id).1]
      exact stringifies_object [("artifactId", id),
        ("artifactDigest", digest sha (artifactMaterial sha id))]
    rcases ha with rfl | rfl
    · exact hof _
    · exact hof _
  have hevents : (Json.array r.eventRefs).Stringifies format := by
    refine Json.stringifies_array fun v hv => ?_
    obtain ⟨e, he, rfl⟩ := List.mem_map.mp hv
    obtain ⟨event', he', rfl⟩ := List.mem_map.mp ((List.mergeSort_perm _ _).mem_iff.mp he)
    have hid : ∃ id, event'.eventId = ofString id := by
      simp only [input, List.mem_cons, List.not_mem_nil, or_false] at he'
      rcases he' with rfl | rfl | rfl | rfl | rfl
      all_goals exact ⟨_, rfl⟩
    obtain ⟨id, hid⟩ := hid
    have hrecord : eventRef (environment sha) (event'.eventId, event'.sequence) =
        .record [("eventId", .text id), ("sequence", .number (Fin.ofNat 10 event'.sequence))] := by
      rw [hid]
      rfl
    rw [hrecord]
    refine Json.stringifies_record (by
      simp only [List.forall_mem_cons, Json.stringifies_text, true_and]
      exact ⟨fun path => ⟨_, rfl⟩, by rintro _ ⟨⟩⟩)
  have hverifications : (Json.array r.verificationRefs).Stringifies format := by
    refine Json.stringifies_array fun v hv => ?_
    obtain ⟨v', hv', rfl⟩ := List.mem_map.mp ((List.mergeSort_perm _ _).mem_iff.mp hv)
    rw [List.mem_singleton.mp hv']
    have hrecord : verificationRef (verification sha) = .record [
        ("verificationId", .text "verification"),
        ("verificationDigest", .text (digest sha (verificationMaterial sha))),
        ("status", .text "pass"),
        ("artifactDigest", .text (digest sha (artifactMaterial sha "first"))),
        ("verifierId", .text "verifier"), ("verifierVersion", .text "2"),
        ("verifierRegistrationDigest", .text "registration"), ("method", .text "deterministic"),
        ("rubricVersion", .text "1"), ("rubricDigest", .text "rubric")] := by
      simp [verificationRef, object, VerificationResult.verificationId, VerificationResult.status,
        VerificationResult.artifactDigest, VerificationResult.verifierId,
        VerificationResult.verifierVersion, VerificationResult.verifierRegistrationDigest,
        VerificationResult.method, VerificationResult.rubricVersion,
        VerificationResult.rubricDigest, verification, verificationMaterial]
      rfl
    rw [hrecord]
    exact Json.stringifies_record (by simp)
  have hexceptions : (Json.array r.verificationExceptionRefs).Stringifies format := by
    refine Json.stringifies_array fun v hv => ?_
    obtain ⟨x, hx, rfl⟩ := List.mem_map.mp ((List.mergeSort_perm _ _).mem_iff.mp hv)
    rw [List.mem_singleton.mp hx]
    have hrecord : exceptionRef (exception sha) = .record [("exceptionId", .text "x"),
        ("exceptionDigest", .text (digest sha (exceptionMaterial sha))),
        ("verifierId", .text "verifier"), ("verifierRegistrationDigest", .text "registration"),
        ("artifactDigest", .text (digest sha (artifactMaterial sha "second"))),
        ("rubricVersion", .text "1"), ("rubricDigest", .text "rubric")] := by
      simp [exceptionRef, object, VerificationException.exceptionId,
        VerificationException.artifactDigest, VerificationException.verifierId,
        VerificationException.verifierRegistrationDigest, VerificationException.rubricVersion,
        VerificationException.rubricDigest, exception, exceptionMaterial]
      rfl
    rw [hrecord]
    exact Json.stringifies_record (by simp)
  have happrovals : (Json.array r.approvalRefs).Stringifies format := by
    refine Json.stringifies_array fun v hv => ?_
    exact absurd ((List.mergeSort_perm _ _).mem_iff.mp hv) List.not_mem_nil
  have hmaterial : r.materialJson = .record (fields sha ++ [("artifactRefs", .array r.artifactRefs),
      ("eventRefs", .array r.eventRefs), ("approvalRefs", .array r.approvalRefs),
      ("verificationRefs", .array r.verificationRefs),
      ("verificationExceptionRefs", .array r.verificationExceptionRefs)]) := by
    simp only [EvidenceRecord.materialJson, Json.record, List.map_append]
    rfl
  have hstringifies : r.materialJson.Stringifies format := by
    rw [hmaterial]
    refine Json.stringifies_record fun field hfield => ?_
    rcases List.mem_append.mp hfield with hfield | hfield
    · exact stringifies_fields field hfield
    · simp only [List.mem_cons, List.not_mem_nil, or_false] at hfield
      rcases hfield with rfl | rfl | rfl | rfl | rfl
      · exact hartifacts
      · exact hevents
      · exact happrovals
      · exact hverifications
      · exact hexceptions
  exact ⟨{ r with evidenceDigest := ofString (digest sha r.materialJson) }, bind_eq_ok.mpr ⟨[], rfl,
    bind_eq_ok.mpr ⟨_, digest_ok hstringifies, rfl⟩⟩⟩

/-- Some order of the input is accepted. -/
theorem input_passes (hsha : Function.Injective sha) : Passes (environment sha) (input sha) := by
  obtain ⟨key, hkey⟩ := exists_key sha "1"
  obtain ⟨key', hkey'⟩ := exists_key sha "2"
  have hne : key ≠ key' := by
    rintro rfl
    exact absurd (verifierKey_injective hkey hkey') (by decide)
  have hreferences : ∀ version, (exception sha).names (reference version) = true :=
    exception_names
  refine ⟨⟨[], [key, key'], ?_⟩, ?_, ?_⟩
  · exact
      { events_ne := by simp [input]
        artifactsAccepted := fun _ _ => rfl
        eventsAccepted := fun _ _ => rfl
        approvalsParsed := rfl
        verificationsAccepted := fun _ _ => rfl
        exceptionsAccepted := fun _ _ => rfl
        ids := by
          refine ⟨?_, by simp, by simp [input], by simp [input]⟩
          have hids : ofString "first" ≠ ofString "second" := fun h =>
            absurd (JsString.ofString_injective h) (by simp)
          simp [input, (artifact_ids sha _).1, hids]
        eventIds := by
          refine ⟨?_, by simp [input, event, produced, verified, excepted]⟩
          have hnodup : ["accepted", "first", "second", "verified", "excepted"].Nodup := by simp
          show (["accepted", "first", "second", "verified", "excepted"].map ofString).Nodup
          exact hnodup.map JsString.ofString_injective
        eventsChecked := by
          intro e he
          simp only [input, List.mem_cons, List.not_mem_nil, or_false] at he
          rcases he with rfl | rfl | rfl | rfl | rfl
          all_goals
            refine checkEvent_ok _ _ fun bindingDigest ids h => ?_
            cases h
          rfl
        definition := by
          rw [show (input sha).material = material sha from rfl, material_definition,
            material_digest]
          exact digest_ok stringifies_definition
        artifactsChecked := by
          intro a ha
          simp only [input, List.mem_cons, List.not_mem_nil, or_false] at ha
          rcases ha with rfl | rfl
          · exact checkArtifact_ok (show produced sha "first" 1 ∈ _ by simp [input])
          · exact checkArtifact_ok (show produced sha "second" 2 ∈ _ by simp [input])
        approvalsChecked := nofun
        keysOf := mapM_cons_ok.mpr ⟨key, [key'], hkey, mapM_cons_ok.mpr ⟨key', [], hkey', rfl, rfl⟩,
          rfl⟩
        keys_nodup := by simp [hne]
        verificationsChecked := by
          intro v hv
          rw [List.mem_singleton.mp hv]
          exact ⟨key', checkVerification_ok hkey' (by simp)⟩
        required := by
          refine ⟨[ofString "verifier"], rfl, fun id hid => ?_⟩
          rw [List.mem_singleton.mp hid]
          obtain ⟨-, hstatus, hverifier⟩ := verification_fields sha
          have hfail : ofString "pass" ≠ ofString "fail" := fun h =>
            absurd (JsString.ofString_injective h) (by simp)
          simp [checkRequired, input, VerificationResult.isOf, hstatus, hverifier, hfail]
        risk := by
          have hlow : ofString "low" ≠ ofString "high" ∧ ofString "low" ≠ ofString "critical" :=
            ⟨fun h => absurd (JsString.ofString_injective h) (by simp),
              fun h => absurd (JsString.ofString_injective h) (by simp)⟩
          simp [checkRisk, input, material_riskClass, hlow]
        completes := completes }
  · intro x hx
    rw [List.mem_singleton.mp hx]
    exact ⟨exceptionChecks_ok hsha, ⟨reference "1", by simp [input], hreferences _⟩,
      artifact sha "second", find_second hsha, excepted sha, by simp [input],
      recordsException_excepted⟩
  · intro r hr hunused
    have hfirst : ∀ r' ∈ (input sha).verifierReferences, Unused (input sha).verifications r' →
        r' = reference "1" := by
      intro r' hr' hunused'
      simp only [input, List.mem_cons, List.not_mem_nil, or_false] at hr'
      rcases hr' with rfl | rfl
      · rfl
      · exact absurd verification_reference (hunused' (verification sha) (by simp [input]))
    rw [hfirst r hr hunused]
    exact ⟨⟨exception sha, by simp [input], hreferences _⟩, fun other hother hunused' _ =>
      hfirst other hother hunused'⟩

/-- The reference of the exception depends on the order. -/
theorem input_not_settled : ¬ Settled (environment sha) (input sha) := by
  intro h
  have hunused : Unused (input sha).verifications (reference "1") := by
    intro v hv
    rw [List.mem_singleton.mp hv, verification_reference]
    decide
  have hsame := h.references (reference "1") (by simp [input]) hunused (reference "2")
    (by simp [input]) ⟨rfl, rfl, rfl, rfl⟩
  exact absurd hsame (by decide)

end Sample

/-! ### The result -/

/-- **Building evidence is order-independent, backed and self-verifying** exactly when no order
is accepted, or none of the two searches depends on it. -/
theorem buildEvidenceRecord_evident_iff (E : Environment Num)
    (hsha : Function.Injective E.sha256) (input : BuildEvidenceInput Num) :
    Evident E input ↔ (Passes E input → Settled E input) := by
  constructor
  · intro h hpasses
    by_contra hsettled
    exact not_evident hsha hpasses hsettled h
  · intro hsettled
    exact
      { order := fun _ hre r => build_iff_of_settled hsha hsettled hre r
        verifies := fun _ => verifies_of_build
        exported := fun _ => exported_of_build
        artifactRefs := fun _ => artifactRefs_backed
        approvalRefs := fun _ => approvalRefs_backed
        verificationRefs := fun _ => verificationRefs_backed
        exceptionRefs := fun _ => exceptionRefs_backed
        required := fun _ => required_of_build }

/-- With one reference and no exception, there is nothing to search. -/
theorem buildEvidenceRecord_evident_one_reference :
    ∃ sha, Evident (Sample.environment sha) { Sample.input sha with
      verificationExceptions := [], verifierReferences := [Sample.reference "2"] } := by
  obtain ⟨sha, hsha⟩ := Hashing.exists_injective
  refine ⟨sha, (buildEvidenceRecord_evident_iff (Sample.environment sha) hsha _).mpr
    fun _ => ⟨nofun, ?_⟩⟩
  intro r hr _ other hother _
  rw [List.mem_singleton.mp hr, List.mem_singleton.mp hother]

/-- With references of two versions of a verifier, the exception is of the first of them, and
the evidence is refused when this is the one the verification is of. -/
theorem evidence_depends_on_order :
    ∃ sha, Function.Injective sha ∧ ¬ Evident (Sample.environment sha) (Sample.input sha) := by
  obtain ⟨sha, hsha⟩ := Hashing.exists_injective
  exact ⟨sha, hsha, not_evident hsha (Sample.input_passes hsha) Sample.input_not_settled⟩

end Records

end Pactmark
