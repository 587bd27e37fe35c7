import Pactmark.Durable.Reordering
import Pactmark.Evidence.Records

/-!
# Evidence — the order of what a record is built from

A record is built whatever the order of its six lists, with two exceptions: a verification
exception is of the first reference that agrees with it in all but the version, and its recording
is searched among the events up to the first whose controls have no canonical text.

* `build_ok_iff`: what `buildEvidenceRecord` checks.
* `Checked.perm`: what it checks does not depend on the order, apart from these two.
* `Passes`, `Settled`: some order is accepted; then every order is.
* `Passes.exists_ok`, `exists_refused`, `build_of_settled`, `build_perm`: what an order changes.
-/

namespace Pactmark

open JsString (lit ofString)

open Durable

namespace Records

variable {Num : Type} {E : Environment Num}

/-! ### What is checked -/

theorem require_ok {p : Prop} [Decidable p] {u : Unit} : require p = .ok u ↔ p := by
  by_cases h : p <;> simp [require, h]

theorem parse_ok {α : Type} {accepts : α → Bool} {a b : α} :
    parse accepts a = .ok b ↔ accepts a = true ∧ b = a := by
  by_cases h : accepts a = true
  · simp [parse, h, eq_comm]
  · simp [parse, h]

theorem mapM_parse {α : Type} {accepts : α → Bool} {l bs : List α} :
    l.mapM (parse accepts) = .ok bs ↔ (∀ a ∈ l, accepts a = true) ∧ bs = l := by
  induction l generalizing bs with
  | nil =>
      rw [List.mapM_nil]
      constructor
      · intro h
        cases h
        exact ⟨nofun, rfl⟩
      · rintro ⟨-, rfl⟩
        rfl
  | cons a l ih =>
      rw [mapM_cons_ok, List.forall_mem_cons]
      constructor
      · rintro ⟨b, bs', hb, hbs', rfl⟩
        obtain ⟨ha, rfl⟩ := parse_ok.mp hb
        obtain ⟨hl, rfl⟩ := ih.mp hbs'
        exact ⟨⟨ha, hl⟩, rfl⟩
      · rintro ⟨⟨ha, hl⟩, rfl⟩
        exact ⟨a, l, parse_ok.mpr ⟨ha, rfl⟩, ih.mpr ⟨hl, rfl⟩, rfl⟩

/-- The lookup of an artifact by its digest. -/
def artifactOf (artifacts : List (Artifact Num)) (digest : JsString) : Option (Artifact Num) :=
  artifacts.find? fun a => a.artifactDigest = digest

/-- The completion of the record of an input, with its approvals parsed. -/
def complete (E : Environment Num) (input : BuildEvidenceInput Num)
    (approvals : List (Approval Num)) : Except EvidenceError (EvidenceRecord Num) :=
  completeRecord E input.material input.artifacts input.events approvals input.verifications
    input.verificationExceptions

/-- What the function checks of its input apart from the exceptions and the keys they use, with
the approvals parsed and the keys of the references. -/
structure Checked (E : Environment Num) (input : BuildEvidenceInput Num)
    (approvals : List (Approval Num)) (keys : List JsString) : Prop where
  events_ne : input.events.length ≠ 0
  artifactsAccepted : ∀ a ∈ input.artifacts, E.acceptsArtifact a = true
  eventsAccepted : ∀ e ∈ input.events, E.acceptsEvent e = true
  approvalsParsed : input.approvals.mapM (parseApproval E) = .ok approvals
  verificationsAccepted : ∀ v ∈ input.verifications, E.acceptsVerification v = true
  exceptionsAccepted : ∀ x ∈ input.verificationExceptions, E.acceptsException x = true
  ids : (input.artifacts.map (·.artifactId)).Nodup ∧ (approvals.map (·.id)).Nodup ∧
    (input.verifications.map (·.verificationId)).Nodup ∧
    (input.verificationExceptions.map (·.exceptionId)).Nodup
  eventIds : (input.events.map (·.eventId)).Nodup ∧ (input.events.map (·.sequence)).Nodup
  eventsChecked : ∀ e ∈ input.events, checkEvent E input.material e = .ok ()
  definition : digestCanonicalJson E input.material.executionDefinition =
    .ok input.material.executionDefinitionDigest
  artifactsChecked : ∀ a ∈ input.artifacts, checkArtifact E input.material input.events a = .ok ()
  approvalsChecked : ∀ a ∈ approvals, checkApproval E input.material input.events a = .ok ()
  keysOf : input.verifierReferences.mapM (verifierKey E) = .ok keys
  keys_nodup : keys.Nodup
  verificationsChecked : ∀ v ∈ input.verifications,
    ∃ key, checkVerification E input.artifacts input.events keys v = .ok key
  required : ∃ ids, acceptedVerifierIds input.events = .ok ids ∧ ∀ id ∈ ids,
    checkRequired input.verifications input.verificationExceptions id = .ok ()
  risk : checkRisk input.material input.verifications = .ok ()
  completes : ∃ r, complete E input approvals = .ok r

theorem build_ok_iff {input : BuildEvidenceInput Num} {r : EvidenceRecord Num} :
    buildEvidenceRecord E input = .ok r ↔
      ∃ approvals keys, Checked E input approvals keys ∧ complete E input approvals = .ok r ∧
        ∃ verificationKeys exceptionKeys,
          input.verifications.mapM (checkVerification E input.artifacts input.events keys) =
            .ok verificationKeys ∧
          input.verificationExceptions.mapM (checkException E input.material input.artifacts
            input.events input.verifications input.verifierReferences) = .ok exceptionKeys ∧
          (verificationKeys ++ exceptionKeys).dedup.length = keys.length := by
  constructor
  · intro h
    obtain ⟨_, hne, h⟩ := bind_eq_ok.mp h
    obtain ⟨artifacts, hparsed, h⟩ := bind_eq_ok.mp h
    obtain ⟨hartifacts, rfl⟩ := mapM_parse.mp hparsed
    obtain ⟨events, hparsed, h⟩ := bind_eq_ok.mp h
    obtain ⟨hevents, rfl⟩ := mapM_parse.mp hparsed
    obtain ⟨approvals, happrovals, h⟩ := bind_eq_ok.mp h
    obtain ⟨verifications, hparsed, h⟩ := bind_eq_ok.mp h
    obtain ⟨hverifications, rfl⟩ := mapM_parse.mp hparsed
    obtain ⟨exceptions, hparsed, h⟩ := bind_eq_ok.mp h
    obtain ⟨hexceptions, rfl⟩ := mapM_parse.mp hparsed
    obtain ⟨_, hids, h⟩ := bind_eq_ok.mp h
    obtain ⟨_, heventIds, h⟩ := bind_eq_ok.mp h
    obtain ⟨_, hcheckEvents, h⟩ := bind_eq_ok.mp h
    obtain ⟨definition, hdefinition, h⟩ := bind_eq_ok.mp h
    obtain ⟨_, hdigest, h⟩ := bind_eq_ok.mp h
    obtain ⟨_, hcheckArtifacts, h⟩ := bind_eq_ok.mp h
    obtain ⟨_, hcheckApprovals, h⟩ := bind_eq_ok.mp h
    obtain ⟨keys, hkeys, h⟩ := bind_eq_ok.mp h
    obtain ⟨_, hnodup, h⟩ := bind_eq_ok.mp h
    obtain ⟨verificationKeys, hverificationKeys, h⟩ := bind_eq_ok.mp h
    obtain ⟨exceptionKeys, hexceptionKeys, h⟩ := bind_eq_ok.mp h
    obtain ⟨_, hused, h⟩ := bind_eq_ok.mp h
    obtain ⟨ids, hacceptedIds, h⟩ := bind_eq_ok.mp h
    obtain ⟨_, hrequired, h⟩ := bind_eq_ok.mp h
    obtain ⟨_, hrisk, h⟩ := bind_eq_ok.mp h
    have hverified : ∀ v ∈ input.verifications,
        ∃ key, checkVerification E input.artifacts input.events keys v = .ok key := fun v hv =>
      (mem_of_mapM hverificationKeys).1 v hv |>.imp fun _ h => h.2
    rw [require_ok.mp hdigest] at hdefinition
    exact ⟨approvals, keys, ⟨require_ok.mp hne, hartifacts, hevents, happrovals, hverifications,
      hexceptions, require_ok.mp hids, require_ok.mp heventIds, forM_ok_iff.mp hcheckEvents,
      hdefinition, forM_ok_iff.mp hcheckArtifacts, forM_ok_iff.mp hcheckApprovals, hkeys,
      require_ok.mp hnodup, hverified, ⟨ids, hacceptedIds, forM_ok_iff.mp hrequired⟩, hrisk,
      ⟨r, h⟩⟩, h, verificationKeys, exceptionKeys, hverificationKeys, hexceptionKeys,
      require_ok.mp hused⟩
  · rintro ⟨approvals, keys, hc, hr, verificationKeys, exceptionKeys, hverificationKeys,
      hexceptionKeys, hused⟩
    obtain ⟨ids, hids, hrequired⟩ := hc.required
    refine bind_eq_ok.mpr ⟨(), require_ok.mpr hc.events_ne, ?_⟩
    refine bind_eq_ok.mpr ⟨_, mapM_parse.mpr ⟨hc.artifactsAccepted, rfl⟩, ?_⟩
    refine bind_eq_ok.mpr ⟨_, mapM_parse.mpr ⟨hc.eventsAccepted, rfl⟩, ?_⟩
    refine bind_eq_ok.mpr ⟨_, hc.approvalsParsed, ?_⟩
    refine bind_eq_ok.mpr ⟨_, mapM_parse.mpr ⟨hc.verificationsAccepted, rfl⟩, ?_⟩
    refine bind_eq_ok.mpr ⟨_, mapM_parse.mpr ⟨hc.exceptionsAccepted, rfl⟩, ?_⟩
    refine bind_eq_ok.mpr ⟨(), require_ok.mpr hc.ids, ?_⟩
    refine bind_eq_ok.mpr ⟨(), require_ok.mpr hc.eventIds, ?_⟩
    refine bind_eq_ok.mpr ⟨(), forM_ok_iff.mpr hc.eventsChecked, ?_⟩
    refine bind_eq_ok.mpr ⟨_, hc.definition, ?_⟩
    refine bind_eq_ok.mpr ⟨(), require_ok.mpr rfl, ?_⟩
    refine bind_eq_ok.mpr ⟨(), forM_ok_iff.mpr hc.artifactsChecked, ?_⟩
    refine bind_eq_ok.mpr ⟨(), forM_ok_iff.mpr hc.approvalsChecked, ?_⟩
    refine bind_eq_ok.mpr ⟨_, hc.keysOf, ?_⟩
    refine bind_eq_ok.mpr ⟨(), require_ok.mpr hc.keys_nodup, ?_⟩
    refine bind_eq_ok.mpr ⟨_, hverificationKeys, ?_⟩
    refine bind_eq_ok.mpr ⟨_, hexceptionKeys, ?_⟩
    refine bind_eq_ok.mpr ⟨(), require_ok.mpr hused, ?_⟩
    refine bind_eq_ok.mpr ⟨_, hids, ?_⟩
    refine bind_eq_ok.mpr ⟨(), forM_ok_iff.mpr hrequired, ?_⟩
    refine bind_eq_ok.mpr ⟨(), hc.risk, ?_⟩
    exact hr

/-- What an exception is checked for apart from its artifact, its reference and its recording. -/
def exceptionChecks (E : Environment Num) (m : EvidenceMaterial Num)
    (verifications : List (VerificationResult Num)) (x : VerificationException Num) : Prop :=
  (x.tenantId = m.tenantId ∧ x.runId = m.runId) ∧
    verifyVerificationExceptionDigest E x = .ok true ∧
    ¬ dateAfter E x.issuedAt m.createdAt ∧ ¬ dateNotAfter E x.expiresAt m.createdAt ∧
    ¬ (verifications.any fun v => v.artifactDigest = x.artifactDigest &&
      v.verifierId = x.verifierId &&
      v.verifierRegistrationDigest = x.verifierRegistrationDigest) ∧
    m.supports.any (fun support => decide (x.exceptionId <:+: support)) ∧
    m.doesNotProve.any (fun limit => decide (x.exceptionId <:+: limit))

theorem referenceKey_ok {found : Option VerifierReferenceIdentity} {key : JsString} :
    referenceKey E found = .ok (some key) ↔
      ∃ reference, found = some reference ∧ verifierKey E reference = .ok key := by
  cases found with
  | none => simp [referenceKey]
  | some reference =>
      cases hkey : verifierKey E reference with
      | ok k => simp [referenceKey, hkey, Functor.map, Except.map]
      | error e => simp [referenceKey, hkey, Functor.map, Except.map]

theorem checkException_ok {m : EvidenceMaterial Num} {artifacts : List (Artifact Num)}
    {events : List (RunEvent Num)} {verifications : List (VerificationResult Num)}
    {references : List VerifierReferenceIdentity} {x : VerificationException Num}
    {key : JsString} :
    checkException E m artifacts events verifications references x = .ok key ↔
      exceptionChecks E m verifications x ∧
      ∃ artifact reference, artifactOf artifacts x.artifactDigest = some artifact ∧
        references.find? x.names = some reference ∧ verifierKey E reference = .ok key ∧
        events.anyM (recordsException E x artifact) = .ok true := by
  constructor
  · intro h
    obtain ⟨found, hfound, h⟩ := bind_eq_ok.mp h
    obtain ⟨_, hrun, h⟩ := bind_eq_ok.mp h
    cases hartifact : artifactOf artifacts x.artifactDigest with
    | none =>
        rw [artifactOf] at hartifact
        simp only [hartifact] at h
        cases h
    | some artifact =>
        have hartifact' := hartifact
        rw [artifactOf] at hartifact'
        simp only [hartifact'] at h
        obtain ⟨verified, hverified, h⟩ := bind_eq_ok.mp h
        obtain ⟨_, hchecks, hfound'⟩ := bind_eq_ok.mp h
        obtain ⟨rfl, hrest⟩ := require_ok.mp hchecks
        cases found with
        | none => cases hfound'
        | some k =>
            obtain ⟨reference, hreference, hkey⟩ := referenceKey_ok.mp hfound
            obtain ⟨recorded, hrecorded, hrest'⟩ := bind_eq_ok.mp hfound'
            obtain ⟨_, htrue, hkey'⟩ := bind_eq_ok.mp hrest'
            cases hkey'
            rw [require_ok.mp htrue] at hrecorded
            exact ⟨⟨require_ok.mp hrun, hverified, hrest⟩, artifact, reference, rfl, hreference,
              hkey, hrecorded⟩
  · rintro ⟨⟨hrun, hverified, hrest⟩, artifact, reference, hartifact, hreference, hkey, hrecorded⟩
    rw [artifactOf] at hartifact
    unfold checkException
    simp only [hartifact]
    refine bind_eq_ok.mpr ⟨some key, referenceKey_ok.mpr ⟨reference, hreference, hkey⟩,
      bind_eq_ok.mpr ⟨(), require_ok.mpr hrun, ?_⟩⟩
    refine bind_eq_ok.mpr ⟨true, hverified, bind_eq_ok.mpr ⟨(), require_ok.mpr ⟨rfl, hrest⟩, ?_⟩⟩
    exact bind_eq_ok.mpr ⟨true, hrecorded, bind_eq_ok.mpr ⟨(), require_ok.mpr rfl, rfl⟩⟩

theorem checkVerification_key {artifacts : List (Artifact Num)} {events : List (RunEvent Num)}
    {keys : List JsString} {v : VerificationResult Num} {key : JsString}
    (h : checkVerification E artifacts events keys v = .ok key) :
    verifierKey E v.reference = .ok key ∧ key ∈ keys ∧
      ∃ artifact, events.any (recordsVerification artifact v) = true := by
  obtain ⟨k, hk, h⟩ := bind_eq_ok.mp h
  cases hartifact : artifacts.find? fun a => a.artifactDigest = v.artifactDigest with
  | none =>
      simp only [hartifact] at h
      cases h
  | some artifact =>
      simp only [hartifact] at h
      obtain ⟨digest, -, h⟩ := bind_eq_ok.mp h
      obtain ⟨_, -, h⟩ := bind_eq_ok.mp h
      obtain ⟨_, hkeys, h⟩ := bind_eq_ok.mp h
      cases h
      exact ⟨hk, (require_ok.mp hkeys).1, artifact, (require_ok.mp hkeys).2⟩

/-! ### Keys and digests -/

/-- Two references with one key are the same. -/
theorem verifierKey_injective {a b : VerifierReferenceIdentity} {key : JsString}
    (ha : verifierKey E a = .ok key) (hb : verifierKey E b = .ok key) : a = b := by
  have hcanonical : ∀ r : VerifierReferenceIdentity, verifierKey E r = .ok key →
      canonicalize E.num (lit "$") (.array [.string r.id, .string r.version,
        .string r.verifierRegistrationDigest, .string r.rubricVersion,
        .string r.rubricDigest]) = .ok key := by
    intro r hr
    unfold verifierKey canonicalJsonStringify at hr
    split at hr
    · next s hs =>
        cases hr
        exact hs
    · cases hr
  have hdistinct : ∀ r : VerifierReferenceIdentity, (Json.array [.string r.id, .string r.version,
      .string r.verifierRegistrationDigest, .string r.rubricVersion,
      .string r.rubricDigest] : Json Num).Distinct := by
    intro r
    simp [Json.Distinct, Json.DistinctItems]
  have hsame := (Json.canonicalize_eq_iff (hdistinct a) (hdistinct b) (hcanonical a ha)
    (hcanonical b hb)).mp rfl
  obtain ⟨id, version, registration, rubric, digest⟩ := a
  obtain ⟨id', version', registration', rubric', digest'⟩ := b
  simpa [Json.Same, Json.SameItems] using hsame

theorem digest_of_ok {v : Json Num} {d : JsString} (h : digestCanonicalJson E v = .ok d) :
    ∃ digest, E.toHashing.digestCanonicalJson v = .ok digest ∧ d = ofString digest := by
  unfold digestCanonicalJson at h
  split at h
  · next digest hdigest =>
      cases h
      exact ⟨digest, hdigest, rfl⟩
  · cases h

/-- The strings of two values that are the same. -/
theorem same_prop {num : NumberFormat Num} {a b : Json Num} (ha : a.Distinct) (hb : b.Distinct)
    (h : Json.Same num a b) (name : String) : text (prop a name) = text (prop b name) := by
  have hsymm : Json.Same num b a := (Json.same_iff_canon_eq b a hb ha).mpr
    ((Json.same_iff_canon_eq a b ha hb).mp h).symm
  have htext : ∀ {v w : Json Num}, Json.Same num v w → text v = text w := by
    intro v w hvw
    cases v <;> cases w <;> simp_all [Json.Same, text]
  cases a with
  | object ms =>
      cases b with
      | object ns =>
          simp only [Json.Same, Json.sameMembers_iff] at h hsymm
          simp only [Json.Distinct, Json.distinctMembers_iff] at ha hb
          simp only [prop, Json.child]
          cases hv : ms.lookup (ofString name) with
          | some v =>
              obtain ⟨w, hw, hvw⟩ := h.2 _ ((lookup_iff_mem ha.1).mp hv)
              rw [(lookup_iff_mem hb.1).mpr hw]
              exact htext hvw
          | none =>
              cases hw : ns.lookup (ofString name) with
              | none => rfl
              | some w =>
                  obtain ⟨v, hv', -⟩ := hsymm.2 _ ((lookup_iff_mem hb.1).mp hw)
                  rw [(lookup_iff_mem ha.1).mpr hv'] at hv
                  cases hv
      | _ => cases h
  | _ => cases b <;> first | rfl | cases h

/-- Two artifacts of an input with one digest are the same. -/
theorem Checked.artifact_unique {input : BuildEvidenceInput Num} {approvals : List (Approval Num)}
    {keys : List JsString} (hsha : Function.Injective E.sha256)
    (h : Checked E input approvals keys) {a b : Artifact Num} (ha : a ∈ input.artifacts)
    (hb : b ∈ input.artifacts) (hdigest : a.artifactDigest = b.artifactDigest) : a = b := by
  have hof : ∀ c ∈ input.artifacts,
      digestCanonicalJson E c.material.1 = .ok c.artifactDigest := by
    intro c hc
    obtain ⟨_, -, h⟩ := bind_eq_ok.mp (h.artifactsChecked c hc)
    obtain ⟨digest, hd, h⟩ := bind_eq_ok.mp h
    obtain ⟨_, heq, -⟩ := bind_eq_ok.mp h
    rw [require_ok.mp heq, hd]
  obtain ⟨d, hd, had⟩ := digest_of_ok (hof a ha)
  obtain ⟨d', hd', hbd⟩ := digest_of_ok (hof b hb)
  have hdd : d = d' := JsString.ofString_injective (by rw [← had, ← hbd, hdigest])
  have hsame := (Hashing.digest_eq_iff hsha a.material.2 b.material.2 hd hd').mp hdd
  have hid : a.artifactId = b.artifactId := same_prop a.material.2 b.material.2 hsame "artifactId"
  exact List.inj_on_of_nodup_map h.ids.1 ha hb hid

/-! ### Reordering -/

/-- The same input with its lists in another order. -/
structure Reordered (input input' : BuildEvidenceInput Num) : Prop where
  material : input'.material = input.material
  artifacts : input.artifacts.Perm input'.artifacts
  events : input.events.Perm input'.events
  approvals : input.approvals.Perm input'.approvals
  verifications : input.verifications.Perm input'.verifications
  verificationExceptions : input.verificationExceptions.Perm input'.verificationExceptions
  verifierReferences : input.verifierReferences.Perm input'.verifierReferences

theorem Reordered.symm {input input' : BuildEvidenceInput Num} (h : Reordered input input') :
    Reordered input' input :=
  ⟨h.material.symm, h.artifacts.symm, h.events.symm, h.approvals.symm, h.verifications.symm,
    h.verificationExceptions.symm, h.verifierReferences.symm⟩

theorem sort_byText {name : String} {l l' : List (Json Num)} (hperm : l.Perm l')
    (hnodup : (l.map fun ref => text (prop ref name)).Nodup) :
    l'.mergeSort (byText name) = l.mergeSort (byText name) := by
  refine mergeSort_perm (fun ref => text (prop ref name)) hperm ?_ ?_ ?_ hnodup
  · intro a b c
    simp only [byText, keyLE, decide_eq_true_eq]
    exact le_trans
  · intro a b
    simpa [byText, keyLE] using le_total (text (prop a name)) (text (prop b name))
  · intro a b hab hba
    simp only [byText, keyLE, decide_eq_true_eq] at hab hba
    exact le_antisymm hab hba

@[simp] theorem text_prop_object (name : String) (s : JsString)
    (fields : List (String × JsString)) :
    text (prop (object ((name, s) :: fields) : Json Num) name) = s := by
  simp [prop, object, Json.record, Json.child, text]

@[simp] theorem artifactRef_id (a : Artifact Num) :
    text (prop (artifactRef a) "artifactId") = a.artifactId :=
  text_prop_object ..

@[simp] theorem verificationRef_id (v : VerificationResult Num) :
    text (prop (verificationRef v) "verificationId") = v.verificationId :=
  text_prop_object ..

@[simp] theorem exceptionRef_id (x : VerificationException Num) :
    text (prop (exceptionRef x) "exceptionId") = x.exceptionId :=
  text_prop_object ..

theorem approvalRef_id {a : Approval Num} {ref : Json Num} (h : approvalRef E a = .ok ref) :
    text (prop ref "approvalId") = a.id := by
  obtain ⟨digest, -, h⟩ := bind_eq_ok.mp h
  cases h
  exact text_prop_object ..

/-- The record does not depend on the order. -/
theorem complete_perm {input input' : BuildEvidenceInput Num} (hre : Reordered input input')
    {approvals approvals' : List (Approval Num)} (happrovals : approvals.Perm approvals')
    (hids : (input.artifacts.map (·.artifactId)).Nodup ∧ (approvals.map (·.id)).Nodup ∧
      (input.verifications.map (·.verificationId)).Nodup ∧
      (input.verificationExceptions.map (·.exceptionId)).Nodup)
    (hsequences : (input.events.map (·.sequence)).Nodup) {r : EvidenceRecord Num}
    (h : complete E input approvals = .ok r) : complete E input' approvals' = .ok r := by
  obtain ⟨refs, hrefs, h⟩ := bind_eq_ok.mp h
  obtain ⟨refs', hrefs', hperm⟩ := mapM_perm happrovals hrefs
  have hartifacts : (input'.artifacts.map artifactRef).mergeSort (byText "artifactId") =
      (input.artifacts.map (artifactRef : Artifact Num → Json Num)).mergeSort
        (byText "artifactId") :=
    sort_byText (hre.artifacts.map _) (by simpa [Function.comp_def] using hids.1)
  have happrovals : refs'.mergeSort (byText "approvalId") =
      refs.mergeSort (byText "approvalId") := by
    refine sort_byText hperm ?_
    rw [mapM_map_eq (fun a ref => approvalRef_id) hrefs]
    exact hids.2.1
  have hverifications :
      (input'.verifications.map verificationRef).mergeSort (byText "verificationId") =
        (input.verifications.map (verificationRef : VerificationResult Num → Json Num)).mergeSort
          (byText "verificationId") :=
    sort_byText (hre.verifications.map _) (by simpa [Function.comp_def] using hids.2.2.1)
  have hexceptions :
      (input'.verificationExceptions.map exceptionRef).mergeSort (byText "exceptionId") =
        (input.verificationExceptions.map
          (exceptionRef : VerificationException Num → Json Num)).mergeSort
            (byText "exceptionId") :=
    sort_byText (hre.verificationExceptions.map _)
      (by simpa [Function.comp_def] using hids.2.2.2)
  have hevents : (input'.events.map fun e => (e.eventId, e.sequence)).mergeSort
        (fun left right => decide (left.2 ≤ right.2)) =
      (input.events.map fun e => (e.eventId, e.sequence)).mergeSort
        fun left right => decide (left.2 ≤ right.2) := by
    refine mergeSort_perm Prod.snd (hre.events.map _) ?_ ?_ ?_ ?_
    · intro a b c hab hbc
      simp only [decide_eq_true_eq] at hab hbc ⊢
      exact le_trans hab hbc
    · intro a b
      simpa using le_total a.2 b.2
    · intro a b hab hba
      simp only [decide_eq_true_eq] at hab hba
      exact le_antisymm hab hba
    · rw [List.map_map]
      exact hsequences
  have hrecord : recordWithoutDigest E input'.material input'.artifacts input'.events refs'
      input'.verifications input'.verificationExceptions =
      recordWithoutDigest E input.material input.artifacts input.events refs
        input.verifications input.verificationExceptions := by
    simp only [recordWithoutDigest, hre.material, hartifacts, happrovals, hverifications,
      hexceptions, hevents]
  refine bind_eq_ok.mpr ⟨refs', hrefs', ?_⟩
  simp only [hrecord]
  exact h

section Perm

variable {input input' : BuildEvidenceInput Num} {approvals : List (Approval Num)}
  {keys : List JsString}

/-- The lookups of artifacts do not depend on the order. -/
theorem Checked.artifactOf_perm (hsha : Function.Injective E.sha256)
    (h : Checked E input approvals keys) (hre : Reordered input input') (digest : JsString) :
    artifactOf input'.artifacts digest = artifactOf input.artifacts digest := by
  refine find?_perm hre.artifacts fun a ha b hb hda hdb => ?_
  exact h.artifact_unique hsha ha hb
    ((of_decide_eq_true hda).trans (of_decide_eq_true hdb).symm)

/-- What is checked of the input does not depend on the order. -/
theorem Checked.perm (hsha : Function.Injective E.sha256) (h : Checked E input approvals keys)
    (hre : Reordered input input') :
    ∃ approvals' keys', Checked E input' approvals' keys' ∧
      (∀ r, complete E input approvals = .ok r → complete E input' approvals' = .ok r) := by
  obtain ⟨approvals', happrovals', hperm⟩ := mapM_perm hre.approvals h.approvalsParsed
  obtain ⟨keys', hkeys', hkeys⟩ := mapM_perm hre.verifierReferences h.keysOf
  obtain ⟨hartifactIds, happrovalIds, hverificationIds, hexceptionIds⟩ := h.ids
  have hcomplete : ∀ r, complete E input approvals = .ok r →
      complete E input' approvals' = .ok r := fun r =>
    complete_perm hre hperm h.ids h.eventIds.2
  refine ⟨approvals', keys', ⟨?_, ?_, ?_, happrovals', ?_, ?_, ?_, ?_, ?_, ?_, ?_, ?_, hkeys',
    ?_, ?_, ?_, ?_, ?_⟩, hcomplete⟩
  · rw [← hre.events.length_eq]
    exact h.events_ne
  · exact fun a ha => h.artifactsAccepted a (hre.artifacts.mem_iff.mpr ha)
  · exact fun e he => h.eventsAccepted e (hre.events.mem_iff.mpr he)
  · exact fun v hv => h.verificationsAccepted v (hre.verifications.mem_iff.mpr hv)
  · exact fun x hx => h.exceptionsAccepted x (hre.verificationExceptions.mem_iff.mpr hx)
  · exact ⟨(hre.artifacts.map _).nodup_iff.mp hartifactIds,
      (hperm.map _).nodup_iff.mp happrovalIds,
      (hre.verifications.map _).nodup_iff.mp hverificationIds,
      (hre.verificationExceptions.map _).nodup_iff.mp hexceptionIds⟩
  · exact ⟨(hre.events.map _).nodup_iff.mp h.eventIds.1,
      (hre.events.map _).nodup_iff.mp h.eventIds.2⟩
  · intro e he
    rw [hre.material]
    exact h.eventsChecked e (hre.events.mem_iff.mpr he)
  · rw [hre.material]
    exact h.definition
  · intro a ha
    have hcheck := h.artifactsChecked a (hre.artifacts.mem_iff.mpr ha)
    simpa only [checkArtifact, hre.material, hre.events.any_eq] using hcheck
  · intro a ha
    have hcheck := h.approvalsChecked a (hperm.mem_iff.mpr ha)
    simpa only [checkApproval, hre.material, hre.events.any_eq] using hcheck
  · exact hkeys.nodup_iff.mp h.keys_nodup
  · intro v hv
    obtain ⟨key, hkey⟩ := h.verificationsChecked v (hre.verifications.mem_iff.mpr hv)
    refine ⟨key, ?_⟩
    have hfind := h.artifactOf_perm hsha hre v.artifactDigest
    simp only [artifactOf] at hfind
    simpa only [checkVerification, hfind, hre.events.any_eq, hkeys.mem_iff] using hkey
  · obtain ⟨ids, hids, hrequired⟩ := h.required
    refine ⟨ids, ?_, fun id hid => ?_⟩
    · have hperm := hre.events.filterMap RunEvent.requiredVerifierIds
      unfold acceptedVerifierIds at hids ⊢
      split at hids
      · next required hone =>
          rw [hone] at hperm
          rw [← List.singleton_perm.mp hperm]
          exact hids
      · cases hids
    · have hcheck := hrequired id hid
      simpa only [checkRequired, hre.verifications.any_eq, hre.verificationExceptions.any_eq]
        using hcheck
  · have hrisk := h.risk
    simpa only [checkRisk, hre.material, hre.verifications.any_eq] using hrisk
  · obtain ⟨r, hr⟩ := h.completes
    exact ⟨r, hcomplete r hr⟩

theorem exceptionChecks_perm (hre : Reordered input input') {x : VerificationException Num}
    (h : exceptionChecks E input.material input.verifications x) :
    exceptionChecks E input'.material input'.verifications x := by
  simpa only [exceptionChecks, hre.material, hre.verifications.any_eq] using h

end Perm

/-! ### The two searches -/

/-- No verification is of the reference. -/
def Unused (verifications : List (VerificationResult Num))
    (reference : VerifierReferenceIdentity) : Prop :=
  ∀ v ∈ verifications, v.reference ≠ reference

instance (verifications : List (VerificationResult Num))
    (reference : VerifierReferenceIdentity) : Decidable (Unused verifications reference) :=
  inferInstanceAs (Decidable (∀ v ∈ verifications, v.reference ≠ reference))

/-- References that differ in nothing but their version. -/
def SameVerifier (a b : VerifierReferenceIdentity) : Prop :=
  a.id = b.id ∧ a.verifierRegistrationDigest = b.verifierRegistrationDigest ∧
    a.rubricVersion = b.rubricVersion ∧ a.rubricDigest = b.rubricDigest

/-- Some order of the input is accepted: it is checked, each exception has its artifact, a
reference and a recording, and each reference that no verification is of has an exception and is
the only such one up to the version. -/
structure Passes (E : Environment Num) (input : BuildEvidenceInput Num) : Prop where
  checked : ∃ approvals keys, Checked E input approvals keys
  exceptions : ∀ x ∈ input.verificationExceptions,
    exceptionChecks E input.material input.verifications x ∧
    (∃ reference ∈ input.verifierReferences, x.names reference = true) ∧
    ∃ artifact, artifactOf input.artifacts x.artifactDigest = some artifact ∧
      ∃ e ∈ input.events, recordsException E x artifact e = .ok true
  references : ∀ reference ∈ input.verifierReferences, Unused input.verifications reference →
    (∃ x ∈ input.verificationExceptions, x.names reference = true) ∧
    ∀ other ∈ input.verifierReferences, Unused input.verifications other →
      SameVerifier reference other → other = reference

/-- The two searches do not depend on the order: no recording of an exception has controls without
a canonical text, and a reference that no verification is of is the only one up to the version. -/
structure Settled (E : Environment Num) (input : BuildEvidenceInput Num) : Prop where
  controls : ∀ x ∈ input.verificationExceptions, ∀ artifact,
    artifactOf input.artifacts x.artifactDigest = some artifact →
      ∀ e ∈ input.events, ∃ b, recordsException E x artifact e = .ok b
  references : ∀ reference ∈ input.verifierReferences, Unused input.verifications reference →
    ∀ other ∈ input.verifierReferences, SameVerifier reference other → other = reference

theorem names_iff {x : VerificationException Num} {reference : VerifierReferenceIdentity} :
    x.names reference = true ↔ reference.id = x.verifierId ∧
      reference.verifierRegistrationDigest = x.verifierRegistrationDigest ∧
      reference.rubricVersion = x.rubricVersion ∧ reference.rubricDigest = x.rubricDigest := by
  simp [VerificationException.names, and_assoc]

theorem sameVerifier_of_names {x : VerificationException Num} {a b : VerifierReferenceIdentity}
    (ha : x.names a = true) (hb : x.names b = true) : SameVerifier a b := by
  obtain ⟨h₁, h₂, h₃, h₄⟩ := names_iff.mp ha
  obtain ⟨h₁', h₂', h₃', h₄'⟩ := names_iff.mp hb
  exact ⟨h₁.trans h₁'.symm, h₂.trans h₂'.symm, h₃.trans h₃'.symm, h₄.trans h₄'.symm⟩

theorem SameVerifier.names {x : VerificationException Num} {a b : VerifierReferenceIdentity}
    (h : SameVerifier a b) (ha : x.names a = true) : x.names b = true := by
  obtain ⟨h₁, h₂, h₃, h₄⟩ := h
  obtain ⟨h₁', h₂', h₃', h₄'⟩ := names_iff.mp ha
  exact names_iff.mpr ⟨h₁.symm.trans h₁', h₂.symm.trans h₂', h₃.symm.trans h₃',
    h₄.symm.trans h₄'⟩

section Searches

variable {input input' : BuildEvidenceInput Num}

/-- An input is accepted when its exceptions are found recorded and every reference that no
verification is of is the one found for an exception. -/
theorem build_ok_of (h : Passes E input)
    (hrecorded : ∀ x ∈ input.verificationExceptions, ∀ artifact,
      artifactOf input.artifacts x.artifactDigest = some artifact →
        input.events.anyM (recordsException E x artifact) = .ok true)
    (hused : ∀ reference ∈ input.verifierReferences, Unused input.verifications reference →
      ∃ x ∈ input.verificationExceptions,
        input.verifierReferences.find? x.names = some reference) :
    ∃ r, buildEvidenceRecord E input = .ok r := by
  obtain ⟨approvals, keys, hc⟩ := h.checked
  obtain ⟨r, hr⟩ := hc.completes
  obtain ⟨verificationKeys, hverificationKeys⟩ := exists_mapM hc.verificationsChecked
  have hkeys := mem_of_mapM hc.keysOf
  have hexceptions : ∀ x ∈ input.verificationExceptions, ∃ reference ∈ input.verifierReferences,
      ∃ key ∈ keys, input.verifierReferences.find? x.names = some reference ∧
        verifierKey E reference = .ok key ∧
        checkException E input.material input.artifacts input.events input.verifications
          input.verifierReferences x = .ok key := by
    intro x hx
    obtain ⟨hchecks, ⟨other, hother, hnames⟩, artifact, hartifact, -⟩ := h.exceptions x hx
    obtain ⟨reference, hreference⟩ := Option.isSome_iff_exists.mp
      (List.find?_isSome.mpr ⟨other, hother, hnames⟩)
    have hmem := List.mem_of_find?_eq_some hreference
    obtain ⟨key, hkey, hof⟩ := hkeys.1 reference hmem
    exact ⟨reference, hmem, key, hkey, hreference, hof, checkException_ok.mpr ⟨hchecks, artifact,
      reference, hartifact, hreference, hof, hrecorded x hx artifact hartifact⟩⟩
  obtain ⟨exceptionKeys, hexceptionKeys⟩ := exists_mapM fun x hx => by
    obtain ⟨_, _, key, _, _, _, hcheck⟩ := hexceptions x hx
    exact ⟨key, hcheck⟩
  refine ⟨r, build_ok_iff.mpr ⟨approvals, keys, hc, hr, verificationKeys, exceptionKeys,
    hverificationKeys, hexceptionKeys, (dedup_length_iff ?_ hc.keys_nodup).mpr ?_⟩⟩
  · intro key hkey
    rcases List.mem_append.mp hkey with hkey | hkey
    · obtain ⟨v, -, hv⟩ := (mem_of_mapM hverificationKeys).2 key hkey
      exact (checkVerification_key hv).2.1
    · obtain ⟨x, hx, hcheck⟩ := (mem_of_mapM hexceptionKeys).2 key hkey
      obtain ⟨_, _, key', hkey', -, -, hcheck'⟩ := hexceptions x hx
      rw [hcheck] at hcheck'
      cases hcheck'
      exact hkey'
  · intro key hkey
    obtain ⟨reference, hreference, hof⟩ := hkeys.2 key hkey
    by_cases hunused : Unused input.verifications reference
    · obtain ⟨x, hx, hfind⟩ := hused reference hreference hunused
      obtain ⟨reference', -, key', -, hfind', hof', hcheck⟩ := hexceptions x hx
      rw [hfind] at hfind'
      cases hfind'
      rw [hof] at hof'
      cases hof'
      obtain ⟨key', hmem, hcheck'⟩ := (mem_of_mapM hexceptionKeys).1 x hx
      rw [hcheck] at hcheck'
      cases hcheck'
      exact List.mem_append_right _ hmem
    · simp only [Unused, not_forall, not_not] at hunused
      obtain ⟨v, hv, hreference'⟩ := hunused
      obtain ⟨key', hmem, hcheck⟩ := (mem_of_mapM hverificationKeys).1 v hv
      have hkey' := (checkVerification_key hcheck).1
      rw [hreference', hof] at hkey'
      cases hkey'
      exact List.mem_append_left _ hmem

/-- In an input that is accepted, a reference that no verification is of is the one found for
an exception. -/
theorem found_of_build {r : EvidenceRecord Num} (h : buildEvidenceRecord E input = .ok r) :
    ∀ reference ∈ input.verifierReferences, Unused input.verifications reference →
      ∃ x ∈ input.verificationExceptions,
        input.verifierReferences.find? x.names = some reference := by
  obtain ⟨approvals, keys, hc, -, verificationKeys, exceptionKeys, hverificationKeys,
    hexceptionKeys, hused⟩ := build_ok_iff.mp h
  have hkeys := mem_of_mapM hc.keysOf
  have hsub : verificationKeys ++ exceptionKeys ⊆ keys := by
    intro key hkey
    rcases List.mem_append.mp hkey with hkey | hkey
    · obtain ⟨v, -, hv⟩ := (mem_of_mapM hverificationKeys).2 key hkey
      exact (checkVerification_key hv).2.1
    · obtain ⟨x, -, hx⟩ := (mem_of_mapM hexceptionKeys).2 key hkey
      obtain ⟨-, _, reference, -, hfind, hof, -⟩ := checkException_ok.mp hx
      obtain ⟨key', hkey', hof'⟩ := hkeys.1 reference (List.mem_of_find?_eq_some hfind)
      rw [hof] at hof'
      cases hof'
      exact hkey'
  intro reference hreference hunused
  obtain ⟨key, hkey, hof⟩ := hkeys.1 reference hreference
  rcases List.mem_append.mp ((dedup_length_iff hsub hc.keys_nodup).mp hused hkey) with hmem | hmem
  · obtain ⟨v, hv, hcheck⟩ := (mem_of_mapM hverificationKeys).2 key hmem
    exact absurd (verifierKey_injective (checkVerification_key hcheck).1 hof) (hunused v hv)
  · obtain ⟨x, hx, hcheck⟩ := (mem_of_mapM hexceptionKeys).2 key hmem
    obtain ⟨-, _, reference', -, hfind, hof', -⟩ := checkException_ok.mp hcheck
    rw [verifierKey_injective hof' hof] at hfind
    exact ⟨x, hx, hfind⟩

theorem passes_of_build {r : EvidenceRecord Num} (h : buildEvidenceRecord E input = .ok r) :
    Passes E input := by
  have hfound := found_of_build h
  obtain ⟨approvals, keys, hc, -, verificationKeys, exceptionKeys, -, hexceptionKeys, -⟩ :=
    build_ok_iff.mp h
  refine ⟨⟨approvals, keys, hc⟩, fun x hx => ?_, fun reference hreference hunused => ?_⟩
  · obtain ⟨key, -, hcheck⟩ := (mem_of_mapM hexceptionKeys).1 x hx
    obtain ⟨hchecks, artifact, reference, hartifact, hfind, -, hrecorded⟩ :=
      checkException_ok.mp hcheck
    exact ⟨hchecks, ⟨reference, List.mem_of_find?_eq_some hfind, List.find?_some hfind⟩, artifact,
      hartifact, exists_of_anyM hrecorded⟩
  · obtain ⟨x, hx, hfind⟩ := hfound reference hreference hunused
    refine ⟨⟨x, hx, List.find?_some hfind⟩, fun other hother hunused' hsame => ?_⟩
    -- both are the one found for the exceptions of this verifier
    obtain ⟨x', hx', hfind'⟩ := hfound other hother hunused'
    have hnames : x.names = x'.names := by
      funext a
      have hother := hsame.names (List.find?_some hfind)
      rw [Bool.eq_iff_iff]
      exact ⟨fun ha => (sameVerifier_of_names hother ha).names (List.find?_some hfind'),
        fun ha => (sameVerifier_of_names (List.find?_some hfind') ha).names hother⟩
    rw [hnames, hfind'] at hfind
    exact Option.some.inj hfind

theorem Passes.perm (hsha : Function.Injective E.sha256) (h : Passes E input)
    (hre : Reordered input input') : Passes E input' := by
  obtain ⟨approvals, keys, hc⟩ := h.checked
  obtain ⟨approvals', keys', hc', -⟩ := hc.perm hsha hre
  have hunused : ∀ {reference}, Unused input'.verifications reference →
      Unused input.verifications reference := fun hu v hv =>
    hu v (hre.verifications.mem_iff.mp hv)
  refine ⟨⟨approvals', keys', hc'⟩, fun x hx => ?_, fun reference hreference hu => ?_⟩
  · obtain ⟨hchecks, ⟨reference, hreference, hnames⟩, artifact, hartifact, e, he, hrecorded⟩ :=
      h.exceptions x (hre.verificationExceptions.mem_iff.mpr hx)
    exact ⟨exceptionChecks_perm hre hchecks,
      ⟨reference, hre.verifierReferences.mem_iff.mp hreference, hnames⟩, artifact,
      (hc.artifactOf_perm hsha hre _).trans hartifact, e, hre.events.mem_iff.mp he, hrecorded⟩
  · obtain ⟨⟨x, hx, hnames⟩, hunique⟩ :=
      h.references reference (hre.verifierReferences.mem_iff.mpr hreference) (hunused hu)
    exact ⟨⟨x, hre.verificationExceptions.mem_iff.mp hx, hnames⟩, fun other hother hu' =>
      hunique other (hre.verifierReferences.mem_iff.mpr hother) (hunused hu')⟩

theorem Settled.perm (hsha : Function.Injective E.sha256) (hpasses : Passes E input)
    (h : Settled E input) (hre : Reordered input input') : Settled E input' := by
  obtain ⟨approvals, keys, hc⟩ := hpasses.checked
  refine ⟨fun x hx artifact hartifact e he => ?_, fun reference hreference hu other hother => ?_⟩
  · rw [hc.artifactOf_perm hsha hre] at hartifact
    exact h.controls x (hre.verificationExceptions.mem_iff.mpr hx) artifact hartifact e
      (hre.events.mem_iff.mpr he)
  · exact h.references reference (hre.verifierReferences.mem_iff.mpr hreference)
      (fun v hv => hu v (hre.verifications.mem_iff.mp hv)) other
      (hre.verifierReferences.mem_iff.mpr hother)

/-- A settled input that some order accepts is accepted in its own. -/
theorem build_of_settled (hpasses : Passes E input) (h : Settled E input) :
    ∃ r, buildEvidenceRecord E input = .ok r := by
  refine build_ok_of hpasses (fun x hx artifact hartifact => ?_) fun reference hreference hu => ?_
  · obtain ⟨-, -, artifact', hartifact', e, he, hrecorded⟩ := hpasses.exceptions x hx
    rw [hartifact] at hartifact'
    cases hartifact'
    have hall : (input.events ++ []).anyM (recordsException E x artifact) = .ok true :=
      anyM_of_first (h.controls x hx artifact hartifact) ⟨e, he, hrecorded⟩
    rwa [List.append_nil] at hall
  · obtain ⟨⟨x, hx, hnames⟩, -⟩ := hpasses.references reference hreference hu
    obtain ⟨found, hfound⟩ := Option.isSome_iff_exists.mp
      (List.find?_isSome.mpr ⟨reference, hreference, hnames⟩)
    have hsame := sameVerifier_of_names hnames (List.find?_some hfound)
    rw [h.references reference hreference hu found (List.mem_of_find?_eq_some hfound) hsame]
      at hfound
    exact ⟨x, hx, hfound⟩

/-- The controls of a recorded exception have a canonical text. -/
def hasControls (E : Environment Num) (event : RunEvent Num) : Bool :=
  match event.payload with
  | .VerificationExceptionRecorded p =>
      match digestCanonicalJson E (.array (p.compensatingControls.map .string)) with
      | .ok _ => true
      | .error _ => false
  | _ => true

/-- A search for a recording does not fail on an event with such controls, when some event is
the recording, which then has them too. -/
theorem recordsException_ok {x : VerificationException Num} {artifact : Artifact Num}
    {e : RunEvent Num} (e' : RunEvent Num) (h : recordsException E x artifact e = .ok true) :
    hasControls E e = true ∧
      (hasControls E e' = true → ∃ b, recordsException E x artifact e' = .ok b) := by
  have hexcepted : hasControls E e = true ∧
      ∃ d, digestCanonicalJson E x.compensatingControls = .ok d := by
    unfold recordsException at h
    unfold hasControls
    cases hp : e.payload with
    | VerificationExceptionRecorded p =>
        simp only [hp] at h
        split at h
        · obtain ⟨recorded, hr, h⟩ := bind_eq_ok.mp h
          obtain ⟨excepted, hx, -⟩ := bind_eq_ok.mp h
          exact ⟨by simp only [hr], excepted, hx⟩
        · cases h
    | _ =>
        simp only [hp] at h
        cases h
  obtain ⟨hcontrols, d, hd⟩ := hexcepted
  refine ⟨hcontrols, fun h' => ?_⟩
  unfold hasControls at h'
  unfold recordsException
  cases hp : e'.payload with
  | VerificationExceptionRecorded p =>
      simp only [hp] at h'
      split at h'
      · next recorded hr =>
          dsimp only
          split
          · exact ⟨_, bind_eq_ok.mpr ⟨recorded, hr, bind_eq_ok.mpr ⟨d, hd, rfl⟩⟩⟩
          · exact ⟨false, rfl⟩
      · cases h'
  | _ => exact ⟨false, rfl⟩

/-- Of an input that passes, some order is accepted: the recordings with controls first, and the
references first that no verification is of. -/
theorem Passes.exists_ok (hsha : Function.Injective E.sha256) (h : Passes E input) :
    ∃ input', Reordered input input' ∧ ∃ r, buildEvidenceRecord E input' = .ok r := by
  let unused := fun reference => decide (Unused input.verifications reference)
  let input' : BuildEvidenceInput Num :=
    { input with
      events := input.events.filter (hasControls E) ++
        input.events.filter fun e => !hasControls E e
      verifierReferences := input.verifierReferences.filter unused ++
        input.verifierReferences.filter fun reference => !unused reference }
  have hre : Reordered input input' :=
    ⟨rfl, .refl _, (List.filter_append_perm _ _).symm, .refl _, .refl _, .refl _,
      (List.filter_append_perm _ _).symm⟩
  refine ⟨input', hre, build_ok_of (h.perm hsha hre) (fun x hx artifact hartifact => ?_)
    fun reference hreference hu => ?_⟩
  · obtain ⟨-, -, artifact', hartifact', e, he, hrecorded⟩ := h.exceptions x hx
    rw [show artifactOf input.artifacts x.artifactDigest = some artifact from hartifact]
      at hartifact'
    cases hartifact'
    refine anyM_of_first (fun e' he' => ?_)
      ⟨e, List.mem_filter.mpr ⟨he, (recordsException_ok e hrecorded).1⟩, hrecorded⟩
    exact (recordsException_ok e' hrecorded).2 (List.mem_filter.mp he').2
  · have hmem := hre.verifierReferences.mem_iff.mpr hreference
    obtain ⟨⟨x, hx, hnames⟩, hunique⟩ := h.references reference hmem hu
    refine ⟨x, hx, ?_⟩
    have hfirst : reference ∈ input.verifierReferences.filter unused :=
      List.mem_filter.mpr ⟨hmem, decide_eq_true hu⟩
    obtain ⟨found, hfound⟩ := Option.isSome_iff_exists.mp
      (List.find?_isSome.mpr ⟨reference, hfirst, hnames⟩)
    have hfoundMem := List.mem_filter.mp (List.mem_of_find?_eq_some hfound)
    rw [hunique found hfoundMem.1 (of_decide_eq_true hfoundMem.2)
      (sameVerifier_of_names hnames (List.find?_some hfound))] at hfound
    show (input.verifierReferences.filter unused ++ _).find? x.names = some reference
    rw [List.find?_append, hfound]
    rfl

/-- Of an input that is not settled, some order is refused. -/
theorem exists_refused (h : ¬ Settled E input) :
    ∃ input', Reordered input input' ∧ ∀ r, buildEvidenceRecord E input' ≠ .ok r := by
  classical
  by_cases hcontrols : ∀ x ∈ input.verificationExceptions, ∀ artifact,
      artifactOf input.artifacts x.artifactDigest = some artifact →
        ∀ e ∈ input.events, ∃ b, recordsException E x artifact e = .ok b
  · have hreferences : ¬ ∀ reference ∈ input.verifierReferences,
        Unused input.verifications reference → ∀ other ∈ input.verifierReferences,
          SameVerifier reference other → other = reference := fun hr => h ⟨hcontrols, hr⟩
    push Not at hreferences
    obtain ⟨reference, hreference, hu, other, hother, hsame, hne⟩ := hreferences
    refine ⟨{ input with
      verifierReferences := other :: input.verifierReferences.erase other }, ⟨rfl, .refl _,
      .refl _, .refl _, .refl _, .refl _, List.perm_cons_erase hother⟩, fun r hr => ?_⟩
    -- the other reference is found first
    obtain ⟨x, hx, hfind⟩ := found_of_build hr reference
      ((List.perm_cons_erase hother).mem_iff.mp hreference) hu
    have hnames := hsame.names (List.find?_some hfind)
    rw [List.find?_cons_of_pos hnames] at hfind
    exact hne (Option.some.inj hfind)
  · push Not at hcontrols
    obtain ⟨x, hx, artifact, hartifact, e, he, hfails⟩ := hcontrols
    refine ⟨{ input with events := e :: input.events.erase e }, ⟨rfl, .refl _,
      List.perm_cons_erase he, .refl _, .refl _, .refl _, .refl _⟩, fun r hr => ?_⟩
    -- the search fails on the first event
    obtain ⟨_, _, -, -, _, exceptionKeys, -, hexceptionKeys, -⟩ := build_ok_iff.mp hr
    obtain ⟨key, -, hcheck⟩ := (mem_of_mapM hexceptionKeys).1 x hx
    obtain ⟨-, artifact', _, hartifact', -, -, hrecorded⟩ := checkException_ok.mp hcheck
    rw [show artifactOf input.artifacts x.artifactDigest = some artifact' from hartifact']
      at hartifact
    cases hartifact
    cases hb : recordsException E x artifact e with
    | ok b => exact hfails b hb
    | error error =>
        rw [anyM_of_error hb] at hrecorded
        cases hrecorded

theorem build_perm (hsha : Function.Injective E.sha256) (hre : Reordered input input')
    {r r' : EvidenceRecord Num} (h : buildEvidenceRecord E input = .ok r)
    (h' : buildEvidenceRecord E input' = .ok r') : r' = r := by
  obtain ⟨approvals, keys, hc, hr, -⟩ := build_ok_iff.mp h
  obtain ⟨approvals', keys', hc', hr', -⟩ := build_ok_iff.mp h'
  obtain ⟨approvals'', keys'', hc'', hcomplete⟩ := hc.perm hsha hre
  have happrovals := hc''.approvalsParsed
  rw [hc'.approvalsParsed] at happrovals
  cases happrovals
  have hrecord := hcomplete r hr
  rw [hr'] at hrecord
  exact Except.ok.inj hrecord

end Searches

end Records

end Pactmark
