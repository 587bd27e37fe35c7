import Pactmark.Core.Labels
import Pactmark.Evidence.RecordBuilding
import Pactmark.Evidence.Redaction

/-!
# Evidence — redacted exports

`createEvidenceExport`, `verifyEvidenceExportDigest` and `exportRedactedEvidenceJson` of
`evidence/src/exports.ts`.  A record is a JSON object here, with its digest among its members;
`JsonValueSchema` and `EvidenceRecordSchema` keep what they accept.  `JSON.parse` of a canonical
text is what the strict parser reads.

* `resolve_congr`: a path is resolved by the labels above its end.
* `applyRules_last`, `applyRules_kept`, `applyRules_hides`: the loop over rules whose paths may be
  redacted.
* `createEvidenceExport_redacted`: an export verifies, has a replacement at every position that is
  redacted, and is the record everywhere else.
* `createEvidenceExport_hides`: records that differ in what is redacted have one export but for
  their digests.
-/

namespace Pactmark

open JsString (lit ofString)

open Durable (ok_bind bind_eq_ok)

variable {Num : Type}

/-! ### Paths and labels -/

namespace Redaction

variable {numberText : Num → JsString}

/-- What a segment finds as an own child depends on the kind of a value alone. -/
theorem look_of_erase {v w c : Json Num} {s : Segment Num} {k : Key}
    (herase : v.erase = w.erase) (h : look numberText v s = .own k c) :
    ∃ d, look numberText w s = .own k d := by
  cases v with
  | array xs =>
      cases w with
      | array ys =>
          cases s with
          | name name => cases h
          | index x =>
              have hlength := Json.length_of_erase herase
              simp only [look_item] at h ⊢
              rw [← hlength]
              cases hfind : (List.range xs.length).find? fun i =>
                  lit (toString i) = numberText x with
              | none =>
                  rw [hfind] at h
                  cases h
              | some i =>
                  rw [hfind] at h
                  have hi : i < xs.length := List.mem_range.mp (List.mem_of_find?_eq_some hfind)
                  dsimp only at h ⊢
                  rw [List.getElem?_eq_getElem hi] at h
                  rw [List.getElem?_eq_getElem (hlength ▸ hi)]
                  cases h
                  exact ⟨_, rfl⟩
      | _ => cases herase
  | object ms =>
      cases w with
      | object ns =>
          have hsome := Json.child_isSome_of_erase herase (.member (segmentText numberText s))
          simp only [Json.child] at hsome
          simp only [look_object] at h ⊢
          cases hm : ms.lookup (segmentText numberText s) with
          | none =>
              rw [hm] at h
              exact absurd h (inherited_ne_own _ k c)
          | some next =>
              rw [hm] at h hsome
              obtain ⟨next', hn⟩ := Option.isSome_iff_exists.mp hsome.symm
              rw [hn]
              cases h
              exact ⟨next', rfl⟩
      | _ => cases herase
  | _ => cases s <;> cases h

/-- **A path is resolved by labels**: those above its end. -/
theorem resolve_congr {path : List (Segment Num)} {v w : Json Num} {p : List Key}
    (hlabels : ∀ q, q <+: p → q ≠ p → v.label q = w.label q)
    (h : resolve numberText path v = some p) : resolve numberText path w = some p := by
  induction path generalizing v w p with
  | nil => exact h
  | cons s rest ih =>
      obtain ⟨k, c, p', hlook, hp', rfl⟩ := resolve_cons h
      have herase := Option.some.inj (hlabels [] List.nil_prefix (List.cons_ne_nil _ _).symm)
      obtain ⟨d, hd⟩ := look_of_erase herase hlook
      have hrest : resolve numberText rest d = some p' := by
        refine ih (fun q hq hne => ?_) hp'
        refine (Json.label_child (child_of_look hlook) (child_of_look hd) q).mp ?_
        exact hlabels (k :: q) (List.cons_prefix_cons.mpr ⟨rfl, hq⟩) fun heq =>
          hne (List.cons.inj heq).2
      rw [resolve, hd]
      show (resolve numberText rest d).map (k :: ·) = _
      rw [hrest]
      rfl

theorem key_of_look {v c : Json Num} {name : JsString} {k : Key}
    (h : look numberText v (.name name) = .own k c) : k = .member name := by
  cases v with
  | object members =>
      simp only [look_object, segmentText] at h
      split at h
      · cases h
        rfl
      · exact absurd h (inherited_ne_own _ k c)
  | _ => cases h

theorem length_of_resolve {path : List (Segment Num)} {v : Json Num} {p : List Key}
    (h : resolve numberText path v = some p) : p.length = path.length := by
  induction path generalizing v p with
  | nil =>
      cases h
      rfl
  | cons s rest ih =>
      obtain ⟨k, c, p', -, hp', rfl⟩ := resolve_cons h
      rw [List.length_cons, List.length_cons, ih hp']

/-- Names that no object inherits do not end with an inherited name. -/
theorem not_endsInherited_of_names {path : List (Segment Num)} {v : Json Num}
    (h : ∀ s ∈ path, segmentText numberText s ∉ objectPrototype) :
    ¬ EndsInherited numberText path v := by
  induction path generalizing v with
  | nil => exact id
  | cons s rest ih =>
      have hs := h s List.mem_cons_self
      have hmissing : (inherited (segmentText numberText s) : Found Num) = .missing := by
        have hproto : segmentText numberText s ≠ lit "__proto__" := by
          intro heq
          exact hs (heq ▸ by simp [objectPrototype])
        rw [inherited, if_neg hproto, if_neg hs]
      rw [EndsInherited]
      cases hlook : look numberText v s with
      | own k c => exact ih fun t ht => h t (List.mem_cons_of_mem s ht)
      | missing => exact id
      | function =>
          obtain ⟨members, -, -, hin⟩ := look_function hlook
          rw [hmissing] at hin
          cases hin
      | prototype =>
          cases v with
          | object members =>
              simp only [look_object] at hlook
              split at hlook
              · cases hlook
              · rw [hmissing] at hlook
                cases hlook
          | array items =>
              cases s with
              | name name => cases hlook
              | index x =>
                  simp only [look_item] at hlook
                  split at hlook
                  · split at hlook <;> cases hlook
                  · cases hlook
          | _ => cases s <;> cases hlook

end Redaction

/-! ### The functions -/

namespace EvidenceExports

open Records Redaction

/-- What the functions throw: what the evidence or the redaction throws, or one of their own. -/
inductive ExportError where
  | evidence (e : EvidenceError)
  | redaction (e : RedactionError)
  | KAF_EVIDENCE_DIGEST_INVALID
  | KAF_EVIDENCE_REDACTION_PATH_FORBIDDEN
  | KAF_EVIDENCE_REDACTION_INVALID

/-- `EvidenceExport`, of schema version 1. -/
structure EvidenceExport (Num : Type) where
  sourceEvidenceDigest : JsString
  evidence : Json Num
  redactedPaths : List JsString
  exportDigest : JsString

/-- The name of the digest of a record. -/
def digestName : JsString :=
  ofString "evidenceDigest"

/-- `const { evidenceDigest, ...material } = record`. -/
def withoutDigest : Json Num → Json Num
  | .object members => .object (members.filter fun m => m.1 != digestName)
  | v => v

/-- `{ ...material, evidenceDigest }`. -/
def withDigest (evidenceDigest : JsString) : Json Num → Json Num
  | .object members => .object (members ++ [(digestName, .string evidenceDigest)])
  | v => v

/-- What `exportDigest` is the digest of. -/
def exportMaterial (sourceEvidenceDigest : JsString) (evidence : Json Num)
    (redactedPaths : List JsString) : Json Num :=
  .record [("schemaVersion", .text "1"), ("sourceEvidenceDigest", .string sourceEvidenceDigest),
    ("evidence", evidence), ("redactedPaths", .array (redactedPaths.map .string))]

namespace EvidenceExport

variable (e : EvidenceExport Num)

def material : Json Num :=
  exportMaterial e.sourceEvidenceDigest e.evidence e.redactedPaths

/-- The export as an object. -/
def json : Json Num :=
  .record [("schemaVersion", .text "1"), ("sourceEvidenceDigest", .string e.sourceEvidenceDigest),
    ("evidence", e.evidence), ("redactedPaths", .array (e.redactedPaths.map .string)),
    ("exportDigest", .string e.exportDigest)]

end EvidenceExport

/-- What `assertExportRedactionPath` accepts. -/
def allowed : List (Segment Num) → Bool
  | [.name root, .name second] =>
      root = ofString "reviewer" &&
          (second = ofString "reviewerId" || second = ofString "conflictDetails") ||
        root = ofString "claim" &&
          (second = ofString "statement" || second = ofString "scope") ||
        root = ofString "workSplit" && second = ofString "description"
  | [.name root, .index _] => root = ofString "supports" || root = ofString "doesNotProve"
  | _ => false

section Functions

variable (E : Environment Num) (numberText : Num → JsString) (acceptsJson : Json Num → Bool)

/-- `redactionPath`. -/
def redactionPath (rule : RedactionRule Num) : JsString :=
  List.intercalate [46] (rule.path.map (segmentText numberText))

/-- `rules.map(redactionPath).sort()`. -/
def redactedPaths (rules : List (RedactionRule Num)) : List JsString :=
  (rules.map (redactionPath numberText)).mergeSort keyLE

/-- `verifyEvidenceDigest`, of a record as an object. -/
def verifyRecordDigest (record : Json Num) : Except EvidenceError Bool := do
  let record ← Records.parse E.acceptsRecord record
  let digest ← digestCanonicalJson E (withoutDigest record)
  return text (prop record "evidenceDigest") = digest

/-- `JsonValueSchema.parse`. -/
def parseJsonValue (v : Json Num) : Except RedactionError (Json Num) :=
  if acceptsJson v then .ok v else .error (.schema [])

/-- `JSON.parse(canonicalJsonStringify(source))`. -/
def reread (source : Json Num) : Except EvidenceError (Json Num) :=
  match canonicalJsonStringify E.num source with
  | .error e => .error (.canonical e)
  | .ok s =>
    match parseJsonStrict E.num s with
    | .error _ => .error .schema
    | .ok v => .ok v

/-- What `createEvidenceExport` makes of the redacted object. -/
def completeExport (source : Json Num) (rules : List (RedactionRule Num))
    (redactedObject : Json Num) : Except EvidenceError (EvidenceExport Num) := do
  let evidenceDigest ← digestCanonicalJson E (withoutDigest redactedObject)
  let evidence ←
    Records.parse E.acceptsRecord (withDigest evidenceDigest (withoutDigest redactedObject))
  let sourceEvidenceDigest := text (prop source "evidenceDigest")
  let paths := redactedPaths numberText rules
  let exportDigest ←
    digestCanonicalJson E (exportMaterial sourceEvidenceDigest evidence paths)
  return ⟨sourceEvidenceDigest, evidence, paths, exportDigest⟩

/-- `createEvidenceExport`. -/
def createEvidenceExport (recordValue : Json Num) (rules : List (RedactionRule Num)) :
    Except ExportError (EvidenceExport Num) :=
  match Records.parse E.acceptsRecord recordValue with
  | .error e => .error (.evidence e)
  | .ok source =>
    match verifyRecordDigest E source with
    | .error e => .error (.evidence e)
    | .ok false => .error .KAF_EVIDENCE_DIGEST_INVALID
    | .ok true =>
      if rules.all (allowed ·.path) then
        match reread E source with
        | .error e => .error (.evidence e)
        | .ok value =>
          match parseJsonValue acceptsJson value with
          | .error e => .error (.redaction e)
          | .ok sourceJson =>
            match redactTypedFields numberText (parseJsonValue acceptsJson) sourceJson rules with
            | .error e => .error (.redaction e)
            | .ok (.object members) =>
              match completeExport E numberText source rules (.object members) with
              | .error e => .error (.evidence e)
              | .ok e => .ok e
            | .ok _ => .error .KAF_EVIDENCE_REDACTION_INVALID
      else .error .KAF_EVIDENCE_REDACTION_PATH_FORBIDDEN

/-- `verifyEvidenceExportDigest`. -/
def verifyEvidenceExportDigest (exportValue : EvidenceExport Num) : Except EvidenceError Bool := do
  let digest ← digestCanonicalJson E exportValue.material
  if exportValue.exportDigest = digest then
    let evidence ← Records.parse E.acceptsRecord exportValue.evidence
    verifyRecordDigest E evidence
  else return false

/-- `exportRedactedEvidenceJson`. -/
def exportRedactedEvidenceJson (record : Json Num) (rules : List (RedactionRule Num)) :
    Except ExportError JsString :=
  match createEvidenceExport E numberText acceptsJson record rules with
  | .error e => .error e
  | .ok exported =>
    match canonicalJsonStringify E.num exported.json with
    | .error e => .error (.evidence (.canonical e))
    | .ok s => .ok (s ++ [10])

end Functions

/-! ### The digest of a record -/

variable {E : Environment Num} {numberText : Num → JsString} {acceptsJson : Json Num → Bool}

theorem withoutDigest_withDigest (evidenceDigest : JsString) (v : Json Num) :
    withoutDigest (withDigest evidenceDigest (withoutDigest v)) = withoutDigest v := by
  cases v with
  | object members => simp [withoutDigest, withDigest]
  | _ => rfl

theorem prop_withDigest (evidenceDigest : JsString) (members : List (JsString × Json Num)) :
    text (prop (withDigest evidenceDigest (withoutDigest (.object members))) "evidenceDigest") =
      evidenceDigest := by
  have hnone : (members.filter fun m => m.1 != digestName).lookup digestName = none := by
    rw [List.lookup_eq_none_iff]
    intro m hm
    have hne := (List.mem_filter.mp hm).2
    simpa [bne, BEq.comm] using hne
  show text (((members.filter (fun m : JsString × Json Num => m.1 != digestName) ++
    [(digestName, Json.string evidenceDigest)]).lookup digestName).getD .null) = _
  rw [List.lookup_append, hnone]
  simp [text]

/-- Another member is that of the object. -/
theorem child_withDigest {name : JsString} (hname : name ≠ digestName)
    (evidenceDigest : JsString) (members : List (JsString × Json Num)) :
    (withDigest evidenceDigest (withoutDigest (.object members))).child (.member name) =
      (Json.object members).child (.member name) := by
  show (members.filter (fun m : JsString × Json Num => m.1 != digestName) ++
    [(digestName, Json.string evidenceDigest)]).lookup name = members.lookup name
  have hlast : [(digestName, (.string evidenceDigest : Json Num))].lookup name = none := by
    simpa using hname
  rw [List.lookup_append, hlast, Option.or_none]
  induction members with
  | nil => rfl
  | cons m members ih =>
      by_cases hm : m.1 = digestName
      · have hne : (name == m.1) = false := by
          rw [hm]
          simpa using hname
        rw [List.filter_cons_of_neg (by simp [hm]), ih, List.lookup_cons, hne]
      · rw [List.filter_cons_of_pos (by simpa using hm), List.lookup_cons, List.lookup_cons, ih]

/-- Verifying a record as an object is verifying the record. -/
theorem verifyRecordDigest_json (r : Records.EvidenceRecord Num) :
    verifyRecordDigest E r.json = verifyEvidenceDigest E r := by
  have hnot : ∀ m ∈ r.material.members, m.1 ≠ digestName := by
    intro m hm hname
    exact r.material.names m hm (by rw [hname]; simp [reserved, digestName])
  have hnames : ∀ name ∈ ["artifactRefs", "eventRefs", "approvalRefs", "verificationRefs",
      "verificationExceptionRefs"], ofString name ≠ digestName := by
    intro name hname h
    obtain rfl := JsString.ofString_injective h
    exact absurd hname (by decide)
  simp only [List.forall_mem_cons] at hnames
  obtain ⟨h₁, h₂, h₃, h₄, h₅, -⟩ := hnames
  have hdigestName : ofString "evidenceDigest" = digestName := rfl
  have hmaterial : withoutDigest r.json = r.materialJson := by
    have hkept : r.material.members.filter (fun m => m.1 != digestName) = r.material.members :=
      List.filter_eq_self.mpr fun m hm => by simpa using hnot m hm
    simp only [Records.EvidenceRecord.json, withoutDigest, Records.EvidenceRecord.materialJson,
      List.filter_append, hkept]
    simp [h₁, h₂, h₃, h₄, h₅, hdigestName]
  have hdigest : text (prop r.json "evidenceDigest") = r.evidenceDigest := by
    have hnone : r.material.members.lookup digestName = none := by
      rw [List.lookup_eq_none_iff]
      intro m hm
      simpa using Ne.symm (hnot m hm)
    show text ((List.lookup digestName _).getD .null) = _
    simp only [List.lookup_append, hnone, Option.none_or]
    have hne : ∀ {name : JsString}, name ≠ digestName → (digestName == name) = false :=
      fun h => by simpa using Ne.symm h
    simp [List.lookup_cons, hne h₁, hne h₂, hne h₃, hne h₄, hne h₅, hdigestName, text]
  unfold verifyRecordDigest verifyEvidenceDigest Records.parse
  cases haccepts : E.acceptsRecord r.json with
  | false => simp [haccepts]; rfl
  | true =>
      simp only [haccepts, if_true, ok_bind]
      rw [hmaterial, hdigest]

/-- A record that was built passes the check of its digest. -/
theorem verified_of_build {input : BuildEvidenceInput Num} {r : Records.EvidenceRecord Num}
    (h : buildEvidenceRecord E input = .ok r) : verifyRecordDigest E r.json = .ok true := by
  rw [verifyRecordDigest_json]
  exact verifies_of_build h

/-! ### Paths that may be redacted -/

/-- The members that may be redacted, in whole or in part. -/
def redactableRoots : List JsString :=
  [ofString "reviewer", ofString "claim", ofString "workSplit", ofString "supports",
    ofString "doesNotProve"]

/-- The members of these that may be redacted. -/
def redactableMembers : List JsString :=
  [ofString "reviewerId", ofString "conflictDetails", ofString "statement", ofString "scope",
    ofString "description"]

theorem redactableRoots_names :
    ∀ root ∈ redactableRoots, root ≠ digestName ∧ root ∉ objectPrototype := by
  decide

theorem redactableMembers_names : ∀ name ∈ redactableMembers, name ∉ objectPrototype := by
  decide

/-- Two segments that may be redacted: the first is not the digest, and no object inherits
them. -/
theorem allowed_cons (hnumber : ∀ x, numberText x ∉ objectPrototype)
    {path : List (Segment Num)} (h : allowed path = true) :
    ∃ root second, path = [.name root, second] ∧ root ≠ digestName ∧ root ∉ objectPrototype ∧
      segmentText numberText second ∉ objectPrototype := by
  unfold allowed at h
  split at h
  · rename_i root second
    simp only [Bool.or_eq_true, Bool.and_eq_true, decide_eq_true_eq] at h
    have hroot : root ∈ redactableRoots := by
      obtain (⟨rfl, -⟩ | ⟨rfl, -⟩) | ⟨rfl, -⟩ := h <;> simp [redactableRoots]
    have hsecond : second ∈ redactableMembers := by
      obtain (⟨-, rfl | rfl⟩ | ⟨-, rfl | rfl⟩) | ⟨-, rfl⟩ := h <;> simp [redactableMembers]
    obtain ⟨hdigest, hinherited⟩ := redactableRoots_names root hroot
    exact ⟨root, .name second, rfl, hdigest, hinherited, redactableMembers_names second hsecond⟩
  · rename_i root x
    simp only [Bool.or_eq_true, decide_eq_true_eq] at h
    have hroot : root ∈ redactableRoots := by
      obtain rfl | rfl := h <;> simp [redactableRoots]
    obtain ⟨hdigest, hinherited⟩ := redactableRoots_names root hroot
    exact ⟨root, .index x, rfl, hdigest, hinherited, hnumber x⟩
  · cases h

theorem position_of_allowed (hnumber : ∀ x, numberText x ∉ objectPrototype)
    {path : List (Segment Num)} {v : Json Num} {p : List Key} (hpath : allowed path = true)
    (h : resolve numberText path v = some p) :
    ∃ root k, root ≠ digestName ∧ p = [.member root, k] := by
  obtain ⟨root, second, rfl, hdigest, -⟩ := allowed_cons hnumber hpath
  obtain ⟨k, c, p', hlook, hp', rfl⟩ := resolve_cons h
  obtain ⟨k', c', p'', -, hp'', rfl⟩ := resolve_cons hp'
  cases hp''
  obtain rfl := key_of_look hlook
  exact ⟨root, k', hdigest, rfl⟩

/-- A rule that succeeds on a path that may be redacted replaces what the path leads to. -/
theorem redactAt_allowed (hnumber : ∀ x, numberText x ∉ objectPrototype) {x : JsString}
    {path : List (Segment Num)} {v w : Json Num} (hpath : allowed path = true)
    (h : redactAt numberText x path v = .ok w) :
    ∃ root k, root ≠ digestName ∧ resolve numberText path v = some [.member root, k] ∧
      w = Json.put (.string x) [.member root, k] v := by
  have haccepts := (redactAt_ok_iff x _ v).mp ⟨w, h⟩
  have hends : ¬ EndsInherited numberText path v := by
    obtain ⟨root, second, rfl, -, hroot, hsecond⟩ := allowed_cons hnumber hpath
    refine not_endsInherited_of_names fun s hs => ?_
    simp only [List.mem_cons, List.not_mem_nil, or_false] at hs
    obtain rfl | rfl := hs
    · exact hroot
    · exact hsecond
  obtain ⟨p, hp⟩ := Option.isSome_iff_exists.mp (haccepts.2.resolve_right hends)
  obtain ⟨root, k, hroot, rfl⟩ := position_of_allowed hnumber hpath hp
  refine ⟨root, k, hroot, hp, ?_⟩
  rw [redactAt_of_resolve x haccepts.1 hp] at h
  exact (Except.ok.inj h).symm

/-! ### The loop over the rules -/

variable {rules : List (RedactionRule Num)}

/-- No rule leads to a position at or above this one. -/
def Untouched (numberText : Num → JsString) (rules : List (RedactionRule Num)) (v : Json Num)
    (q : List Key) : Prop :=
  ∀ rule ∈ rules, ∀ p, resolve numberText rule.path v = some p → ¬ p <+: q

theorem length_of_allowed {path : List (Segment Num)} (h : allowed path = true) :
    path.length = 2 := by
  unfold allowed at h
  split at h
  · rfl
  · rfl
  · cases h

theorem length_of_position {v : Json Num} {p : List Key} {rule : RedactionRule Num}
    (hpath : allowed rule.path = true) (h : resolve numberText rule.path v = some p) :
    p.length = 2 :=
  (length_of_resolve h).trans (length_of_allowed hpath)

/-- What has one name or none is above every position that may be redacted. -/
theorem untouched_of_length (hallowed : ∀ rule ∈ rules, allowed rule.path = true) {v : Json Num}
    {q : List Key} (hq : q.length < 2) : Untouched numberText rules v q := by
  intro rule hrule p hp hpq
  have hlength := length_of_position (hallowed rule hrule) hp
  exact absurd hpq.length_le (by omega)

/-- A replacement at such a position leaves the other paths where they lead. -/
theorem resolve_put_iff {path : List (Segment Num)} {v : Json Num} {p q : List Key}
    (x : Json Num) (hlength : p.length ≤ q.length) :
    resolve numberText path (Json.put x q v) = some p ↔ resolve numberText path v = some p := by
  have hlabels : ∀ r, r <+: p → r ≠ p → (Json.put x q v).label r = v.label r := by
    intro r hr hne
    refine Json.label_put x fun hqr => hne (hr.eq_of_length ?_)
    have hle := hqr.length_le
    have hle' := hr.length_le
    omega
  constructor
  · exact resolve_congr hlabels
  · exact resolve_congr fun r hr hne => (hlabels r hr hne).symm

/-- After a rule, the rules that are left lead where they led. -/
theorem untouched_put (hallowed : ∀ rule ∈ rules, allowed rule.path = true) (v x : Json Num)
    {p q : List Key} (hp : p.length = 2) :
    Untouched numberText rules (Json.put x p v) q ↔ Untouched numberText rules v q := by
  refine forall₂_congr fun rule hrule => forall_congr' fun p' => ?_
  constructor
  · intro h hp'
    have hlength := length_of_position (hallowed rule hrule) hp'
    exact h ((resolve_put_iff x (by omega)).mpr hp')
  · intro h hp'
    have hlength := length_of_position (hallowed rule hrule) hp'
    exact h ((resolve_put_iff x (by omega)).mp hp')

/-- What no rule leads to is kept. -/
theorem applyRules_kept (hnumber : ∀ x, numberText x ∉ objectPrototype)
    (hallowed : ∀ rule ∈ rules, allowed rule.path = true) {v w : Json Num}
    (h : applyRules numberText rules v = .ok w) :
    (v.Distinct → w.Distinct) ∧
      ∀ q, Untouched numberText rules v q → w.label q = v.label q := by
  induction rules generalizing v with
  | nil =>
      cases h
      exact ⟨id, fun q _ => rfl⟩
  | cons rule rules ih =>
      obtain ⟨u, hu, h⟩ := bind_eq_ok.mp h
      obtain ⟨root, k, -, hp, rfl⟩ := redactAt_allowed hnumber (hallowed rule List.mem_cons_self) hu
      have hrest := fun r hr => hallowed r (List.mem_cons_of_mem rule hr)
      obtain ⟨hdistinct, hkept⟩ := ih hrest h
      refine ⟨fun hv => hdistinct (Json.distinct_put hv trivial), fun q hq => ?_⟩
      have hq' : Untouched numberText rules v q := fun r hr =>
        hq r (List.mem_cons_of_mem rule hr)
      rw [hkept q ((untouched_put hrest _ _ rfl).mpr hq')]
      exact Json.label_put _ (hq rule List.mem_cons_self _ hp)

/-- The last of the rules that lead to a position decides what is there. -/
theorem applyRules_last (hnumber : ∀ x, numberText x ∉ objectPrototype)
    {before after : List (RedactionRule Num)} {rule : RedactionRule Num}
    (hallowed : ∀ r ∈ before ++ rule :: after, allowed r.path = true) {v w : Json Num}
    (h : applyRules numberText (before ++ rule :: after) v = .ok w) :
    ∃ p, resolve numberText rule.path v = some p ∧
      ((∀ r ∈ after, resolve numberText r.path v ≠ some p) →
        w.get p = some (.string rule.text)) := by
  induction before generalizing v with
  | nil =>
      obtain ⟨u, hu, h⟩ := bind_eq_ok.mp h
      have hrule := hallowed rule List.mem_cons_self
      obtain ⟨root, k, -, hp, rfl⟩ := redactAt_allowed hnumber hrule hu
      have hrest : ∀ r ∈ after, allowed r.path = true := fun r hr =>
        hallowed r (List.mem_cons_of_mem rule hr)
      refine ⟨_, hp, fun hlast => ?_⟩
      have huntouched : Untouched numberText after v [.member root, k] := by
        intro r hr p hp' hle
        have hlength := length_of_position (hrest r hr) hp'
        obtain rfl := hle.eq_of_length hlength
        exact hlast r hr hp'
      have hlabel := (applyRules_kept hnumber hrest h).2 _
        ((untouched_put hrest _ _ rfl).mpr huntouched)
      have hget := Json.get_put_self (.string rule.text) (get_of_resolve hp)
      refine Json.get_of_label_string ?_
      rw [hlabel, Json.label, hget]
      rfl
  | cons a before ih =>
      obtain ⟨u, hu, h⟩ := bind_eq_ok.mp h
      obtain ⟨root, k, -, -, rfl⟩ := redactAt_allowed hnumber (hallowed a List.mem_cons_self) hu
      have hrest : ∀ r ∈ before ++ rule :: after, allowed r.path = true := fun r hr =>
        hallowed r (List.mem_cons_of_mem a hr)
      have hlength : ∀ {u : Json Num} {r p}, r ∈ before ++ rule :: after →
          resolve numberText r.path u = some p → p.length ≤ 2 := fun hr hp =>
        (length_of_position (hrest _ hr) hp).le
      obtain ⟨p, hp, hlast⟩ := ih hrest h
      have hmem : rule ∈ before ++ rule :: after := by simp
      refine ⟨p, (resolve_put_iff _ (hlength hmem hp)).mp hp, fun hafter => hlast ?_⟩
      intro r hr hrp
      have hmem : r ∈ before ++ rule :: after := by simp [hr]
      exact hafter r hr ((resolve_put_iff _ (hlength hmem hrp)).mp hrp)

/-- Values that are the same wherever no rule leads, but for their digests, are so afterwards,
and then also where a rule leads. -/
theorem applyRules_hides (hnumber : ∀ x, numberText x ∉ objectPrototype)
    (hallowed : ∀ rule ∈ rules, allowed rule.path = true) {v v' w w' : Json Num}
    (hsame : ∀ q, ¬ [.member digestName] <+: q → Untouched numberText rules v q →
      v.label q = v'.label q)
    (h : applyRules numberText rules v = .ok w) (h' : applyRules numberText rules v' = .ok w')
    {q : List Key} (hq : ¬ [.member digestName] <+: q) : w.label q = w'.label q := by
  induction rules generalizing v v' with
  | nil =>
      cases h
      cases h'
      exact hsame q hq fun rule hrule => absurd hrule List.not_mem_nil
  | cons rule rules ih =>
      obtain ⟨u, hu, h⟩ := bind_eq_ok.mp h
      obtain ⟨u', hu', h'⟩ := bind_eq_ok.mp h'
      have hrule := hallowed rule List.mem_cons_self
      have hrest : ∀ r ∈ rules, allowed r.path = true := fun r hr =>
        hallowed r (List.mem_cons_of_mem rule hr)
      obtain ⟨root, k, hroot, hp, rfl⟩ := redactAt_allowed hnumber hrule hu
      -- the rule leads to the same position in both
      have hp' : resolve numberText rule.path v' = some [.member root, k] := by
        refine resolve_congr (fun r hr hne => ?_) hp
        have hlength : r.length < 2 :=
          lt_of_le_of_ne hr.length_le fun heq => hne (hr.eq_of_length heq)
        refine hsame r (fun hdigest => ?_) (untouched_of_length hallowed hlength)
        have hfirst := hdigest.trans hr
        simp only [List.cons_prefix_cons, Key.member.injEq] at hfirst
        exact hroot hfirst.1.symm
      obtain rfl : u' = Json.put (.string rule.text) [.member root, k] v' := by
        have hnil : rule.path ≠ [] := by
          intro hnil
          rw [hnil] at hrule
          cases hrule
        exact (Except.ok.inj ((redactAt_of_resolve rule.text hnil hp').symm.trans hu')).symm
      refine ih hrest (fun r hr huntouched => ?_) h h'
      by_cases hbelow : [.member root, k] <+: r
      · obtain ⟨t, rfl⟩ := hbelow
        rw [Json.label, Json.label, Json.get_append, Json.get_append,
          Json.get_put_self _ (get_of_resolve hp), Json.get_put_self _ (get_of_resolve hp')]
      · rw [Json.label_put _ hbelow, Json.label_put _ hbelow]
        refine hsame r hr fun a ha => ?_
        rcases List.mem_cons.mp ha with rfl | ha
        · intro p hpa
          rw [hp] at hpa
          cases hpa
          exact hbelow
        · exact (untouched_put hrest _ _ rfl).mp huntouched a ha

/-! ### What an export is -/

section Exports

variable {record : Json Num} {rules : List (RedactionRule Num)} {e : EvidenceExport Num}

theorem parseJsonValue_ok {v w : Json Num} (h : parseJsonValue acceptsJson v = .ok w) : w = v := by
  unfold parseJsonValue at h
  split at h
  · cases h
    rfl
  · cases h

/-- What an export came of. -/
theorem createEvidenceExport_ok
    (h : createEvidenceExport E numberText acceptsJson record rules = .ok e) :
    verifyRecordDigest E record = .ok true ∧ (∀ rule ∈ rules, allowed rule.path = true) ∧
      ∃ sourceJson members, reread E record = .ok sourceJson ∧
        applyRules numberText rules sourceJson = .ok (.object members) ∧
        completeExport E numberText record rules (.object members) = .ok e := by
  unfold createEvidenceExport at h
  cases hparse : Records.parse E.acceptsRecord record with
  | error e =>
      rw [hparse] at h
      cases h
  | ok source =>
      obtain ⟨-, rfl⟩ := parse_ok.mp hparse
      rw [hparse] at h
      dsimp only at h
      split at h
      · cases h
      · cases h
      · rename_i hverified
        split at h
        · rename_i hallowed
          split at h
          · cases h
          · rename_i value hreread
            split at h
            · cases h
            · rename_i sourceJson hvalue
              obtain rfl := parseJsonValue_ok hvalue
              split at h
              · cases h
              · rename_i members hredacted
                obtain ⟨parsed, hparsed, hrules⟩ := bind_eq_ok.mp hredacted
                obtain rfl := parseJsonValue_ok hparsed
                rw [clone_eq] at hrules
                split at h
                · cases h
                · rename_i hcomplete
                  cases h
                  exact ⟨hverified, List.all_eq_true.mp hallowed, _, members, hreread, hrules,
                    hcomplete⟩
              · cases h
        · cases h

/-- What is reread is the normal form of a record. -/
theorem reread_ok {v : Json Num} (hdistinct : record.Distinct) (h : reread E record = .ok v) :
    v = Json.canon E.num record := by
  unfold reread canonicalJsonStringify at h
  cases hs : canonicalize E.num (lit "$") record with
  | error e =>
      rw [hs] at h
      cases h
  | ok s =>
      obtain ⟨rfl, hprintable⟩ := Json.canonicalize_eq_render _ _ _ hdistinct hs
      rw [hs] at h
      dsimp only at h
      rw [Json.parseJsonStrict_render hprintable] at h
      cases h
      rfl

theorem completeExport_ok {v : Json Num}
    (h : completeExport E numberText record rules v = .ok e) :
    ∃ evidenceDigest, digestCanonicalJson E (withoutDigest v) = .ok evidenceDigest ∧
      E.acceptsRecord e.evidence = true ∧ e.evidence = withDigest evidenceDigest (withoutDigest v) ∧
      e.sourceEvidenceDigest = text (prop record "evidenceDigest") ∧
      e.redactedPaths = redactedPaths numberText rules ∧
      digestCanonicalJson E e.material = .ok e.exportDigest := by
  obtain ⟨evidenceDigest, hdigest, h⟩ := bind_eq_ok.mp h
  obtain ⟨evidence, hparse, h⟩ := bind_eq_ok.mp h
  obtain ⟨exportDigest, hexport, h⟩ := bind_eq_ok.mp h
  obtain ⟨haccepts, rfl⟩ := parse_ok.mp hparse
  cases h
  exact ⟨evidenceDigest, hdigest, haccepts, rfl, rfl, rfl, hexport⟩

/-- An export that was completed verifies. -/
theorem verifies_of_complete {members : List (JsString × Json Num)}
    (h : completeExport E numberText record rules (.object members) = .ok e) :
    verifyEvidenceExportDigest E e = .ok true := by
  obtain ⟨evidenceDigest, hdigest, haccepts, hevidence, -, -, hexport⟩ := completeExport_ok h
  have hrecord : verifyRecordDigest E e.evidence = .ok true := by
    refine bind_eq_ok.mpr ⟨e.evidence, parse_ok.mpr ⟨haccepts, rfl⟩, ?_⟩
    refine bind_eq_ok.mpr ⟨evidenceDigest, ?_, ?_⟩
    · rw [hevidence, withoutDigest_withDigest, hdigest]
    · rw [hevidence, prop_withDigest]
      simp
      rfl
  refine bind_eq_ok.mpr ⟨e.exportDigest, hexport, ?_⟩
  rw [if_pos rfl]
  exact bind_eq_ok.mpr ⟨e.evidence, parse_ok.mpr ⟨haccepts, rfl⟩, hrecord⟩

/-- What is not below the digest is that of the object. -/
theorem get_withDigest (evidenceDigest : JsString) (members : List (JsString × Json Num))
    {k : Key} (hk : k ≠ .member digestName) (q : List Key) :
    (withDigest evidenceDigest (withoutDigest (.object members))).get (k :: q) =
      (Json.object members).get (k :: q) := by
  rw [Json.get, Json.get]
  cases k with
  | item i => rfl
  | member name =>
      rw [child_withDigest (fun hname => hk (congrArg Key.member hname)) evidenceDigest members]

/-- A record with another digest has distinct names. -/
theorem distinct_withDigest (evidenceDigest : JsString) {members : List (JsString × Json Num)}
    (h : (Json.object members).Distinct) :
    (withDigest evidenceDigest (withoutDigest (.object members))).Distinct := by
  simp only [Json.Distinct, Json.distinctMembers_iff, withoutDigest, withDigest] at h ⊢
  constructor
  · rw [List.map_append]
    refine List.nodup_append.mpr ⟨(List.filter_sublist.map Prod.fst).nodup h.1, by simp, ?_⟩
    intro name hname other hother
    obtain ⟨m, hm, rfl⟩ := List.mem_map.mp hname
    obtain rfl : other = digestName := by simpa using hother
    simpa using (List.mem_filter.mp hm).2
  · intro m hm
    rcases List.mem_append.mp hm with hm | hm
    · exact h.2 m (List.mem_filter.mp hm).1
    · rw [List.mem_singleton.mp hm]
      trivial

theorem distinct_json (he : e.evidence.Distinct) : e.json.Distinct := by
  refine Json.distinct_record (by simp) fun field hfield => ?_
  simp only [List.mem_cons, List.not_mem_nil, or_false] at hfield
  rcases hfield with rfl | rfl | rfl | rfl | rfl
  · exact Json.distinct_text "1"
  · trivial
  · exact he
  · simp only [Json.Distinct, Json.distinctItems_iff]
    intro v hv
    obtain ⟨path, -, rfl⟩ := List.mem_map.mp hv
    trivial
  · trivial

/-- An export of a record by rules: it verifies; the last rule that leads to a position decides
what is there; what no rule leads to is that of the normal form of the record, but for the
digest; and its JSON text is read back as the export. -/
structure Redacted (E : Environment Num) (numberText : Num → JsString)
    (acceptsJson : Json Num → Bool) (record : Json Num) (rules : List (RedactionRule Num))
    (e : EvidenceExport Num) : Prop where
  verified : verifyRecordDigest E record = .ok true
  source : e.sourceEvidenceDigest = text (prop record "evidenceDigest")
  paths : e.redactedPaths = redactedPaths numberText rules
  verifies : verifyEvidenceExportDigest E e = .ok true
  redacted : ∀ before rule after, rules = before ++ rule :: after →
    ∃ p, resolve numberText rule.path (Json.canon E.num record) = some p ∧
      ((∀ r ∈ after, resolve numberText r.path (Json.canon E.num record) ≠ some p) →
        e.evidence.get p = some (.string rule.text))
  kept : ∀ k q, k ≠ .member digestName →
    Untouched numberText rules (Json.canon E.num record) (k :: q) →
    e.evidence.label (k :: q) = (Json.canon E.num record).label (k :: q)
  exported : ∀ source, exportRedactedEvidenceJson E numberText acceptsJson record rules =
    .ok source → ∃ v, parseJsonStrict E.num source = .ok v ∧ Json.Same E.num v e.json

/-- The text of an export is read back as the export. -/
theorem exportRedactedEvidenceJson_reads (he : e.evidence.Distinct)
    (h : createEvidenceExport E numberText acceptsJson record rules = .ok e) {source : JsString}
    (hsource : exportRedactedEvidenceJson E numberText acceptsJson record rules = .ok source) :
    ∃ v, parseJsonStrict E.num source = .ok v ∧ Json.Same E.num v e.json := by
  have hdistinct := distinct_json he
  unfold exportRedactedEvidenceJson canonicalJsonStringify at hsource
  rw [h] at hsource
  cases hs : canonicalize E.num (lit "$") e.json with
  | error e =>
      dsimp only at hsource
      rw [hs] at hsource
      cases hsource
  | ok s =>
      dsimp only at hsource
      rw [hs] at hsource
      cases hsource
      obtain ⟨rfl, hprintable⟩ := Json.canonicalize_eq_render _ _ _ hdistinct hs
      refine ⟨Json.canon E.num e.json, ?_, ?_⟩
      · refine parseJsonStrict_append (fun unit hunit => ?_)
          (Json.parseJsonStrict_render hprintable)
        simp [List.mem_singleton.mp hunit]
      · rw [Json.same_iff_canon_eq _ _ (Json.distinct_canon _ hdistinct) hdistinct]
        exact Json.canon_canon _

end Exports

/-! #### A record with one statement -/

section Sample

open Records.Sample (format)

def claim (statement : String) : Json (Fin 10) :=
  .record [("statement", .text statement)]

def claimRecord (statement : String) : Json (Fin 10) :=
  .record [("claim", claim statement), ("evidenceDigest", .text "d")]

theorem claim_eq (s : String) :
    claim s = .object [(ofString "statement", .string (ofString s))] :=
  rfl

theorem claimRecord_eq (s : String) :
    claimRecord s =
      .object [(ofString "claim", claim s), (digestName, .string (ofString "d"))] :=
  rfl

theorem claim_ne_digest : ofString "claim" ≠ digestName :=
  JsString.ofString_injective.ne (by decide)

def statementRule : RedactionRule (Fin 10) :=
  ⟨[.name (ofString "claim"), .name (ofString "statement")], some (ofString "hidden")⟩

def digitText (x : Fin 10) : JsString :=
  lit (toString x.val)

/-- The hash has one value. -/
def constantHash : Environment (Fin 10) :=
  Records.Sample.environment fun _ => "d"

def claimExport : EvidenceExport (Fin 10) :=
  ⟨ofString "d", claimRecord "hidden", redactedPaths digitText [statementRule], ofString "d"⟩

theorem digest_constantHash {v : Json (Fin 10)} (h : v.Stringifies format) :
    digestCanonicalJson constantHash v = .ok (ofString "d") := by
  have hdigest : constantHash.toHashing.digestCanonicalJson v = .ok "d" := by
    obtain ⟨s, hs⟩ := h (lit "$")
    have hstringify : canonicalJsonStringify constantHash.num v = .ok s := hs
    rw [Hashing.digestCanonicalJson, hstringify]
    rfl
  simp only [digestCanonicalJson, hdigest]

theorem distinct_claimRecord (s : String) : (claimRecord s).Distinct := by
  refine Json.distinct_record (by simp) fun field hfield => ?_
  simp only [List.mem_cons, List.not_mem_nil, or_false] at hfield
  rcases hfield with rfl | rfl
  · exact Json.distinct_record (by simp) (by simp)
  · exact Json.distinct_text "d"

theorem stringifies_claim (s : String) : (claim s).Stringifies format :=
  Json.stringifies_record (by simp)

theorem stringifies_claimRecord (s : String) : (claimRecord s).Stringifies format :=
  Json.stringifies_record (by simp [stringifies_claim])

theorem canon_claimRecord (s : String) : Json.canon format (claimRecord s) = claimRecord s := by
  have hle : keyLE (ofString "claim") digestName = true := by decide
  have hsorted := (mergeSort_pair hle claim_ne_digest (claim s) (.string (ofString "d"))).1
  rw [claimRecord_eq]
  rw [claim_eq] at hsorted ⊢
  simp only [Json.canon, Json.canonMembers, List.mergeSort_singleton]
  rw [hsorted]

theorem reread_claimRecord (s : String) :
    reread constantHash (claimRecord s) = .ok (claimRecord s) := by
  obtain ⟨t, ht⟩ := stringifies_claimRecord s (lit "$")
  obtain ⟨hrender, hprintable⟩ := Json.canonicalize_eq_render _ _ _ (distinct_claimRecord s) ht
  have hstringify : canonicalJsonStringify constantHash.num (claimRecord s) = .ok t := ht
  have hread : parseJsonStrict constantHash.num t = .ok (claimRecord s) := by
    rw [hrender]
    have hread := Json.parseJsonStrict_render hprintable
    rw [canon_claimRecord] at hread ⊢
    exact hread
  simp only [reread, hstringify, hread]

theorem look_claimRecord (s : String) :
    look digitText (claimRecord s) (.name (ofString "claim")) =
      .own (.member (ofString "claim")) (claim s) := by
  simp [look_object, segmentText, claimRecord_eq]

theorem look_claim (s : String) :
    look digitText (claim s) (.name (ofString "statement")) =
      .own (.member (ofString "statement")) (.string (ofString s)) := by
  simp [look_object, segmentText, claim_eq]

theorem resolves_claimRecord (s : String) :
    resolve digitText statementRule.path (claimRecord s) =
      some [.member (ofString "claim"), .member (ofString "statement")] := by
  rw [statementRule, resolve, look_claimRecord]
  dsimp only
  rw [resolve, look_claim]
  rfl

/-- Another statement is a replacement. -/
theorem put_claimRecord (s t : String) :
    Json.put (.string (ofString t)) [.member (ofString "claim"), .member (ofString "statement")]
      (claimRecord s) = claimRecord t := by
  rw [Json.put_cons _ _ (child_of_look (look_claimRecord s)),
    Json.put_cons _ _ (child_of_look (look_claim s)), claimRecord_eq, claimRecord_eq, claim_eq,
    claim_eq]
  simp [Json.put, Json.set, claim_ne_digest.symm]

theorem redacts_claimRecord (s : String) :
    applyRules digitText [statementRule] (claimRecord s) = .ok (claimRecord "hidden") := by
  rw [← put_claimRecord s "hidden"]
  show redactAt digitText statementRule.text statementRule.path (claimRecord s) >>= pure = _
  have hredact : redactAt digitText statementRule.text statementRule.path (claimRecord s) = _ :=
    redactAt_of_resolve _ (List.cons_ne_nil _ _) (resolves_claimRecord s)
  rw [hredact]
  rfl

theorem withoutDigest_claimRecord (s : String) :
    withoutDigest (claimRecord s) = .record [("claim", claim s)] := by
  rw [claimRecord_eq]
  simp [withoutDigest, claim_ne_digest, Json.record]

theorem digest_claimRecord (s : String) :
    digestCanonicalJson constantHash (withoutDigest (claimRecord s)) = .ok (ofString "d") := by
  rw [withoutDigest_claimRecord]
  exact digest_constantHash (Json.stringifies_record (by simp [stringifies_claim]))

theorem text_claimRecord (s : String) :
    text (prop (claimRecord s) "evidenceDigest") = ofString "d" := by
  have hlookup : (claimRecord s).child (.member digestName) = some (.string (ofString "d")) := by
    rw [claimRecord_eq, Json.child, List.lookup_cons, beq_false_of_ne claim_ne_digest.symm]
    exact List.lookup_cons_self
  show text (((claimRecord s).child (.member digestName)).getD .null) = _
  rw [hlookup]
  rfl

theorem verifies_claimRecord (s : String) :
    verifyRecordDigest constantHash (claimRecord s) = .ok true := by
  refine bind_eq_ok.mpr ⟨claimRecord s, parse_ok.mpr ⟨rfl, rfl⟩,
    bind_eq_ok.mpr ⟨ofString "d", digest_claimRecord s, ?_⟩⟩
  rw [text_claimRecord]
  simp
  rfl

theorem completes_claimRecord (s : String) :
    completeExport constantHash digitText (claimRecord s) [statementRule] (claimRecord "hidden") =
      .ok claimExport := by
  have hevidence : withDigest (ofString "d") (withoutDigest (claimRecord "hidden")) =
      claimRecord "hidden" := by
    rw [withoutDigest_claimRecord]
    rfl
  have hpath : redactedPaths digitText [statementRule] = [ofString "claim.statement"] := by
    have hjoined : redactionPath digitText statementRule = ofString "claim.statement" := rfl
    rw [redactedPaths, List.map_singleton, List.mergeSort_singleton, hjoined]
  have hmaterial : digestCanonicalJson constantHash (exportMaterial (ofString "d")
      (claimRecord "hidden") (redactedPaths digitText [statementRule])) = .ok (ofString "d") := by
    refine digest_constantHash (Json.stringifies_record fun field hfield => ?_)
    rw [hpath] at hfield
    simp only [List.mem_cons, List.not_mem_nil, or_false] at hfield
    rcases hfield with rfl | rfl | rfl | rfl
    · exact Json.stringifies_text "1"
    · exact Json.stringifies_text "d"
    · exact stringifies_claimRecord "hidden"
    · refine Json.stringifies_array fun v hv => ?_
      rw [List.mem_singleton.mp hv]
      exact Json.stringifies_text "claim.statement"
  simp only [completeExport, digest_claimRecord, ok_bind, hevidence, text_claimRecord, hmaterial,
    parse_ok.mpr ⟨show constantHash.acceptsRecord (claimRecord "hidden") = true from rfl, rfl⟩]
  rfl

theorem exports_claimRecord (s : String) :
    createEvidenceExport constantHash digitText (fun _ => true) (claimRecord s) [statementRule] =
      .ok claimExport := by
  have hparse : Records.parse constantHash.acceptsRecord (claimRecord s) = .ok (claimRecord s) :=
    parse_ok.mpr ⟨rfl, rfl⟩
  have hallowed : [statementRule].all (allowed ·.path) = true := by simp [allowed, statementRule]
  have hvalue : parseJsonValue (fun _ => true) (claimRecord s) = .ok (claimRecord s) := rfl
  have hredacted : redactTypedFields digitText (parseJsonValue fun _ => true) (claimRecord s)
      [statementRule] = .ok (claimRecord "hidden") := by
    show applyRules digitText [statementRule] (clone (claimRecord s)) = _
    rw [clone_eq, redacts_claimRecord]
  have hcomplete := completes_claimRecord s
  obtain ⟨members, hmembers⟩ : ∃ members, claimRecord "hidden" = .object members := ⟨_, rfl⟩
  rw [hmembers] at hredacted hcomplete
  simp only [createEvidenceExport, hparse, verifies_claimRecord, hallowed, if_true,
    reread_claimRecord, hvalue, hredacted, hcomplete]

theorem digitText_not_inherited : ∀ x, digitText x ∉ objectPrototype := by
  decide

/-- Records that differ in their statements are the same where the rule does not lead. -/
theorem claimRecord_same (s t : String) {q : List Key}
    (hq : Untouched digitText [statementRule] (claimRecord s) q) :
    (claimRecord s).label q = (claimRecord t).label q := by
  rw [← put_claimRecord s t]
  exact (Json.label_put _ (hq statementRule List.mem_cons_self _ (resolves_claimRecord s))).symm

end Sample

/-! ### Exports -/

/-- **An export** verifies, holds replacements where its rules lead, and is the record
elsewhere. -/
theorem createEvidenceExport_redacted (E : Environment Num) (numberText : Num → JsString)
    (acceptsJson : Json Num → Bool) (record : JsonDocument Num)
    (rules : List (RedactionRule Num)) (e : EvidenceExport Num)
    (hnumber : ∀ x, numberText x ∉ objectPrototype)
    (h : createEvidenceExport E numberText acceptsJson record.1 rules = .ok e) :
    Redacted E numberText acceptsJson record.1 rules e := by
  obtain ⟨hverified, hallowed, sourceJson, members, hreread, hrules, hcomplete⟩ :=
    createEvidenceExport_ok h
  obtain rfl := reread_ok record.2 hreread
  obtain ⟨evidenceDigest, -, -, hevidence, hsource, hpaths, -⟩ := completeExport_ok hcomplete
  obtain ⟨hdistinct, hkept⟩ := applyRules_kept hnumber hallowed hrules
  have he : e.evidence.Distinct := by
    rw [hevidence]
    exact distinct_withDigest _ (hdistinct (Json.distinct_canon _ record.2))
  refine ⟨hverified, hsource, hpaths, verifies_of_complete hcomplete, ?_, ?_, ?_⟩
  · rintro before rule after rfl
    obtain ⟨p, hp, hlast⟩ := applyRules_last hnumber hallowed hrules
    refine ⟨p, hp, fun hafter => ?_⟩
    obtain ⟨root, k, hroot, rfl⟩ := position_of_allowed hnumber (hallowed rule (by simp)) hp
    rw [hevidence, get_withDigest _ _ (by simpa using hroot)]
    exact hlast hafter
  · intro k q hk huntouched
    rw [hevidence, Json.label, get_withDigest _ _ hk]
    exact hkept (k :: q) huntouched
  · exact fun source hsource => exportRedactedEvidenceJson_reads he h hsource

theorem createEvidenceExport_redacted_claim :
    Redacted constantHash digitText (fun _ => true) (claimRecord "secret") [statementRule]
      claimExport :=
  createEvidenceExport_redacted constantHash digitText _ ⟨_, distinct_claimRecord "secret"⟩ _ _
    digitText_not_inherited (exports_claimRecord "secret")

/-- **An export hides what is redacted**: of records whose normal forms are the same wherever no
rule leads, but for their digests, the evidence that is exported is the same. -/
theorem createEvidenceExport_hides (E : Environment Num) (numberText : Num → JsString)
    (acceptsJson : Json Num → Bool) (record record' : JsonDocument Num)
    (rules : List (RedactionRule Num)) (e e' : EvidenceExport Num)
    (hnumber : ∀ x, numberText x ∉ objectPrototype)
    (hsame : ∀ q, ¬ [.member digestName] <+: q →
      Untouched numberText rules (Json.canon E.num record.1) q →
      (Json.canon E.num record.1).label q = (Json.canon E.num record'.1).label q)
    (h : createEvidenceExport E numberText acceptsJson record.1 rules = .ok e)
    (h' : createEvidenceExport E numberText acceptsJson record'.1 rules = .ok e') :
    e.evidence = e'.evidence ∧ e.redactedPaths = e'.redactedPaths := by
  obtain ⟨-, hallowed, sourceJson, members, hreread, hrules, hcomplete⟩ :=
    createEvidenceExport_ok h
  obtain ⟨-, -, sourceJson', members', hreread', hrules', hcomplete'⟩ :=
    createEvidenceExport_ok h'
  obtain rfl := reread_ok record.2 hreread
  obtain rfl := reread_ok record'.2 hreread'
  obtain ⟨digest, hdigest, -, hevidence, -, hpaths, -⟩ := completeExport_ok hcomplete
  obtain ⟨digest', hdigest', -, hevidence', -, hpaths', -⟩ := completeExport_ok hcomplete'
  have hlabels : ∀ q, ¬ [.member digestName] <+: q →
      (Json.object members).label q = (Json.object members').label q := fun q hq =>
    applyRules_hides hnumber hallowed hsame hrules hrules' hq
  have hmaterial : withoutDigest (.object members) = withoutDigest (.object members') := by
    refine congrArg Json.object (Json.filter_of_label (· != digestName) ?_ ?_ ?_ ?_ ?_)
    · exact (applyRules_kept hnumber hallowed hrules).1 (Json.distinct_canon _ record.2)
    · exact (applyRules_kept hnumber hallowed hrules').1 (Json.distinct_canon _ record'.2)
    · exact hlabels [] (by simp)
    · exact fun m _ => Json.label_ext m.2
    · intro name q hname
      refine hlabels _ fun hdigest => ?_
      simp only [List.cons_prefix_cons, Key.member.injEq] at hdigest
      simp [← hdigest.1] at hname
  rw [hmaterial, hdigest'] at hdigest
  cases hdigest
  exact ⟨by rw [hevidence, hevidence', hmaterial], by rw [hpaths, hpaths']⟩

theorem createEvidenceExport_hides_claim :
    ∃ e e', createEvidenceExport constantHash digitText (fun _ => true) (claimRecord "secret")
        [statementRule] = .ok e ∧
      createEvidenceExport constantHash digitText (fun _ => true) (claimRecord "public")
        [statementRule] = .ok e' ∧
      e.evidence = e'.evidence ∧ e.redactedPaths = e'.redactedPaths := by
  refine ⟨claimExport, claimExport, exports_claimRecord "secret", exports_claimRecord "public", ?_⟩
  refine createEvidenceExport_hides constantHash digitText _ ⟨_, distinct_claimRecord "secret"⟩
    ⟨_, distinct_claimRecord "public"⟩ _ _ _ digitText_not_inherited (fun q _ hq => ?_)
    (exports_claimRecord "secret") (exports_claimRecord "public")
  have hcanon : ∀ s, Json.canon constantHash.num (claimRecord s) = claimRecord s :=
    canon_claimRecord
  rw [hcanon] at hq
  rw [hcanon, hcanon]
  exact claimRecord_same "secret" "public" hq

end EvidenceExports

end Pactmark
