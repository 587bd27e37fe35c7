import Pactmark.Core.Digests
import Pactmark.Policy.Evaluate

/-!
# Policy — previews and targets

`executeDeterministicPreview` of `policy/src/effect-strategies.ts`, `validateEffectPreview` of
`runtime/src/effects.ts`, and the target digest of `policy/src/policy.ts`.  A preview strategy may
answer anything, and another thing when it is asked again; `render` is its answer to one of the two
calls, and none when it throws.

* `executeDeterministicPreview_ok`, `validateEffectPreview_ok`: what an accepted preview has.
* `digest_accepted_iff`: the runtime accepts the digest of a preview the policy package accepted
  when the preview has no display.
* `target_refused`: no target of a preview has the digest of the resources of a call.
-/

namespace Pactmark.Policy

open Durable

/-- `reversibility` of a preview. -/
inductive EffectReversibility where
  | compensatable
  | irreversible
  deriving DecidableEq, Repr

/-- The reversibility that a registration declares. -/
def EffectReversibility.registered : EffectReversibility → Reversibility
  | .compensatable => .compensatable
  | .irreversible => .irreversible

/-- The text of a reversibility. -/
def EffectReversibility.name : EffectReversibility → String
  | .compensatable => "compensatable"
  | .irreversible => "irreversible"

/-- `fields` of an `ApprovalPreviewDisplay`. -/
structure DisplayField where
  label : String
  value : String
  deriving DecidableEq, Repr

/-- `ApprovalPreviewDisplay`. -/
structure ApprovalPreviewDisplay where
  title : String
  summary : String
  materialConsequence : String
  reversibility : EffectReversibility
  fields : Option (List DisplayField)
  deriving DecidableEq, Repr

/-- `EffectPreview`. -/
structure EffectPreview where
  normalizedTarget : String
  operationClass : String
  contentDigest : Digest
  reversibility : EffectReversibility
  materialConsequence : String
  approvalDisplay : Option ApprovalPreviewDisplay
  diffDigest : Option Digest
  previewDigest : Digest
  deriving DecidableEq, Repr

/-! ### The schemas -/

/-- An element of `fields`, parsed. -/
def DisplayField.parse (field : DisplayField) : Option DisplayField :=
  match boundedText 80 field.label, boundedText 500 field.value with
  | some label, some value => some ⟨label, value⟩
  | _, _ => none

/-- `fields`, parsed. -/
def parseFields : Option (List DisplayField) → Option (Option (List DisplayField))
  | none => some none
  | some fields => if 16 < fields.length then none else (fields.mapM DisplayField.parse).map some

/-- `ApprovalPreviewDisplaySchema`. -/
def ApprovalPreviewDisplay.parse (display : ApprovalPreviewDisplay) :
    Option ApprovalPreviewDisplay :=
  match boundedText 160 display.title, boundedText 1000 display.summary,
    boundedText 1000 display.materialConsequence, parseFields display.fields with
  | some title, some summary, some materialConsequence, some fields =>
      some { display with title, summary, materialConsequence, fields }
  | _, _, _, _ => none

/-- `EffectPreviewSchema`. -/
def EffectPreview.parse (preview : EffectPreview) : Option EffectPreview :=
  if preview.normalizedTarget = "" ∨ preview.operationClass = "" ∨
      preview.materialConsequence = "" then none
  else
    match preview.approvalDisplay with
    | none => some preview
    | some display =>
        display.parse.map fun display => { preview with approvalDisplay := some display }

/-- Fields that have been parsed are parsed as they are. -/
theorem mapM_parse_idem {fields parsed : List DisplayField}
    (h : fields.mapM DisplayField.parse = some parsed) :
    parsed.mapM DisplayField.parse = some parsed ∧ parsed.length = fields.length := by
  induction fields generalizing parsed with
  | nil =>
    obtain rfl : parsed = [] := by simpa using h.symm
    exact ⟨rfl, rfl⟩
  | cons field fields ih =>
    rw [List.mapM_cons] at h
    obtain ⟨first, hfirst, h⟩ := Option.bind_eq_some_iff.mp h
    obtain ⟨rest, hrest, h⟩ := Option.bind_eq_some_iff.mp h
    obtain rfl : first :: rest = parsed := Option.some.inj h
    obtain ⟨hidem, hlength⟩ := ih hrest
    have hfield : first.parse = some first := by
      unfold DisplayField.parse at hfirst
      split at hfirst
      · rename_i label value hlabel hvalue
        obtain rfl := Option.some.inj hfirst
        simp only [DisplayField.parse, boundedText_idem hlabel, boundedText_idem hvalue]
      · cases hfirst
    exact ⟨by simp [List.mapM_cons, hfield, hidem], by simp [hlength]⟩

/-- A display that has been parsed is parsed as it is. -/
theorem ApprovalPreviewDisplay.parse_idem {display parsed : ApprovalPreviewDisplay}
    (h : display.parse = some parsed) : parsed.parse = some parsed := by
  unfold parse at h
  split at h
  · rename_i title summary consequence fields htitle hsummary hconsequence hfields
    obtain rfl := Option.some.inj h
    have hfields' : parseFields fields = some fields := by
      unfold parseFields at hfields
      split at hfields
      · obtain rfl := Option.some.inj hfields
        rfl
      · split at hfields
        · cases hfields
        rename_i hfew
        obtain ⟨kept, hkept, rfl⟩ := Option.map_eq_some_iff.mp hfields
        obtain ⟨hidem, hlength⟩ := mapM_parse_idem hkept
        rw [parseFields, if_neg (by rwa [hlength]), hidem, Option.map_some]
    simp only [parse, boundedText_idem htitle, boundedText_idem hsummary,
      boundedText_idem hconsequence, hfields']
  · cases h

/-- A preview that has been parsed is parsed as it is. -/
theorem EffectPreview.parse_idem {preview parsed : EffectPreview}
    (h : preview.parse = some parsed) : parsed.parse = some parsed := by
  unfold parse at h
  split at h
  · cases h
  rename_i hnonempty
  split at h
  · rename_i hdisplay
    obtain rfl := Option.some.inj h
    simp only [parse, if_neg hnonempty, hdisplay]
  · rename_i display hdisplay
    obtain ⟨kept, hkept, rfl⟩ := Option.map_eq_some_iff.mp h
    simp only [parse, if_neg hnonempty, ApprovalPreviewDisplay.parse_idem hkept, Option.map_some]

/-! ### What is digested -/

/-- The text of a kind. -/
def kindName : ResourceScopeKind → String
  | .path => "path"
  | .url => "url"
  | .host => "host"
  | .identifier => "identifier"
  | .tenant => "tenant"
  | .urn => "urn"
  | .dataset => "dataset"
  | .run => "run"
  | .record => "record"
  | .artifact => "artifact"
  | .opaqueValue => "opaque"

variable {Num : Type}

/-- A field that may be left out. -/
def optional (key : String) (value : Option (Json Num)) : List (String × Json Num) :=
  match value with
  | none => []
  | some value => [(key, value)]

/-- The fields that both packages digest, before the display. -/
def EffectPreview.common (preview : EffectPreview) : List (String × Json Num) :=
  [("schemaVersion", .text "1"), ("normalizedTarget", .text preview.normalizedTarget),
    ("operationClass", .text preview.operationClass),
    ("contentDigest", .text preview.contentDigest),
    ("reversibility", .text preview.reversibility.name),
    ("materialConsequence", .text preview.materialConsequence)]

/-- A display as it is digested. -/
def ApprovalPreviewDisplay.json (display : ApprovalPreviewDisplay) : Json Num :=
  .record <|
    [("title", .text display.title), ("summary", .text display.summary),
      ("materialConsequence", .text display.materialConsequence),
      ("reversibility", .text display.reversibility.name)] ++
    optional "fields" (display.fields.map fun fields =>
      .array (fields.map fun field =>
        .record [("label", .text field.label), ("value", .text field.value)]))

/-- `previewMaterial` of the policy package. -/
def EffectPreview.previewMaterial (preview : EffectPreview) : Json Num :=
  .record (preview.common ++ optional "diffDigest" (preview.diffDigest.map .text))

/-- `material` of the runtime. -/
def EffectPreview.material (preview : EffectPreview) : Json Num :=
  .record (preview.common ++
    optional "approvalDisplay" (preview.approvalDisplay.map ApprovalPreviewDisplay.json) ++
    optional "diffDigest" (preview.diffDigest.map .text))

/-- The preview itself. -/
def EffectPreview.json (preview : EffectPreview) : Json Num :=
  .record (preview.common ++
    optional "approvalDisplay" (preview.approvalDisplay.map ApprovalPreviewDisplay.json) ++
    optional "diffDigest" (preview.diffDigest.map .text) ++
    [("previewDigest", .text preview.previewDigest)])

/-- `{ schemaVersion: "1", resources }` of the preflight. -/
def targetMaterial (resources : List ResourceScope) : Json Num :=
  .record [("schemaVersion", .text "1"),
    ("resources", .array (resources.map fun resource =>
      .record [("kind", .text (kindName resource.kind)), ("value", .text resource.value),
        ("normalizationVersion", .text resource.normalizationVersion)]))]

theorem distinct_optional_text {key : String} {value : Option String} :
    ∀ field ∈ optional key (value.map (.text : String → Json Num)), field.2.Distinct := by
  cases value with
  | none => nofun
  | some value =>
    intro field hfield
    obtain rfl := List.mem_singleton.mp hfield
    exact Json.distinct_text value

theorem ApprovalPreviewDisplay.distinct_json (display : ApprovalPreviewDisplay) :
    (display.json : Json Num).Distinct := by
  refine Json.distinct_record ?_ (List.forall_mem_append.mpr ⟨by simp, fun field h => ?_⟩)
  · cases display.fields <;> simp [optional]
  · cases hfields : display.fields with
    | none => rw [hfields] at h; cases h
    | some fields =>
      rw [hfields] at h
      obtain rfl := List.mem_singleton.mp h
      simp only [Json.Distinct, Json.distinctItems_iff]
      intro v hv
      obtain ⟨f, -, rfl⟩ := List.mem_map.mp hv
      exact Json.distinct_record (by simp) (by simp)

theorem EffectPreview.distinct_common (preview : EffectPreview) :
    ∀ field ∈ (preview.common : List (String × Json Num)), field.2.Distinct := by
  simp [common]

theorem EffectPreview.distinct_previewMaterial (preview : EffectPreview) :
    (preview.previewMaterial : Json Num).Distinct := by
  refine Json.distinct_record ?_ fun field hfield => ?_
  · cases preview.diffDigest <;> simp [common, optional]
  · rcases List.mem_append.mp hfield with h | h
    · exact preview.distinct_common field h
    · exact distinct_optional_text field h

theorem EffectPreview.distinct_material (preview : EffectPreview) :
    (preview.material : Json Num).Distinct := by
  refine Json.distinct_record ?_ fun field hfield => ?_
  · cases preview.approvalDisplay <;> cases preview.diffDigest <;> simp [common, optional]
  · rcases List.mem_append.mp hfield with h | h
    · rcases List.mem_append.mp h with h | h
      · exact preview.distinct_common field h
      · cases hdisplay : preview.approvalDisplay with
        | none => rw [hdisplay] at h; cases h
        | some display =>
          rw [hdisplay] at h
          obtain rfl := List.mem_singleton.mp h
          exact display.distinct_json
    · exact distinct_optional_text field h

theorem EffectPreview.stringifies_previewMaterial {num : NumberFormat Num}
    (preview : EffectPreview) : preview.previewMaterial.Stringifies num := by
  refine Json.stringifies_record (List.forall_mem_append.mpr ⟨by simp [common], ?_⟩)
  cases preview.diffDigest <;> simp [optional]

/-- The two materials are the same when there is no display. -/
theorem EffectPreview.same_material_iff {num : NumberFormat Num} (preview : EffectPreview) :
    Json.Same num preview.previewMaterial preview.material ↔ preview.approvalDisplay = none := by
  constructor
  · intro h
    cases hdisplay : preview.approvalDisplay with
    | none => rfl
    | some display =>
      -- the display is one more member
      obtain ⟨hlength, -⟩ := h
      rw [hdisplay] at hlength
      simp [optional] at hlength
  · intro h
    have heq : (preview.previewMaterial : Json Num) = preview.material := by
      simp [previewMaterial, material, h, optional]
    rw [heq, Json.same_iff_canon_eq _ _ preview.distinct_material preview.distinct_material]

/-! ### The policy package -/

/-- `SafeRunContext`. -/
structure SafeRunContext where
  tenantId : String
  runId : String
  stepId : String
  purposeCode : String
  dataClass : DataClass

/-- `PreviewContext`, with the readings of its clock at one call. -/
structure PreviewContext where
  run : SafeRunContext
  normalizedTargetValue : String
  normalizedTargetDigest : Digest
  now : String
  monotonicMilliseconds : ℚ

/-- The first and the second time that a preview is asked for. -/
inductive Rendering where
  | first
  | second

/-- A registered preview strategy; `context` is what it is given at a call. -/
structure RegisteredPreview (Num : Type) where
  registrationDigest : Digest
  render : Rendering → Json Num → PreviewContext → Option EffectPreview

/-- `reason` of a `PreviewExecutionError`, or the error of a value that has no canonical text. -/
inductive PreviewRefusal where
  | registration_mismatch
  | invalid_result
  | unstable_or_unbound
  | not_canonical (e : CanonicalJsonError)

variable (H : Hashing Num)

/-- `executeDeterministicPreview`; the strategy is given the value as it is read back from its
canonical text, and the context with the readings of the clock at each call. -/
def executeDeterministicPreview (strategy : RegisteredPreview Num) (value : Json Num)
    (context : Rendering → PreviewContext) (expectedRegistrationDigest : Digest)
    (expectedReversibility : EffectReversibility) : Except PreviewRefusal EffectPreview :=
  if strategy.registrationDigest ≠ expectedRegistrationDigest then .error .registration_mismatch
  else
    match canonicalJsonStringify H.num value with
    | .error e => .error (.not_canonical e)
    | .ok _ =>
      let render (n : Rendering) :=
        (strategy.render n (Json.canon H.num value) (context n)).bind EffectPreview.parse
      match render .first, render .second with
      | some first, some second =>
        match H.digestCanonicalJson first.previewMaterial with
        | .error e => .error (.not_canonical e)
        | .ok expectedDigest =>
          if first.previewDigest ≠ expectedDigest ∨
              first.normalizedTarget ≠ (context .first).normalizedTargetValue ∨
              first.reversibility ≠ expectedReversibility ∨
              canonicalJsonStringify H.num first.json ≠ canonicalJsonStringify H.num second.json
          then .error .unstable_or_unbound
          else .ok first
      | _, _ => .error .invalid_result

/-! ### The runtime -/

/-- What `validateEffectPreview` reads of a `RuntimeExecutableEffectStrategy`; `preview` may throw,
and is given whatever the runtime dispatches with. -/
structure RuntimePreviewStrategy (Num Context : Type) where
  previewRegistrationDigest : Option Digest
  preview : Rendering → Json Num → Context → Option EffectPreview

/-- What `validateEffectPreview` is given. -/
structure EffectPreviewInput (Num Context : Type) where
  strategy : RuntimePreviewStrategy Num Context
  registration : ToolRegistrationContract
  value : Json Num
  context : Context
  normalizedTargetDigest : Digest

variable {Context : Type}

/-- An answer of the strategy, parsed. -/
def EffectPreviewInput.rendered (input : EffectPreviewInput Num Context) (n : Rendering) :
    Option EffectPreview :=
  (input.strategy.preview n input.value input.context).bind EffectPreview.parse

/-- `validateEffectPreview`; none when it throws. -/
def validateEffectPreview (input : EffectPreviewInput Num Context) : Option EffectPreview :=
  match input.rendered .first, input.rendered .second with
  | some first, some second =>
      if input.registration.previewStrategyRegistrationDigest = none ∨
          input.strategy.previewRegistrationDigest ≠
            input.registration.previewStrategyRegistrationDigest ∨
          H.digestCanonicalJson (.text first.normalizedTarget) ≠
            .ok input.normalizedTargetDigest ∨
          H.digestCanonicalJson first.material ≠ .ok first.previewDigest ∨
          canonicalJsonStringify H.num first.json ≠ canonicalJsonStringify H.num second.json
      then none
      else some first
  | _, _ => none

/-- What the runtime compares of the answers of a strategy, besides the digest of the preview. -/
structure EffectPreviewInput.Bound (input : EffectPreviewInput Num Context)
    (first second : EffectPreview) : Prop where
  registered : input.registration.previewStrategyRegistrationDigest ≠ none
  strategy : input.strategy.previewRegistrationDigest =
    input.registration.previewStrategyRegistrationDigest
  target : H.digestCanonicalJson (.text first.normalizedTarget) = .ok input.normalizedTargetDigest
  stable : canonicalJsonStringify H.num first.json = canonicalJsonStringify H.num second.json

variable {H}

/-- What a preview has that the policy package accepts. -/
theorem executeDeterministicPreview_ok {strategy : RegisteredPreview Num} {value : Json Num}
    {context : Rendering → PreviewContext} {expectedRegistrationDigest : Digest}
    {expectedReversibility : EffectReversibility} {preview : EffectPreview}
    (h : executeDeterministicPreview H strategy value context expectedRegistrationDigest
      expectedReversibility = .ok preview) :
    preview.parse = some preview ∧
      H.digestCanonicalJson preview.previewMaterial = .ok preview.previewDigest ∧
      preview.reversibility = expectedReversibility := by
  unfold executeDeterministicPreview at h
  split at h
  · cases h
  split at h
  · cases h
  dsimp only at h
  split at h
  · rename_i first second hfirst hsecond
    split at h
    · cases h
    rename_i digest hdigest
    split at h
    · cases h
    rename_i hbound
    simp only [ne_eq, not_or, not_not] at hbound
    obtain rfl := Except.ok.inj h
    obtain ⟨raw, -, hparsed⟩ := Option.bind_eq_some_iff.mp hfirst
    exact ⟨EffectPreview.parse_idem hparsed, by rw [hdigest, hbound.1], hbound.2.2.1⟩
  · cases h

/-- **What the runtime accepts** of the answers of a strategy. -/
theorem validateEffectPreview_ok {input : EffectPreviewInput Num Context}
    {preview : EffectPreview} :
    validateEffectPreview H input = some preview ↔
      input.rendered .first = some preview ∧
        H.digestCanonicalJson preview.material = .ok preview.previewDigest ∧
        ∃ second, input.rendered .second = some second ∧ input.Bound H preview second := by
  unfold validateEffectPreview
  cases hfirst : input.rendered .first with
  | none =>
    constructor
    · nofun
    · rintro ⟨⟨⟩, -⟩
  | some first =>
    cases hsecond : input.rendered .second with
    | none =>
      constructor
      · nofun
      · rintro ⟨-, -, _, ⟨⟩, -⟩
    | some second =>
      dsimp only
      constructor
      · intro h
        split at h
        · cases h
        rename_i hbound
        simp only [ne_eq, not_or, not_not] at hbound
        obtain rfl := Option.some.inj h
        obtain ⟨hregistered, hstrategy, htarget, hdigest, hstable⟩ := hbound
        exact ⟨rfl, hdigest, second, rfl, hregistered, hstrategy, htarget, hstable⟩
      · rintro ⟨heq, hdigest, second', hsecond', hbound⟩
        obtain rfl := Option.some.inj heq
        obtain rfl := Option.some.inj hsecond'
        rw [if_neg]
        simp only [ne_eq, not_or, not_not]
        exact ⟨hbound.registered, hbound.strategy, hbound.target, hdigest, hbound.stable⟩

/-- The runtime accepts the digest that the policy package accepts when there is no display. -/
theorem digest_accepted_iff (hsha : Function.Injective H.sha256) {preview : EffectPreview}
    (h : H.digestCanonicalJson preview.previewMaterial = .ok preview.previewDigest) :
    H.digestCanonicalJson preview.material = .ok preview.previewDigest ↔
      preview.approvalDisplay = none := by
  have hiff : Json.Same H.num preview.previewMaterial preview.material ↔ _ :=
    preview.same_material_iff
  rw [← hiff]
  constructor
  · intro h'
    exact (Hashing.digest_eq_iff hsha preview.distinct_previewMaterial
      preview.distinct_material h h').mp rfl
  · intro hsame
    have heq : (preview.previewMaterial : Json Num) = preview.material := by
      simp [EffectPreview.previewMaterial, EffectPreview.material,
        preview.same_material_iff.mp hsame, optional]
    rw [← heq, h]

/-! ### The target of a call -/

/-- The normalization with the digest that the preflight computes. -/
def Normalization.hashed (N : Normalization) (H : Hashing Num) : Normalization :=
  { N with digest := fun resources => H.digest (targetMaterial resources) }

theorem distinct_targetMaterial (resources : List ResourceScope) :
    (targetMaterial resources : Json Num).Distinct := by
  refine Json.distinct_record (by simp) ?_
  simp only [List.forall_mem_cons, List.not_mem_nil, false_imp_iff, implies_true, and_true,
    Json.distinct_text, true_and, Json.Distinct, Json.distinctItems_iff]
  intro v hv
  obtain ⟨resource, -, rfl⟩ := List.mem_map.mp hv
  exact Json.distinct_record (by simp) (by simp)

theorem stringifies_targetMaterial (resources : List ResourceScope) :
    (targetMaterial resources).Stringifies H.num := by
  refine Json.stringifies_record ?_
  simp only [List.forall_mem_cons, List.not_mem_nil, false_imp_iff, implies_true, and_true,
    Json.stringifies_text, true_and]
  refine Json.stringifies_array fun v hv => ?_
  obtain ⟨resource, -, rfl⟩ := List.mem_map.mp hv
  exact Json.stringifies_record (by simp)

/-- A text has not the digest of the resources of a call. -/
theorem target_refused (hsha : Function.Injective H.sha256) (resources : List ResourceScope)
    (normalizedTarget : String) :
    H.digestCanonicalJson (.text normalizedTarget) ≠ .ok (H.digest (targetMaterial resources)) := by
  intro h
  exact (Hashing.digest_eq_iff hsha (Json.distinct_text _) (distinct_targetMaterial resources) h
    (Hashing.digestCanonicalJson_ok (stringifies_targetMaterial resources))).mp rfl

/-- **Previews and targets.**  The runtime accepts a preview of the policy package when it has no
display; it accepts one of another reversibility when the strategy answers one; it accepts no
preview for the target digest of a call that the preflight passed. -/
theorem previews_line_up (H : Hashing Num) (hsha : Function.Injective H.sha256) :
    (∀ (strategy : RegisteredPreview Num) (value : Json Num)
        (context : Rendering → PreviewContext) (expectedRegistrationDigest : Digest)
        (expectedReversibility : EffectReversibility) (preview : EffectPreview),
      executeDeterministicPreview H strategy value context expectedRegistrationDigest
          expectedReversibility = .ok preview →
        ∀ {Context : Type} (input : EffectPreviewInput Num Context),
          (∀ n, input.strategy.preview n input.value input.context = some preview) →
          input.Bound H preview preview →
          (validateEffectPreview H input = some preview ↔ preview.approvalDisplay = none)) ∧
    (∀ {Context : Type} (input : EffectPreviewInput Num Context),
      (∀ preview, validateEffectPreview H input = some preview →
          preview.reversibility.registered = input.registration.security.reversibility) ↔
        ∀ first second, input.rendered .first = some first →
          input.rendered .second = some second → input.Bound H first second →
          H.digestCanonicalJson first.material = .ok first.previewDigest →
            first.reversibility.registered = input.registration.security.reversibility) ∧
    ∀ (N : Normalization) (config : DeterministicPolicyConfig) (call : PolicyPreflightInput)
        (killSwitches : KillSwitches) (resources : List ResourceScope) (d : Digest)
        (required : Bool),
      evaluatePolicyPreflight (N.hashed H) config call killSwitches =
          .pass resources d required →
        ∀ {Context : Type} (input : EffectPreviewInput Num Context),
          input.normalizedTargetDigest = d → validateEffectPreview H input = none := by
  refine ⟨?_, ?_, ?_⟩
  · intro strategy value context expectedRegistrationDigest expectedReversibility preview haccepted
      Context input hrenders hbound
    obtain ⟨hparsed, hdigest, -⟩ := executeDeterministicPreview_ok haccepted
    have hrendered : ∀ n, input.rendered n = some preview := by
      intro n
      rw [EffectPreviewInput.rendered, hrenders n, Option.bind_some, hparsed]
    rw [validateEffectPreview_ok, ← digest_accepted_iff hsha hdigest]
    exact ⟨fun h => h.2.1, fun h => ⟨hrendered _, h, preview, hrendered _, hbound⟩⟩
  · intro Context input
    constructor
    · intro h first second hfirst hsecond hbound hdigest
      exact h first (validateEffectPreview_ok.mpr ⟨hfirst, hdigest, second, hsecond, hbound⟩)
    · intro h preview haccepted
      obtain ⟨hfirst, hdigest, second, hsecond, hbound⟩ := validateEffectPreview_ok.mp haccepted
      exact h preview second hfirst hsecond hbound hdigest
  · intro N config call killSwitches resources d required hpass Context input htarget
    have hd : d = H.digest (targetMaterial resources) := by
      obtain ⟨-, hd, -⟩ := (preflight_pass_iff (N.hashed H)).mp hpass
      exact hd
    by_contra hsome
    obtain ⟨preview, haccepted⟩ := Option.ne_none_iff_exists'.mp hsome
    obtain ⟨-, -, _, -, hbound⟩ := validateEffectPreview_ok.mp haccepted
    refine target_refused hsha resources preview.normalizedTarget ?_
    rw [hbound.target, htarget, hd]

/-! ### The preview of a mail -/

/-- What a person who approves the mail is shown. -/
def mailDisplay : ApprovalPreviewDisplay :=
  ⟨"Send a mail", "One mail is sent.", "The mail cannot be taken back.", .irreversible, none⟩

/-- A preview, with the digest that the policy package computes. -/
def mailPreview (H : Hashing Num) (display : Option ApprovalPreviewDisplay) : EffectPreview :=
  let preview : EffectPreview :=
    ⟨"mail", "mail.write", "content", .irreversible, "The mail is sent.", display, none, ""⟩
  { preview with previewDigest := H.digest preview.previewMaterial }

def mailContext : PreviewContext :=
  ⟨⟨"tenant", "run", "step", "purpose", .internal⟩, "mail", "target", "1970-01-01T00:00:00.000Z", 0⟩

/-- A runtime whose strategy answers the preview. -/
def mailInput (H : Hashing Num) (display : Option ApprovalPreviewDisplay) :
    EffectPreviewInput Num Unit where
  strategy := ⟨some "preview", fun _ _ _ => some (mailPreview H display)⟩
  registration :=
    { id := "mail.send@1"
      security := ⟨.R4, [.internal], .irreversible, ["mail"], .declared_ok, 1, none⟩
      previewStrategyRegistrationDigest := some "preview"
      effectStrategyKind := .native
      compensationStrategyRegistrationDigest := none
      toolRegistrationDigest := "tool" }
  value := .null
  context := ()
  normalizedTargetDigest := H.digest (.text "mail")

theorem mail_parse (H : Hashing Num) :
    (mailPreview H none).parse = some (mailPreview H none) ∧
      (mailPreview H (some mailDisplay)).parse = some (mailPreview H (some mailDisplay)) := by
  have hdisplay : mailDisplay.parse = some mailDisplay := by decide +kernel
  exact ⟨rfl, by simp [EffectPreview.parse, mailPreview, hdisplay]⟩

/-- The policy package accepts it, with a display or without one. -/
theorem mail_accepted (H : Hashing Num) {display : Option ApprovalPreviewDisplay}
    (hparse : (mailPreview H display).parse = some (mailPreview H display)) :
    executeDeterministicPreview H ⟨"preview", fun _ _ _ => some (mailPreview H display)⟩ .null
      (fun _ => mailContext) "preview" .irreversible = .ok (mailPreview H display) := by
  have hdigest : H.digestCanonicalJson (mailPreview H display).previewMaterial =
      .ok (mailPreview H display).previewDigest :=
    Hashing.digestCanonicalJson_ok (EffectPreview.stringifies_previewMaterial _)
  have htext : canonicalJsonStringify H.num .null = .ok (JsString.lit "null") := rfl
  simp only [executeDeterministicPreview, htext, Option.bind_some, hparse, hdigest]
  simp [mailPreview, mailContext]

theorem mail_bound (H : Hashing Num) (display : Option ApprovalPreviewDisplay) :
    (mailInput H display).Bound H (mailPreview H display) (mailPreview H display) where
  registered := nofun
  strategy := rfl
  target := by
    change H.digestCanonicalJson (.text "mail") = .ok (H.digest (.text "mail"))
    exact Hashing.digestCanonicalJson_ok (Json.stringifies_text _)
  stable := rfl

open SampleNumber in
theorem previews_line_up_mail : ∃ H : Hashing SampleNumber,
    validateEffectPreview H (mailInput H none) = some (mailPreview H none) := by
  obtain ⟨sha256, hsha⟩ := Hashing.exists_injective
  refine ⟨⟨format, sha256⟩, ?_⟩
  exact ((previews_line_up ⟨format, sha256⟩ hsha).1 _ _ _ _ _ _ (mail_accepted _ (mail_parse _).1)
    (mailInput _ none) (fun _ => rfl) (mail_bound _ none)).mpr rfl

open SampleNumber in
/-- The runtime does not accept the digest of a preview with a display. -/
theorem mail_display_refused :
    ¬ ∀ (H : Hashing SampleNumber), Function.Injective H.sha256 →
      ∀ (strategy : RegisteredPreview SampleNumber) (value : Json SampleNumber)
        (context : Rendering → PreviewContext) (expectedRegistrationDigest : Digest)
        (expectedReversibility : EffectReversibility) (preview : EffectPreview),
      executeDeterministicPreview H strategy value context expectedRegistrationDigest
          expectedReversibility = .ok preview →
        ∀ (input : EffectPreviewInput SampleNumber Unit),
          (∀ n, input.strategy.preview n input.value input.context = some preview) →
          input.Bound H preview preview → validateEffectPreview H input = some preview := by
  intro h
  obtain ⟨sha256, hsha⟩ := Hashing.exists_injective
  have haccepted := h ⟨format, sha256⟩ hsha _ _ _ _ _ _ (mail_accepted _ (mail_parse _).2)
    (mailInput _ (some mailDisplay)) (fun _ => rfl) (mail_bound _ _)
  obtain ⟨-, hdigest, -⟩ := validateEffectPreview_ok.mp haccepted
  have hpolicy := executeDeterministicPreview_ok (mail_accepted ⟨format, sha256⟩ (mail_parse _).2)
  exact nomatch (digest_accepted_iff hsha hpolicy.2.1).mp hdigest

end Pactmark.Policy
