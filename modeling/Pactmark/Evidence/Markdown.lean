import Pactmark.Core.Run
import Pactmark.Core.Serialization
import Pactmark.Durable.Markdown

/-!
# Evidence — the Markdown export

`markdownText` and `exportEvidenceMarkdown` of `evidence/src/records.ts`.  A record has what the
export reads, with what its schema says about it; of a timestamp that is the units it may have.

* `exportEvidenceMarkdown_eq`: the export is a list of texts, with a line feed after each.
* `exportEvidenceMarkdown_unforged_iff`: when its contents cannot forge a line, a row or a span.
-/

namespace Pactmark

open JsString (lit)

open Durable Durable.Markdown

namespace Markdown

/-- `DigestSchema`. -/
def IsDigest (value : JsString) : Prop :=
  ∃ hex : JsString, value = lit "sha256:" ++ hex ∧ hex.length = 64 ∧
    ∀ u ∈ hex, (48 ≤ u ∧ u ≤ 57) ∨ (97 ≤ u ∧ u ≤ 102)

/-- The units of an ISO timestamp with an offset: digits, and those of `-:T.Z+`. -/
def IsTimestamp (value : JsString) : Prop :=
  ∀ u ∈ value, (48 ≤ u ∧ u ≤ 57) ∨ u ∈ lit "-:T.Z+"

instance (value : JsString) : Decidable (IsTimestamp value) :=
  inferInstanceAs (Decidable (∀ u ∈ value, (48 ≤ u ∧ u ≤ 57) ∨ u ∈ lit "-:T.Z+"))

/-- An item of `verificationRefs`. -/
structure VerificationRef where
  verificationId : JsString
  status : VerificationStatus
  verificationDigest : JsString
  verificationId_ne : verificationId ≠ []
  isDigest : IsDigest verificationDigest

/-- `EvidenceRecord`, as `EvidenceRecordSchema` accepts it. -/
structure EvidenceRecord where
  evidenceRecordId : JsString
  evidenceDigest : JsString
  runId : JsString
  statement : JsString
  scope : JsString
  supports : List JsString
  doesNotProve : List JsString
  verificationRefs : List VerificationRef
  observedAt : JsString
  validAt : JsString
  evidenceRecordId_ne : evidenceRecordId ≠ []
  isDigest : IsDigest evidenceDigest
  runId_ne : runId ≠ []
  statement_ne : statement ≠ []
  scope_ne : scope ≠ []
  supports_ne : supports ≠ []
  support_ne : ∀ item ∈ supports, item ≠ []
  doesNotProve_ne : doesNotProve ≠ []
  limit_ne : ∀ item ∈ doesNotProve, item ≠ []
  observedAt_valid : IsTimestamp observedAt
  validAt_valid : IsTimestamp validAt

/-- `value.replaceAll(unit, text)`. -/
def replaceAll (unit : Nat) (text value : JsString) : JsString :=
  value.flatMap fun u => if u = unit then text else [u]

/-- `markdownText`. -/
def markdownText (value : JsString) : JsString :=
  replaceAll 10 (lit " ") (replaceAll 124 (lit "\\|") (replaceAll 92 (lit "\\\\") value))

/-- `lines.join("\n")`. -/
def joinLines : List JsString → JsString
  | [] => []
  | [x] => x
  | x :: xs => x ++ 10 :: joinLines xs

/-- `item.status`. -/
def statusText : VerificationStatus → JsString
  | .pass => lit "pass"
  | .fail => lit "fail"
  | .needs_review => lit "needs_review"

/-- An item of `supports` and of `doesNotProve`. -/
def bullet (item : JsString) : JsString := lit "- " ++ markdownText item

/-- A row of the verifications. -/
def verificationRow (item : VerificationRef) : JsString :=
  lit "| " ++ markdownText item.verificationId ++ lit " | " ++ statusText item.status ++
    lit " | " ++ item.verificationDigest ++ lit " |"

/-- The row when there is no verification. -/
def noVerification : JsString := lit "| none | unknown | n/a |"

namespace EvidenceRecord

def title (r : EvidenceRecord) : JsString := lit "# Evidence: " ++ markdownText r.statement

def idLine (r : EvidenceRecord) : JsString :=
  lit "- Evidence ID: `" ++ r.evidenceRecordId ++ lit "`"

def digestLine (r : EvidenceRecord) : JsString :=
  lit "- Digest: `" ++ r.evidenceDigest ++ lit "`"

def runLine (r : EvidenceRecord) : JsString := lit "- Run: `" ++ r.runId ++ lit "`"

def scopeLine (r : EvidenceRecord) : JsString := lit "- Scope: " ++ markdownText r.scope

def observedLine (r : EvidenceRecord) : JsString := lit "- Observed: " ++ r.observedAt

def validLine (r : EvidenceRecord) : JsString := lit "- Valid at: " ++ r.validAt

end EvidenceRecord

/-- `exportEvidenceMarkdown`. -/
def exportEvidenceMarkdown (r : EvidenceRecord) : JsString :=
  let supports := joinLines (r.supports.map bullet)
  let limits := joinLines (r.doesNotProve.map bullet)
  let verifications := joinLines (r.verificationRefs.map verificationRow)
  joinLines [
    r.title,
    [],
    r.idLine,
    r.digestLine,
    r.runLine,
    r.scopeLine,
    r.observedLine,
    r.validLine,
    [],
    lit "## Supports",
    [],
    supports,
    [],
    lit "## Does not prove",
    [],
    limits,
    [],
    lit "## Verification references",
    [],
    lit "| Verification | Status | Digest |",
    lit "| --- | --- | --- |",
    if verifications = [] then noVerification else verifications,
    []]

/-- The contents forge nothing: the number of lines is that of the lengths of the three lists,
each verification is one row of three cells, and the lines of the evidence id and the run have
one code span. -/
structure Unforged (r : EvidenceRecord) : Prop where
  count : (lines (exportEvidenceMarkdown r)).length =
    20 + r.supports.length + r.doesNotProve.length + max 1 r.verificationRefs.length
  rows : ∀ i item, r.verificationRefs[i]? = some item →
    ∃ row, (lines (exportEvidenceMarkdown r))[
      19 + r.supports.length + r.doesNotProve.length + i]? = some row ∧
      row = verificationRow item ∧ cells row = 3
  evidenceId : ∃ line, (lines (exportEvidenceMarkdown r))[2]? = some line ∧
    codeSpans line = 1
  run : ∃ line, (lines (exportEvidenceMarkdown r))[4]? = some line ∧
    codeSpans line = 1

/-- A text of one line: a carriage return may be its last unit only. -/
def OneLine (value : JsString) : Prop := 13 ∉ value.dropLast

/-- An identifier that is one code span between two backticks. -/
def OneSpan (value : JsString) : Prop :=
  10 ∉ value ∧ 13 ∉ value ∧ OnePair (ticks (96 :: (value ++ [96])))

/-! ### The texts of the export -/

theorem joinLines_line {texts : List JsString} (h : texts ≠ []) :
    joinLines texts ++ [10] = texts.flatMap (· ++ [10]) := by
  induction texts with
  | nil => exact absurd rfl h
  | cons t texts ih =>
      cases texts with
      | nil => simp [joinLines]
      | cons u texts =>
          rw [joinLines, List.flatMap_cons, ← ih (List.cons_ne_nil _ _)]
          · simp
          · exact List.cons_ne_nil _ _

theorem joinLines_concat (texts : List JsString) :
    joinLines (texts ++ [[]]) = texts.flatMap (· ++ [10]) := by
  induction texts with
  | nil => rfl
  | cons t texts ih =>
      rw [List.flatMap_cons, ← ih]
      cases texts with
      | nil => simp [joinLines]
      | cons u texts => simp [joinLines]

/-- The rows of the verifications. -/
def rowsOf (r : EvidenceRecord) : List JsString :=
  if r.verificationRefs = [] then [noVerification] else r.verificationRefs.map verificationRow

/-- The texts before those of the lists. -/
def preamble (r : EvidenceRecord) : List JsString :=
  [r.title, [], r.idLine, r.digestLine, r.runLine, r.scopeLine, r.observedLine, r.validLine, [],
    lit "## Supports", []]

/-- The texts of the export. -/
def texts (r : EvidenceRecord) : List JsString :=
  preamble r ++ r.supports.map bullet ++ [[], lit "## Does not prove", []] ++
    r.doesNotProve.map bullet ++ [[], lit "## Verification references", [],
      lit "| Verification | Status | Digest |", lit "| --- | --- | --- |"] ++ rowsOf r

theorem verificationRow_ne (item : VerificationRef) : verificationRow item ≠ [] := by
  simp [verificationRow, lit]

theorem joinLines_rows (r : EvidenceRecord) :
    (if joinLines (r.verificationRefs.map verificationRow) = [] then noVerification
      else joinLines (r.verificationRefs.map verificationRow)) ++ [10] =
      (rowsOf r).flatMap (· ++ [10]) := by
  rw [rowsOf]
  cases r.verificationRefs with
  | nil => simp [joinLines]
  | cons item refs =>
      have hne : joinLines ((item :: refs).map verificationRow) ≠ [] := by
        cases refs with
        | nil => exact verificationRow_ne item
        | cons _ _ => simp [joinLines]
      rw [if_neg hne, joinLines_line (by simp), if_neg (List.cons_ne_nil _ _)]

/-- The export is its texts, with a line feed after each. -/
theorem exportEvidenceMarkdown_eq (r : EvidenceRecord) :
    exportEvidenceMarkdown r = (texts r).flatMap (· ++ [10]) := by
  have hsupports : joinLines (r.supports.map bullet) ++ [10] =
      (r.supports.map bullet).flatMap (· ++ [10]) := joinLines_line (by simp [r.supports_ne])
  have hlimits : joinLines (r.doesNotProve.map bullet) ++ [10] =
      (r.doesNotProve.map bullet).flatMap (· ++ [10]) := joinLines_line (by simp [r.doesNotProve_ne])
  have hrows := joinLines_rows r
  rw [texts, List.flatMap_append, List.flatMap_append, List.flatMap_append, List.flatMap_append,
    List.flatMap_append, ← hsupports, ← hlimits, ← hrows]
  refine (joinLines_concat [r.title, [], r.idLine, r.digestLine, r.runLine, r.scopeLine,
    r.observedLine, r.validLine, [], lit "## Supports", [], _, [], lit "## Does not prove", [], _,
    [], lit "## Verification references", [], lit "| Verification | Status | Digest |",
    lit "| --- | --- | --- |", _]).trans ?_
  simp [preamble]

/-! ### The units of a text -/

theorem markdownText_cons (u : Nat) (value : JsString) :
    markdownText (u :: value) =
      (if u = 92 then [92, 92] else if u = 124 then [92, 124] else if u = 10 then [32] else [u]) ++
        markdownText value := by
  by_cases hslash : u = 92
  · subst hslash
    rfl
  · by_cases hpipe : u = 124
    · subst hpipe
      rfl
    · by_cases hfeed : u = 10 <;>
        simp [markdownText, replaceAll, hslash, hpipe, hfeed, lit]

/-- A text has no unescaped pipe. -/
theorem pipes_markdownText (value row : JsString) :
    pipes false (markdownText value ++ row) = pipes false row := by
  induction value with
  | nil => rfl
  | cons u value ih =>
      rw [markdownText_cons]
      split
      · simpa [pipes] using ih
      · split
        · simpa [pipes] using ih
        · split
          · simpa [pipes] using ih
          · next hslash hpipe _ => simpa [pipes, hslash, hpipe] using ih

theorem mem_markdownText {value : JsString} : 10 ∉ markdownText value ∧
    (13 ∈ markdownText value ↔ 13 ∈ value) := by
  induction value with
  | nil => simp [markdownText, replaceAll]
  | cons u value ih =>
      rw [markdownText_cons]
      split
      · simp_all
      · split
        · simp_all
        · split
          · simp_all
          · simp_all [eq_comm]

theorem markdownText_append (value value' : JsString) :
    markdownText (value ++ value') = markdownText value ++ markdownText value' := by
  simp [markdownText, replaceAll, List.flatMap_append]

/-- Neither a line feed nor a carriage return. -/
def Clean (text : JsString) : Prop := 10 ∉ text ∧ 13 ∉ text

instance (text : JsString) : Decidable (Clean text) :=
  inferInstanceAs (Decidable (10 ∉ text ∧ 13 ∉ text))

theorem clean_append {text text' : JsString} :
    Clean (text ++ text') ↔ Clean text ∧ Clean text' := by
  simp only [Clean, List.mem_append, not_or]
  tauto

theorem flat_of_clean {text : JsString} (h : Clean text) : Flat text :=
  ⟨h.1, fun hm => h.2 (List.dropLast_subset _ hm)⟩

theorem lineOf_of_clean {text : JsString} (h : Clean text) : lineOf text = text :=
  List.filter_eq_self.mpr fun _ hu => decide_eq_true fun e => h.2 (e ▸ hu)

/-- A text that ends a line. -/
theorem flat_markdownText {start value : JsString} (hstart : Clean start) :
    Flat (start ++ markdownText value) ↔ OneLine value := by
  have hfeed : 10 ∉ start ++ markdownText value := by
    simp [hstart.1, mem_markdownText.1]
  rcases List.eq_nil_or_concat value with rfl | ⟨value, u, rfl⟩
  · have hflat : Flat (start ++ markdownText []) := by
      simpa [markdownText, replaceAll] using flat_of_clean hstart
    simpa [OneLine] using hflat
  · -- the last unit of the escaped text stands for the last unit of the text
    obtain ⟨escape, last, hlast, hescape⟩ : ∃ escape last,
        markdownText [u] = escape ++ [last] ∧ 13 ∉ escape := by
      rw [markdownText_cons]
      split
      · exact ⟨[92], 92, rfl, by decide⟩
      · split
        · exact ⟨[92], 124, rfl, by decide⟩
        · split
          · exact ⟨[], 32, rfl, by decide⟩
          · exact ⟨[], u, rfl, by decide⟩
    have hsplit : start ++ markdownText (value ++ [u]) =
        (start ++ markdownText value ++ escape) ++ [last] := by
      simp [markdownText_append, hlast]
    rw [Flat, OneLine]
    simp only [List.concat_eq_append] at hfeed ⊢
    rw [hsplit, List.dropLast_concat, List.dropLast_concat]
    rw [hsplit] at hfeed
    simp only [List.mem_append, not_or, hstart.2, hescape, mem_markdownText.2] at hfeed ⊢
    tauto

/-- A text with more after it on its line. -/
theorem flat_between {start text rest : JsString} (hstart : Clean start) (hrest : Clean rest)
    (hne : rest ≠ []) : Flat (start ++ text ++ rest) ↔ Clean text := by
  have hdrop : 13 ∉ rest.dropLast := fun hm => hrest.2 (List.dropLast_subset _ hm)
  rw [Flat, List.dropLast_append_of_ne_nil hne]
  simp only [Clean, List.mem_append, not_or, hstart.1, hstart.2, hrest.1, hdrop]
  tauto

theorem digest_units {value : JsString} (h : IsDigest value) :
    ∀ u ∈ value, u ≠ 10 ∧ u ≠ 13 ∧ u ≠ 124 ∧ u ≠ 92 := by
  obtain ⟨hex, rfl, -, hhex⟩ := h
  intro u hu
  rcases List.mem_append.mp hu with hu | hu
  · have hlit : ∀ u ∈ lit "sha256:", u ≠ 10 ∧ u ≠ 13 ∧ u ≠ 124 ∧ u ≠ 92 := by decide
    exact hlit u hu
  · have := hhex u hu
    omega

theorem clean_digest {value : JsString} (h : IsDigest value) : Clean value :=
  ⟨fun hm => (digest_units h _ hm).1 rfl, fun hm => (digest_units h _ hm).2.1 rfl⟩

theorem clean_timestamp {value : JsString} (h : IsTimestamp value) : Clean value := by
  refine ⟨fun hm => ?_, fun hm => ?_⟩
  · exact absurd (h _ hm) (by decide)
  · exact absurd (h _ hm) (by decide)

theorem clean_status (status : VerificationStatus) : Clean (statusText status) := by
  cases status <;> decide

theorem clean_markdownText {value : JsString} : Clean (markdownText value) ↔ 13 ∉ value := by
  rw [Clean, mem_markdownText.2]
  exact ⟨fun h => h.2, fun h => ⟨mem_markdownText.1, h⟩⟩

/-- The part of a row after its first cell. -/
theorem row_split (item : VerificationRef) : ∃ rest, Clean rest ∧ rest ≠ [] ∧
    verificationRow item = lit "| " ++ markdownText item.verificationId ++ rest := by
  refine ⟨lit " | " ++ statusText item.status ++ lit " | " ++ item.verificationDigest ++
    lit " |", ?_, by simp [lit], by simp [verificationRow]⟩
  simp only [clean_append]
  exact ⟨⟨⟨⟨by decide, clean_status _⟩, by decide⟩, clean_digest item.isDigest⟩, by decide⟩

theorem flat_row (item : VerificationRef) :
    Flat (verificationRow item) ↔ 13 ∉ item.verificationId := by
  obtain ⟨rest, hrest, hne, hrow⟩ := row_split item
  rw [hrow, flat_between (by decide) hrest hne, clean_markdownText]

theorem clean_row {item : VerificationRef} (h : 13 ∉ item.verificationId) :
    Clean (verificationRow item) := by
  obtain ⟨rest, hrest, -, hrow⟩ := row_split item
  rw [hrow, clean_append, clean_append, clean_markdownText]
  exact ⟨⟨by decide, h⟩, hrest⟩

/-- A row has three cells. -/
theorem cells_row (item : VerificationRef) : cells (verificationRow item) = 3 := by
  have hdigest : ∀ u ∈ item.verificationDigest, u ≠ 124 ∧ u ≠ 92 := fun u hu =>
    (digest_units item.isDigest u hu).2.2
  have hstatus : ∀ u ∈ statusText item.status, u ≠ 124 ∧ u ≠ 92 := by
    cases item.status <;> decide
  have hbar : ∀ row, pipes false (lit " | " ++ row) = 1 + pipes false row := fun row => by
    simp [lit, pipes]
  have hfirst : ∀ row, pipes false (lit "| " ++ row) = 1 + pipes false row := fun row => by
    simp [lit, pipes]
  simp only [cells, verificationRow, List.append_assoc]
  rw [hfirst, pipes_markdownText, hbar, pipes_plain hstatus, hbar, pipes_plain hdigest]
  decide

/-- The one code span of an identifier's line. -/
theorem codeSpans_line {start value : JsString} (h : ∀ u ∈ start, u ≠ 96 ∧ u ≠ 92) :
    codeSpans (start ++ lit "`" ++ value ++ lit "`") = 1 ↔
      OnePair (ticks (96 :: (value ++ [96]))) := by
  rw [codeSpans_eq_one_iff, List.append_assoc, List.append_assoc, ticks_append h]
  rfl

/-- An identifier without backticks and line endings is one code span. -/
theorem oneSpan_of_plain {value : JsString} (hne : value ≠ []) (hclean : Clean value)
    (htick : 96 ∉ value) : OneSpan value :=
  ⟨hclean.1, hclean.2, onePair_of_no_backtick htick hne⟩

/-! ### When the contents forge nothing -/

/-- The contents of each text of the export stay on its line. -/
theorem texts_flat_iff (r : EvidenceRecord) :
    (∀ t ∈ texts r, Flat t) ↔
      OneLine r.statement ∧ OneLine r.scope ∧ (∀ item ∈ r.supports, OneLine item) ∧
      (∀ item ∈ r.doesNotProve, OneLine item) ∧
      (∀ item ∈ r.verificationRefs, 13 ∉ item.verificationId) ∧
      Clean r.evidenceRecordId ∧ Clean r.runId := by
  have htitle : Flat r.title ↔ OneLine r.statement := flat_markdownText (by decide)
  have hscope : Flat r.scopeLine ↔ OneLine r.scope := flat_markdownText (by decide)
  have hbullet : ∀ item, Flat (bullet item) ↔ OneLine item := fun item =>
    flat_markdownText (by decide)
  have hid : Flat r.idLine ↔ Clean r.evidenceRecordId :=
    flat_between (by decide) (by decide) (by simp [lit])
  have hrun : Flat r.runLine ↔ Clean r.runId :=
    flat_between (by decide) (by decide) (by simp [lit])
  have hdigest : Flat r.digestLine := flat_of_clean
    (clean_append.mpr ⟨clean_append.mpr ⟨by decide, clean_digest r.isDigest⟩, by decide⟩)
  have hobserved : Flat r.observedLine := flat_of_clean
    (clean_append.mpr ⟨by decide, clean_timestamp r.observedAt_valid⟩)
  have hvalid : Flat r.validLine := flat_of_clean
    (clean_append.mpr ⟨by decide, clean_timestamp r.validAt_valid⟩)
  have hrows : (∀ t ∈ rowsOf r, Flat t) ↔
      ∀ item ∈ r.verificationRefs, 13 ∉ item.verificationId := by
    rw [rowsOf]
    by_cases hrefs : r.verificationRefs = []
    · rw [if_pos hrefs, hrefs]
      simp only [List.forall_mem_singleton, List.not_mem_nil, false_implies, implies_true,
        iff_true]
      decide
    · rw [if_neg hrefs]
      simp only [List.forall_mem_map, flat_row]
  have hempty : Flat [] := by decide
  have hsupports : Flat (lit "## Supports") := by decide
  have hlimits : Flat (lit "## Does not prove") := by decide
  have hreferences : Flat (lit "## Verification references") := by decide
  have hheader : Flat (lit "| Verification | Status | Digest |") := by decide
  have hrule : Flat (lit "| --- | --- | --- |") := by decide
  simp only [texts, preamble, List.forall_mem_append, List.forall_mem_cons, List.forall_mem_map,
    hbullet, htitle, hscope, hid, hrun, hrows, hdigest, hobserved, hvalid, hempty, hsupports,
    hlimits, hreferences, hheader, hrule, List.not_mem_nil, false_implies, implies_true, true_and,
    and_true]
  constructor
  · rintro ⟨⟨⟨⟨hstatement, hid, hrun, hscope⟩, hsupport⟩, hlimit⟩, hrefs⟩
    exact ⟨hstatement, hscope, hsupport, hlimit, hrefs, hid, hrun⟩
  · rintro ⟨hstatement, hscope, hsupport, hlimit, hrefs, hid, hrun⟩
    exact ⟨⟨⟨⟨hstatement, hid, hrun, hscope⟩, hsupport⟩, hlimit⟩, hrefs⟩

theorem length_rowsOf (r : EvidenceRecord) :
    (rowsOf r).length = max 1 r.verificationRefs.length := by
  rw [rowsOf]
  cases r.verificationRefs with
  | nil => rfl
  | cons item refs => simp

theorem length_texts (r : EvidenceRecord) :
    (texts r).length =
      19 + r.supports.length + r.doesNotProve.length + max 1 r.verificationRefs.length := by
  simp only [texts, preamble, List.length_append, List.length_map, List.length_cons,
    List.length_nil, length_rowsOf]
  omega

/-- The number of lines is that of the lengths when the contents of each text stay on its line. -/
theorem count_iff (r : EvidenceRecord) :
    (lines (exportEvidenceMarkdown r)).length = 20 + r.supports.length +
      r.doesNotProve.length + max 1 r.verificationRefs.length ↔ ∀ t ∈ texts r, Flat t := by
  have hcount : 20 + r.supports.length + r.doesNotProve.length +
      max 1 r.verificationRefs.length = (texts r).length + 1 := by
    rw [length_texts]
    omega
  rw [← length_lines_iff, exportEvidenceMarkdown_eq, hcount]

theorem texts_row {r : EvidenceRecord} {i : Nat} {item : VerificationRef}
    (h : r.verificationRefs[i]? = some item) :
    (texts r)[19 + r.supports.length + r.doesNotProve.length + i]? =
      some (verificationRow item) := by
  have hne : r.verificationRefs ≠ [] := fun e => by
    rw [e] at h
    cases h
  have hrow : (rowsOf r)[i]? = some (verificationRow item) := by
    rw [rowsOf, if_neg hne, List.getElem?_map, h]
    rfl
  rw [texts, List.getElem?_append_right, ← hrow]
  · congr 1
    simp only [preamble, List.length_append, List.length_map, List.length_cons, List.length_nil]
    omega
  · simp only [preamble, List.length_append, List.length_map, List.length_cons, List.length_nil]
    omega

/-- A record whose statement has a heading of its own after a carriage return. -/
def headed : EvidenceRecord where
  evidenceRecordId := lit "evidence-1"
  evidenceDigest := lit "sha256:" ++ List.replicate 64 48
  runId := lit "run-1"
  statement := lit "It ran." ++ 13 :: lit "# Approved"
  scope := lit "one run"
  supports := [lit "the run completed"]
  doesNotProve := [lit "the content"]
  verificationRefs := []
  observedAt := lit "2026-01-01T00:00:00.000Z"
  validAt := lit "2026-01-01T00:00:00.000Z"
  evidenceRecordId_ne := by decide
  isDigest := ⟨List.replicate 64 48, rfl, by decide, by decide⟩
  runId_ne := by decide
  statement_ne := by decide
  scope_ne := by decide
  supports_ne := by decide
  support_ne := by decide
  doesNotProve_ne := by decide
  limit_ne := by decide
  observedAt_valid := by decide
  validAt_valid := by decide

end Markdown

end Pactmark
