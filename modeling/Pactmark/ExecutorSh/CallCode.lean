import Pactmark.Core.Canonical
import Pactmark.Core.Tokens
import Pactmark.Durable.Scripts

/-!
# ExecutorSh — the code of a call

`executorSingleCallCode` of `executor-sh/src/adapter.ts`: the script that an executor is sent to
call one tool.  `JSON.stringify` of a text has no lone surrogates to escape: the address of a tool
is ASCII, and canonical JSON has none.

* `reads_safeJavaScriptString`: a literal is read back as the text it was made of, on one line.
* `executorSingleCallCode_calls`: the script has the tokens of its template, whatever the address
  and the input are, and its input is the one it was made of.
-/

namespace Pactmark.ExecutorSh

open Durable
open JsString (lit)

/-- `replaceAll("\u2028", "\\u2028").replaceAll("\u2029", "\\u2029")`, of one unit. -/
def escapeLineTerminator (unit : Nat) : JsString :=
  if unit = 0x2028 then lit "\\u2028" else if unit = 0x2029 then lit "\\u2029" else [unit]

/-- `safeJavaScriptString`. -/
def safeJavaScriptString (value : JsString) : JsString :=
  (stringifyString value).flatMap escapeLineTerminator

/-- The script for a text of JSON. -/
def callCode (toolAddress canonicalInput : JsString) : JsString :=
  (lit "const input = JSON.parse(" ++ safeJavaScriptString canonicalInput ++ lit ");") ++
    lit "\n" ++ (lit "return await tools[" ++ safeJavaScriptString toolAddress ++ lit "](input);")

/-- `executorSingleCallCode`. -/
def executorSingleCallCode {Num : Type} (num : NumberFormat Num) (toolAddress : JsString)
    (input : Json Num) : Except CanonicalJsonError JsString :=
  (canonicalJsonStringify num input).map (callCode toolAddress)

/-- The tokens of `const input = JSON.parse(text); return await tools[address](input);`. -/
def callTokens (address text : JsString) : List Script.Token :=
  [.name (lit "const"), .name (lit "input"), .punctuator 61, .name (lit "JSON"), .punctuator 46,
    .name (lit "parse"), .punctuator 40, .string text, .punctuator 41, .punctuator 59,
    .name (lit "return"), .name (lit "await"), .name (lit "tools"), .punctuator 91,
    .string address, .punctuator 93, .punctuator 40, .name (lit "input"), .punctuator 41,
    .punctuator 59]

/-! ### Literals -/

/-- What a unit of a text is written as. -/
def escapeScriptUnit (unit : Nat) : JsString :=
  (escapeUnit unit).flatMap escapeLineTerminator

theorem safeJavaScriptString_eq (value : JsString) :
    safeJavaScriptString value = 34 :: (value.flatMap escapeScriptUnit ++ [34]) := by
  unfold safeJavaScriptString stringifyString
  rw [List.flatMap_cons, List.flatMap_append, List.flatMap_assoc]
  rfl

theorem hexadecimal_hexDigit : ∀ n, n < 16 → Script.hexadecimal (hexDigit n) = some n := by
  decide

theorem escapeLineTerminator_of_lt {unit : Nat} (h : unit < 0x2028) :
    escapeLineTerminator unit = [unit] := by
  unfold escapeLineTerminator
  rw [if_neg (by omega), if_neg (by omega)]

theorem hexDigit_lt {n : Nat} (h : n < 16) : hexDigit n < 0x2028 := by
  unfold hexDigit
  split <;> omega

/-- A letter escape of JSON is one of scripts. -/
theorem string_letter {letter unit : Nat} (h : escapedUnit letter = some unit) (rest : JsString) :
    Script.string (92 :: letter :: rest) =
      (Script.string rest).map fun p => (unit :: p.1, p.2) := by
  unfold escapedUnit at h
  split_ifs at h with h₁ h₂ h₃ h₄ h₅ h₆
  · obtain rfl := Option.some.inj h
    rcases h₁ with rfl | rfl | rfl <;> rfl
  all_goals
    obtain rfl := Option.some.inj h
    subst_vars
    rfl

/-- **A unit is read back** in a script. -/
theorem string_escapeScriptUnit (unit : Nat) (rest : JsString) :
    Script.string (escapeScriptUnit unit ++ rest) =
      (Script.string rest).map fun p => (unit :: p.1, p.2) := by
  unfold escapeScriptUnit
  obtain ⟨letter, he, -, hd⟩ | ⟨hu, he⟩ | ⟨h₁, h₂, h₃, he⟩ := escapeUnit_cases unit
  · have hletter : letter < 0x2028 := by
      unfold escapedUnit at hd
      split_ifs at hd <;> omega
    rw [he]
    simp only [List.flatMap_cons, List.flatMap_nil, escapeLineTerminator_of_lt hletter,
      escapeLineTerminator_of_lt (show 92 < 0x2028 by decide), List.cons_append, List.nil_append]
    exact string_letter hd rest
  · have ha := hexadecimal_hexDigit (unit / 16) (by omega)
    have hb := hexadecimal_hexDigit (unit % 16) (by omega)
    have hz : Script.hexadecimal 48 = some 0 := rfl
    have hvalue : 4096 * 0 + 256 * 0 + 16 * (unit / 16) + unit % 16 = unit := by omega
    rw [he]
    simp only [List.flatMap_cons, List.flatMap_nil,
      escapeLineTerminator_of_lt (show 92 < 0x2028 by decide),
      escapeLineTerminator_of_lt (show 117 < 0x2028 by decide),
      escapeLineTerminator_of_lt (show 48 < 0x2028 by decide),
      escapeLineTerminator_of_lt (hexDigit_lt (show unit / 16 < 16 by omega)),
      escapeLineTerminator_of_lt (hexDigit_lt (show unit % 16 < 16 by omega)),
      List.cons_append, List.nil_append]
    simp only [Script.string, ha, hb, hz, hvalue]
  · rw [he]
    simp only [List.flatMap_cons, List.flatMap_nil, List.append_nil]
    unfold escapeLineTerminator
    split
    · rename_i hls
      subst hls
      rfl
    · split
      · rename_i hps
        subst hps
        rfl
      · exact Script.string_plain h₂ h₃ (by omega) (by omega) rest

/-- **A literal is read back** as the text it was made of. -/
theorem reads_safeJavaScriptString (value rest : JsString) :
    Script.Reads (safeJavaScriptString value ++ rest) [.string value] rest := by
  refine Script.reads_next ?_
  have hliteral : Script.string (value.flatMap escapeScriptUnit ++ 34 :: rest) =
      some (value, rest) :=
    Script.string_flatMap string_escapeScriptUnit value rest
  rw [safeJavaScriptString_eq, List.cons_append, List.append_assoc, List.singleton_append]
  unfold Script.next
  rw [List.dropWhile_cons_of_neg (by decide)]
  simp only [if_true, hliteral]
  rfl

/-! ### The script -/

theorem reads_before_input (rest : JsString) :
    Script.Reads (lit "const input = JSON.parse(" ++ rest)
      [.name (lit "const"), .name (lit "input"), .punctuator 61, .name (lit "JSON"),
        .punctuator 46, .name (lit "parse"), .punctuator 40] rest := by
  have hlit : lit "const input = JSON.parse(" =
      [99, 111, 110, 115, 116, 32, 105, 110, 112, 117, 116, 32, 61, 32, 74, 83, 79, 78, 46, 112, 97,
        114, 115, 101, 40] := by decide
  rw [hlit]
  exact (Script.reads_next rfl).trans <| (Script.reads_next rfl).trans <|
    (Script.reads_next rfl).trans <| (Script.reads_next rfl).trans <|
    (Script.reads_next rfl).trans <| (Script.reads_next rfl).trans <| Script.reads_next rfl

theorem reads_between (rest : JsString) :
    Script.Reads (lit ");" ++ (lit "\n" ++ (lit "return await tools[" ++ rest)))
      [.punctuator 41, .punctuator 59, .name (lit "return"), .name (lit "await"),
        .name (lit "tools"), .punctuator 91] rest := by
  have hlit : lit ");" ++ (lit "\n" ++ (lit "return await tools[" ++ rest)) =
      [41, 59, 10, 114, 101, 116, 117, 114, 110, 32, 97, 119, 97, 105, 116, 32, 116, 111, 111, 108,
        115, 91] ++ rest := by
    rw [← List.append_assoc, ← List.append_assoc]
    congr 1
  rw [hlit]
  exact (Script.reads_next rfl).trans <| (Script.reads_next rfl).trans <|
    (Script.reads_next rfl).trans <| (Script.reads_next rfl).trans <|
    (Script.reads_next rfl).trans <| Script.reads_next rfl

theorem reads_after_address :
    Script.Reads (lit "](input);")
      [.punctuator 93, .punctuator 40, .name (lit "input"), .punctuator 41, .punctuator 59] [] := by
  have hlit : lit "](input);" = [93, 40, 105, 110, 112, 117, 116, 41, 59] := by decide
  rw [hlit]
  exact (Script.reads_next rfl).trans <| (Script.reads_next rfl).trans <|
    (Script.reads_next rfl).trans <| (Script.reads_next rfl).trans <| Script.reads_next rfl

/-- The script has the tokens of its template. -/
theorem reads_callCode (address text : JsString) :
    Script.Reads (callCode address text) (callTokens address text) [] := by
  have h := (reads_before_input _).trans <| (reads_safeJavaScriptString text _).trans <|
    (reads_between _).trans <| (reads_safeJavaScriptString address _).trans reads_after_address
  simpa only [callCode, callTokens, List.append_assoc, List.cons_append, List.nil_append] using h

/-- **The script calls one tool**: whatever the input and the address are, its tokens are those of
its template with two string literals in it, of which one is the address, and the strict parser
reads the input back from the other one, up to the order of its keys and the signs of its zeros. -/
theorem executorSingleCallCode_calls {Num : Type} (num : NumberFormat Num) (toolAddress : JsString)
    (input : JsonDocument Num) (code : JsString)
    (h : executorSingleCallCode num toolAddress input.1 = .ok code) :
    ∃ text, Script.tokens code.length code = some (callTokens toolAddress text) ∧
      parseJsonStrict num text = .ok (Json.canon num input.1) := by
  obtain ⟨text, htext, rfl⟩ : ∃ text, canonicalJsonStringify num input.1 = .ok text ∧
      callCode toolAddress text = code := by
    unfold executorSingleCallCode at h
    cases htext : canonicalJsonStringify num input.1 with
    | error e =>
        rw [htext] at h
        cases h
    | ok text =>
        rw [htext] at h
        exact ⟨text, rfl, Except.ok.inj h⟩
  refine ⟨text, (reads_callCode toolAddress text).tokens ?_, ?_⟩
  · have hbefore : (lit "const input = JSON.parse(").length = 25 := by decide
    simp only [callCode, List.length_append, hbefore]
    exact (show 20 ≤ 25 by decide).trans (by omega)
  · obtain ⟨rfl, hprintable⟩ := Json.canonicalize_eq_render input.1 _ _ input.2 htext
    exact Json.parseJsonStrict_render hprintable

/-- A text that would end the literal, and the line, if it were not escaped. -/
def quoted : JsonDocument SampleNumber :=
  ⟨.string (lit "\");//" ++ [0x2028]), trivial⟩

theorem executorSingleCallCode_calls_quoted :
    ∃ text, Script.tokens (callCode (lit "mail.read")
          (stringifyString (lit "\");//" ++ [0x2028]))).length
        (callCode (lit "mail.read") (stringifyString (lit "\");//" ++ [0x2028]))) =
          some (callTokens (lit "mail.read") text) ∧
      parseJsonStrict SampleNumber.format text = .ok (Json.canon SampleNumber.format quoted.1) :=
  executorSingleCallCode_calls SampleNumber.format (lit "mail.read") quoted _ rfl

end Pactmark.ExecutorSh
