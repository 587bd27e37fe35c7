import Mathlib

/-!
# Core — JSON values, instants and errors

The values the kernel passes around without looking inside them, and the errors it throws.

A `JsonValue` number is the token `JSON.stringify` prints for it, so two numbers are equal when
they are the same double.  `jsonByteLength` is the length in bytes of the UTF-8 encoding of
`JSON.stringify v`, which is all the kernel computes from a value besides its digest.

An instant is what `Date.parse` makes of an ISO timestamp: milliseconds since the epoch.
-/

namespace Pactmark

/-- A JSON value. -/
inductive JsonValue where
  | null
  | bool (b : Bool)
  | number (token : String)
  | string (s : String)
  | array (elements : List JsonValue)
  | object (members : List (String × JsonValue))

namespace JsonValue

/-- The characters `JSON.stringify` prints for `c` inside a string. -/
def escape (c : Char) : String :=
  if c = '"' then "\\\""
  else if c = '\\' then "\\\\"
  else if c = '\n' then "\\n"
  else if c = '\r' then "\\r"
  else if c = '\t' then "\\t"
  else if c.toNat = 8 then "\\b"
  else if c.toNat = 12 then "\\f"
  else if c.toNat < 32 then
    "\\u00" ++ (if c.toNat < 16 then "0" else "1") ++
      String.singleton (Nat.digitChar (c.toNat % 16))
  else String.singleton c

/-- A string literal as `JSON.stringify` prints it. -/
def quoted (s : String) : String :=
  "\"" ++ String.join (s.toList.map escape) ++ "\""

mutual

/-- `JSON.stringify`. -/
def stringify : JsonValue → String
  | .null => "null"
  | .bool b => if b then "true" else "false"
  | .number token => token
  | .string s => quoted s
  | .array vs => "[" ++ String.intercalate "," (stringifyElements vs) ++ "]"
  | .object ms => "\x7b" ++ String.intercalate "," (stringifyMembers ms) ++ "\x7d"

def stringifyElements : List JsonValue → List String
  | [] => []
  | v :: vs => stringify v :: stringifyElements vs

def stringifyMembers : List (String × JsonValue) → List String
  | [] => []
  | (k, v) :: ms => (quoted k ++ ":" ++ stringify v) :: stringifyMembers ms

end

end JsonValue

/-- `new TextEncoder().encode(JSON.stringify(value)).byteLength`. -/
def jsonByteLength (v : JsonValue) : Nat :=
  v.stringify.utf8ByteSize

/-- Milliseconds since the epoch, as `Date.parse` gives them. -/
abbrev Instant := Nat

/-- A `sha256:` digest. -/
abbrev Digest := String

/-- Two identifiers are a key. -/
instance instLawfulBEqKey : LawfulBEq (String × String) :=
  inferInstance

/-! ### Errors -/

/-- The registered error codes the modelled functions use. -/
inductive KafErrorCode where
  | KAF_SCHEMA_INVALID
  | KAF_STORAGE_NOT_FOUND
  | KAF_STORAGE_CONCURRENCY_CONFLICT
  | KAF_STORAGE_SECURITY_PROFILE
  | KAF_RUNTIME_NOT_READY
  | KAF_RUNTIME_CAPABILITY_MISSING
  | KAF_RUNTIME_INVALID_TRANSITION
  | KAF_RUNTIME_EVENT_BINDING
  | KAF_RUNTIME_EVENT_SEQUENCE
  | KAF_RUNTIME_AGENT_DEFINITION_MISMATCH
  | KAF_RUNTIME_MODEL_EMPTY
  | KAF_RUNTIME_TERMINAL
  | KAF_POLICY_DENIED
  | KAF_AUTHORIZATION_BINDING_MISMATCH
  | KAF_AUTHORIZATION_EXPIRED
  | KAF_EFFECT_ABANDONED_UNCERTAIN
  | KAF_MODEL_ADAPTER_MISMATCH
  | KAF_MODEL_CREDENTIAL_REQUIRED
  | KAF_MODEL_RESOURCE_LIMIT_EXCEEDED
  | KAF_TOOL_EXECUTION_FAILED
  | KAF_VERIFICATION_REQUIRED
  | KAF_EVIDENCE_INVALID_REFERENCE
  | KAF_COMMAND_IDEMPOTENCY_EXPIRED
  | KAF_HTTP_IDEMPOTENCY_CONFLICT
  | KAF_ADMISSION_DENIED
  deriving DecidableEq, Repr

/-- `error.code`. -/
def KafErrorCode.text : KafErrorCode → String
  | .KAF_SCHEMA_INVALID => "KAF_SCHEMA_INVALID"
  | .KAF_STORAGE_NOT_FOUND => "KAF_STORAGE_NOT_FOUND"
  | .KAF_STORAGE_CONCURRENCY_CONFLICT => "KAF_STORAGE_CONCURRENCY_CONFLICT"
  | .KAF_STORAGE_SECURITY_PROFILE => "KAF_STORAGE_SECURITY_PROFILE"
  | .KAF_RUNTIME_NOT_READY => "KAF_RUNTIME_NOT_READY"
  | .KAF_RUNTIME_CAPABILITY_MISSING => "KAF_RUNTIME_CAPABILITY_MISSING"
  | .KAF_RUNTIME_INVALID_TRANSITION => "KAF_RUNTIME_INVALID_TRANSITION"
  | .KAF_RUNTIME_EVENT_BINDING => "KAF_RUNTIME_EVENT_BINDING"
  | .KAF_RUNTIME_EVENT_SEQUENCE => "KAF_RUNTIME_EVENT_SEQUENCE"
  | .KAF_RUNTIME_AGENT_DEFINITION_MISMATCH => "KAF_RUNTIME_AGENT_DEFINITION_MISMATCH"
  | .KAF_RUNTIME_MODEL_EMPTY => "KAF_RUNTIME_MODEL_EMPTY"
  | .KAF_RUNTIME_TERMINAL => "KAF_RUNTIME_TERMINAL"
  | .KAF_POLICY_DENIED => "KAF_POLICY_DENIED"
  | .KAF_AUTHORIZATION_BINDING_MISMATCH => "KAF_AUTHORIZATION_BINDING_MISMATCH"
  | .KAF_AUTHORIZATION_EXPIRED => "KAF_AUTHORIZATION_EXPIRED"
  | .KAF_EFFECT_ABANDONED_UNCERTAIN => "KAF_EFFECT_ABANDONED_UNCERTAIN"
  | .KAF_MODEL_ADAPTER_MISMATCH => "KAF_MODEL_ADAPTER_MISMATCH"
  | .KAF_MODEL_CREDENTIAL_REQUIRED => "KAF_MODEL_CREDENTIAL_REQUIRED"
  | .KAF_MODEL_RESOURCE_LIMIT_EXCEEDED => "KAF_MODEL_RESOURCE_LIMIT_EXCEEDED"
  | .KAF_TOOL_EXECUTION_FAILED => "KAF_TOOL_EXECUTION_FAILED"
  | .KAF_VERIFICATION_REQUIRED => "KAF_VERIFICATION_REQUIRED"
  | .KAF_EVIDENCE_INVALID_REFERENCE => "KAF_EVIDENCE_INVALID_REFERENCE"
  | .KAF_COMMAND_IDEMPOTENCY_EXPIRED => "KAF_COMMAND_IDEMPOTENCY_EXPIRED"
  | .KAF_HTTP_IDEMPOTENCY_CONFLICT => "KAF_HTTP_IDEMPOTENCY_CONFLICT"
  | .KAF_ADMISSION_DENIED => "KAF_ADMISSION_DENIED"

/-- `RuntimeBoundaryErrorClassification`. -/
inductive BoundaryErrorClassification where
  | aborted
  | timed_out
  | retryable
  | non_retryable
  | uncertain
  deriving DecidableEq, Repr

/-- The `details` of a `KafError`: the keys the kernel itself reads (`reason`,
`retryClassification`), and the remaining ones by name. -/
structure ErrorDetails where
  reason : Option String := none
  retryClassification : Option BoundaryErrorClassification := none
  others : List (String × String) := []
  deriving DecidableEq, Repr

/-- `KafError`. -/
structure KafError where
  code : KafErrorCode
  details : ErrorDetails := {}
  retryable : Bool := false
  deriving DecidableEq, Repr

/-- What a JavaScript `throw` can carry here: a `KafError`, the `DOMException` of an abort, an
error of a collaborator (`isError` is `instanceof Error`), or the wrapper
`RuntimeBoundaryInvocationError` around what a boundary call threw. -/
inductive Thrown where
  | kaf (error : KafError)
  | abort
  | host (name : String) (isError : Bool)
  | boundaryInvocation (boundaryError : Thrown)
  deriving DecidableEq, Repr

/-- `new KafError(code)`. -/
def kafError (code : KafErrorCode) : Thrown :=
  .kaf { code }

/-- `new KafError(code, { details: { reason } })`. -/
def kafReason (code : KafErrorCode) (reason : String) : Thrown :=
  .kaf { code, details := { reason := some reason } }

/-- `conflict(reason)` of the memory stores. -/
def conflict (reason : String) : Thrown :=
  kafReason .KAF_STORAGE_CONCURRENCY_CONFLICT reason

end Pactmark
