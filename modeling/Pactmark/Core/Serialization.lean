import Mathlib

/-!
# Core — canonical JSON and the strict parser

`canonicalJsonStringify` and `parseJsonStrict` of `core/src/serialization.ts`.

A JavaScript string is the list of its UTF-16 code units, because that is what the two
functions look at: keys are sorted by code units, surrogates are paired by code units, and the
parser walks the source by code units.  Numbers are a parameter (`NumberFormat`): what
`JSON.stringify`, `Number` and the three predicates of `Number` do with a double, with the laws
of JavaScript the two functions rest on.  A `Json` is a finite tree, so the check for cycles
never fires.

The parser keeps its offset and what is left of the source.  Its recursion is by fuel; a text
of length `n` needs no more than `2 * n + 2`.
-/

namespace Pactmark

/-- A JavaScript string, as its UTF-16 code units. -/
abbrev JsString := List Nat

namespace JsString

instance : LawfulBEq JsString :=
  inferInstance

/-- An ASCII literal. -/
def lit (s : String) : JsString :=
  s.toList.map Char.toNat

/-- `entries.join(",")`. -/
def joinComma : List JsString → JsString
  | [] => []
  | [x] => x
  | x :: xs => x ++ 44 :: joinComma xs

end JsString

open JsString (lit joinComma)

/-- `CanonicalJsonErrorCode`. -/
inductive CanonicalJsonErrorCode where
  | invalidJson
  | duplicateKey
  | invalidUnicode
  | nonIJsonNumber
  | unsupportedValue
  | cyclicValue
  deriving DecidableEq, Repr

/-- `CanonicalJsonError`. -/
structure CanonicalJsonError where
  code : CanonicalJsonErrorCode
  message : JsString
  path : JsString
  deriving DecidableEq, Repr

/-! ### Strings -/

def isHighSurrogate (unit : Nat) : Bool :=
  0xd800 ≤ unit && unit ≤ 0xdbff

def isLowSurrogate (unit : Nat) : Bool :=
  0xdc00 ≤ unit && unit ≤ 0xdfff

/-- `assertValidUnicode`. -/
def assertValidUnicode (path : JsString) : JsString → Except CanonicalJsonError Unit
  | [] => .ok ()
  | unit :: rest =>
    if isHighSurrogate unit then
      match rest with
      | next :: rest =>
        if isLowSurrogate next then assertValidUnicode path rest
        else .error ⟨.invalidUnicode, lit "Unpaired high surrogate", path⟩
      | [] => .error ⟨.invalidUnicode, lit "Unpaired high surrogate", path⟩
    else if isLowSurrogate unit then
      .error ⟨.invalidUnicode, lit "Unpaired low surrogate", path⟩
    else assertValidUnicode path rest

/-- A lower-case hexadecimal digit. -/
def hexDigit (n : Nat) : Nat :=
  if n < 10 then 48 + n else 87 + n

/-- The units `JSON.stringify` prints for a unit of a string without lone surrogates. -/
def escapeUnit (unit : Nat) : JsString :=
  if unit = 8 then lit "\\b"
  else if unit = 9 then lit "\\t"
  else if unit = 10 then lit "\\n"
  else if unit = 12 then lit "\\f"
  else if unit = 13 then lit "\\r"
  else if unit = 34 then lit "\\\""
  else if unit = 92 then lit "\\\\"
  else if unit < 32 then lit "\\u00" ++ [hexDigit (unit / 16), hexDigit (unit % 16)]
  else [unit]

/-- `JSON.stringify` of a string without lone surrogates. -/
def stringifyString (s : JsString) : JsString :=
  34 :: (s.flatMap escapeUnit ++ [34])

/-- `quote`. -/
def quote (value path : JsString) : Except CanonicalJsonError JsString := do
  assertValidUnicode path value
  return stringifyString value

/-- The value of a hexadecimal digit. -/
def hexValue (unit : Nat) : Option Nat :=
  if 48 ≤ unit ∧ unit ≤ 57 then some (unit - 48)
  else if 97 ≤ unit ∧ unit ≤ 102 then some (unit - 87)
  else if 65 ≤ unit ∧ unit ≤ 70 then some (unit - 55)
  else none

/-- The unit a one-letter escape stands for. -/
def escapedUnit (letter : Nat) : Option Nat :=
  if letter = 34 ∨ letter = 92 ∨ letter = 47 then some letter
  else if letter = 98 then some 8
  else if letter = 102 then some 12
  else if letter = 110 then some 10
  else if letter = 114 then some 13
  else if letter = 116 then some 9
  else none

/-- `JSON.parse` of a string literal, on what stands between its quotes. -/
def parseStringBody : JsString → Option JsString
  | [] => some []
  | [92] => none
  | 92 :: 117 :: a :: b :: c :: d :: rest => do
    let value :=
      4096 * (← hexValue a) + 256 * (← hexValue b) + 16 * (← hexValue c) + (← hexValue d)
    return value :: (← parseStringBody rest)
  | 92 :: letter :: rest => do
    return (← escapedUnit letter) :: (← parseStringBody rest)
  | unit :: rest =>
    if unit = 34 ∨ unit ≤ 0x1f then none
    else do return unit :: (← parseStringBody rest)

/-! ### Number tokens -/

def isDigit (unit : Nat) : Bool :=
  48 ≤ unit && unit ≤ 57

/-- `-?` -/
def scanSign (source : JsString) : JsString × JsString :=
  if source.head? = some 45 then ([45], source.drop 1) else ([], source)

/-- `\d*` -/
def scanDigits (source : JsString) : JsString × JsString :=
  (source.takeWhile isDigit, source.dropWhile isDigit)

/-- `(?:0|[1-9]\d*)` -/
def scanInteger : JsString → Option (JsString × JsString)
  | [] => none
  | unit :: rest =>
    if unit = 48 then some ([48], rest)
    else if isDigit unit then some (unit :: (scanDigits rest).1, (scanDigits rest).2)
    else none

/-- `(?:\.\d+)?` -/
def scanFraction (source : JsString) : JsString × JsString :=
  let (digits, remaining) := scanDigits (source.drop 1)
  if source.head? = some 46 ∧ digits ≠ [] then (46 :: digits, remaining) else ([], source)

/-- `[+-]?` -/
def scanExponentSign (source : JsString) : JsString × JsString :=
  if source.head? = some 43 then ([43], source.drop 1)
  else if source.head? = some 45 then ([45], source.drop 1)
  else ([], source)

/-- `(?:[eE][+-]?\d+)?` -/
def scanExponent (source : JsString) : JsString × JsString :=
  match source with
  | [] => ([], [])
  | unit :: rest =>
    let (sign, afterSign) := scanExponentSign rest
    let (digits, remaining) := scanDigits afterSign
    if (unit = 101 ∨ unit = 69) ∧ digits ≠ [] then (unit :: (sign ++ digits), remaining)
    else ([], source)

/-- `/^-?(?:0|[1-9]\d*)(?:\.\d+)?(?:[eE][+-]?\d+)?/`: the match and what follows it. -/
def scanNumber (source : JsString) : Option (JsString × JsString) := do
  let (sign, source) := scanSign source
  let (integer, source) ← scanInteger source
  let (fraction, source) := scanFraction source
  let (exponent, source) := scanExponent source
  return (sign ++ integer ++ fraction ++ exponent, source)

/-- The number a run of digits denotes. -/
def digitsValue (digits : JsString) : Nat :=
  digits.foldl (fun n d => 10 * n + (d - 48)) 0

/-- `BigInt(text)`, of what `[+-]?\d+` matches. -/
def bigInt : JsString → Int
  | 45 :: digits => -(digitsValue digits : Int)
  | 43 :: digits => digitsValue digits
  | digits => digitsValue digits

/-- `/^(-?)(\d+)(?:\.(\d+))?(?:[eE]([+-]?\d+))?$/u`: the four groups. -/
def matchDecimal (token : JsString) : Option (JsString × JsString × JsString × JsString) :=
  let (sign, source) := scanSign token
  let (integer, source) := scanDigits source
  let (fraction, source) := scanFraction source
  let (exponent, source) := scanExponent source
  if integer = [] ∨ source ≠ [] then none
  else some (sign, integer, fraction.drop 1, exponent.drop 1)

/-- `normalizedDecimalIdentity`. -/
def normalizedDecimalIdentity (token : JsString) : Option JsString := do
  let (sign, integerDigits, fractionalDigits, exponentText) ← matchDecimal token
  let coefficientDigits := (integerDigits ++ fractionalDigits).dropWhile (· == 48)
  if coefficientDigits = [] then return lit "0e0"
  let significant := coefficientDigits.rdropWhile (· == 48)
  let exponent := bigInt exponentText - fractionalDigits.length +
    (coefficientDigits.length - significant.length : Nat)
  return sign ++ significant ++ lit "e" ++ lit (toString exponent)

/-! ### Numbers -/

/-- JavaScript numbers, as far as serialization uses them: `JSON.stringify`, `Number`,
`Number.isFinite`, `Number.isInteger` and `Number.isSafeInteger`.  `unsigned x` is `x` with the
sign of a zero dropped (`x + 0`).  The laws are those of JavaScript: a finite number prints as
a JSON number, reads back as itself up to the sign of zero, and nothing here but the number
itself shows that sign. -/
structure NumberFormat (Num : Type) where
  stringify : Num → JsString
  parse : JsString → Num
  isFinite : Num → Bool
  isInteger : Num → Bool
  isSafeInteger : Num → Bool
  unsigned : Num → Num
  unsigned_unsigned : ∀ x, unsigned (unsigned x) = unsigned x
  parse_stringify : ∀ x, isFinite x → parse (stringify x) = unsigned x
  scanNumber_stringify : ∀ x, isFinite x → scanNumber (stringify x) = some (stringify x, [])
  stringify_unsigned : ∀ x, stringify (unsigned x) = stringify x
  isFinite_unsigned : ∀ x, isFinite (unsigned x) = isFinite x
  isInteger_unsigned : ∀ x, isInteger (unsigned x) = isInteger x
  isSafeInteger_unsigned : ∀ x, isSafeInteger (unsigned x) = isSafeInteger x

variable {Num : Type}

/-- `serializeCanonicalNumber`. -/
def serializeCanonicalNumber (num : NumberFormat Num) (value : Num) (path : JsString) :
    Except CanonicalJsonError JsString :=
  let serialized := num.stringify value
  let unsafePlainInteger :=
    num.isInteger value && !num.isSafeInteger value &&
      !serialized.any (fun unit => unit == 101 || unit == 69)
  if !num.isFinite value || unsafePlainInteger then
    .error ⟨.nonIJsonNumber,
      lit ("Numbers must be finite IEEE-754 values and integers must be exactly " ++
        "representable"), path⟩
  else .ok serialized

/-- `assertUnroundedIntegerToken`. -/
def assertUnroundedIntegerToken (num : NumberFormat Num) (token : JsString) (value : Num)
    (canonicalToken path : JsString) : Except CanonicalJsonError Unit :=
  if !num.isInteger value then .ok ()
  else if normalizedDecimalIdentity token ≠ normalizedDecimalIdentity canonicalToken then
    .error ⟨.nonIJsonNumber,
      lit "Integer number tokens must not be rounded to another canonical value", path⟩
  else .ok ()

/-! ### Values -/

/-- A JSON value.  An object is the list of its members, in the order of its own keys. -/
inductive Json (Num : Type) where
  | null
  | bool (b : Bool)
  | number (x : Num)
  | string (s : JsString)
  | array (items : List (Json Num))
  | object (members : List (JsString × Json Num))

/-- `${path}[${String(index)}]`. -/
def indexPath (path : JsString) (index : Nat) : JsString :=
  path ++ lit "[" ++ lit (toString index) ++ lit "]"

/-- `${path}.${key}`. -/
def memberPath (path key : JsString) : JsString :=
  path ++ lit "." ++ key

/-- `${path}.[key]`. -/
def keyPath (path : JsString) : JsString :=
  path ++ lit ".[key]"

/-- The order of `Array.prototype.sort` on keys: by UTF-16 code units. -/
def keyLE (a b : JsString) : Bool :=
  decide (a ≤ b)

mutual

/-- `canonicalize`. -/
def canonicalize (num : NumberFormat Num) (path : JsString) :
    Json Num → Except CanonicalJsonError JsString
  | .null => .ok (lit "null")
  | .string s => quote s path
  | .bool b => .ok (if b then lit "true" else lit "false")
  | .number x => serializeCanonicalNumber num x path
  | .array items => do
    let entries ← canonicalizeItems num path 0 items
    return lit "[" ++ joinComma entries ++ lit "]"
  | .object members => do
    let sorted := (canonicalizeMembers num path members).mergeSort (keyLE ·.1 ·.1)
    let fields ← sorted.mapM (·.2)
    return lit "\x7b" ++ joinComma fields ++ lit "\x7d"

/-- The entries of an array from an index on. -/
def canonicalizeItems (num : NumberFormat Num) (path : JsString) (index : Nat) :
    List (Json Num) → Except CanonicalJsonError (List JsString)
  | [] => .ok []
  | item :: items => do
    let entry ← canonicalize num (indexPath path index) item
    let entries ← canonicalizeItems num path (index + 1) items
    return entry :: entries

/-- The field of each member.  They are computed in the order of the sorted keys, so the first
of them that throws decides the error. -/
def canonicalizeMembers (num : NumberFormat Num) (path : JsString) :
    List (JsString × Json Num) → List (JsString × Except CanonicalJsonError JsString)
  | [] => []
  | (key, value) :: members =>
    (key, do
      let name ← quote key (keyPath path)
      let text ← canonicalize num (memberPath path key) value
      return name ++ lit ":" ++ text) :: canonicalizeMembers num path members

end

/-- `canonicalJsonStringify`. -/
def canonicalJsonStringify (num : NumberFormat Num) (value : Json Num) :
    Except CanonicalJsonError JsString :=
  canonicalize num (lit "$") value

/-! ### The strict parser -/

/-- Why the parser gives no value.  Running out of fuel is the model's, not the source's. -/
inductive ParseFailure where
  | error (e : CanonicalJsonError)
  | outOfFuel

/-- Where the parser stands: its offset, and the source from there on. -/
structure Cursor where
  offset : Nat
  rest : JsString

/-- `this.offset += n`. -/
def Cursor.advance (c : Cursor) (n : Nat) : Cursor :=
  ⟨c.offset + n, c.rest.drop n⟩

/-- `fail`. -/
def parserFail {α : Type} (offset : Nat) (message : String) : Except ParseFailure α :=
  .error (.error ⟨.invalidJson, lit message ++ lit " at offset " ++ lit (toString offset),
    lit "$"⟩)

/-- An error of `serializeCanonicalNumber` and the like, out of the parser. -/
def raised {α : Type} : Except CanonicalJsonError α → Except ParseFailure α
  | .ok a => .ok a
  | .error e => .error (.error e)

def isWhitespace (unit : Nat) : Bool :=
  unit == 9 || unit == 10 || unit == 13 || unit == 32

/-- `whitespace`. -/
def Cursor.whitespace (c : Cursor) : Cursor :=
  c.advance (c.rest.takeWhile isWhitespace).length

/-- The loop of `readString`: the literal from the offset on up to its closing quote, and the
cursor behind that. -/
def scanString (offset : Nat) : JsString → Except ParseFailure (JsString × Cursor)
  | [] => parserFail offset "Unterminated JSON string"
  | 34 :: rest => .ok ([], ⟨offset + 1, rest⟩)
  | [92] => parserFail (offset + 2) "Unterminated JSON string"
  | 92 :: escaped :: rest => do
    let (body, c) ← scanString (offset + 2) rest
    return (92 :: escaped :: body, c)
  | unit :: rest =>
    if unit ≤ 0x1f then parserFail offset "Invalid control character in string"
    else do
      let (body, c) ← scanString (offset + 1) rest
      return (unit :: body, c)

/-- `readString`, at the opening quote. -/
def readString (path : JsString) (c : Cursor) : Except ParseFailure (JsString × Cursor) := do
  let (body, c) ← scanString (c.offset + 1) (c.rest.drop 1)
  match parseStringBody body with
  | none => parserFail c.offset "Invalid JSON string"
  | some value => do
    raised (assertValidUnicode path value)
    return (value, c)

/-- `readNumber`. -/
def readNumber (num : NumberFormat Num) (path : JsString) (c : Cursor) :
    Except ParseFailure (Num × Cursor) :=
  match scanNumber c.rest with
  | none => parserFail c.offset "Expected a JSON value"
  | some (token, rest) => do
    let value := num.parse token
    let canonicalToken ← raised (serializeCanonicalNumber num value path)
    raised (assertUnroundedIntegerToken num token value canonicalToken path)
    return (value, ⟨c.offset + token.length, rest⟩)

mutual

/-- `readValue`. -/
def readValue (num : NumberFormat Num) :
    Nat → JsString → Cursor → Except ParseFailure (Json Num × Cursor)
  | 0, _, _ => .error .outOfFuel
  | fuel + 1, path, c => do
    let c := c.whitespace
    if c.rest.head? = some 34 then
      let (s, c) ← readString path c
      return (.string s, c)
    else if c.rest.head? = some 123 then
      let c := (c.advance 1).whitespace
      if c.rest.head? = some 125 then return (.object [], c.advance 1)
      else readMembers num fuel path [] c
    else if c.rest.head? = some 91 then
      let c := (c.advance 1).whitespace
      if c.rest.head? = some 93 then return (.array [], c.advance 1)
      else readItems num fuel path [] c
    else if (lit "true").isPrefixOf c.rest then return (.bool true, c.advance 4)
    else if (lit "false").isPrefixOf c.rest then return (.bool false, c.advance 5)
    else if (lit "null").isPrefixOf c.rest then return (.null, c.advance 4)
    else
      let (x, c) ← readNumber num path c
      return (.number x, c)

/-- The loop of `readObject`, with the members read so far. -/
def readMembers (num : NumberFormat Num) :
    Nat → JsString → List (JsString × Json Num) → Cursor →
      Except ParseFailure (Json Num × Cursor)
  | 0, _, _, _ => .error .outOfFuel
  | fuel + 1, path, result, c => do
    let c := c.whitespace
    if c.rest.head? ≠ some 34 then parserFail c.offset "Object key must be a JSON string"
    else
      let (key, c) ← readString (keyPath path) c
      if result.any (fun member => member.1 == key) then
        .error (.error ⟨.duplicateKey, lit "Duplicate object key: " ++ key, path⟩)
      else
        let c := c.whitespace
        if c.rest.head? ≠ some 58 then parserFail c.offset "Expected ':' after object key"
        else
          let (value, c) ← readValue num fuel (memberPath path key) (c.advance 1)
          let c := c.whitespace
          if c.rest.head? = some 125 then
            return (.object (result ++ [(key, value)]), c.advance 1)
          else if c.rest.head? ≠ some 44 then
            parserFail c.offset "Expected ',' or '\x7d' in object"
          else readMembers num fuel path (result ++ [(key, value)]) (c.advance 1)

/-- The loop of `readArray`, with the items read so far. -/
def readItems (num : NumberFormat Num) :
    Nat → JsString → List (Json Num) → Cursor → Except ParseFailure (Json Num × Cursor)
  | 0, _, _, _ => .error .outOfFuel
  | fuel + 1, path, result, c => do
    let (value, c) ← readValue num fuel (indexPath path result.length) c
    let c := c.whitespace
    if c.rest.head? = some 93 then return (.array (result ++ [value]), c.advance 1)
    else if c.rest.head? ≠ some 44 then parserFail c.offset "Expected ',' or ']' in array"
    else readItems num fuel path (result ++ [value]) (c.advance 1)

end

/-- `parseJsonStrict`. -/
def parseJsonStrict (num : NumberFormat Num) (source : JsString) :
    Except ParseFailure (Json Num) := do
  let (value, c) ← readValue num (2 * source.length + 2) (lit "$") ⟨0, source⟩
  let c := c.whitespace
  if c.rest ≠ [] then parserFail c.offset "Unexpected trailing input" else return value

end Pactmark
