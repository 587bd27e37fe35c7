import Mathlib.Algebra.Field.Rat
import Pactmark.Core.Serialization

/-!
# Core — strict JSON texts

The grammar of JSON of RFC 8259 on UTF-16 code units, with what a text denotes: a `Json` whose
strings are decoded and whose numbers are the tokens of the text.  A number denotes a rational
number.

* `Grammar.Element`: a JSON text is a value between white space.
* `Strict`: what I-JSON asks of a text besides.
* `Json.value`: the standard value, with each token read as a number.
-/

namespace Pactmark

open JsString (lit)

namespace Grammar

/-- `ws = *( %x20 / %x09 / %x0A / %x0D )`. -/
def Whitespace (text : JsString) : Prop :=
  ∀ unit ∈ text, unit = 0x20 ∨ unit = 0x09 ∨ unit = 0x0a ∨ unit = 0x0d

/-! ### Numbers -/

/-- `DIGIT`. -/
def Digit (unit : Nat) : Prop :=
  0x30 ≤ unit ∧ unit ≤ 0x39

instance (unit : Nat) : Decidable (Digit unit) :=
  inferInstanceAs (Decidable (_ ∧ _))

/-- `[ minus ]`, and whether it is there. -/
inductive Minus : JsString → Bool → Prop
  | absent : Minus [] false
  | present : Minus [0x2d] true

/-- `int = zero / ( digit1-9 *DIGIT )`. -/
inductive IntPart : JsString → Prop
  | zero : IntPart [0x30]
  | digits {unit : Nat} {digits : JsString} (hfirst : 0x31 ≤ unit ∧ unit ≤ 0x39)
      (hdigits : ∀ d ∈ digits, Digit d) : IntPart (unit :: digits)

/-- `[ frac ]`, with `frac = decimal-point 1*DIGIT`, and its digits. -/
inductive Frac : JsString → JsString → Prop
  | absent : Frac [] []
  | present {digits : JsString} (hne : digits ≠ []) (hdigits : ∀ d ∈ digits, Digit d) :
      Frac (0x2e :: digits) digits

/-- `[ exp ]`, with `exp = e [ minus / plus ] 1*DIGIT`, and the exponent it denotes. -/
inductive Exp : JsString → Int → Prop
  | absent : Exp [] 0
  | unsigned {e : Nat} {digits : JsString} (he : e = 0x65 ∨ e = 0x45) (hne : digits ≠ [])
      (hdigits : ∀ d ∈ digits, Digit d) : Exp (e :: digits) (digitsValue digits)
  | plus {e : Nat} {digits : JsString} (he : e = 0x65 ∨ e = 0x45) (hne : digits ≠ [])
      (hdigits : ∀ d ∈ digits, Digit d) : Exp (e :: 0x2b :: digits) (digitsValue digits)
  | minus {e : Nat} {digits : JsString} (he : e = 0x65 ∨ e = 0x45) (hne : digits ≠ [])
      (hdigits : ∀ d ∈ digits, Digit d) : Exp (e :: 0x2d :: digits) (-digitsValue digits)

/-- The rational number of the parts of a number. -/
def decimal (negative : Bool) (int fraction : JsString) (exponent : Int) : ℚ :=
  (if negative then -1 else 1) *
    (digitsValue int + digitsValue fraction / 10 ^ fraction.length) * 10 ^ exponent

/-- `number = [ minus ] int [ frac ] [ exp ]`, and the rational number it denotes. -/
inductive Number : JsString → ℚ → Prop
  | mk {minus int frac exp fraction : JsString} {negative : Bool} {exponent : Int}
      (hminus : Minus minus negative) (hint : IntPart int) (hfrac : Frac frac fraction)
      (hexp : Exp exp exponent) :
      Number (minus ++ (int ++ (frac ++ exp))) (decimal negative int fraction exponent)

/-! ### Strings -/

/-- `HEXDIG`, in either case, and its value. -/
inductive HexDigit : Nat → Nat → Prop
  | digit {unit : Nat} (h : 0x30 ≤ unit ∧ unit ≤ 0x39) : HexDigit unit (unit - 0x30)
  | upper {unit : Nat} (h : 0x41 ≤ unit ∧ unit ≤ 0x46) : HexDigit unit (unit - 0x41 + 10)
  | lower {unit : Nat} (h : 0x61 ≤ unit ∧ unit ≤ 0x66) : HexDigit unit (unit - 0x61 + 10)

/-- What a letter after `escape` stands for. -/
inductive Escape : Nat → Nat → Prop
  | quotation : Escape 0x22 0x22
  | reverseSolidus : Escape 0x5c 0x5c
  | solidus : Escape 0x2f 0x2f
  | backspace : Escape 0x62 0x08
  | formFeed : Escape 0x66 0x0c
  | lineFeed : Escape 0x6e 0x0a
  | carriageReturn : Escape 0x72 0x0d
  | tab : Escape 0x74 0x09

/-- `*char`, and the units it denotes. -/
inductive Chars : JsString → JsString → Prop
  | nil : Chars [] []
  | unescaped {unit : Nat} {text value : JsString}
      (hunit : 0x20 ≤ unit ∧ unit ≠ 0x22 ∧ unit ≠ 0x5c) (h : Chars text value) :
      Chars (unit :: text) (unit :: value)
  | escaped {letter unit : Nat} {text value : JsString} (hletter : Escape letter unit)
      (h : Chars text value) : Chars (0x5c :: letter :: text) (unit :: value)
  | unicode {a b c d x y z w : Nat} {text value : JsString} (ha : HexDigit a x)
      (hb : HexDigit b y) (hc : HexDigit c z) (hd : HexDigit d w) (h : Chars text value) :
      Chars (0x5c :: 0x75 :: a :: b :: c :: d :: text)
        ((4096 * x + 256 * y + 16 * z + w) :: value)

/-- `string = quotation-mark *char quotation-mark`. -/
inductive Str : JsString → JsString → Prop
  | mk {body value : JsString} (h : Chars body value) : Str (0x22 :: (body ++ [0x22])) value

/-! ### Values -/

mutual

/-- `value`. -/
inductive Value : JsString → Json JsString → Prop
  | literalFalse : Value (lit "false") (.bool false)
  | literalNull : Value (lit "null") .null
  | literalTrue : Value (lit "true") (.bool true)
  | number {token : JsString} {q : ℚ} (h : Number token q) : Value token (.number token)
  | string {text value : JsString} (h : Str text value) : Value text (.string value)
  | emptyArray {ws : JsString} (h : Whitespace ws) : Value (0x5b :: (ws ++ [0x5d])) (.array [])
  | array {text : JsString} {items : List (Json JsString)} (h : Items text items) :
      Value (0x5b :: (text ++ [0x5d])) (.array items)
  | emptyObject {ws : JsString} (h : Whitespace ws) :
      Value (0x7b :: (ws ++ [0x7d])) (.object [])
  | object {text : JsString} {members : List (JsString × Json JsString)}
      (h : Members text members) : Value (0x7b :: (text ++ [0x7d])) (.object members)

/-- `ws value ws`: a JSON text, and what stands between the structural characters. -/
inductive Element : JsString → Json JsString → Prop
  | mk {before text after : JsString} {value : Json JsString} (hbefore : Whitespace before)
      (h : Value text value) (hafter : Whitespace after) :
      Element (before ++ (text ++ after)) value

/-- `value *( value-separator value )`. -/
inductive Items : JsString → List (Json JsString) → Prop
  | one {text : JsString} {value : Json JsString} (h : Element text value) : Items text [value]
  | more {text texts : JsString} {value : Json JsString} {values : List (Json JsString)}
      (h : Element text value) (hs : Items texts values) :
      Items (text ++ 0x2c :: texts) (value :: values)

/-- `member = string name-separator value`. -/
inductive Member : JsString → JsString × Json JsString → Prop
  | mk {before name after text key : JsString} {value : Json JsString}
      (hbefore : Whitespace before) (hname : Str name key) (hafter : Whitespace after)
      (h : Element text value) :
      Member (before ++ (name ++ (after ++ 0x3a :: text))) (key, value)

/-- `member *( value-separator member )`. -/
inductive Members : JsString → List (JsString × Json JsString) → Prop
  | one {text : JsString} {member : JsString × Json JsString} (h : Member text member) :
      Members text [member]
  | more {text texts : JsString} {member : JsString × Json JsString}
      {members : List (JsString × Json JsString)} (h : Member text member)
      (hs : Members texts members) : Members (text ++ 0x2c :: texts) (member :: members)

end

end Grammar

/-! ### Strictness -/

/-- No surrogate is unpaired: a high one is followed by a low one, a low one follows a high one. -/
def Paired (s : JsString) : Prop :=
  (∀ i unit, s[i]? = some unit → isHighSurrogate unit = true →
    ∃ next, s[i + 1]? = some next ∧ isLowSurrogate next = true) ∧
  ∀ i unit, s[i]? = some unit → isLowSurrogate unit = true →
    ∃ j previous, i = j + 1 ∧ s[j]? = some previous ∧ isHighSurrogate previous = true

variable {Num : Type}

/-- A token denotes a finite double that is no unsafe integer printed without an exponent; if the
double is an integer, its own token denotes the same number. -/
structure StrictNumber (num : NumberFormat Num) (token : JsString) : Prop where
  finite : num.isFinite (num.parse token) = true
  safe : ¬ (num.isInteger (num.parse token) = true ∧ num.isSafeInteger (num.parse token) = false ∧
    ∀ unit ∈ num.stringify (num.parse token), unit ≠ 0x65 ∧ unit ≠ 0x45)
  exact : num.isInteger (num.parse token) = true →
    ∃ q, Grammar.Number token q ∧ Grammar.Number (num.stringify (num.parse token)) q

/-- A value is strict at every level. -/
inductive Strict (num : NumberFormat Num) : Json JsString → Prop
  | null : Strict num .null
  | bool (b : Bool) : Strict num (.bool b)
  | number {token : JsString} (h : StrictNumber num token) : Strict num (.number token)
  | string {s : JsString} (h : Paired s) : Strict num (.string s)
  | array {items : List (Json JsString)} (h : ∀ item ∈ items, Strict num item) :
      Strict num (.array items)
  | object {members : List (JsString × Json JsString)} (hkeys : (members.map Prod.fst).Nodup)
      (hpaired : ∀ member ∈ members, Paired member.1)
      (h : ∀ member ∈ members, Strict num member.2) : Strict num (.object members)

mutual

/-- The standard value of a text: every token is read by `Number`. -/
def Json.value (num : NumberFormat Num) : Json JsString → Json Num
  | .null => .null
  | .bool b => .bool b
  | .number token => .number (num.parse token)
  | .string s => .string s
  | .array items => .array (Json.values num items)
  | .object members => .object (Json.memberValues num members)

/-- The values of the items of an array. -/
def Json.values (num : NumberFormat Num) : List (Json JsString) → List (Json Num)
  | [] => []
  | item :: items => item.value num :: Json.values num items

/-- The values of the members of an object. -/
def Json.memberValues (num : NumberFormat Num) :
    List (JsString × Json JsString) → List (JsString × Json Num)
  | [] => []
  | (key, value) :: members => (key, value.value num) :: Json.memberValues num members

end

end Pactmark
