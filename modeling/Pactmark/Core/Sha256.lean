import Pactmark.Core.Encodings
import Pactmark.Core.Values
import Pactmark.Durable.Fips180
import Pactmark.Durable.Operations

/-!
# Core — SHA-256

`sha256` of `core/src/serialization.ts`.  A number is an integer.  The bitwise operators coerce
their operands to 32 bits and return a signed integer, except for `>>>`; a sum is what a double
makes of it, and a typed array keeps the lowest bits of what it is given.

* `toWord_rotateRight`, `toWord_add`: what the operators do to the lowest 32 bits.
* `round_ok`, `extendWord_ok`, `compressBlock_ok`: one round, one word and one block.
* `paddedBytes_ok`: the padded message.
* `sha256_eq_digest`: the hash is SHA-256.
-/

namespace Pactmark

open Durable

namespace Sha256

/-! ### Numbers -/

/-- What a double makes of an integer that an operation yields: itself, if it is not too large. -/
structure Doubles where
  round : Int → Int
  round_of_safe : ∀ x : Int, x.natAbs ≤ 2 ^ 53 → round x = x

/-- `x + y`. -/
def Doubles.add (D : Doubles) (x y : Int) : Int :=
  D.round (x + y)

/-- `x * y`. -/
def Doubles.mul (D : Doubles) (x y : Int) : Int :=
  D.round (x * y)

/-- The 32 bits an operand is coerced to: those of `ToInt32` and of `ToUint32`. -/
def toWord (x : Int) : BitVec 32 :=
  BitVec.ofInt 32 x

/-- `x | y` -/
def bitOr (x y : Int) : Int :=
  (toWord x ||| toWord y).toInt

/-- `x ^ y` -/
def bitXor (x y : Int) : Int :=
  (toWord x ^^^ toWord y).toInt

/-- `x & y` -/
def bitAnd (x y : Int) : Int :=
  (toWord x &&& toWord y).toInt

/-- `~x` -/
def bitNot (x : Int) : Int :=
  (~~~toWord x).toInt

/-- `x << amount` -/
def shiftLeft (x : Int) (amount : Nat) : Int :=
  (toWord x <<< (amount % 32)).toInt

/-- `x >>> amount` -/
def shiftRight (x : Int) (amount : Nat) : Int :=
  (toWord x >>> (amount % 32)).toNat

/-- `rotateRight`. -/
def rotateRight (value : Int) (amount : Nat) : Int :=
  bitOr (shiftRight value amount) (shiftLeft value (32 - amount))

/-! ### Typed arrays -/

/-- A `RangeError`. -/
def rangeError : Thrown :=
  .host "RangeError" true

/-- `uint32At`. -/
def uint32At (values : List (BitVec 32)) (index : Nat) : Except Thrown Int :=
  match values[index]? with
  | none => .error rangeError
  | some value => .ok value.toNat

/-- `target.set(source)`, of bytes. -/
def setBytes (target source : Bytes) : Except Thrown Bytes :=
  if target.length < source.length then .error rangeError
  else .ok (source ++ target.drop source.length)

/-- `view.getUint32(offset, false)` -/
def getUint32 (view : Bytes) (offset : Nat) : Except Thrown Int :=
  match view.drop offset with
  | b₀ :: b₁ :: b₂ :: b₃ :: _ =>
      .ok (((b₀.toNat * 256 + b₁.toNat) * 256 + b₂.toNat) * 256 + b₃.toNat : Nat)
  | _ => .error rangeError

/-- The bytes of a word, the most significant one first. -/
def wordBytes (word : BitVec 32) : Bytes :=
  [UInt8.ofNat (word.toNat / 2 ^ 24), UInt8.ofNat (word.toNat / 2 ^ 16),
    UInt8.ofNat (word.toNat / 2 ^ 8), UInt8.ofNat word.toNat]

/-- `view.setUint32(offset, value, false)` -/
def setUint32 (view : Bytes) (offset : Nat) (value : Int) : Except Thrown Bytes :=
  if view.length < offset + 4 then .error rangeError
  else .ok (view.take offset ++ wordBytes (toWord value) ++ view.drop (offset + 4))

/-! ### The hash -/

/-- `SHA256_CONSTANTS`. -/
def SHA256_CONSTANTS : List (BitVec 32) :=
  [0x428a2f98, 0x71374491, 0xb5c0fbcf, 0xe9b5dba5, 0x3956c25b, 0x59f111f1, 0x923f82a4, 0xab1c5ed5,
    0xd807aa98, 0x12835b01, 0x243185be, 0x550c7dc3, 0x72be5d74, 0x80deb1fe, 0x9bdc06a7, 0xc19bf174,
    0xe49b69c1, 0xefbe4786, 0x0fc19dc6, 0x240ca1cc, 0x2de92c6f, 0x4a7484aa, 0x5cb0a9dc, 0x76f988da,
    0x983e5152, 0xa831c66d, 0xb00327c8, 0xbf597fc7, 0xc6e00bf3, 0xd5a79147, 0x06ca6351, 0x14292967,
    0x27b70a85, 0x2e1b2138, 0x4d2c6dfc, 0x53380d13, 0x650a7354, 0x766a0abb, 0x81c2c92e, 0x92722c85,
    0xa2bfe8a1, 0xa81a664b, 0xc24b8b70, 0xc76c51a3, 0xd192e819, 0xd6990624, 0xf40e3585, 0x106aa070,
    0x19a4c116, 0x1e376c08, 0x2748774c, 0x34b0bcb5, 0x391c0cb3, 0x4ed8aa4a, 0x5b9cca4f, 0x682e6ff3,
    0x748f82ee, 0x78a5636f, 0x84c87814, 0x8cc70208, 0x90befffa, 0xa4506ceb, 0xbef9a3f7, 0xc67178f2]

/-- The first value of `hash`. -/
def initialHash : List (BitVec 32) :=
  [0x6a09e667, 0xbb67ae85, 0x3c6ef372, 0xa54ff53a, 0x510e527f, 0x9b05688c, 0x1f83d9ab, 0x5be0cd19]

/-- The variable `padded`, when it is filled. -/
def paddedBytes (D : Doubles) (bytes : Bytes) : Except Thrown Bytes := do
  let bitLength := D.mul bytes.length 8
  -- `Math.ceil((bytes.length + 9) / 64) * 64`
  let paddedLength := (bytes.length + 9 + 63) / 64 * 64
  let padded ← setBytes (List.replicate paddedLength 0) bytes
  let padded := padded.set bytes.length 0x80
  let padded ← setUint32 padded (paddedLength - 8) (bitLength / 0x100000000)
  setUint32 padded (paddedLength - 4) (shiftRight bitLength 0)

/-- The body of the loop that reads a block. -/
def loadWord (view : Bytes) (offset : Nat) (schedule : List (BitVec 32)) (index : Nat) :
    Except Thrown (List (BitVec 32)) := do
  let word ← getUint32 view (offset + index * 4)
  return schedule.set index (toWord word)

/-- The body of the loop that extends the schedule. -/
def extendWord (D : Doubles) (schedule : List (BitVec 32)) (index : Nat) :
    Except Thrown (List (BitVec 32)) := do
  let a ← uint32At schedule (index - 15)
  let b ← uint32At schedule (index - 2)
  let s0 := bitXor (bitXor (rotateRight a 7) (rotateRight a 18)) (shiftRight a 3)
  let s1 := bitXor (bitXor (rotateRight b 17) (rotateRight b 19)) (shiftRight b 10)
  let word16 ← uint32At schedule (index - 16)
  let word7 ← uint32At schedule (index - 7)
  return schedule.set index
    (toWord (shiftRight (D.add (D.add (D.add word16 s0) word7) s1) 0))

/-- The variables `a` to `h`. -/
structure Working where
  a : Int
  b : Int
  c : Int
  d : Int
  e : Int
  f : Int
  g : Int
  h : Int

/-- The body of the loop over the rounds. -/
def Working.round (D : Doubles) (schedule : List (BitVec 32)) (v : Working) (index : Nat) :
    Except Thrown Working := do
  let s1 := bitXor (bitXor (rotateRight v.e 6) (rotateRight v.e 11)) (rotateRight v.e 25)
  let choose := bitXor (bitAnd v.e v.f) (bitAnd (bitNot v.e) v.g)
  let constant ← uint32At SHA256_CONSTANTS index
  let word ← uint32At schedule index
  let temp1 := shiftRight (D.add (D.add (D.add (D.add v.h s1) choose) constant) word) 0
  let s0 := bitXor (bitXor (rotateRight v.a 2) (rotateRight v.a 13)) (rotateRight v.a 22)
  let majority := bitXor (bitXor (bitAnd v.a v.b) (bitAnd v.a v.c)) (bitAnd v.b v.c)
  let temp2 := shiftRight (D.add s0 majority) 0
  return {
    a := shiftRight (D.add temp1 temp2) 0
    b := v.a
    c := v.b
    d := v.c
    e := shiftRight (D.add v.d temp1) 0
    f := v.e
    g := v.f
    h := v.g }

/-- The variables before the first round. -/
def readWorking (hash : List (BitVec 32)) : Except Thrown Working := do
  let a ← uint32At hash 0
  let b ← uint32At hash 1
  let c ← uint32At hash 2
  let d ← uint32At hash 3
  let e ← uint32At hash 4
  let f ← uint32At hash 5
  let g ← uint32At hash 6
  let h ← uint32At hash 7
  return ⟨a, b, c, d, e, f, g, h⟩

/-- `hash[index] = (uint32At(hash, index) + x) >>> 0` -/
def addWord (D : Doubles) (hash : List (BitVec 32)) (index : Nat) (x : Int) :
    Except Thrown (List (BitVec 32)) := do
  let value ← uint32At hash index
  return hash.set index (toWord (shiftRight (D.add value x) 0))

/-- The body of the loop over the blocks; the schedule is the one array. -/
def compressBlock (D : Doubles) (view : Bytes)
    (state : List (BitVec 32) × List (BitVec 32)) (offset : Nat) :
    Except Thrown (List (BitVec 32) × List (BitVec 32)) := do
  let schedule ← (List.range' 0 16).foldlM (loadWord view offset) state.2
  let schedule ← (List.range' 16 48).foldlM (extendWord D) schedule
  let v ← readWorking state.1
  let v ← (List.range' 0 64).foldlM (Working.round D schedule) v
  let hash ← addWord D state.1 0 v.a
  let hash ← addWord D hash 1 v.b
  let hash ← addWord D hash 2 v.c
  let hash ← addWord D hash 3 v.d
  let hash ← addWord D hash 4 v.e
  let hash ← addWord D hash 5 v.f
  let hash ← addWord D hash 6 v.g
  let hash ← addWord D hash 7 v.h
  return (hash, schedule)

/-- `hash.forEach` of the output. -/
def outputBytes (hash : List (BitVec 32)) : Except Thrown Bytes :=
  hash.zipIdx.foldlM (fun output word => setUint32 output (word.2 * 4) word.1.toNat)
    (List.replicate 32 0)

/-- `sha256`. -/
def sha256 (D : Doubles) (bytes : Bytes) : Except Thrown Bytes := do
  let padded ← paddedBytes D bytes
  let state ← (List.range' 0 ((padded.length + 63) / 64) 64).foldlM (compressBlock D padded)
    (initialHash, List.replicate 64 0)
  outputBytes state.1

/-! ### What the operators do to 32 bits -/

@[simp] theorem toWord_toNat (x : BitVec 32) : toWord x.toNat = x := by
  simp [toWord]

@[simp] theorem toWord_bitOr (x y : Int) : toWord (bitOr x y) = toWord x ||| toWord y :=
  BitVec.ofInt_toInt

@[simp] theorem toWord_bitXor (x y : Int) : toWord (bitXor x y) = toWord x ^^^ toWord y :=
  BitVec.ofInt_toInt

@[simp] theorem toWord_bitAnd (x y : Int) : toWord (bitAnd x y) = toWord x &&& toWord y :=
  BitVec.ofInt_toInt

@[simp] theorem toWord_bitNot (x : Int) : toWord (bitNot x) = ~~~toWord x :=
  BitVec.ofInt_toInt

@[simp] theorem toWord_shiftLeft (x : Int) (amount : Nat) :
    toWord (shiftLeft x amount) = toWord x <<< (amount % 32) :=
  BitVec.ofInt_toInt

@[simp] theorem toWord_shiftRight (x : Int) (amount : Nat) :
    toWord (shiftRight x amount) = toWord x >>> (amount % 32) :=
  toWord_toNat _

theorem shiftRight_zero (x : Int) : shiftRight x 0 = (toWord x).toNat := by
  simp [shiftRight]

/-- **A rotation** is one of the 32 bits. -/
theorem toWord_rotateRight (x : Int) {amount : Nat} (h : 0 < amount ∧ amount < 32) :
    toWord (rotateRight x amount) = (toWord x).rotateRight amount := by
  rw [rotateRight, toWord_bitOr, toWord_shiftRight, toWord_shiftLeft, BitVec.rotateRight,
    BitVec.rotateRightAux, Nat.mod_eq_of_lt h.2, Nat.mod_eq_of_lt (show 32 - amount < 32 by omega)]

theorem natAbs_toInt_le (x : BitVec 32) : x.toInt.natAbs ≤ 2 ^ 32 := by
  have := x.le_toInt
  have := x.toInt_lt
  omega

theorem natAbs_bitXor_le (x y : Int) : (bitXor x y).natAbs ≤ 2 ^ 32 :=
  natAbs_toInt_le _

theorem natAbs_toNat_le (x : BitVec 32) : (x.toNat : Int).natAbs ≤ 2 ^ 32 := by
  have := x.isLt
  omega

/-- **A sum** that is not too large is exact, and adds the 32 bits. -/
theorem toWord_add (D : Doubles) {x y : Int} {m : Nat} (hx : x.natAbs ≤ m) (hy : y.natAbs ≤ 2 ^ 32)
    (hm : m ≤ 2 ^ 40) :
    (D.add x y).natAbs ≤ m + 2 ^ 32 ∧ toWord (D.add x y) = toWord x + toWord y := by
  have hround : D.add x y = x + y := D.round_of_safe _ (by omega)
  rw [hround]
  exact ⟨by omega, BitVec.ofInt_add x y⟩

/-! ### The rounds -/

/-- The variables that stand for words. -/
def Working.of (v : Fips180.Variables) : Working :=
  ⟨v.a.toNat, v.b.toNat, v.c.toNat, v.d.toNat, v.e.toNat, v.f.toNat, v.g.toNat, v.h.toNat⟩

theorem uint32At_ok {values : List (BitVec 32)} {index : Nat} {value : BitVec 32}
    (h : values[index]? = some value) : uint32At values index = .ok (value.toNat : Int) := by
  rw [uint32At, h]

theorem constants_getElem? {t : Nat} (h : t < 64) :
    SHA256_CONSTANTS[t]? = some (Fips180.constant t) := by
  have hlength : t < Fips180.constants.length := h
  have hsame : SHA256_CONSTANTS = Fips180.constants := rfl
  rw [hsame, Fips180.constant, List.getD_eq_getElem _ _ hlength, List.getElem?_eq_getElem hlength]

theorem toWord_bigSigma1 (e : BitVec 32) :
    toWord (bitXor (bitXor (rotateRight e.toNat 6) (rotateRight e.toNat 11))
      (rotateRight e.toNat 25)) = Fips180.bigSigma1 e := by
  simp [toWord_rotateRight, Fips180.bigSigma1]

theorem toWord_bigSigma0 (a : BitVec 32) :
    toWord (bitXor (bitXor (rotateRight a.toNat 2) (rotateRight a.toNat 13))
      (rotateRight a.toNat 22)) = Fips180.bigSigma0 a := by
  simp [toWord_rotateRight, Fips180.bigSigma0]

theorem toWord_smallSigma0 (a : BitVec 32) :
    toWord (bitXor (bitXor (rotateRight a.toNat 7) (rotateRight a.toNat 18))
      (shiftRight a.toNat 3)) = Fips180.smallSigma0 a := by
  simp [toWord_rotateRight, Fips180.smallSigma0]

theorem toWord_smallSigma1 (b : BitVec 32) :
    toWord (bitXor (bitXor (rotateRight b.toNat 17) (rotateRight b.toNat 19))
      (shiftRight b.toNat 10)) = Fips180.smallSigma1 b := by
  simp [toWord_rotateRight, Fips180.smallSigma1]

variable (D : Doubles)

/-- The sum `temp1`. -/
theorem toWord_temp1 (v : Fips180.Variables) (k w : BitVec 32) :
    toWord (D.add (D.add (D.add (D.add v.h.toNat
      (bitXor (bitXor (rotateRight v.e.toNat 6) (rotateRight v.e.toNat 11))
        (rotateRight v.e.toNat 25)))
      (bitXor (bitAnd v.e.toNat v.f.toNat) (bitAnd (bitNot v.e.toNat) v.g.toNat)))
      k.toNat) w.toNat) =
    v.h + Fips180.bigSigma1 v.e + Fips180.ch v.e v.f v.g + k + w := by
  obtain ⟨hb₁, ht₁⟩ := toWord_add D (natAbs_toNat_le v.h)
    (natAbs_bitXor_le (bitXor (rotateRight v.e.toNat 6) (rotateRight v.e.toNat 11))
      (rotateRight v.e.toNat 25)) (by omega)
  obtain ⟨hb₂, ht₂⟩ := toWord_add D hb₁
    (natAbs_bitXor_le (bitAnd v.e.toNat v.f.toNat) (bitAnd (bitNot v.e.toNat) v.g.toNat))
    (by omega)
  obtain ⟨hb₃, ht₃⟩ := toWord_add D hb₂ (natAbs_toNat_le k) (by omega)
  obtain ⟨-, ht₄⟩ := toWord_add D hb₃ (natAbs_toNat_le w) (by omega)
  rw [ht₄, ht₃, ht₂, ht₁, toWord_bigSigma1]
  simp [Fips180.ch]

/-- The sum `temp2`. -/
theorem toWord_temp2 (v : Fips180.Variables) :
    toWord (D.add (bitXor (bitXor (rotateRight v.a.toNat 2) (rotateRight v.a.toNat 13))
        (rotateRight v.a.toNat 22))
      (bitXor (bitXor (bitAnd v.a.toNat v.b.toNat) (bitAnd v.a.toNat v.c.toNat))
        (bitAnd v.b.toNat v.c.toNat))) =
    Fips180.bigSigma0 v.a + Fips180.maj v.a v.b v.c := by
  obtain ⟨-, ht⟩ := toWord_add D
    (natAbs_bitXor_le (bitXor (rotateRight v.a.toNat 2) (rotateRight v.a.toNat 13))
      (rotateRight v.a.toNat 22))
    (natAbs_bitXor_le (bitXor (bitAnd v.a.toNat v.b.toNat) (bitAnd v.a.toNat v.c.toNat))
      (bitAnd v.b.toNat v.c.toNat)) (by omega)
  rw [ht, toWord_bigSigma0]
  simp [Fips180.maj]

/-- A sum of two words. -/
theorem toWord_add_toNat (x y : BitVec 32) : toWord (D.add x.toNat y.toNat) = x + y := by
  obtain ⟨-, ht⟩ := toWord_add D (natAbs_toNat_le x) (natAbs_toNat_le y) (by omega)
  rw [ht, toWord_toNat, toWord_toNat]

/-- **One round** is one of the standard, on the words the variables stand for. -/
theorem round_ok {schedule : List (BitVec 32)} {t : Nat} {w : BitVec 32} (v : Fips180.Variables)
    (ht : t < 64) (hw : schedule[t]? = some w) :
    Working.round D schedule (Working.of v) t =
      .ok (Working.of (v.round (Fips180.constant t) w)) := by
  unfold Working.round
  rw [uint32At_ok (constants_getElem? ht), uint32At_ok hw]
  simp only [Working.of, ok_bind, shiftRight_zero, toWord_temp1, toWord_temp2, toWord_add_toNat]
  rfl

/-! ### The schedule -/

/-- **One more word** of the schedule. -/
theorem extendWord_ok {schedule : List (BitVec 32)} {block : Nat → BitVec 32} {t : Nat}
    (ht : 16 ≤ t) (h : ∀ i < t, schedule[i]? = some (Fips180.schedule block i)) :
    extendWord D schedule t = .ok (schedule.set t (Fips180.schedule block t)) := by
  unfold extendWord
  rw [uint32At_ok (h (t - 15) (by omega)), uint32At_ok (h (t - 2) (by omega)),
    uint32At_ok (h (t - 16) (by omega)), uint32At_ok (h (t - 7) (by omega))]
  simp only [ok_bind, shiftRight_zero, toWord_toNat]
  obtain ⟨hb₁, ht₁⟩ := toWord_add D (natAbs_toNat_le (Fips180.schedule block (t - 16)))
    (natAbs_bitXor_le
      (bitXor (rotateRight (Fips180.schedule block (t - 15)).toNat 7)
        (rotateRight (Fips180.schedule block (t - 15)).toNat 18))
      (shiftRight (Fips180.schedule block (t - 15)).toNat 3)) (by omega)
  obtain ⟨hb₂, ht₂⟩ := toWord_add D hb₁ (natAbs_toNat_le (Fips180.schedule block (t - 7)))
    (by omega)
  obtain ⟨-, ht₃⟩ := toWord_add D hb₂
    (natAbs_bitXor_le
      (bitXor (rotateRight (Fips180.schedule block (t - 2)).toNat 17)
        (rotateRight (Fips180.schedule block (t - 2)).toNat 19))
      (shiftRight (Fips180.schedule block (t - 2)).toNat 10)) (by omega)
  have hword : Fips180.schedule block t =
      Fips180.schedule block (t - 16) + Fips180.smallSigma0 (Fips180.schedule block (t - 15)) +
        Fips180.schedule block (t - 7) + Fips180.smallSigma1 (Fips180.schedule block (t - 2)) := by
    rw [Fips180.schedule, if_neg (by omega)]
    ac_rfl
  rw [ht₃, ht₂, ht₁, toWord_smallSigma0, toWord_smallSigma1, toWord_toNat, toWord_toNat, ← hword]
  rfl

/-- The schedule has its first words. -/
def Scheduled (block : Nat → BitVec 32) (n : Nat) (schedule : List (BitVec 32)) : Prop :=
  schedule.length = 64 ∧ ∀ i < n, schedule[i]? = some (Fips180.schedule block i)

theorem Scheduled.set {block : Nat → BitVec 32} {n : Nat} {schedule : List (BitVec 32)}
    (h : Scheduled block n schedule) (hn : n < 64) :
    Scheduled block (n + 1) (schedule.set n (Fips180.schedule block n)) := by
  refine ⟨by rw [List.length_set, h.1], fun i hi => ?_⟩
  rcases Nat.lt_succ_iff_lt_or_eq.mp hi with hlt | rfl
  · rw [List.getElem?_set_ne (by omega), h.2 i hlt]
  · rw [List.getElem?_set_self (by rw [h.1]; exact hn)]

/-- **The schedule of a block**, whatever it was before. -/
theorem schedule_ok {view : Bytes} {offset : Nat} {block : Nat → BitVec 32}
    {schedule : List (BitVec 32)} (hlength : schedule.length = 64)
    (hview : ∀ i < 16, ∃ x, getUint32 view (offset + i * 4) = .ok x ∧ toWord x = block i) :
    ∃ s₁ s₂, (List.range' 0 16).foldlM (loadWord view offset) schedule = .ok s₁ ∧
      (List.range' 16 48).foldlM (extendWord D) s₁ = .ok s₂ ∧ Scheduled block 64 s₂ := by
  have hload : ∃ s₁, (List.range' 0 16).foldlM (loadWord view offset) schedule = .ok s₁ ∧
      Scheduled block 16 s₁ := by
    refine foldlM_range'_ok (P := fun i s => Scheduled block i s) ⟨hlength, nofun⟩
      fun i hi s hs => ?_
    obtain ⟨x, hx, hword⟩ := hview i hi
    refine ⟨_, ?_, hs.set (by omega)⟩
    have hi' : Fips180.schedule block i = block i := by
      rw [Fips180.schedule, if_pos hi]
    rw [Nat.zero_add, Nat.one_mul, loadWord, hx, hi', ← hword]
    rfl
  obtain ⟨s₁, hs₁, hscheduled⟩ := hload
  have hextend : ∃ s₂, (List.range' 16 48).foldlM (extendWord D) s₁ = .ok s₂ ∧
      Scheduled block (16 + 48) s₂ := by
    refine foldlM_range'_ok (P := fun i s => Scheduled block (16 + i) s) hscheduled
      fun i hi s hs => ?_
    rw [Nat.one_mul]
    exact ⟨_, extendWord_ok D (by omega) hs.2, hs.set (by omega)⟩
  obtain ⟨s₂, hs₂, hscheduled⟩ := hextend
  exact ⟨s₁, s₂, hs₁, hs₂, hscheduled⟩

/-! ### A block -/

theorem rounds_ok {schedule : List (BitVec 32)} {block : Nat → BitVec 32}
    (h : Scheduled block 64 schedule) (v : Fips180.Variables) :
    (List.range' 0 64).foldlM (Working.round D schedule) (Working.of v) =
      .ok (Working.of (v.rounds block 64)) := by
  have hrounds : ∃ v', (List.range' 0 64).foldlM (Working.round D schedule) (Working.of v) = .ok v' ∧
      v' = Working.of (v.rounds block 64) := by
    refine foldlM_range'_ok (P := fun i v' => v' = Working.of (v.rounds block i)) rfl
      fun i hi v' hv' => ⟨_, ?_, rfl⟩
    rw [hv', Nat.zero_add, Nat.one_mul]
    exact round_ok D _ hi (h.2 i hi)
  obtain ⟨v', hv', rfl⟩ := hrounds
  exact hv'

/-- **One block** is one of the standard. -/
theorem compressBlock_ok {view : Bytes} {offset : Nat} {block : Nat → BitVec 32}
    {schedule : List (BitVec 32)} (v : Fips180.Variables) (hlength : schedule.length = 64)
    (hview : ∀ i < 16, ∃ x, getUint32 view (offset + i * 4) = .ok x ∧ toWord x = block i) :
    ∃ schedule', compressBlock D view (v.words, schedule) offset =
        .ok ((v.compress block).words, schedule') ∧ schedule'.length = 64 := by
  obtain ⟨s₁, s₂, hs₁, hs₂, hscheduled⟩ := schedule_ok D hlength hview
  refine ⟨s₂, ?_, hscheduled.1⟩
  have hread : readWorking v.words = .ok (Working.of v) := rfl
  unfold compressBlock
  rw [hs₁, ok_bind, hs₂, ok_bind, hread, ok_bind, rounds_ok D hscheduled, ok_bind]
  simp only [addWord, uint32At, Fips180.Variables.words, Working.of, List.getElem?_cons_zero,
    List.getElem?_cons_succ, List.set_cons_zero, List.set_cons_succ, ok_bind, pure_bind,
    shiftRight_zero, toWord_add_toNat, toWord_toNat]
  rfl

/-! ### Bytes as bits -/

/-- The bits of bytes, the most significant one of each first. -/
def bytesBits (bytes : Bytes) : Fips180.Bits :=
  bytes.flatMap fun byte => Fips180.bitsOfNat 8 byte.toNat

@[simp] theorem bytesBits_append (first later : Bytes) :
    bytesBits (first ++ later) = bytesBits first ++ bytesBits later :=
  List.flatMap_append

@[simp] theorem bytesBits_cons (byte : UInt8) (bytes : Bytes) :
    bytesBits (byte :: bytes) = Fips180.bitsOfNat 8 byte.toNat ++ bytesBits bytes :=
  List.flatMap_cons

@[simp] theorem bytesBits_length (bytes : Bytes) : (bytesBits bytes).length = 8 * bytes.length := by
  induction bytes with
  | nil => rfl
  | cons byte bytes ih =>
    rw [bytesBits_cons, List.length_append, Fips180.bitsOfNat_length, ih, List.length_cons]
    omega

theorem bytesBits_drop (bytes : Bytes) (n : Nat) :
    (bytesBits bytes).drop (8 * n) = bytesBits (bytes.drop n) := by
  rcases Nat.lt_or_ge bytes.length n with hlt | hle
  · rw [List.drop_eq_nil_of_le (by rw [bytesBits_length]; omega),
      List.drop_eq_nil_of_le (Nat.le_of_lt hlt)]
    rfl
  · have hsplit : bytesBits bytes = bytesBits (bytes.take n) ++ bytesBits (bytes.drop n) := by
      rw [← bytesBits_append, List.take_append_drop]
    have hlength : (bytesBits (bytes.take n)).length = 8 * n := by
      rw [bytesBits_length, List.length_take, Nat.min_eq_left hle]
    rw [hsplit, ← hlength, List.drop_left]

theorem bytesBits_zeros (n : Nat) :
    bytesBits (List.replicate n 0) = List.replicate (8 * n) false := by
  induction n with
  | zero => rfl
  | succ n ih =>
    have hbyte : Fips180.bitsOfNat 8 (0 : UInt8).toNat = List.replicate 8 false := rfl
    rw [List.replicate_succ, bytesBits_cons, ih, hbyte, List.replicate_append_replicate]
    congr 1
    omega

/-- **The bytes of a word** are its bits. -/
theorem bytesBits_wordBytes (word : BitVec 32) :
    bytesBits (wordBytes word) = Fips180.bitsOfNat 32 word.toNat := by
  have hbyte : ∀ n : Nat, Fips180.bitsOfNat 8 (UInt8.ofNat n).toNat = Fips180.bitsOfNat 8 n :=
    fun n => Fips180.bitsOfNat_mod 8 n
  have hparts : Fips180.bitsOfNat 32 word.toNat =
      Fips180.bitsOfNat 8 (word.toNat / 2 ^ 24) ++ (Fips180.bitsOfNat 8 (word.toNat / 2 ^ 16) ++
        (Fips180.bitsOfNat 8 (word.toNat / 2 ^ 8) ++ Fips180.bitsOfNat 8 word.toNat)) := by
    rw [← Fips180.bitsOfNat_add 8 8, ← Fips180.bitsOfNat_add 8 16, ← Fips180.bitsOfNat_add 8 24]
  rw [hparts]
  simp only [wordBytes, bytesBits, List.flatMap_cons, List.flatMap_nil, List.append_nil, hbyte]

/-- **A word that is read** is that of its bits. -/
theorem getUint32_ok {view : Bytes} {offset : Nat} (h : offset + 4 ≤ view.length) :
    ∃ x, getUint32 view offset = .ok x ∧
      toWord x = BitVec.ofNat 32 (Fips180.natOfBits (((bytesBits view).drop (8 * offset)).take 32)) := by
  have hlength : 4 ≤ (view.drop offset).length := by
    rw [List.length_drop]
    omega
  rw [bytesBits_drop]
  unfold getUint32
  match hview : view.drop offset, hlength with
  | b₀ :: b₁ :: b₂ :: b₃ :: rest, _ =>
    refine ⟨_, rfl, ?_⟩
    have hbits : (bytesBits (b₀ :: b₁ :: b₂ :: b₃ :: rest)).take 32 =
        Fips180.bitsOfNat 8 b₀.toNat ++ Fips180.bitsOfNat 8 b₁.toNat ++
          Fips180.bitsOfNat 8 b₂.toNat ++ Fips180.bitsOfNat 8 b₃.toNat := by
      simp only [bytesBits_cons, ← List.append_assoc]
      exact List.take_left' (by simp)
    have hbyte : ∀ b : UInt8, b.toNat % 2 ^ 8 = b.toNat := fun b => Nat.mod_eq_of_lt b.toNat_lt
    rw [hbits]
    simp only [Fips180.natOfBits_append, Fips180.natOfBits_bitsOfNat, Fips180.bitsOfNat_length, hbyte]
    rw [toWord, BitVec.ofInt_natCast]
    rfl

/-! ### The padded message -/

theorem setUint32_append (front middle back : Bytes) (value : Int) (h : middle.length = 4) :
    setUint32 (front ++ (middle ++ back)) front.length value =
      .ok (front ++ wordBytes (toWord value) ++ back) := by
  unfold setUint32
  rw [if_neg (by simp only [List.length_append]; omega), List.take_left,
    ← List.append_assoc front middle back, List.drop_left' (by simp [h])]

/-- **The padded message** is that of the standard. -/
theorem paddedBytes_ok {bytes : Bytes} (h : 8 * bytes.length < 2 ^ 53) :
    ∃ padded, paddedBytes D bytes = .ok padded ∧
      bytesBits padded = Fips180.pad (bytesBits bytes) := by
  obtain ⟨zeros, hzeros⟩ : ∃ zeros, (bytes.length + 9 + 63) / 64 * 64 = bytes.length + 9 + zeros :=
    ⟨(bytes.length + 9 + 63) / 64 * 64 - (bytes.length + 9), by omega⟩
  have hbitLength : D.mul bytes.length 8 = (8 * bytes.length : Nat) := by
    rw [Doubles.mul, D.round_of_safe _ (by omega)]
    push_cast
    ring
  let front : Bytes := bytes ++ 0x80 :: List.replicate zeros 0
  have hfront : front.length = bytes.length + 1 + zeros := by
    simp [front]
    omega
  have hset : setBytes (List.replicate (bytes.length + 9 + zeros) 0) bytes =
      .ok (bytes ++ List.replicate (zeros + 9) 0) := by
    rw [setBytes, if_neg (by rw [List.length_replicate]; omega), List.drop_replicate]
    congr 3
    omega
  have hmark : (bytes ++ List.replicate (zeros + 9) (0 : UInt8)).set bytes.length 0x80 =
      front ++ (List.replicate 4 0 ++ List.replicate 4 0) := by
    rw [List.set_append_right _ _ (Nat.le_refl _), Nat.sub_self, List.replicate_succ,
      List.set_cons_zero, List.replicate_append_replicate, List.append_assoc, List.cons_append,
      List.replicate_append_replicate]
  let high : BitVec 32 := toWord ((8 * bytes.length : Nat) / 0x100000000)
  let low : BitVec 32 := toWord (shiftRight (8 * bytes.length : Nat) 0)
  have hhigh : high.toNat = 8 * bytes.length / 2 ^ 32 := by
    have hcast : ((8 * bytes.length : Nat) : Int) / 0x100000000 =
        ((8 * bytes.length / 2 ^ 32 : Nat) : Int) := by
      omega
    simp only [high, toWord, hcast, BitVec.ofInt_natCast, BitVec.toNat_ofNat]
    exact Nat.mod_eq_of_lt (by omega)
  have hlow : low.toNat = 8 * bytes.length % 2 ^ 32 := by
    simp only [low, shiftRight_zero, toWord_toNat]
    rw [toWord, BitVec.ofInt_natCast, BitVec.toNat_ofNat]
  refine ⟨front ++ wordBytes high ++ wordBytes low, ?_, ?_⟩
  · simp only [paddedBytes, hzeros, hbitLength, hset, ok_bind, hmark]
    have hfirst := setUint32_append front (List.replicate 4 0) (List.replicate 4 0)
      ((8 * bytes.length : Nat) / 0x100000000) rfl
    have hoffset : bytes.length + 9 + zeros - 8 = front.length := by omega
    rw [hoffset, hfirst, ok_bind]
    have hlater : bytes.length + 9 + zeros - 4 = (front ++ wordBytes high).length := by
      simp only [List.length_append, wordBytes, List.length_cons, List.length_nil]
      omega
    rw [hlater]
    have hsecond := setUint32_append (front ++ wordBytes high) (List.replicate 4 0) []
      (shiftRight (8 * bytes.length : Nat) 0) rfl
    rw [List.append_nil, List.append_nil] at hsecond
    exact hsecond
  · have hmarkBits : Fips180.bitsOfNat 8 (0x80 : UInt8).toNat = true :: List.replicate 7 false := rfl
    have hlengthBits : Fips180.bitsOfNat 64 (8 * bytes.length) =
        Fips180.bitsOfNat 32 (8 * bytes.length / 2 ^ 32) ++ Fips180.bitsOfNat 32 (8 * bytes.length) :=
      Fips180.bitsOfNat_add 32 32 _
    have hzeroBits : Fips180.zeroBits (8 * bytes.length) = 7 + 8 * zeros := by
      unfold Fips180.zeroBits
      omega
    simp only [front, bytesBits_append, bytesBits_cons, bytesBits_zeros, bytesBits_wordBytes, hhigh,
      hlow, Fips180.bitsOfNat_mod, hmarkBits, Fips180.pad, bytesBits_length, hzeroBits, hlengthBits,
      ← List.replicate_append_replicate, List.append_assoc, List.cons_append]

/-! ### The digest -/

theorem outputBytes_ok (v : Fips180.Variables) :
    outputBytes v.words = .ok (v.words.flatMap wordBytes) := by
  unfold outputBytes Fips180.Variables.words
  simp [List.zipIdx_cons, setUint32, ok_bind, wordBytes]

/-- **The hash is SHA-256**: for a message that is not too long, the bytes that are returned are
the digest of its bits. -/
theorem sha256_eq_digest (bytes : Bytes) (h : 8 * bytes.length < 2 ^ 53) :
    ∃ output, sha256 D bytes = .ok output ∧ output.length = 32 ∧
      bytesBits output = Fips180.digest (bytesBits bytes) := by
  obtain ⟨padded, hpadded, hbits⟩ := paddedBytes_ok D h
  have hlength : 8 * padded.length = (Fips180.pad (bytesBits bytes)).length := by
    rw [← hbits, bytesBits_length]
  have hblocks := (Fips180.pad_length (bytesBits bytes)).1
  have hloop : ∃ state : List (BitVec 32) × List (BitVec 32),
      (List.range' 0 ((padded.length + 63) / 64) 64).foldlM (compressBlock D padded)
        (initialHash, List.replicate 64 0) = .ok state ∧
      state.1 = (Fips180.hashValue (Fips180.pad (bytesBits bytes)) ((padded.length + 63) / 64)).words ∧
        state.2.length = 64 := by
    refine foldlM_range'_ok (P := fun j (state : List (BitVec 32) × List (BitVec 32)) =>
      state.1 = (Fips180.hashValue (Fips180.pad (bytesBits bytes)) j).words ∧ state.2.length = 64)
      ⟨rfl, List.length_replicate⟩ fun j hj state hstate => ?_
    obtain ⟨hash, schedule⟩ := state
    obtain ⟨rfl, hschedule⟩ := hstate
    have hview : ∀ i < 16, ∃ x, getUint32 padded (0 + 64 * j + i * 4) = .ok x ∧
        toWord x = Fips180.messageWord (Fips180.pad (bytesBits bytes)) j i := by
      intro i hi
      have hread : 0 + 64 * j + i * 4 + 4 ≤ padded.length := by omega
      obtain ⟨x, hx, hword⟩ := getUint32_ok hread
      refine ⟨x, hx, ?_⟩
      rw [hword, hbits, Fips180.messageWord]
      congr 4
      omega
    obtain ⟨schedule', hblock, hschedule'⟩ := compressBlock_ok D
      (Fips180.hashValue (Fips180.pad (bytesBits bytes)) j) hschedule hview
    exact ⟨_, hblock, rfl, hschedule'⟩
  obtain ⟨state, hstate, hhash, -⟩ := hloop
  have hcount : (padded.length + 63) / 64 = (Fips180.pad (bytesBits bytes)).length / 512 := by omega
  rw [hcount] at hhash
  refine ⟨state.1.flatMap wordBytes, ?_, by rw [hhash]; rfl, ?_⟩
  · unfold sha256
    rw [hpadded, ok_bind, hstate, ok_bind, hhash]
    exact outputBytes_ok _
  · have hwords : (fun word => bytesBits (wordBytes word)) =
        fun word => Fips180.bitsOfNat 32 word.toNat :=
      funext bytesBits_wordBytes
    rw [hhash, bytesBits, List.flatMap_assoc]
    exact congrArg (List.flatMap · _) hwords

/-- The hash of `abc`. -/
theorem sha256_eq_digest_abc :
    8 * ([97, 98, 99] : Bytes).length < 2 ^ 53 ∧
      ∃ output, sha256 ⟨id, fun _ _ => rfl⟩ [97, 98, 99] = .ok output ∧ output.length = 32 ∧
        bytesBits output = Fips180.digest (bytesBits [97, 98, 99]) :=
  ⟨by decide, sha256_eq_digest ⟨id, fun _ _ => rfl⟩ [97, 98, 99] (by decide)⟩

end Sha256

end Pactmark
