import Mathlib

/-!
# Durable — SHA-256 as FIPS 180-4 defines it

A message of bits is padded to blocks of 512 bits, and the blocks are compressed one after the
other into eight words.

* `bitsOfNat_add`, `natOfBits_bitsOfNat`: the bits of a number, in parts and read back.
* `pad_length`: what is padded fills its blocks.
-/

namespace Durable

namespace Fips180

abbrev Word := BitVec 32

/-- A string of bits. -/
abbrev Bits := List Bool

/-! ### Numbers as strings of bits -/

/-- The lowest bits of a number, the most significant one first. -/
def bitsOfNat (w n : Nat) : Bits :=
  (List.range w).map fun i => n.testBit (w - 1 - i)

/-- The number a string of bits stands for. -/
def natOfBits (bits : Bits) : Nat :=
  bits.foldl (fun n bit => 2 * n + bit.toNat) 0

@[simp] theorem bitsOfNat_length (w n : Nat) : (bitsOfNat w n).length = w := by
  simp [bitsOfNat]

/-- **The higher bits and the lower bits.** -/
theorem bitsOfNat_add (v w n : Nat) :
    bitsOfNat (v + w) n = bitsOfNat v (n / 2 ^ w) ++ bitsOfNat w n := by
  unfold bitsOfNat
  rw [List.range_add, List.map_append, List.map_map]
  congr 1
  · refine List.map_congr_left fun i hi => ?_
    have hi := List.mem_range.mp hi
    rw [Nat.testBit_div_two_pow]
    congr 1
    omega
  · refine List.map_congr_left fun i hi => ?_
    have hi := List.mem_range.mp hi
    simp only [Function.comp_apply]
    congr 1
    omega

theorem bitsOfNat_mod (w n : Nat) : bitsOfNat w (n % 2 ^ w) = bitsOfNat w n := by
  refine List.map_congr_left fun i hi => ?_
  have hi := List.mem_range.mp hi
  rw [Nat.testBit_mod_two_pow, decide_eq_true (by omega), Bool.true_and]

theorem natOfBits_append (bits later : Bits) :
    natOfBits (bits ++ later) = natOfBits bits * 2 ^ later.length + natOfBits later := by
  have hfrom : ∀ (later : Bits) (n : Nat),
      later.foldl (fun n bit => 2 * n + bit.toNat) n = n * 2 ^ later.length + natOfBits later := by
    intro later
    induction later with
    | nil => simp [natOfBits]
    | cons bit later ih =>
      intro n
      rw [natOfBits, List.foldl_cons, List.foldl_cons, ih, ih, List.length_cons, Nat.pow_succ]
      ring
  rw [natOfBits, List.foldl_append]
  exact hfrom later _

/-- **What is written is read back.** -/
theorem natOfBits_bitsOfNat (w n : Nat) : natOfBits (bitsOfNat w n) = n % 2 ^ w := by
  induction w with
  | zero => simp [natOfBits, bitsOfNat, Nat.mod_one]
  | succ w ih =>
    rw [Nat.add_comm w 1, bitsOfNat_add, natOfBits_append, ih, bitsOfNat_length, Nat.add_comm 1 w,
      Nat.mod_pow_succ]
    have hbit : natOfBits (bitsOfNat 1 (n / 2 ^ w)) = n / 2 ^ w % 2 := by
      rcases Nat.mod_two_eq_zero_or_one (n / 2 ^ w) with hmod | hmod <;>
        simp [natOfBits, bitsOfNat, hmod]
    rw [hbit]
    ring

/-! ### The message -/

/-- The number of zeros between a message and its length, so that the blocks are filled. -/
def zeroBits (length : Nat) : Nat :=
  (959 - length % 512) % 512

/-- A padded message. -/
def pad (message : Bits) : Bits :=
  message ++ true :: (List.replicate (zeroBits message.length) false ++
    bitsOfNat 64 message.length)

/-- **What is padded fills its blocks**, with the fewest zeros. -/
theorem pad_length (message : Bits) :
    (pad message).length % 512 = 0 ∧ zeroBits message.length < 512 := by
  simp only [pad, zeroBits, List.length_append, List.length_cons, List.length_replicate,
    bitsOfNat_length]
  omega

/-- A word of a block of a padded message. -/
def messageWord (padded : Bits) (block t : Nat) : Word :=
  BitVec.ofNat 32 (natOfBits ((padded.drop (512 * block + 32 * t)).take 32))

/-! ### The functions and the constants -/

def ch (x y z : Word) : Word :=
  (x &&& y) ^^^ (~~~x &&& z)

def maj (x y z : Word) : Word :=
  (x &&& y) ^^^ (x &&& z) ^^^ (y &&& z)

def bigSigma0 (x : Word) : Word :=
  x.rotateRight 2 ^^^ x.rotateRight 13 ^^^ x.rotateRight 22

def bigSigma1 (x : Word) : Word :=
  x.rotateRight 6 ^^^ x.rotateRight 11 ^^^ x.rotateRight 25

def smallSigma0 (x : Word) : Word :=
  x.rotateRight 7 ^^^ x.rotateRight 18 ^^^ x >>> 3

def smallSigma1 (x : Word) : Word :=
  x.rotateRight 17 ^^^ x.rotateRight 19 ^^^ x >>> 10

/-- The constants of the rounds: the first 32 bits of the fractional parts of the cube roots of
the first sixty-four primes. -/
def constants : List Word :=
  [0x428a2f98, 0x71374491, 0xb5c0fbcf, 0xe9b5dba5, 0x3956c25b, 0x59f111f1, 0x923f82a4, 0xab1c5ed5,
    0xd807aa98, 0x12835b01, 0x243185be, 0x550c7dc3, 0x72be5d74, 0x80deb1fe, 0x9bdc06a7, 0xc19bf174,
    0xe49b69c1, 0xefbe4786, 0x0fc19dc6, 0x240ca1cc, 0x2de92c6f, 0x4a7484aa, 0x5cb0a9dc, 0x76f988da,
    0x983e5152, 0xa831c66d, 0xb00327c8, 0xbf597fc7, 0xc6e00bf3, 0xd5a79147, 0x06ca6351, 0x14292967,
    0x27b70a85, 0x2e1b2138, 0x4d2c6dfc, 0x53380d13, 0x650a7354, 0x766a0abb, 0x81c2c92e, 0x92722c85,
    0xa2bfe8a1, 0xa81a664b, 0xc24b8b70, 0xc76c51a3, 0xd192e819, 0xd6990624, 0xf40e3585, 0x106aa070,
    0x19a4c116, 0x1e376c08, 0x2748774c, 0x34b0bcb5, 0x391c0cb3, 0x4ed8aa4a, 0x5b9cca4f, 0x682e6ff3,
    0x748f82ee, 0x78a5636f, 0x84c87814, 0x8cc70208, 0x90befffa, 0xa4506ceb, 0xbef9a3f7, 0xc67178f2]

example : ∀ x ∈ constants.zip ((List.range 312).filter fun n => decide (2 ≤ n) &&
      (List.range 18).all fun d => decide (d < 2) || decide (n ≤ d) || decide (n % d ≠ 0)),
    ∃ whole < 7, (whole * 2 ^ 32 + x.1.toNat) ^ 3 ≤ x.2 * 2 ^ 96 ∧
      x.2 * 2 ^ 96 < (whole * 2 ^ 32 + x.1.toNat + 1) ^ 3 := by
  decide +kernel

def constant (t : Nat) : Word :=
  constants.getD t 0

/-- The words of a schedule. -/
def schedule (block : Nat → Word) (t : Nat) : Word :=
  if t < 16 then block t
  else
    smallSigma1 (schedule block (t - 2)) + schedule block (t - 7) +
      smallSigma0 (schedule block (t - 15)) + schedule block (t - 16)

/-! ### The hash -/

/-- The working variables, or the words of a hash value. -/
@[ext] structure Variables where
  a : Word
  b : Word
  c : Word
  d : Word
  e : Word
  f : Word
  g : Word
  h : Word

/-- The first hash value: the first 32 bits of the fractional parts of the square roots of the
first eight primes. -/
def initial : Variables where
  a := 0x6a09e667
  b := 0xbb67ae85
  c := 0x3c6ef372
  d := 0xa54ff53a
  e := 0x510e527f
  f := 0x9b05688c
  g := 0x1f83d9ab
  h := 0x5be0cd19

namespace Variables

/-- The words in their order. -/
def words (v : Variables) : List Word :=
  [v.a, v.b, v.c, v.d, v.e, v.f, v.g, v.h]

/-- One round. -/
def round (v : Variables) (k w : Word) : Variables :=
  let t₁ := v.h + bigSigma1 v.e + ch v.e v.f v.g + k + w
  let t₂ := bigSigma0 v.a + maj v.a v.b v.c
  ⟨t₁ + t₂, v.a, v.b, v.c, v.d + t₁, v.e, v.f, v.g⟩

/-- The first rounds. -/
def rounds (block : Nat → Word) (v : Variables) : Nat → Variables
  | 0 => v
  | t + 1 => (rounds block v t).round (constant t) (schedule block t)

/-- The sum, word by word. -/
def add (v w : Variables) : Variables :=
  ⟨v.a + w.a, v.b + w.b, v.c + w.c, v.d + w.d, v.e + w.e, v.f + w.f, v.g + w.g, v.h + w.h⟩

/-- The hash value after a block. -/
def compress (v : Variables) (block : Nat → Word) : Variables :=
  v.add (v.rounds block 64)

end Variables

/-- The hash value after some blocks. -/
def hashValue (padded : Bits) : Nat → Variables
  | 0 => initial
  | i + 1 => (hashValue padded i).compress (messageWord padded i)

/-- SHA-256 of a message. -/
def digest (message : Bits) : Bits :=
  (hashValue (pad message) ((pad message).length / 512)).words.flatMap fun word =>
    bitsOfNat 32 word.toNat

end Fips180

end Durable
