/-
The hash function SHA-512 of FIPS 180-2, on bit strings.

The constants are the first sixty-four bits of the fractional parts of square
and cube roots of primes.  A word is 64 bits, the highest first, and addition
is modulo 2^64.
-/

import AuthServer.Lib.BitText
import Mathlib.Algebra.Order.Ring.Nat
import Mathlib.Data.Nat.Find

set_option autoImplicit false

namespace Sha512

open BitText

abbrev Word := BitVec 64

structure Eight (Value : Type) where
  a : Value
  b : Value
  c : Value
  d : Value
  e : Value
  f : Value
  g : Value
  h : Value
  deriving DecidableEq

namespace Eight

variable {Value Other : Type}

def map (change : Value → Other) (eight : Eight Value) : Eight Other :=
  ⟨change eight.a, change eight.b, change eight.c, change eight.d, change eight.e,
    change eight.f, change eight.g, change eight.h⟩

def add [Add Value] (first second : Eight Value) : Eight Value :=
  ⟨first.a + second.a, first.b + second.b, first.c + second.c, first.d + second.d,
    first.e + second.e, first.f + second.f, first.g + second.g, first.h + second.h⟩

def toList (eight : Eight Value) : List Value :=
  [eight.a, eight.b, eight.c, eight.d, eight.e, eight.f, eight.g, eight.h]

end Eight

/-! ### Functions and constants -/

def ch (x y z : Word) : Word := (x &&& y) ^^^ (~~~x &&& z)

def maj (x y z : Word) : Word := (x &&& y) ^^^ (x &&& z) ^^^ (y &&& z)

def bigSigma0 (x : Word) : Word := x.rotateRight 28 ^^^ x.rotateRight 34 ^^^ x.rotateRight 39

def bigSigma1 (x : Word) : Word := x.rotateRight 14 ^^^ x.rotateRight 18 ^^^ x.rotateRight 41

def smallSigma0 (x : Word) : Word := x.rotateRight 1 ^^^ x.rotateRight 8 ^^^ x >>> 7

def smallSigma1 (x : Word) : Word := x.rotateRight 19 ^^^ x.rotateRight 61 ^^^ x >>> 6

/-- The first bits behind the point of a root: 2^64 times the root is rounded
down, and what is above the point is cut off. -/
def fractionBits (power radicand : Nat) : Word :=
  BitVec.ofNat 64 (Nat.findGreatest
    (fun root => root ^ power ≤ radicand * 2 ^ (64 * power)) (radicand * 2 ^ 64))

def primes : List Nat :=
  [2, 3, 5, 7, 11, 13, 17, 19, 23, 29, 31, 37, 41, 43, 47, 53, 59, 61, 67, 71,
    73, 79, 83, 89, 97, 101, 103, 107, 109, 113, 127, 131, 137, 139, 149, 151, 157, 163, 167, 173,
    179, 181, 191, 193, 197, 199, 211, 223, 227, 229, 233, 239, 241, 251, 257, 263, 269, 271, 277,
    281, 283, 293, 307, 311, 313, 317, 331, 337, 347, 349, 353, 359, 367, 373, 379, 383, 389, 397,
    401, 409]

def constant (t : Nat) : Word := fractionBits 3 (primes.getD t 0)

def initial : Eight Word :=
  ⟨fractionBits 2 2, fractionBits 2 3, fractionBits 2 5, fractionBits 2 7,
    fractionBits 2 11, fractionBits 2 13, fractionBits 2 17, fractionBits 2 19⟩

/-- A root is known by its bounds. -/
theorem fractionBits_eq (power radicand root : Nat) (positive : power ≠ 0)
    (below : root ^ power ≤ radicand * 2 ^ (64 * power))
    (above : radicand * 2 ^ (64 * power) < (root + 1) ^ power) :
    fractionBits power radicand = BitVec.ofNat 64 root := by
  unfold fractionBits
  congr 1
  apply Nat.findGreatest_eq_iff.mpr
  refine ⟨?_, fun _ => below, fun other less _ small => ?_⟩
  · have whole : root ^ power ≤ (radicand * 2 ^ 64) ^ power := by
      calc root ^ power ≤ radicand * 2 ^ (64 * power) := below
        _ ≤ radicand ^ power * 2 ^ (64 * power) :=
            Nat.mul_le_mul_right _ (Nat.le_self_pow positive radicand)
        _ = (radicand * 2 ^ 64) ^ power := by rw [Nat.mul_pow, ← Nat.pow_mul]
    exact (Nat.pow_le_pow_iff_left positive).mp whole
  · have larger : (root + 1) ^ power ≤ other ^ power := Nat.pow_le_pow_left less power
    exact absurd (Nat.le_trans larger small) (Nat.not_le.mpr above)

/-! ### Preprocessing -/

def PadsTo (length zeros : Nat) : Prop := (length + 1 + zeros) % 1024 = 896

instance padsToDecidable (length : Nat) : DecidablePred (PadsTo length) := fun zeros =>
  inferInstanceAs (Decidable ((length + 1 + zeros) % 1024 = 896))

theorem padsTo_exists (length : Nat) : ∃ zeros, PadsTo length zeros := by
  refine ⟨1919 - length % 1024, ?_⟩
  unfold PadsTo
  omega

def zeros (length : Nat) : Nat := Nat.find (padsTo_exists length)

def pad (message : List Bool) : List Bool :=
  message ++ [true] ++ List.replicate (zeros message.length) false ++ binary 128 message.length

def word (padded : List Bool) (i t : Nat) : Word :=
  BitVec.ofNat 64 (number ((padded.drop (1024 * i + 64 * t)).take 64))

/-! ### Hash computation -/

def schedule (block : Nat → Word) (t : Nat) : Word :=
  if t < 16 then block t
  else
    smallSigma1 (schedule block (t - 2)) + schedule block (t - 7) +
      smallSigma0 (schedule block (t - 15)) + schedule block (t - 16)
termination_by t
decreasing_by all_goals omega

def round (k w : Word) (v : Eight Word) : Eight Word :=
  let t1 := v.h + bigSigma1 v.e + ch v.e v.f v.g + k + w
  let t2 := bigSigma0 v.a + maj v.a v.b v.c
  ⟨t1 + t2, v.a, v.b, v.c, v.d + t1, v.e, v.f, v.g⟩

def rounds (block : Nat → Word) (v : Eight Word) : Eight Word :=
  (List.range 80).foldl (fun v t => round (constant t) (schedule block t) v) v

def next (hash : Eight Word) (block : Nat → Word) : Eight Word :=
  hash.add (rounds block hash)

def digest (message : List Bool) : Eight Word :=
  (List.range ((pad message).length / 1024)).foldl
    (fun hash i => next hash (word (pad message) i)) initial

def digestBits (message : List Bool) : List Bool :=
  (digest message).toList.flatMap fun (word : Word) => binary 64 word.toNat

end Sha512
