/-
Numbers, bytes and bit strings, the highest bit first.

A number of a given width is written as a string of that many bits, and a text
of bytes as the bits of one byte after the other.  Reading a bit string gives
the number that it writes.
-/

import Mathlib.Algebra.Ring.Nat
import Mathlib.Data.List.Basic

set_option autoImplicit false

namespace BitText

def binary : Nat → Nat → List Bool
  | 0, _ => []
  | width + 1, value => value.testBit width :: binary width value

def number : List Bool → Nat
  | [] => 0
  | bit :: rest => bit.toNat * 2 ^ rest.length + number rest

def bits (bytes : List UInt8) : List Bool :=
  bytes.flatMap fun byte => binary 8 byte.toNat

def bytesOf : Nat → Nat → List UInt8
  | 0, _ => []
  | count + 1, value => UInt8.ofNat (value / 2 ^ (8 * count)) :: bytesOf count value

@[simp] theorem binary_length (width value : Nat) : (binary width value).length = width := by
  induction width with
  | zero => rfl
  | succ width ih => rw [binary, List.length_cons, ih]

theorem binary_append (high low value : Nat) :
    binary (high + low) value = binary high (value / 2 ^ low) ++ binary low value := by
  induction high with
  | zero => rw [Nat.zero_add, binary, List.nil_append]
  | succ high ih =>
      rw [Nat.add_right_comm, binary, binary, ih, Nat.testBit_div_two_pow, Nat.add_comm]
      rfl

theorem binary_mod (width value modulus : Nat) (within : width ≤ modulus) :
    binary width (value % 2 ^ modulus) = binary width value := by
  induction width with
  | zero => rfl
  | succ width ih =>
      have below : width < modulus := within
      rw [binary, binary, ih (Nat.le_of_lt below), Nat.testBit_mod_two_pow, decide_eq_true below,
        Bool.true_and]

theorem number_append (first second : List Bool) :
    number (first ++ second) = number first * 2 ^ second.length + number second := by
  induction first with
  | nil => rw [List.nil_append, number, Nat.zero_mul, Nat.zero_add]
  | cons bit rest ih =>
      rw [List.cons_append, number, number, ih, List.length_append, Nat.pow_add, Nat.add_mul,
        Nat.mul_assoc, Nat.add_assoc]

theorem number_binary (width value : Nat) : number (binary width value) = value % 2 ^ width := by
  induction width with
  | zero => exact (Nat.mod_one value).symm
  | succ width ih =>
      rw [binary, number, ih, binary_length, Nat.toNat_testBit, Nat.mod_pow_succ, Nat.mul_comm,
        Nat.add_comm]

theorem bits_append (first second : List UInt8) :
    bits (first ++ second) = bits first ++ bits second :=
  List.flatMap_append

theorem bits_cons (byte : UInt8) (rest : List UInt8) :
    bits (byte :: rest) = binary 8 byte.toNat ++ bits rest := rfl

@[simp] theorem bits_length (bytes : List UInt8) : (bits bytes).length = 8 * bytes.length := by
  induction bytes with
  | nil => rfl
  | cons byte rest ih =>
      rw [bits_cons, List.length_append, ih, binary_length, List.length_cons, Nat.mul_succ,
        Nat.add_comm]

theorem bits_drop (bytes : List UInt8) (count : Nat) (within : count ≤ bytes.length) :
    (bits bytes).drop (8 * count) = bits (bytes.drop count) := by
  have split := congrArg bits (List.take_append_drop count bytes)
  rw [bits_append] at split
  rw [← split]
  apply List.drop_left'
  rw [bits_length, List.length_take, Nat.min_eq_left within]

theorem bits_take (bytes : List UInt8) (count : Nat) (within : count ≤ bytes.length) :
    (bits bytes).take (8 * count) = bits (bytes.take count) := by
  have split := congrArg bits (List.take_append_drop count bytes)
  rw [bits_append] at split
  rw [← split]
  apply List.take_left'
  rw [bits_length, List.length_take, Nat.min_eq_left within]

theorem bits_replicate (count : Nat) :
    bits (List.replicate count 0) = List.replicate (8 * count) false := by
  induction count with
  | zero => rfl
  | succ count ih =>
      rw [List.replicate_succ, bits_cons, ih, Nat.mul_succ, Nat.add_comm, List.replicate_add]
      rfl

theorem bits_bytesOf (count value : Nat) : bits (bytesOf count value) = binary (8 * count) value := by
  induction count with
  | zero => rfl
  | succ count ih =>
      have byte := binary_mod 8 (value / 2 ^ (8 * count)) 8 (Nat.le_refl 8)
      rw [bytesOf, bits_cons, ih, Nat.mul_succ, Nat.add_comm, binary_append, UInt8.toNat_ofNat',
        byte]

theorem bytesOf_append (high low value : Nat) (small : value < 2 ^ (8 * low)) :
    bytesOf (high + low) value = List.replicate high 0 ++ bytesOf low value := by
  induction high with
  | zero => rw [Nat.zero_add, List.replicate_zero, List.nil_append]
  | succ high ih =>
      have less : value < 2 ^ (8 * (high + low)) := by
        apply Nat.lt_of_lt_of_le small
        apply Nat.pow_le_pow_right (Nat.succ_pos 1)
        exact Nat.mul_le_mul_left 8 (Nat.le_add_left low high)
      rw [Nat.add_right_comm, bytesOf, ih, Nat.div_eq_of_lt less]
      rfl

end BitText
