/-
IPv4 addresses as the socket layer passes them around.

`in_addr` is a union of four bytes and one 32-bit word.  The bytes are kept;
`sAddr` is the word as a little-endian machine reads it, and `hostOrder` is the
value the block lists compute from the bytes.
-/

import Mathlib.Algebra.Ring.Nat
import Mathlib.Data.List.Basic
import Mathlib.Order.Lattice

set_option autoImplicit false

namespace AuthServer

/-- The order of unsigned 32-bit values, as the range tables use it. -/
instance uint32LinearOrder : LinearOrder UInt32 where
  le_refl := UInt32.le_refl
  le_trans _ _ _ := UInt32.le_trans
  le_antisymm _ _ := UInt32.le_antisymm
  le_total := UInt32.le_total
  lt_iff_le_not_ge left right := by
    rw [UInt32.lt_iff_toNat_lt, UInt32.le_iff_toNat_le, UInt32.le_iff_toNat_le]
    omega
  toDecidableLE := inferInstance
  toDecidableEq := inferInstance
  toDecidableLT := inferInstance

structure InAddr where
  b1 : UInt8
  b2 : UInt8
  b3 : UInt8
  b4 : UInt8
  deriving DecidableEq, Repr

def word (high upper lower low : UInt8) : UInt32 :=
  (high.toUInt32 <<< 24) ||| (upper.toUInt32 <<< 16) ||| (lower.toUInt32 <<< 8) ||| low.toUInt32

def InAddr.hostOrder (ip : InAddr) : UInt32 := word ip.b1 ip.b2 ip.b3 ip.b4

def InAddr.sAddr (ip : InAddr) : UInt32 := word ip.b4 ip.b3 ip.b2 ip.b1

private theorem or_of_shifted (left right count : Nat) (small : right < 2 ^ count) :
    left * 2 ^ count ||| right = left * 2 ^ count + right := by
  rw [← Nat.shiftLeft_eq, Nat.shiftLeft_add_eq_or_of_lt small]

theorem word_toNat (high upper lower low : UInt8) :
    (word high upper lower low).toNat =
      high.toNat * 2 ^ 24 + upper.toNat * 2 ^ 16 + lower.toNat * 2 ^ 8 + low.toNat := by
  have b1 := high.toNat_lt
  have b2 := upper.toNat_lt
  have b3 := lower.toNat_lt
  have b4 := low.toNat_lt
  have shifted : ∀ (byte : UInt8) (count : Nat), count ≤ 24 →
      byte.toNat <<< count % 2 ^ 32 = byte.toNat * 2 ^ count := by
    intro byte count within
    rw [Nat.shiftLeft_eq, Nat.mod_eq_of_lt]
    calc byte.toNat * 2 ^ count < 2 ^ 8 * 2 ^ count :=
          Nat.mul_lt_mul_of_pos_right byte.toNat_lt (Nat.two_pow_pos count)
      _ ≤ 2 ^ 8 * 2 ^ 24 := Nat.mul_le_mul_left _ (Nat.pow_le_pow_right (by decide) within)
  have regroupUpper : high.toNat * 2 ^ 24 + upper.toNat * 2 ^ 16 =
      (high.toNat * 2 ^ 8 + upper.toNat) * 2 ^ 16 := by omega
  have regroupLower : ∀ front : Nat, front * 2 ^ 16 + lower.toNat * 2 ^ 8 =
      (front * 2 ^ 8 + lower.toNat) * 2 ^ 8 := by
    intro front
    have square : 2 ^ 8 * 2 ^ 8 = 2 ^ 16 := by decide
    rw [Nat.add_mul, Nat.mul_assoc front, square]
  have first := or_of_shifted high.toNat (upper.toNat * 2 ^ 16) 24 (by omega)
  have second := or_of_shifted (high.toNat * 2 ^ 8 + upper.toNat) (lower.toNat * 2 ^ 8) 16
    (by omega)
  have third := or_of_shifted ((high.toNat * 2 ^ 8 + upper.toNat) * 2 ^ 8 + lower.toNat)
    low.toNat 8 (by omega)
  simp only [word, UInt32.toNat_or, UInt32.toNat_shiftLeft, UInt8.toNat_toUInt32]
  rw [shifted high _ (by decide), shifted upper _ (by decide), shifted lower _ (by decide)]
  change high.toNat * 2 ^ 24 ||| upper.toNat * 2 ^ 16 ||| lower.toNat * 2 ^ 8 ||| low.toNat = _
  rw [first, regroupUpper, second, regroupLower, third]

theorem word_bytes (value : UInt32) :
    word (value.toNat / 2 ^ 24).toUInt8 (value.toNat / 2 ^ 16).toUInt8
      (value.toNat / 2 ^ 8).toUInt8 value.toNat.toUInt8 = value := by
  have bound := value.toNat_lt
  apply UInt32.toNat_inj.mp
  rw [word_toNat]
  simp only [Nat.toUInt8_eq, UInt8.toNat_ofNat']
  omega

theorem word_injective (a1 a2 a3 a4 b1 b2 b3 b4 : UInt8)
    (same : word a1 a2 a3 a4 = word b1 b2 b3 b4) :
    a1 = b1 ∧ a2 = b2 ∧ a3 = b3 ∧ a4 = b4 := by
  have values := congrArg UInt32.toNat same
  rw [word_toNat, word_toNat] at values
  have bounds : ∀ byte : UInt8, byte.toNat < 256 := UInt8.toNat_lt
  have a1Lt := bounds a1
  have a2Lt := bounds a2
  have a3Lt := bounds a3
  have a4Lt := bounds a4
  have b1Lt := bounds b1
  have b2Lt := bounds b2
  have b3Lt := bounds b3
  have b4Lt := bounds b4
  refine ⟨UInt8.toNat_inj.mp ?_, UInt8.toNat_inj.mp ?_, UInt8.toNat_inj.mp ?_,
    UInt8.toNat_inj.mp ?_⟩ <;> omega

theorem InAddr.hostOrder_surjective (value : UInt32) :
    ∃ ip : InAddr, ip.hostOrder = value :=
  ⟨⟨_, _, _, _⟩, word_bytes value⟩

theorem InAddr.sAddr_injective (left right : InAddr) (same : left.sAddr = right.sAddr) :
    left = right := by
  obtain ⟨fourth, third, second, first⟩ := word_injective _ _ _ _ _ _ _ _ same
  cases left
  cases right
  simp only [InAddr.mk.injEq]
  exact ⟨first, second, third, fourth⟩

end AuthServer
