/-
Blocks of bytes as blocks of bits, the highest bit of a byte first.
-/

import Mathlib.Algebra.Order.Ring.Nat
import Mathlib.Data.List.FinRange
import Mathlib.Data.Nat.Bitwise

set_option autoImplicit false

namespace AuthServer

namespace BitBlocks

def bit (byte : UInt8) (place : Nat) : Bool := byte.toNat.testBit (7 - place)

def onlyBit (place : Nat) : UInt8 :=
  [0x80, 0x40, 0x20, 0x10, 0x08, 0x04, 0x02, 0x01].getD place 0

theorem byte_below {count : Nat} (k : Fin (8 * count)) : k.val / 8 < count := by
  have below := k.isLt
  omega

def bits {count : Nat} (block : Fin count → UInt8) (k : Fin (8 * count)) : Bool :=
  bit (block ⟨k.val / 8, byte_below k⟩) (k.val % 8)

/-! ### Bits of a byte -/

theorem bit_zero (place : Nat) : bit 0 place = false := Nat.zero_testBit _

theorem bit_or (first second : UInt8) (place : Nat) :
    bit (first ||| second) place = (bit first place || bit second place) := by
  rw [bit, UInt8.toNat_or, Nat.testBit_or]
  rfl

theorem bit_xor (first second : UInt8) (place : Nat) :
    bit (first ^^^ second) place = (bit first place ^^ bit second place) := by
  rw [bit, UInt8.toNat_xor, Nat.testBit_xor]
  rfl

theorem bit_and (first second : UInt8) (place : Nat) :
    bit (first &&& second) place = (bit first place && bit second place) := by
  rw [bit, UInt8.toNat_and, Nat.testBit_and]
  rfl

theorem bit_shiftLeft (byte count : UInt8) (place : Nat) (few : count.toNat < 8)
    (within : place < 8) :
    bit (byte <<< count) place =
      (decide (place + count.toNat < 8) && bit byte (place + count.toNat)) := by
  have low : 7 - place < 8 := by omega
  rw [bit, bit, UInt8.toNat_shiftLeft, Nat.mod_eq_of_lt few, Nat.testBit_mod_two_pow,
    Nat.testBit_shiftLeft, decide_eq_true low, Bool.true_and]
  by_cases inside : place + count.toNat < 8
  · have reach : 7 - place ≥ count.toNat := by omega
    have same : 7 - place - count.toNat = 7 - (place + count.toNat) := by omega
    rw [decide_eq_true inside, decide_eq_true reach, same]
  · have past : ¬ 7 - place ≥ count.toNat := by omega
    rw [decide_eq_false inside, decide_eq_false past, Bool.false_and, Bool.false_and]

theorem bit_shiftRight (byte count : UInt8) (place : Nat) (few : count.toNat < 8)
    (within : place < 8) :
    bit (byte >>> count) place =
      (decide (count.toNat ≤ place) && bit byte (place - count.toNat)) := by
  rw [bit, bit, UInt8.toNat_shiftRight, Nat.mod_eq_of_lt few, Nat.testBit_shiftRight]
  by_cases inside : count.toNat ≤ place
  · have same : count.toNat + (7 - place) = 7 - (place - count.toNat) := by omega
    rw [decide_eq_true inside, Bool.true_and, same]
  · have above : 2 ^ 8 ≤ 2 ^ (count.toNat + (7 - place)) :=
      Nat.pow_le_pow_right (by decide) (by omega)
    rw [decide_eq_false inside, Bool.false_and]
    exact Nat.testBit_lt_two_pow (Nat.lt_of_lt_of_le byte.toNat_lt above)

theorem bit_onlyBit (place other : Nat) (within : place < 8) (within' : other < 8) :
    bit (onlyBit place) other = decide (place = other) := by
  have all : ∀ place < 8, ∀ other < 8, bit (onlyBit place) other = decide (place = other) := by
    decide
  exact all place within other within'

theorem onlyBit_toNat (place : Nat) (within : place < 8) :
    (onlyBit place).toNat = 2 ^ (7 - place) := by
  have all : ∀ place < 8, (onlyBit place).toNat = 2 ^ (7 - place) := by decide
  exact all place within

theorem and_onlyBit (byte : UInt8) (place : Nat) (within : place < 8) :
    (byte &&& onlyBit place != 0) = bit byte place := by
  have masked : (byte &&& onlyBit place).toNat = (bit byte place).toNat * 2 ^ (7 - place) := by
    rw [UInt8.toNat_and, onlyBit_toNat place within, Nat.and_two_pow, bit]
  have positive : 0 < 2 ^ (7 - place) := Nat.two_pow_pos _
  cases seen : bit byte place with
  | false =>
      rw [seen, Bool.toNat_false, Nat.zero_mul] at masked
      rw [UInt8.toNat_inj.mp (masked.trans UInt8.toNat_zero.symm)]
      rfl
  | true =>
      rw [seen, Bool.toNat_true, Nat.one_mul] at masked
      refine bne_iff_ne.mpr fun zero => ?_
      rw [zero, UInt8.toNat_zero] at masked
      omega

theorem byte_ext (first second : UInt8)
    (agree : ∀ place < 8, bit first place = bit second place) : first = second := by
  refine UInt8.toNat_inj.mp (Nat.eq_of_testBit_eq fun i => ?_)
  by_cases low : i < 8
  · have at_ := agree (7 - i) (by omega)
    have back : 7 - (7 - i) = i := by omega
    rw [bit, bit, back] at at_
    exact at_
  · have above : 2 ^ 8 ≤ 2 ^ i := Nat.pow_le_pow_right (by decide) (Nat.not_lt.mp low)
    rw [Nat.testBit_lt_two_pow (Nat.lt_of_lt_of_le first.toNat_lt above),
      Nat.testBit_lt_two_pow (Nat.lt_of_lt_of_le second.toNat_lt above)]

/-! ### Bits of a block -/

theorem bits_at {count : Nat} (block : Fin count → UInt8) (k : Fin (8 * count)) (i : Fin count)
    (place : Nat) (within : place < 8) (at_ : k.val = 8 * i.val + place) :
    bits block k = bit (block i) place := by
  have byte : k.val / 8 = i.val := by omega
  have rest : k.val % 8 = place := by omega
  rw [bits, rest]
  exact congrArg (fun i => bit (block i) place) (Fin.ext byte)

theorem bits_injective {count : Nat} (first second : Fin count → UInt8)
    (same : bits first = bits second) : first = second := by
  funext i
  refine byte_ext _ _ fun place within => ?_
  have below : 8 * i.val + place < 8 * count := by omega
  let k : Fin (8 * count) := ⟨8 * i.val + place, below⟩
  rw [← bits_at first k i place within rfl, same, bits_at second k i place within rfl]

theorem bits_xor {count : Nat} (first second : Fin count → UInt8) (k : Fin (8 * count)) :
    bits (fun i => first i ^^^ second i) k = (bits first k ^^ bits second k) :=
  bit_xor _ _ _

theorem bits_or {count : Nat} (first second : Fin count → UInt8) (k : Fin (8 * count)) :
    bits (fun i => first i ||| second i) k = (bits first k || bits second k) :=
  bit_or _ _ _

theorem bits_foldl_or {Item : Type} {count : Nat} (term : Item → Fin count → UInt8)
    (items : List Item) (block : Fin count → UInt8) (k : Fin (8 * count)) :
    bits (items.foldl (fun block item i => block i ||| term item i) block) k =
      (bits block k || items.any fun item => bits (term item) k) := by
  induction items generalizing block with
  | nil => exact (Bool.or_false _).symm
  | cons item rest ih =>
      rw [List.foldl_cons, ih, List.any_cons, ← Bool.or_assoc]
      exact congrArg (· || _) (bit_or _ _ _)

/-! ### A block put together bit by bit -/

def setBit {count : Nat} (block : Fin count → UInt8) (k : Fin (8 * count)) : Fin count → UInt8 :=
  Function.update block ⟨k.val / 8, byte_below k⟩
    (block ⟨k.val / 8, byte_below k⟩ ||| onlyBit (k.val % 8))

theorem bits_setBit {count : Nat} (block : Fin count → UInt8) (k other : Fin (8 * count)) :
    bits (setBit block k) other = (bits block other || decide (other = k)) := by
  rw [bits, bits, setBit]
  by_cases there : other.val / 8 = k.val / 8
  · have sameByte : (⟨other.val / 8, byte_below other⟩ : Fin count) =
        ⟨k.val / 8, byte_below k⟩ := Fin.ext there
    have single := bit_onlyBit (k.val % 8) (other.val % 8) (Nat.mod_lt _ (by decide))
      (Nat.mod_lt _ (by decide))
    have same : k.val % 8 = other.val % 8 ↔ other = k :=
      ⟨fun rest => Fin.ext (by omega), fun equal => by rw [equal]⟩
    rw [sameByte, Function.update_self, bit_or, single, decide_eq_decide.mpr same]
  · have otherByte : (⟨other.val / 8, byte_below other⟩ : Fin count) ≠
        ⟨k.val / 8, byte_below k⟩ := fun equal => there (Fin.mk.inj equal)
    have apart : other ≠ k := fun equal => there (by rw [equal])
    rw [Function.update_of_ne otherByte, decide_eq_false apart, Bool.or_false]

def collect {count : Nat} (chosen : Fin (8 * count) → Bool) : Fin count → UInt8 :=
  (List.finRange (8 * count)).foldl
    (fun block k => if chosen k then setBit block k else block) fun _ => 0

theorem bits_collectOn {count : Nat} (chosen : Fin (8 * count) → Bool)
    (places : List (Fin (8 * count))) (block : Fin count → UInt8) (k : Fin (8 * count)) :
    bits (places.foldl (fun block k => if chosen k then setBit block k else block) block) k =
      (bits block k || (decide (k ∈ places) && chosen k)) := by
  induction places generalizing block with
  | nil => exact (Bool.or_false _).symm
  | cons place rest ih =>
      have member : decide (k ∈ place :: rest) = (decide (k = place) || decide (k ∈ rest)) := by
        rw [← Bool.decide_or]
        exact decide_eq_decide.mpr List.mem_cons
      rw [List.foldl_cons, ih, member, Bool.and_or_distrib_right, ← Bool.or_assoc]
      refine congrArg (· || _) ?_
      by_cases here : k = place
      · rw [here, decide_eq_true rfl, Bool.true_and]
        split
        · rename_i picked
          rw [bits_setBit, decide_eq_true rfl, picked]
        · rename_i skipped
          rw [Bool.eq_false_of_not_eq_true skipped, Bool.or_false]
      · rw [decide_eq_false here, Bool.false_and, Bool.or_false]
        split
        · rw [bits_setBit, decide_eq_false here, Bool.or_false]
        · rfl

@[simp] theorem bits_collect {count : Nat} (chosen : Fin (8 * count) → Bool) :
    bits (collect chosen) = chosen := by
  funext k
  rw [collect, bits_collectOn, decide_eq_true (List.mem_finRange k), Bool.true_and]
  exact (congrArg (· || _) (bit_zero _)).trans (Bool.false_or _)

end BitBlocks

end AuthServer
