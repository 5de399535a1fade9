/-
The message digest MD5, on messages of whole bytes.

A word is 32 bits and is stored with its lowest byte first; addition is modulo 2^32.  The
constants are the sines of whole numbers of radians.
-/

import AuthServer.Lib.BlockHash
import AuthServer.Lib.SineTable
import Mathlib.Data.Nat.Find

set_option autoImplicit false

namespace Md5

abbrev Word := BitVec 32

structure Four (Value : Type) where
  a : Value
  b : Value
  c : Value
  d : Value
  deriving DecidableEq

namespace Four

variable {Value Other : Type}

def map (change : Value → Other) (four : Four Value) : Four Other :=
  ⟨change four.a, change four.b, change four.c, change four.d⟩

def add [Add Value] (first second : Four Value) : Four Value :=
  ⟨first.a + second.a, first.b + second.b, first.c + second.c, first.d + second.d⟩

def toList (four : Four Value) : List Value := [four.a, four.b, four.c, four.d]

end Four

/-! ### Functions and constants -/

def f (x y z : Word) : Word := (x &&& y) ||| (~~~x &&& z)

def g (x y z : Word) : Word := (x &&& z) ||| (y &&& ~~~z)

def h (x y z : Word) : Word := x ^^^ y ^^^ z

def i (x y z : Word) : Word := y ^^^ (x ||| ~~~z)

def mix : Nat → Word → Word → Word → Word
  | 0 => f
  | 1 => g
  | 2 => h
  | _ => i

def place (step : Nat) : Nat :=
  match step / 16 with
  | 0 => step % 16
  | 1 => (5 * step + 1) % 16
  | 2 => (3 * step + 5) % 16
  | _ => 7 * step % 16

def shifts : Nat → List Nat
  | 0 => [7, 12, 17, 22]
  | 1 => [5, 9, 14, 20]
  | 2 => [4, 11, 16, 23]
  | _ => [6, 10, 15, 21]

def shift (step : Nat) : Nat := (shifts (step / 16)).getD (step % 4) 0

theorem shift_bounds (step : Nat) : 0 < shift step ∧ shift step < 32 := by
  have turn : step % 4 = 0 ∨ step % 4 = 1 ∨ step % 4 = 2 ∨ step % 4 = 3 := by omega
  unfold shift shifts
  rcases turn with same | same | same | same <;> rw [same] <;> split <;> decide

noncomputable def sine (radians : Nat) : Word :=
  BitVec.ofNat 32 ⌊(2 ^ 32 : Nat) * |Real.sin radians|⌋₊

def IsSine (radians value : Nat) : Prop := SineTable.Tells 23 (2 ^ 32) radians value

instance isSineDecidable (radians value : Nat) : Decidable (IsSine radians value) :=
  SineTable.tellsDecidable 23 (2 ^ 32) radians value

theorem sine_eq (radians value : Nat) (isSine : IsSine radians value) :
    sine radians = BitVec.ofNat 32 value := by
  rw [sine, SineTable.floor_eq 23 (2 ^ 32) radians value (by decide +kernel) isSine]

/-! ### Preprocessing -/

def number : List UInt8 → Nat
  | [] => 0
  | byte :: rest => byte.toNat + 256 * number rest

def bytesOf (count value : Nat) : List UInt8 :=
  (List.range count).map fun index => UInt8.ofNat (value / 256 ^ index)

theorem bytesOf_add (first second value : Nat) :
    bytesOf (first + second) value =
      bytesOf first value ++ bytesOf second (value / 256 ^ first) := by
  unfold bytesOf
  rw [List.range_add, List.map_append, List.map_map]
  congr 1
  apply List.map_congr_left
  intro index _member
  exact congrArg UInt8.ofNat (by rw [Nat.pow_add, Nat.div_div_eq_div_mul])

theorem bytesOf_mod (count value : Nat) :
    bytesOf count (value % 256 ^ count) = bytesOf count value := by
  unfold bytesOf
  apply List.map_congr_left
  intro index member
  have below := List.mem_range.mp member
  have split : 256 ^ count = 256 ^ index * 256 ^ (count - index) := by
    rw [← Nat.pow_add, Nat.add_sub_cancel' below.le]
  have byte : 2 ^ 8 ∣ 256 ^ (count - index) := dvd_pow_self 256 (by omega)
  apply UInt8.toNat_inj.mp
  rw [UInt8.toNat_ofNat', UInt8.toNat_ofNat', split, Nat.mod_mul_right_div_self,
    Nat.mod_mod_of_dvd _ byte]

def PadsTo (length zeros : Nat) : Prop := (length + 1 + zeros) % 64 = 56

instance padsToDecidable (length : Nat) : DecidablePred (PadsTo length) := fun zeros =>
  inferInstanceAs (Decidable ((length + 1 + zeros) % 64 = 56))

theorem padsTo_exists (length : Nat) : ∃ zeros, PadsTo length zeros := by
  refine ⟨119 - length % 64, ?_⟩
  unfold PadsTo
  omega

def zeros (length : Nat) : Nat := Nat.find (padsTo_exists length)

def pad (message : List UInt8) : List UInt8 :=
  message ++ [0x80] ++ List.replicate (zeros message.length) 0 ++ bytesOf 8 (8 * message.length)

theorem zeros_eq (length count : Nat) (pads : PadsTo length count) (least : count < 64) :
    zeros length = count := by
  refine (Nat.find_eq_iff (padsTo_exists length)).mpr ⟨pads, fun fewer less alsoPads => ?_⟩
  unfold PadsTo at pads alsoPads
  omega

theorem zeros_lt (length : Nat) : zeros length < 64 := by
  rw [zeros_eq length ((119 - length % 64) % 64) (by unfold PadsTo; omega)
    (Nat.mod_lt _ (by decide))]
  exact Nat.mod_lt _ (by decide)

theorem pad_length (message : List UInt8) : 64 ∣ (pad message).length := by
  have pads : PadsTo message.length (zeros message.length) := Nat.find_spec _
  unfold PadsTo at pads
  apply Nat.dvd_of_mod_eq_zero
  simp only [pad, bytesOf, List.length_append, List.length_cons, List.length_nil,
    List.length_replicate, List.length_map, List.length_range]
  omega

/-! ### The digest -/

def word (block : List UInt8) (index : Nat) : Word :=
  BitVec.ofNat 32 (number ((block.drop (4 * index)).take 4))

noncomputable def operation (block : List UInt8) (v : Four Word) (step : Nat) : Four Word :=
  ⟨v.d, v.b + (v.a + mix (step / 16) v.b v.c v.d + word block (place step) +
    sine (step + 1)).rotateLeft (shift step), v.b, v.c⟩

noncomputable def compress (state : Four Word) (block : List UInt8) : Four Word :=
  state.add ((List.range 64).foldl (operation block) state)

noncomputable def scheme : BlockHash.Scheme (Four Word) UInt8 where
  size := 64
  positive := by decide
  compress := compress

def initial : Four Word := ⟨0x67452301, 0xefcdab89, 0x98badcfe, 0x10325476⟩

def encode (state : Four Word) : List UInt8 :=
  state.toList.flatMap fun word => bytesOf 4 word.toNat

noncomputable def digest (message : List UInt8) : List UInt8 :=
  encode (scheme.absorb initial (pad message))

end Md5
