/-
`Des.c` against the data encryption standard, bit by bit.

`standard` is the cipher as the standard draws it, over bits, and `roundKeys` its key
schedule, both with the tables of the source.
-/

import AuthServer.Des
import AuthServer.Lib.BitCipher
import Mathlib.Tactic.IntervalCases

set_option autoImplicit false

namespace AuthServer

open BitBlocks BitCipher LinearMemory

namespace Des

/-- The number of a row is in the outer bits of the six, that of a column in the others. -/
def compression (k : Nat) (six : Fin 6 → Bool) : Nat :=
  let row := 2 * (six 0).toNat + (six 5).toNat
  let column := 8 * (six 1).toNat + 4 * (six 2).toNat + 2 * (six 3).toNat + (six 4).toNat
  (si.getD k []).getD (16 * row + column) 0

def standard : BitCipher 32 48 where
  initial k := Fin.ofNat 64 (ip.getD k 0 - 1)
  final k := Fin.ofNat 64 (fp.getD k 0 - 1)
  expansion k := Fin.ofNat 32 (31 + 4 * (k / 6) + k % 6)
  substitution bits i :=
    (compression (i / 4) fun j => bits ⟨6 * (i / 4) + j, by omega⟩).testBit (3 - i % 4)
  mixing i := Fin.ofNat 32 (p32i.getD i 0 - 1)

/-! ### Permutations -/

theorem bits_maskBits {count : Nat} (chosen : Fin (8 * count) → Bool) :
    bits (maskBits chosen) = chosen :=
  bits_collect chosen

theorem bit_upper (byte : UInt8) (m : Nat) (within : m < 4) :
    (((byte >>> 4) &&& 0x0f) &&& nibblebit m != 0) = bit byte m := by
  have masks : ∀ m < 4, nibblebit m = onlyBit (m + 4) ∧ bit 0x0f (m + 4) = true := by decide
  rw [(masks m within).1, and_onlyBit _ _ (by omega), bit_and, (masks m within).2, Bool.and_true,
    bit_shiftRight _ _ _ (by decide) (by omega)]
  have four : (4 : UInt8).toNat = 4 := rfl
  rw [four, decide_eq_true (Nat.le_add_left 4 m), Bool.true_and, Nat.add_sub_cancel]

theorem bit_lower (byte : UInt8) (m : Nat) (within : m < 4) :
    ((byte &&& 0x0f) &&& nibblebit m != 0) = bit byte (m + 4) := by
  have masks : ∀ m < 4, nibblebit m = onlyBit (m + 4) ∧ bit 0x0f (m + 4) = true := by decide
  rw [(masks m within).1, and_onlyBit _ _ (by omega), bit_and, (masks m within).2, Bool.and_true]

theorem any_at {count : Nat} (place : Fin count) (here : Fin count → Bool) :
    ((List.finRange count).any fun i => decide (place = i) && here i) = here place := by
  rw [Bool.eq_iff_iff, List.any_eq_true]
  constructor
  · rintro ⟨i, _, both⟩
    rw [Bool.and_eq_true, decide_eq_true_eq] at both
    exact both.1 ▸ both.2
  · intro set
    exact ⟨place, List.mem_finRange place, by rw [decide_eq_true rfl, Bool.true_and, set]⟩

/-- The permutation through the arrays takes each bit from its place in the table. -/
theorem bits_permute (p : List Nat) (inblock : Fin 8 → UInt8) (k : Fin 64)
    (within : p.getD k 0 - 1 < 64) :
    bits (permute inblock (perminit p)) k = bits inblock ⟨p.getD k 0 - 1, within⟩ := by
  let l := p.getD k 0 - 1
  have at_ (i : Fin 16) (j : UInt8) :
      bits (perminit p i j) k = (decide (l / 4 = i) && (j &&& nibblebit (l % 4) != 0)) := by
    rw [perminit, bits_maskBits]
  have term (ib : Fin 8) :
      bits (fun i => perminit p ⟨2 * ib.val, by omega⟩ ((inblock ib >>> 4) &&& 0x0f) i |||
        perminit p ⟨2 * ib.val + 1, by omega⟩ (inblock ib &&& 0x0f) i) k =
      (decide ((⟨l / 8, by omega⟩ : Fin 8) = ib) && bit (inblock ib) (l % 8)) := by
    rw [bits_or, at_, at_, bit_upper _ _ (Nat.mod_lt _ (by decide)),
      bit_lower _ _ (Nat.mod_lt _ (by decide))]
    by_cases here : l / 8 = ib.val
    · have same : (⟨l / 8, by omega⟩ : Fin 8) = ib := Fin.ext here
      rw [decide_eq_true same, Bool.true_and]
      by_cases upper : l % 8 < 4
      · have first : l / 4 = 2 * ib.val := by omega
        have notSecond : ¬ l / 4 = 2 * ib.val + 1 := by omega
        have rest : l % 4 = l % 8 := by omega
        rw [decide_eq_true first, decide_eq_false notSecond, Bool.true_and, Bool.false_and,
          Bool.or_false, rest]
      · have notFirst : ¬ l / 4 = 2 * ib.val := by omega
        have second : l / 4 = 2 * ib.val + 1 := by omega
        have rest : l % 4 + 4 = l % 8 := by omega
        rw [decide_eq_false notFirst, decide_eq_true second, Bool.false_and, Bool.true_and,
          Bool.false_or, rest]
    · have apart : (⟨l / 8, by omega⟩ : Fin 8) ≠ ib := fun equal => here (congrArg Fin.val equal)
      have notFirst : ¬ l / 4 = 2 * ib.val := by omega
      have notSecond : ¬ l / 4 = 2 * ib.val + 1 := by omega
      rw [decide_eq_false apart, decide_eq_false notFirst, decide_eq_false notSecond,
        Bool.false_and, Bool.false_and, Bool.false_and, Bool.or_false]
  rw [permute, bits_foldl_or]
  simp only [term]
  rw [any_at ⟨l / 8, by omega⟩ fun ib => bit (inblock ib) (l % 8)]
  exact (congrArg (· || _) (bit_zero _)).trans (Bool.false_or _)

theorem bits_perm32 (arrays : DesArrays) (filled : arrays.p32 = p32init) (inblock : Fin 4 → UInt8)
    (i : Fin 32) :
    bits (perm32 arrays inblock) i = bits inblock (standard.mixing i) := by
  let l := p32i.getD i 0 - 1
  have within : l < 32 := by
    have all : ∀ i : Fin 32, p32i.getD i 0 - 1 < 32 := by decide
    exact all i
  have term (j : Fin 4) : bits (arrays.p32 j (inblock j)) i =
      (decide ((⟨l / 8, by omega⟩ : Fin 4) = j) && bit (inblock j) (l % 8)) := by
    rw [filled, p32init, bits_maskBits]
    have mask : bytebit (l % 8) = onlyBit (l % 8) := rfl
    change (decide (l / 8 = j.val) && (inblock j &&& bytebit (l % 8) != 0)) = _
    rw [mask, and_onlyBit _ _ (Nat.mod_lt _ (by decide))]
    exact congrArg (· && _) (decide_eq_decide.mpr Fin.mk.inj_iff.symm)
  have taken : standard.mixing i = ⟨l, within⟩ := Fin.ext (Nat.mod_eq_of_lt within)
  rw [perm32, bits_foldl_or]
  simp only [term]
  rw [any_at ⟨l / 8, by omega⟩ fun j => bit (inblock j) (l % 8), taken]
  exact (congrArg (· || _) (bit_zero _)).trans (Bool.false_or _)

theorem bit_masks : ∀ place < 8,
    bit 0o001 place = decide (place = 7) ∧ bit 0o007 place = decide (5 ≤ place) ∧
      bit 0o030 place = (decide (3 ≤ place) && decide (place < 5)) ∧
      bit 0o037 place = decide (3 ≤ place) ∧ bit 0o200 place = decide (place = 0) ∧
      bit 0o340 place = decide (place < 3) ∧ bit 0o370 place = decide (place < 5) := by
  decide

theorem bits_expand (right : Fin 4 → UInt8) (k : Fin 48) :
    bits (expand right) k = bits right (standard.expansion k) := by
  obtain ⟨k, below⟩ := k
  interval_cases k <;>
    simp [bits, expand, standard, bit_or, bit_and, bit_shiftLeft, bit_shiftRight, bit_masks]

/-! ### Compressions -/

theorem getcomp_compression (k v : Nat) (small : v < 64) :
    getcomp k v = compression k fun j => v.testBit (5 - j) := by
  have indices : ∀ v < 64,
      ((((v &&& 0o40) >>> 4) ||| (v &&& 1)) <<< 4) + ((v &&& 0o37) >>> 1) =
        16 * (2 * (v.testBit 5).toNat + (v.testBit 0).toNat) +
          (8 * (v.testBit 4).toNat + 4 * (v.testBit 3).toNat + 2 * (v.testBit 2).toNat +
            (v.testBit 1).toNat) := by
    decide
  rw [getcomp, indices v small]
  rfl

def twelve (in48 : Fin 6 → UInt8) : Fin 4 → Nat :=
  ![0xfff &&& (((in48 0).toNat <<< 4) ||| (((in48 1).toNat >>> 4) &&& 0x0f)),
    0xfff &&& (((in48 1).toNat <<< 8) ||| ((in48 2).toNat &&& 0xff)),
    0xfff &&& (((in48 3).toNat <<< 4) ||| (((in48 4).toNat >>> 4) &&& 0x0f)),
    0xfff &&& (((in48 4).toNat <<< 8) ||| ((in48 5).toNat &&& 0xff))]

theorem testBit_masks : ∀ place < 12,
    Nat.testBit 0xfff place = true ∧ Nat.testBit 0x0f place = decide (place < 4) ∧
      Nat.testBit 0xff place = decide (place < 8) := by
  decide

theorem twelve_front (first second : UInt8) (q : Nat) (within : q < 12) :
    (0xfff &&& ((first.toNat <<< 4) ||| ((second.toNat >>> 4) &&& 0x0f))).testBit (11 - q) =
      if q < 8 then bit first q else bit second (q - 8) := by
  obtain ⟨whole, nibble, _⟩ := testBit_masks (11 - q) (by omega)
  rw [Nat.testBit_and, whole, Bool.true_and, Nat.testBit_or, Nat.testBit_shiftLeft,
    Nat.testBit_and, Nat.testBit_shiftRight, nibble]
  by_cases front : q < 8
  · have high : 11 - q ≥ 4 := by omega
    have notLow : ¬ 11 - q < 4 := by omega
    have place : 11 - q - 4 = 7 - q := by omega
    rw [decide_eq_true high, decide_eq_false notLow, Bool.true_and, Bool.and_false,
      Bool.or_false, if_pos front, place]
    rfl
  · have notHigh : ¬ 11 - q ≥ 4 := by omega
    have low : 11 - q < 4 := by omega
    have place : 4 + (11 - q) = 7 - (q - 8) := by omega
    rw [decide_eq_false notHigh, decide_eq_true low, Bool.false_and, Bool.and_true,
      Bool.false_or, if_neg front, place]
    rfl

theorem twelve_back (first second : UInt8) (q : Nat) (within : q < 12) :
    (0xfff &&& ((first.toNat <<< 8) ||| (second.toNat &&& 0xff))).testBit (11 - q) =
      if q < 4 then bit first (q + 4) else bit second (q - 4) := by
  obtain ⟨whole, _, byte⟩ := testBit_masks (11 - q) (by omega)
  rw [Nat.testBit_and, whole, Bool.true_and, Nat.testBit_or, Nat.testBit_shiftLeft,
    Nat.testBit_and, byte]
  by_cases front : q < 4
  · have high : 11 - q ≥ 8 := by omega
    have notLow : ¬ 11 - q < 8 := by omega
    have place : 11 - q - 8 = 7 - (q + 4) := by omega
    rw [decide_eq_true high, decide_eq_false notLow, Bool.true_and, Bool.and_false,
      Bool.or_false, if_pos front, place]
    rfl
  · have notHigh : ¬ 11 - q ≥ 8 := by omega
    have low : 11 - q < 8 := by omega
    have place : 11 - q = 7 - (q - 4) := by omega
    rw [decide_eq_false notHigh, decide_eq_true low, Bool.false_and, Bool.and_true,
      Bool.false_or, if_neg front, place]
    rfl

theorem twelve_bits (in48 : Fin 6 → UInt8) (i : Fin 4) (q : Nat) (within : q < 12) :
    (twelve in48 i).testBit (11 - q) = bits in48 ⟨12 * i.val + q, by omega⟩ := by
  have front (first second : Fin 6) (k : Fin 48) (even : k.val = 8 * first.val + q)
      (next : second.val = first.val + 1) :
      (if q < 8 then bit (in48 first) q else bit (in48 second) (q - 8)) = bits in48 k := by
    split
    · rename_i inFirst
      exact (bits_at in48 k first q inFirst even).symm
    · exact (bits_at in48 k second (q - 8) (by omega) (by omega)).symm
  have back (first second : Fin 6) (k : Fin 48) (odd : k.val = 8 * first.val + (q + 4))
      (next : second.val = first.val + 1) :
      (if q < 4 then bit (in48 first) (q + 4) else bit (in48 second) (q - 4)) = bits in48 k := by
    split
    · exact (bits_at in48 k first (q + 4) (by omega) odd).symm
    · exact (bits_at in48 k second (q - 4) (by omega) (by omega)).symm
  match i with
  | ⟨0, _⟩ => exact (twelve_front _ _ q within).trans (front 0 1 _ rfl rfl)
  | ⟨1, _⟩ => exact (twelve_back _ _ q within).trans (back 1 2 _ (by dsimp only; omega) rfl)
  | ⟨2, _⟩ => exact (twelve_front _ _ q within).trans (front 3 4 _ rfl rfl)
  | ⟨3, _⟩ => exact (twelve_back _ _ q within).trans (back 4 5 _ (by dsimp only; omega) rfl)

theorem contract_eq (arrays : DesArrays) (filled : arrays.s = sinit) (in48 : Fin 6 → UInt8)
    (i : Fin 4) : contract arrays in48 i = sinit i (twelve in48 i) := by
  rw [contract, filled]
  match i with
  | ⟨0, _⟩ => rfl
  | ⟨1, _⟩ => rfl
  | ⟨2, _⟩ => rfl
  | ⟨3, _⟩ => rfl

theorem twelve_small (in48 : Fin 6 → UInt8) (i : Fin 4) : twelve in48 i < 4096 := by
  match i with
  | ⟨0, _⟩ => exact Nat.lt_succ_of_le Nat.and_le_left
  | ⟨1, _⟩ => exact Nat.lt_succ_of_le Nat.and_le_left
  | ⟨2, _⟩ => exact Nat.lt_succ_of_le Nat.and_le_left
  | ⟨3, _⟩ => exact Nat.lt_succ_of_le Nat.and_le_left

theorem bit_sinit (i : Fin 4) (j place : Nat) (within : place < 8) :
    bit (sinit i j) place =
      if place < 4 then (getcomp (i * 2) (j >>> 6)).testBit (3 - place)
      else (getcomp (i * 2 + 1) (j &&& 0o77)).testBit (7 - place) := by
  have low : 7 - place < 8 := by omega
  obtain ⟨_, nibble, _⟩ := testBit_masks (7 - place) (by omega)
  rw [bit, sinit, UInt8.toNat_ofNat', Nat.testBit_mod_two_pow, decide_eq_true low, Bool.true_and,
    Nat.testBit_or, Nat.testBit_shiftLeft, Nat.testBit_and, nibble]
  by_cases upper : place < 4
  · have high : 7 - place ≥ 4 := by omega
    have notLow : ¬ 7 - place < 4 := by omega
    have same : 7 - place - 4 = 3 - place := by omega
    rw [decide_eq_true high, decide_eq_false notLow, Bool.true_and, Bool.false_and,
      Bool.or_false, if_pos upper, same]
  · have notHigh : ¬ 7 - place ≥ 4 := by omega
    have lower : 7 - place < 4 := by omega
    rw [decide_eq_false notHigh, decide_eq_true lower, Bool.false_and, Bool.true_and,
      Bool.false_or, if_neg upper]

theorem bits_contract (arrays : DesArrays) (filled : arrays.s = sinit) (in48 : Fin 6 → UInt8)
    (k : Fin 32) : bits (contract arrays in48) k = standard.substitution (bits in48) k := by
  let i : Fin 4 := ⟨k.val / 8, by omega⟩
  let number := twelve in48 i
  have small : number < 4096 := twelve_small in48 i
  rw [bits_at _ k i (k.val % 8) (Nat.mod_lt _ (by decide)) (Nat.div_add_mod _ _).symm,
    contract_eq arrays filled, bit_sinit i number _ (Nat.mod_lt _ (by decide))]
  change _ = (compression (k.val / 4) fun j => bits in48 ⟨6 * (k.val / 4) + j, _⟩).testBit
    (3 - k.val % 4)
  by_cases upper : k.val % 8 < 4
  · have box : k.val / 4 = i.val * 2 := by dsimp only [i]; omega
    have rest : k.val % 8 = k.val % 4 := by omega
    have six : number >>> 6 < 64 := by
      rw [Nat.shiftRight_eq_div_pow]
      omega
    rw [if_pos upper, getcomp_compression _ _ six, rest, ← box]
    refine congrArg (fun six => (compression (k.val / 4) six).testBit _) (funext fun j => ?_)
    have place : 6 + (5 - j.val) = 11 - j.val := by omega
    rw [Nat.testBit_shiftRight, place, twelve_bits in48 i j (by omega)]
    exact congrArg (bits in48) (Fin.ext (by dsimp only; omega))
  · have box : k.val / 4 = i.val * 2 + 1 := by dsimp only [i]; omega
    have rest : 7 - k.val % 8 = 3 - k.val % 4 := by omega
    have six : number &&& 0o77 < 64 := Nat.lt_succ_of_le Nat.and_le_right
    have mask : ∀ place < 6, Nat.testBit 0o77 place = true := by decide
    rw [if_neg upper, getcomp_compression _ _ six, rest, ← box]
    refine congrArg (fun six => (compression (k.val / 4) six).testBit _) (funext fun j => ?_)
    have place : 5 - j.val = 11 - (6 + j.val) := by omega
    rw [Nat.testBit_and, mask _ (by omega), Bool.and_true, place,
      twelve_bits in48 i (6 + j) (by omega)]
    exact congrArg (bits in48) (Fin.ext (by dsimp only; omega))

/-! ### Rounds -/

theorem leftHalf_bits (block : Fin 8 → UInt8) :
    leftHalf (n := 32) (bits block) = bits fun i : Fin 4 => block (Fin.castAdd 4 i) := by
  funext k
  have byte : (Fin.castAdd 32 k).val = 8 * (k.val / 8) + k.val % 8 := (Nat.div_add_mod _ _).symm
  exact bits_at block _ ⟨k.val / 8, by omega⟩ _ (Nat.mod_lt _ (by decide)) byte

theorem rightHalf_bits (block : Fin 8 → UInt8) :
    rightHalf (n := 32) (bits block) = bits fun i : Fin 4 => block (Fin.natAdd 4 i) := by
  funext k
  have byte : (Fin.natAdd 32 k).val = 8 * (4 + k.val / 8) + k.val % 8 := by
    rw [Fin.val_natAdd]
    omega
  exact bits_at block _ ⟨4 + k.val / 8, by omega⟩ _ (Nat.mod_lt _ (by decide)) byte

theorem bits_append (left right : Fin 4 → UInt8) :
    bits (Fin.append left right : Fin 8 → UInt8) = Fin.append (bits left) (bits right) := by
  have halves := append_halves (n := 32) (bits (Fin.append left right : Fin 8 → UInt8))
  rw [leftHalf_bits, rightHalf_bits] at halves
  have inLeft :
      (fun i : Fin 4 => (Fin.append left right : Fin 8 → UInt8) (Fin.castAdd 4 i)) = left :=
    funext (Fin.append_left left right)
  have inRight :
      (fun i : Fin 4 => (Fin.append left right : Fin 8 → UInt8) (Fin.natAdd 4 i)) = right :=
    funext (Fin.append_right left right)
  rw [inLeft, inRight] at halves
  exact halves.symm

structure Filled (arrays : DesArrays) : Prop where
  iperm : arrays.iperm = perminit ip
  fperm : arrays.fperm = perminit fp
  s : arrays.s = sinit
  p32 : arrays.p32 = p32init

theorem desKeyInit_filled (password : List UInt8) : Filled (desKeyInit password) :=
  ⟨rfl, rfl, rfl, rfl⟩

section Filled

variable {arrays : DesArrays} (filled : Filled arrays)

include filled

theorem bits_f (right : Fin 4 → UInt8) (num : Fin 16) :
    bits (f arrays right num) = standard.mix (bits (arrays.kn num)) (bits right) := by
  funext i
  rw [f, bits_perm32 arrays filled.p32, bits_contract arrays filled.s]
  refine congrArg (fun in48 => standard.substitution in48 _) (funext fun k => ?_)
  rw [bits_xor, bits_expand]

theorem bits_iter (num : Fin 16) (inblock : Fin 8 → UInt8) :
    (rightHalf (n := 32) (bits (iter arrays num inblock)),
        leftHalf (n := 32) (bits (iter arrays num inblock))) =
      Feistel.round join (rightHalf (n := 32) (bits inblock), leftHalf (n := 32) (bits inblock))
        (standard.mix (bits (arrays.kn num))) := by
  rw [iter, bits_append, (halves_append _ _).1, (halves_append _ _).2, Feistel.round,
    leftHalf_bits, rightHalf_bits, ← bits_f filled]
  refine congrArg (fun half => (half, _)) (funext fun k => ?_)
  exact bits_xor _ _ k

theorem bits_rounds (nums : List (Fin 16)) (block : Fin 8 → UInt8) :
    let last := nums.foldl (fun block num => iter arrays num block) block
    (rightHalf (n := 32) (bits last), leftHalf (n := 32) (bits last)) =
      standard.rounds (nums.map fun num => bits (arrays.kn num)) (bits block) := by
  induction nums generalizing block with
  | nil => rfl
  | cons num rest ih =>
      have first := bits_iter filled num block
      refine (ih (iter arrays num block)).trans ?_
      rw [rounds, first]
      rfl

/-- The blocks of `endes` and `dedes` are those of the standard. -/
theorem bits_desBlock (nums : List (Fin 16)) (inblock : Fin 8 → UInt8) :
    bits (desBlock arrays nums inblock) =
      standard.encipher (nums.map fun num => bits (arrays.kn num)) (bits inblock) := by
  have ipSmall : ∀ k : Fin 64, ip.getD k 0 - 1 < 64 := by decide
  have fpSmall : ∀ k : Fin 64, fp.getD k 0 - 1 < 64 := by decide
  have start : bits (permute inblock arrays.iperm) = bits inblock ∘ standard.initial := by
    funext k
    rw [filled.iperm, bits_permute ip inblock k (ipSmall k)]
    exact congrArg (bits inblock) (Fin.ext (Nat.mod_eq_of_lt (ipSmall k)).symm)
  have ended := bits_rounds filled nums (permute inblock arrays.iperm)
  rw [start] at ended
  funext k
  rw [desBlock, filled.fperm, bits_permute fp _ k (fpSmall k), bits_append, ← rightHalf_bits,
    ← leftHalf_bits, encipher, ← ended]
  exact congrArg (Fin.append _ _) (Fin.ext (Nat.mod_eq_of_lt (fpSmall k)).symm)

end Filled

/-! ### Keys -/

def shifts : List Nat := [1, 1, 2, 2, 2, 2, 2, 2, 1, 2, 2, 2, 2, 2, 2, 1]

def rotate (half : Fin 28 → Bool) (count : Nat) : Fin 28 → Bool :=
  fun j => half (Fin.ofNat 28 (j + count))

def selection (c d : Fin 28 → Bool) : Fin 48 → Bool :=
  fun k => Fin.append c d (Fin.ofNat 56 (pc2.getD k 0 - 1))

def roundKeysFrom : List Nat → (Fin 28 → Bool) → (Fin 28 → Bool) → List (Fin 48 → Bool)
  | [], _, _ => []
  | shift :: rest, c, d =>
      selection (rotate c shift) (rotate d shift) ::
        roundKeysFrom rest (rotate c shift) (rotate d shift)

def choice (key : Fin 64 → Bool) : Fin (28 + 28) → Bool :=
  fun j => key (Fin.ofNat 64 (pc1.getD j 0 - 1))

def roundKeys (key : Fin 64 → Bool) : List (Fin 48 → Bool) :=
  roundKeysFrom shifts (leftHalf (choice key)) (rightHalf (choice key))

theorem rotate_rotate (half : Fin 28 → Bool) (first second : Nat) :
    rotate (rotate half first) second = rotate half (first + second) := by
  funext j
  refine congrArg half (Fin.ext ?_)
  change ((j.val + second) % 28 + first) % 28 = (j.val + (first + second)) % 28
  omega

def sums : Nat → List Nat → List Nat
  | _, [] => []
  | total, shift :: rest => (total + shift) :: sums (total + shift) rest

theorem roundKeysFrom_sums (c d : Fin 28 → Bool) (shifts : List Nat) (total : Nat) :
    roundKeysFrom shifts (rotate c total) (rotate d total) =
      (sums total shifts).map fun total => selection (rotate c total) (rotate d total) := by
  induction shifts generalizing total with
  | nil => rfl
  | cons shift rest ih =>
      rw [roundKeysFrom, rotate_rotate, rotate_rotate, ih, sums, List.map_cons]

/-- `totrot` is how far the halves are turned in all. -/
theorem totrot_sums : totrot = sums 0 shifts := by decide

theorem pc1m_choice (key : Fin 8 → UInt8) (j : Fin 56) :
    pc1m key j = choice (bits key) j := by
  have small : ∀ j : Fin 56, pc1.getD j 0 - 1 < 64 := by decide
  let l := pc1.getD j 0 - 1
  have mask : bytebit (l % 8) = onlyBit (l % 8) := rfl
  have byte : (Fin.ofNat 8 (l / 8)).val = l / 8 := Nat.mod_eq_of_lt (by have := small j; omega)
  have at_ : (Fin.ofNat 64 l).val = 8 * (Fin.ofNat 8 (l / 8)).val + l % 8 := by
    rw [byte]
    exact (Nat.mod_eq_of_lt (small j)).trans (Nat.div_add_mod l 8).symm
  rw [pc1m, choice]
  change (key (Fin.ofNat 8 (l / 8)) &&& bytebit (l % 8) != 0) = bits key (Fin.ofNat 64 l)
  rw [mask, and_onlyBit _ _ (Nat.mod_lt _ (by decide)),
    bits_at key (Fin.ofNat 64 l) _ _ (Nat.mod_lt _ (by decide)) at_]

theorem pcr_turned (key : Fin 8 → UInt8) (i : Fin 16) (j : Nat) (within : j < 56) :
    pcr key i j =
      pc1m key (if j < 28 then (j + totrot.getD i 0) % 28
        else 28 + (j - 28 + totrot.getD i 0) % 28) := by
  have few : ∀ i : Fin 16, totrot.getD i 0 ≤ 28 := by decide
  have turned := few i
  rw [pcr]
  refine congrArg (pc1m key) ?_
  by_cases left : j < 28
  · simp only [if_pos left]
    split <;> omega
  · simp only [if_neg left]
    split <;> omega

theorem pcr_rotate (key : Fin 8 → UInt8) (i : Fin 16) (j : Fin 56) :
    pcr key i j =
      Fin.append (rotate (leftHalf (choice (bits key))) (totrot.getD i 0))
        (rotate (rightHalf (choice (bits key))) (totrot.getD i 0)) j := by
  rw [pcr_turned key i j j.isLt]
  by_cases left : j.val < 28
  · have isLeft : j = Fin.castAdd 28 (⟨j.val, left⟩ : Fin 28) := rfl
    rw [if_pos left, isLeft, Fin.append_left]
    exact pc1m_choice key ⟨(j.val + totrot.getD i 0) % 28, by omega⟩
  · obtain ⟨right, isRight⟩ : ∃ right : Fin 28, j = Fin.natAdd 28 right :=
      ⟨⟨j.val - 28, by omega⟩, Fin.ext (by dsimp only [Fin.natAdd]; omega)⟩
    rw [if_neg left, isRight, Fin.append_right]
    have back : (Fin.natAdd 28 right).val - 28 = right.val := by
      rw [Fin.val_natAdd, Nat.add_sub_cancel_left]
    rw [back]
    exact pc1m_choice key ⟨28 + (right.val + totrot.getD i 0) % 28, by omega⟩

theorem bits_kinit (key : Fin 8 → UInt8) (i : Fin 16) :
    bits (kinit key i) =
      selection (rotate (leftHalf (choice (bits key))) (totrot.getD i 0))
        (rotate (rightHalf (choice (bits key))) (totrot.getD i 0)) := by
  have small : ∀ k : Fin 48, pc2.getD k 0 - 1 < 56 := by decide
  funext k
  rw [kinit, bits_maskBits, selection]
  have place : Fin.ofNat 56 (pc2.getD k 0 - 1) = ⟨pc2.getD k 0 - 1, small k⟩ :=
    Fin.ext (Nat.mod_eq_of_lt (small k))
  rw [place]
  exact pcr_rotate key i ⟨pc2.getD k 0 - 1, small k⟩

theorem bits_roundKeys (key : Fin 8 → UInt8) :
    (List.finRange 16).map (fun num => bits (kinit key num)) = roundKeys (bits key) := by
  let c := leftHalf (choice (bits key))
  let d := rightHalf (choice (bits key))
  have start (half : Fin 28 → Bool) : rotate half 0 = half :=
    funext fun j => congrArg half (Fin.ext (Nat.mod_eq_of_lt j.isLt))
  have all := roundKeysFrom_sums c d shifts 0
  rw [start, start, ← totrot_sums] at all
  rw [roundKeys, all]
  exact List.map_congr_left fun num _ => bits_kinit key num

/-! ### Results -/

theorem standard_inverse : standard.Inverse where
  final_initial := by decide
  initial_final := by decide

theorem bits_schedule (password : List UInt8) :
    (List.finRange 16).map (fun num => bits ((desKeyInit password).kn num)) =
      roundKeys (bits (key64bit password)) :=
  bits_roundKeys (key64bit password)

theorem bits_endes (password : List UInt8) (inblock : Fin 8 → UInt8) :
    bits (endes (desKeyInit password) inblock) =
      standard.encipher (roundKeys (bits (key64bit password))) (bits inblock) := by
  rw [endes, bits_desBlock (desKeyInit_filled password), bits_schedule]

theorem bits_dedes (password : List UInt8) (inblock : Fin 8 → UInt8) :
    bits (dedes (desKeyInit password) inblock) =
      standard.encipher (roundKeys (bits (key64bit password))).reverse (bits inblock) := by
  have numbers : ((List.finRange 16).map fun i => (⟨15 - i.val, by omega⟩ : Fin 16)) =
      (List.finRange 16).reverse := by
    decide
  rw [dedes, bits_desBlock (desKeyInit_filled password), numbers, List.map_reverse, bits_schedule]

/-- What the arrays make of a block is the encryption standard, under the key that the
password is folded to; the rounds the other way are the same with the keys reversed. -/
theorem endes_standard (password : List UInt8) (inblock : Fin 8 → UInt8) :
    bits (endes (desKeyInit password) inblock) =
        standard.encipher (roundKeys (bits (key64bit password))) (bits inblock) ∧
      bits (dedes (desKeyInit password) inblock) =
        standard.encipher (roundKeys (bits (key64bit password))).reverse (bits inblock) :=
  ⟨bits_endes password inblock, bits_dedes password inblock⟩

theorem dedes_endes (password : List UInt8) (inblock : Fin 8 → UInt8) :
    dedes (desKeyInit password) (endes (desKeyInit password) inblock) = inblock := by
  refine bits_injective _ _ ?_
  rw [bits_dedes, bits_endes]
  exact standard.encipher_reverse standard_inverse _ _

/-! ### Which passwords are the same -/

/-- The places of the key that are chosen are all but the lowest ones of the bytes. -/
theorem choice_eq_iff (key other : Fin 8 → UInt8) :
    choice (bits key) = choice (bits other) ↔ ∀ i, key i >>> 1 = other i >>> 1 := by
  have upper (byte : UInt8) (place : Nat) (within : place < 8) :
      bit (byte >>> 1) place = (decide (1 ≤ place) && bit byte (place - 1)) :=
    bit_shiftRight byte 1 place (by decide) within
  have covered : ∀ i : Fin 8, ∀ place : Fin 7, ∃ j : Fin 56,
      Fin.ofNat 64 (pc1.getD j 0 - 1) = (⟨8 * i + place, by omega⟩ : Fin 64) := by
    decide
  have never : ∀ j : Fin 56, (Fin.ofNat 64 (pc1.getD j 0 - 1)).val % 8 < 7 := by decide
  constructor
  · intro same i
    refine byte_ext _ _ fun place within => ?_
    rw [upper _ place within, upper _ place within]
    by_cases first : 1 ≤ place
    · obtain ⟨j, here⟩ := covered i ⟨place - 1, by omega⟩
      have agree := congrFun same j
      rw [choice, choice, here, bits_at key _ i (place - 1) (by omega) rfl,
        bits_at other _ i (place - 1) (by omega) rfl] at agree
      rw [agree]
    · rw [decide_eq_false first, Bool.false_and, Bool.false_and]
  · intro same
    funext j
    let k : Fin 64 := Fin.ofNat 64 (pc1.getD j 0 - 1)
    have high := never j
    have agree := congrArg (bit · (k.val % 8 + 1)) (same ⟨k.val / 8, by omega⟩)
    rw [upper _ _ (by omega), upper _ _ (by omega), decide_eq_true (by omega), Bool.true_and,
      Bool.true_and, Nat.add_sub_cancel] at agree
    exact agree

/-- Two passwords fill the arrays alike exactly when they are folded to keys that agree in
the upper seven bits of every byte. -/
theorem desKeyInit_eq_iff (password other : List UInt8) :
    desKeyInit password = desKeyInit other ↔
      ∀ i, key64bit password i >>> 1 = key64bit other i >>> 1 := by
  rw [← choice_eq_iff]
  -- every bit of the key goes into some round
  have used : ∀ j : Fin 56, ∃ i : Fin 16, ∃ k : Fin 48,
      (if pc2.getD k 0 - 1 < 28 then (pc2.getD k 0 - 1 + totrot.getD i 0) % 28
        else 28 + (pc2.getD k 0 - 1 - 28 + totrot.getD i 0) % 28) = j.val := by
    decide +kernel
  have small : ∀ k : Fin 48, pc2.getD k 0 - 1 < 56 := by decide
  constructor
  · intro same
    funext j
    obtain ⟨i, k, here⟩ := used j
    have seen (key : Fin 8 → UInt8) : bits (kinit key i) k = choice (bits key) j := by
      rw [kinit, bits_maskBits, pcr_turned key i _ (small k), here, pc1m_choice]
    have agree := congrArg (fun arrays => bits (arrays.kn i) k) same
    exact (seen _).symm.trans (agree.trans (seen _))
  · intro same
    have keys : kinit (key64bit password) = kinit (key64bit other) := by
      funext i
      refine bits_injective _ _ ?_
      rw [bits_kinit, bits_kinit, same]
    rw [desKeyInit, desKeyInit, keys]

/-! ### Memory -/

theorem store_ofFn {count : Nat} (cells : Nat → UInt8) (b : Nat) (block : Fin count → UInt8)
    (p : Nat) :
    store cells b (List.ofFn block) p =
      if inside : b ≤ p ∧ p < b + count then block ⟨p - b, by omega⟩ else cells p := by
  by_cases below : p < b
  · have outside : ¬ (b ≤ p ∧ p < b + count) := by omega
    rw [store_below _ _ _ _ below, dif_neg outside]
  · by_cases within : p < b + count
    · have inside : b ≤ p ∧ p < b + count := ⟨Nat.not_lt.mp below, within⟩
      have index : p - b < (List.ofFn block).length := by
        rw [List.length_ofFn]
        omega
      have stored := store_inside cells b (p - b) _ index
      rw [Nat.add_sub_cancel' inside.1, List.getElem_ofFn] at stored
      rw [dif_pos inside, stored]
    · have outside : ¬ (b ≤ p ∧ p < b + count) := by omega
      have above : b + (List.ofFn block).length ≤ p := by
        rw [List.length_ofFn]
        omega
      rw [store_above _ _ _ _ above, dif_neg outside]

/-- What `desMem` does to a place: those of the whole blocks are each taken from the block
that was there before, the others stay. -/
theorem desMem_apply (arrays : DesArrays) (cells : Nat → UInt8) (buf mlen : Nat)
    (isencrypting : Bool) (p : Nat) :
    desMem arrays cells buf mlen isencrypting p =
      if buf ≤ p ∧ p < buf + 8 * ((mlen + 7) / 8) then
        let block := blockAt cells (buf + 8 * ((p - buf) / 8))
        (if isencrypting then endes arrays block else dedes arrays block)
          ⟨(p - buf) % 8, Nat.mod_lt _ (by decide)⟩
      else cells p := by
  rw [desMem]
  generalize (mlen + 7) / 8 = count
  induction count generalizing p with
  | zero =>
      have outside : ¬ (buf ≤ p ∧ p < buf + 8 * 0) := by omega
      rw [if_neg outside]
      rfl
  | succ count ih =>
      let before := (List.range count).foldl (desMemTurn arrays buf isencrypting) cells
      -- the block of this turn is as it was
      have kept : blockAt before (buf + 8 * count) = blockAt cells (buf + 8 * count) := by
        funext i
        have past : ¬ (buf ≤ buf + 8 * count + i ∧ buf + 8 * count + i < buf + 8 * count) := by
          omega
        exact (ih (buf + 8 * count + i)).trans (if_neg past)
      rw [List.range_succ, List.foldl_append, List.foldl_cons, List.foldl_nil, desMemTurn,
        store_ofFn, kept]
      by_cases last : buf + 8 * count ≤ p ∧ p < buf + 8 * count + 8
      · have inside : buf ≤ p ∧ p < buf + 8 * (count + 1) := by omega
        have number : (p - buf) / 8 = count := by omega
        have rest : p - (buf + 8 * count) = (p - buf) % 8 := by omega
        rw [dif_pos last, if_pos inside, number]
        dsimp only
        exact congrArg _ (Fin.ext rest)
      · rw [dif_neg last, ih]
        by_cases before : buf ≤ p ∧ p < buf + 8 * count
        · have inside : buf ≤ p ∧ p < buf + 8 * (count + 1) := by omega
          rw [if_pos before, if_pos inside]
        · have outside : ¬ (buf ≤ p ∧ p < buf + 8 * (count + 1)) := by omega
          rw [if_neg before, if_neg outside]

theorem desMem_congr (arrays : DesArrays) (cells other : Nat → UInt8) (buf mlen : Nat)
    (isencrypting : Bool)
    (agree : ∀ p, buf ≤ p → p < buf + 8 * ((mlen + 7) / 8) → cells p = other p) (p : Nat)
    (front : buf ≤ p) (back : p < buf + 8 * ((mlen + 7) / 8)) :
    desMem arrays cells buf mlen isencrypting p = desMem arrays other buf mlen isencrypting p := by
  have block : blockAt cells (buf + 8 * ((p - buf) / 8)) =
      blockAt other (buf + 8 * ((p - buf) / 8)) :=
    funext fun i => agree _ (by omega) (by omega)
  rw [desMem_apply, desMem_apply, if_pos ⟨front, back⟩, if_pos ⟨front, back⟩, block]

theorem whole_blocks (len : Nat) : 8 * (((len &&& 0xfffffff8) + 7) / 8) ≤ len := by
  have multiple : (len &&& 0xfffffff8) % 2 ^ 3 = 0 := by
    rw [Nat.and_mod_two_pow]
    exact Nat.and_zero _
  have within : len &&& 0xfffffff8 ≤ len := Nat.and_le_left
  omega

/-- Reading what was written gives the memory back, for every password and every length,
and nothing outside the buffer is touched on the way. -/
theorem read_write (password : List UInt8) (cells : Nat → UInt8) (buf len : Nat) :
    desReadBlock (desKeyInit password)
        (desWriteBlock (desKeyInit password) cells buf len) buf len = cells ∧
      ∀ p, p < buf ∨ buf + len ≤ p →
        desWriteBlock (desKeyInit password) cells buf len p = cells p := by
  let arrays := desKeyInit password
  let written := desWriteBlock arrays cells buf len
  have far := whole_blocks len
  constructor
  · funext p
    rw [desReadBlock, desMem_apply]
    split
    · rename_i inside
      let start := buf + 8 * ((p - buf) / 8)
      have block : blockAt written start = endes arrays (blockAt cells start) := by
        funext i
        have within : buf ≤ start + i ∧ start + i < buf + 8 * (((len &&& 0xfffffff8) + 7) / 8) := by
          dsimp only [start]
          omega
        have number : (start + i - buf) / 8 = (p - buf) / 8 := by
          dsimp only [start]
          omega
        have rest : (start + i - buf) % 8 = i := by
          dsimp only [start]
          omega
        refine (desMem_apply arrays cells buf _ true (start + i)).trans ?_
        rw [if_pos within, number]
        exact congrArg (endes arrays (blockAt cells start)) (Fin.ext rest)
      have place : start + (p - buf) % 8 = p := by
        dsimp only [start]
        omega
      dsimp only
      rw [block, if_neg Bool.false_ne_true, dedes_endes]
      exact congrArg cells place
    · rename_i outside
      exact (desMem_apply arrays cells buf _ true p).trans (if_neg outside)
  · intro p outside
    have apart : ¬ (buf ≤ p ∧ p < buf + 8 * (((len &&& 0xfffffff8) + 7) / 8)) := by omega
    exact (desMem_apply arrays cells buf _ true p).trans (if_neg apart)

end Des

end AuthServer
