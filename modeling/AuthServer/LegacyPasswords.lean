/-
The older hashes of passwords, `EncPwdShalo` and `EncPwdL2`.

Both overwrite sixteen bytes in place and differ in the factors only.  `int` is taken to wrap
around, and `passKey` lies on the stack.
-/

import AuthServer.PacketDeciphers
import Mathlib.Tactic.Ring

set_option autoImplicit false

namespace AuthServer

open LinearMemory

structure PassFactors where
  first : UInt32
  second : UInt32
  third : UInt32
  fourth : UInt32

namespace PassFactors

def passKey (factors : PassFactors) (stack password : Nat → UInt8) : Nat → UInt8 :=
  let cells := storeWord stack 0 (loadWord password 0 * factors.first + 2529077)
  let cells := storeWord cells 4 (loadWord password 4 * factors.second + 2529089)
  let cells := storeWord cells 8 (loadWord password 8 * factors.third + 2529589)
  storeWord cells 12 (loadWord password 12 * factors.fourth + 2529997)

/-- The loop that chains each byte to the one in front, after so many turns. -/
def chain (passKey password : Nat → UInt8) : Nat → Nat → UInt8
  | 0 => store password 0 [password 0 ^^^ passKey 0]
  | turns + 1 =>
      let cells := chain passKey password turns
      store cells (turns + 1)
        [cells (turns + 1) ^^^ cells turns ^^^ passKey ((turns + 1) &&& 15)]

def fillZeros (cells : Nat → UInt8) : Nat → Nat → UInt8
  | 0 => cells
  | turns + 1 =>
      let filled := fillZeros cells turns
      if filled turns = 0 then store filled turns [0x66] else filled

def encPwd (factors : PassFactors) (stack password : Nat → UInt8) : Nat → UInt8 :=
  fillZeros (chain (factors.passKey stack password) password 15) 16

end PassFactors

def shaloFactors : PassFactors := ⟨214013, 213287, 212987, 211741⟩

def l2Factors : PassFactors := ⟨213119, 213247, 213203, 213821⟩

def encPwdShalo : (Nat → UInt8) → (Nat → UInt8) → Nat → UInt8 := shaloFactors.encPwd

def encPwdL2 : (Nat → UInt8) → (Nat → UInt8) → Nat → UInt8 := l2Factors.encPwd

/-! ### The bytes of words -/

theorem shifted_xor (first second count : UInt32) :
    ((first ^^^ second) >>> count).toUInt8 =
      (first >>> count).toUInt8 ^^^ (second >>> count).toUInt8 := by
  rw [UInt32.shiftRight_xor, UInt32.toUInt8_xor]

theorem byte_of_word (cells : Nat → UInt8) (position index : Nat) (inside : index < 4) :
    cells (position + index) = [(loadWord cells position).toUInt8,
      (loadWord cells position >>> 8).toUInt8, (loadWord cells position >>> 16).toUInt8,
        (loadWord cells position >>> 24).toUInt8][index] := by
  rw [← storeWord_inside cells position _ index inside]
  refine bytes_of_words _ _ position position 1 (fun i below => ?_) index inside
  rw [Nat.lt_one_iff.mp below]
  exact (loadWord_storeWord cells position _).symm

theorem loadWord_xor (first second : Nat → UInt8) (position : Nat) :
    loadWord (fun place => first place ^^^ second place) position =
      loadWord first position ^^^ loadWord second position := by
  rw [← loadWord_storeWord first position (loadWord first position ^^^ loadWord second position)]
  refine loadWord_congr _ _ position position (fun index inside => ?_)
  rw [storeWord_inside _ _ _ index inside, byte_of_word first position index inside,
    byte_of_word second position index inside]
  match index, inside with
  | 0, _ => exact (UInt32.toUInt8_xor _ _).symm
  | 1, _ => exact (shifted_xor _ _ 8).symm
  | 2, _ => exact (shifted_xor _ _ 16).symm
  | 3, _ => exact (shifted_xor _ _ 24).symm

/-- Two numbers of which both or neither have their highest bit changed. -/
theorem xor_of_halves (a b c d : Nat) (aSmall : a < 2 ^ 32) (bSmall : b < 2 ^ 32)
    (cSmall : c < 2 ^ 32) (dSmall : d < 2 ^ 32) (left : a % 2 ^ 31 = c % 2 ^ 31)
    (right : b % 2 ^ 31 = d % 2 ^ 31)
    (parity : (a / 2 ^ 31 + b / 2 ^ 31) % 2 = (c / 2 ^ 31 + d / 2 ^ 31) % 2) :
    a ^^^ b = c ^^^ d := by
  have bit : ∀ x, x < 2 ^ 32 → x / 2 ^ 31 = 0 ∨ x / 2 ^ 31 = 1 := by
    intro x small
    omega
  have low : (a ^^^ b) % 2 ^ 31 = (c ^^^ d) % 2 ^ 31 := by
    rw [Nat.xor_mod_two_pow, Nat.xor_mod_two_pow, left, right]
  have high : (a ^^^ b) / 2 ^ 31 = (c ^^^ d) / 2 ^ 31 := by
    rw [Nat.xor_div_two_pow, Nat.xor_div_two_pow]
    rcases bit a aSmall with isA | isA <;> rcases bit b bSmall with isB | isB <;>
      rcases bit c cSmall with isC | isC <;> rcases bit d dSmall with isD | isD <;>
        rw [isA, isB, isC, isD] at parity ⊢ <;> revert parity <;> decide
  rw [← Nat.div_add_mod (a ^^^ b) (2 ^ 31), low, high, Nat.div_add_mod]

/-- The highest bit goes into both sides of the `xor`, where the factor is odd. -/
theorem xor_flipped (word other factor summand : UInt32) (odd : factor.toNat % 2 = 1)
    (flipped : word.toNat = other.toNat + 2 ^ 31) :
    word ^^^ (word * factor + summand) = other ^^^ (other * factor + summand) := by
  have value : ∀ x : UInt32, (x * factor + summand).toNat =
      (x.toNat * factor.toNat + summand.toNat) % 2 ^ 32 := by
    intro x
    rw [UInt32.toNat_add, UInt32.toNat_mul, Nat.mod_add_mod]
  have wordSmall := word.toNat_lt
  have otherSmall := other.toNat_lt
  obtain ⟨half, isOdd⟩ : ∃ half, factor.toNat = 2 * half + 1 := ⟨factor.toNat / 2, by omega⟩
  have product : word.toNat * factor.toNat =
      other.toNat * factor.toNat + 2 ^ 32 * half + 2 ^ 31 := by
    rw [flipped, isOdd]
    ring
  apply UInt32.toNat_inj.mp
  rw [UInt32.toNat_xor, UInt32.toNat_xor, value, value, product]
  apply xor_of_halves _ _ _ _ wordSmall (Nat.mod_lt _ (by decide)) otherSmall
    (Nat.mod_lt _ (by decide))
  · omega
  · omega
  · omega

theorem xor_affine (word other factor summand : UInt32) (odd : factor.toNat % 2 = 1)
    (agree : word.toNat % 2 ^ 31 = other.toNat % 2 ^ 31) :
    word ^^^ (word * factor + summand) = other ^^^ (other * factor + summand) := by
  have wordSmall := word.toNat_lt
  have otherSmall := other.toNat_lt
  rcases Nat.lt_trichotomy word.toNat other.toNat with less | same | more
  · exact (xor_flipped other word factor summand odd (by omega)).symm
  · rw [UInt32.toNat_inj.mp same]
  · exact xor_flipped word other factor summand odd (by omega)

/-! ### What the hashes depend on -/

namespace PassFactors

def word (factors : PassFactors) : Nat → UInt32 × UInt32
  | 0 => (factors.first, 2529077)
  | 1 => (factors.second, 2529089)
  | 2 => (factors.third, 2529589)
  | _ => (factors.fourth, 2529997)

theorem loadWord_passKey (factors : PassFactors) (stack password : Nat → UInt8) (index : Nat)
    (inside : index < 4) :
    loadWord (factors.passKey stack password) (4 * index) =
      loadWord password (4 * index) * (factors.word index).1 + (factors.word index).2 := by
  unfold passKey
  match index, inside with
  | 0, _ =>
      rw [loadWord_storeWord_apart _ _ _ _ (by decide),
        loadWord_storeWord_apart _ _ _ _ (by decide),
        loadWord_storeWord_apart _ _ _ _ (by decide), loadWord_storeWord]
      rfl
  | 1, _ =>
      rw [loadWord_storeWord_apart _ _ _ _ (by decide),
        loadWord_storeWord_apart _ _ _ _ (by decide), loadWord_storeWord]
      rfl
  | 2, _ =>
      rw [loadWord_storeWord_apart _ _ _ _ (by decide), loadWord_storeWord]
      rfl
  | 3, _ => exact loadWord_storeWord _ _ _

def mixed (passKey password : Nat → UInt8) (place : Nat) : UInt8 := password place ^^^ passKey place

def chained (mixed : Nat → UInt8) : Nat → UInt8
  | 0 => mixed 0
  | place + 1 => mixed (place + 1) ^^^ chained mixed place

theorem store_single (cells : Nat → UInt8) (start place : Nat) (value : UInt8) :
    store cells start [value] place = if place = start then value else cells place := by
  rcases Nat.lt_trichotomy place start with before | same | behind
  · rw [store_below _ _ _ _ before, if_neg (Nat.ne_of_lt before)]
  · rw [same, store_head, if_pos rfl]
  · rw [store_above _ _ _ _ behind, if_neg (Nat.ne_of_gt behind)]

theorem chain_eq (passKey password : Nat → UInt8) (turns : Nat) (within : turns < 16)
    (place : Nat) :
    chain passKey password turns place =
      if place ≤ turns then chained (mixed passKey password) place else password place := by
  induction turns generalizing place with
  | zero =>
      rw [chain, store_single]
      by_cases first : place = 0
      · rw [if_pos first, if_pos (Nat.le_of_eq first), first]
        rfl
      · rw [if_neg first, if_neg (by omega)]
  | succ turns ih =>
      have below : turns < 16 := Nat.lt_of_succ_lt within
      have masked : (turns + 1) &&& 15 = turns + 1 := by
        change (turns + 1) &&& (2 ^ 4 - 1) = turns + 1
        rw [Nat.and_two_pow_sub_one_eq_mod]
        exact Nat.mod_eq_of_lt within
      rw [chain, store_single, ih below, ih below, ih below, if_neg (Nat.not_succ_le_self turns),
        if_pos (Nat.le_refl turns), masked]
      by_cases own : place = turns + 1
      · rw [if_pos own, if_pos (Nat.le_of_eq own), own, chained, mixed, UInt8.xor_assoc,
          UInt8.xor_comm (chained _ turns), ← UInt8.xor_assoc]
      · rw [if_neg own]
        by_cases before : place ≤ turns
        · rw [if_pos before, if_pos (Nat.le_succ_of_le before)]
        · rw [if_neg before, if_neg (by omega)]

theorem fillZeros_eq (cells : Nat → UInt8) (turns place : Nat) :
    fillZeros cells turns place =
      if place < turns ∧ cells place = 0 then 0x66 else cells place := by
  induction turns generalizing place with
  | zero => rw [fillZeros, if_neg (fun given => Nat.not_lt_zero place given.1)]
  | succ turns ih =>
      have here : fillZeros cells turns turns = cells turns := by
        rw [ih, if_neg (fun given => Nat.lt_irrefl turns given.1)]
      have wider : ∀ other, other ≠ turns →
          (other < turns + 1 ∧ cells other = 0 ↔ other < turns ∧ cells other = 0) := by
        intro other differ
        have same : other < turns + 1 ↔ other < turns := by omega
        rw [same]
      simp only [fillZeros, here]
      by_cases own : place = turns
      · subst own
        by_cases zero : cells place = 0
        · rw [if_pos zero, store_single, if_pos rfl, if_pos ⟨Nat.lt_succ_self place, zero⟩]
        · rw [if_neg zero, here, if_neg (fun given => zero given.2)]
      · simp only [wider place own]
        split
        · rw [store_single, if_neg own, ih]
        · rw [ih]

theorem encPwd_eq (factors : PassFactors) (stack password : Nat → UInt8) (place : Nat) :
    factors.encPwd stack password place =
      if place < 16 then
        let value := chained (mixed (factors.passKey stack password) password) place
        if value = 0 then 0x66 else value
      else password place := by
  rw [encPwd, fillZeros_eq, chain_eq _ _ 15 (by decide)]
  by_cases inside : place < 16
  · rw [if_pos (Nat.le_of_lt_succ inside), if_pos inside]
    by_cases zero : chained (mixed (factors.passKey stack password) password) place = 0
    · rw [if_pos ⟨inside, zero⟩]
      exact (if_pos zero).symm
    · rw [if_neg (fun given => zero given.2)]
      exact (if_neg zero).symm
  · rw [if_neg (fun small => inside (Nat.lt_succ_of_le small)), if_neg inside,
      if_neg (fun given => inside given.1)]

theorem chained_congr (first second : Nat → UInt8) (count : Nat)
    (agree : ∀ place, place < count → first place = second place) (place : Nat)
    (inside : place < count) : chained first place = chained second place := by
  induction place with
  | zero => exact agree 0 inside
  | succ place ih => rw [chained, chained, agree _ inside, ih (Nat.lt_of_succ_lt inside)]

theorem mixed_agree (factors : PassFactors) (odd : ∀ index, (factors.word index).1.toNat % 2 = 1)
    (stack otherStack password other : Nat → UInt8) (groups : Nat) (within : groups ≤ 4)
    (agree : ∀ index, index < groups →
      (loadWord password (4 * index)).toNat % 2 ^ 31 = (loadWord other (4 * index)).toNat % 2 ^ 31)
    (place : Nat) (inside : place < 4 * groups) :
    mixed (factors.passKey stack password) password place =
      mixed (factors.passKey otherStack other) other place := by
  have same := bytes_of_words (mixed (factors.passKey stack password) password)
    (mixed (factors.passKey otherStack other) other) 0 0 groups (fun index below => ?_) place inside
  · rw [Nat.zero_add] at same
    exact same
  · rw [Nat.zero_add]
    change loadWord (fun place => password place ^^^ factors.passKey stack password place) _ =
      loadWord (fun place => other place ^^^ factors.passKey otherStack other place) _
    rw [loadWord_xor, loadWord_xor, loadWord_passKey _ _ _ _ (by omega),
      loadWord_passKey _ _ _ _ (by omega)]
    exact xor_affine _ _ _ _ (odd index) (agree index below)

end PassFactors

/-- Both hashes write sixteen characters that are no zeros, and their first groups of four are
those of every password that begins with the same groups, up to the highest bit of each. -/
theorem encPwd_groups (factors : PassFactors) (known : factors ∈ [shaloFactors, l2Factors])
    (stack otherStack password other : Nat → UInt8) (groups : Nat) (within : groups ≤ 4)
    (agree : ∀ index, index < groups →
      (loadWord password (4 * index)).toNat % 2 ^ 31 =
        (loadWord other (4 * index)).toNat % 2 ^ 31) :
    (∀ place, place < 16 → factors.encPwd stack password place ≠ 0) ∧
    (∀ place, 16 ≤ place → factors.encPwd stack password place = password place) ∧
    slice (factors.encPwd stack password) 0 (4 * groups) =
      slice (factors.encPwd otherStack other) 0 (4 * groups) := by
  have odd : ∀ index, (factors.word index).1.toNat % 2 = 1 := by
    intro index
    rcases List.mem_cons.mp known with isShalo | isL2
    · rw [isShalo, PassFactors.word.eq_def]
      split <;> decide
    · rw [List.mem_singleton.mp isL2, PassFactors.word.eq_def]
      split <;> decide
  refine ⟨fun place inside => ?_, fun place behind => ?_, ?_⟩
  · rw [PassFactors.encPwd_eq, if_pos inside]
    dsimp only
    split
    · decide
    · assumption
  · rw [PassFactors.encPwd_eq, if_neg (Nat.not_lt_of_le behind)]
  · refine (slice_eq_iff _ _ 0 0 (4 * groups)).mpr (fun place inside => ?_)
    have same := PassFactors.chained_congr _ _ (4 * groups)
      (PassFactors.mixed_agree factors odd stack otherStack password other groups within agree)
      place inside
    have small : place < 16 := by omega
    rw [Nat.zero_add]
    simp only [PassFactors.encPwd_eq, if_pos small, same]

/-- The two passwords differ in the highest bit of their fourth characters. -/
theorem encPwd_groups_flipped :
    (∀ place, place < 16 → encPwdL2 (fun _ => 0) (fun _ => 0x41) place ≠ 0) ∧
    (∀ place, 16 ≤ place → encPwdL2 (fun _ => 0) (fun _ => 0x41) place = 0x41) ∧
    slice (encPwdL2 (fun _ => 0) (fun _ => 0x41)) 0 (4 * 4) =
      slice (encPwdL2 (fun _ => 0) (fun place => if place = 3 then 0xC1 else 0x41)) 0 (4 * 4) :=
  encPwd_groups l2Factors (List.mem_cons_of_mem _ (List.mem_singleton.mpr rfl)) (fun _ => 0)
    (fun _ => 0) (fun _ => 0x41) (fun place => if place = 3 then 0xC1 else 0x41) 4
    (Nat.le_refl 4) (by decide)

end AuthServer
