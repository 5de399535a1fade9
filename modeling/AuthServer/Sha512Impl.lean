/-
The implementation of SHA-512 in cryptLib, against the standard.

A message is a string of bytes, and `at` of a position that is not there
throws, which has no result here.  The same holds for a loop over more blocks
than its 32-bit counter can count.
-/

import AuthServer.Lib.Sha512
import Mathlib.Data.List.GetD

set_option autoImplicit false

namespace AuthServer

open BitText Sha512

abbrev Digest512 := Eight UInt64

namespace Sha512Impl

def wBits : UInt8 := 64

def rotr (n : UInt8) (x : UInt64) : UInt64 := x >>> n.toUInt64 ||| x <<< (wBits - n).toUInt64

def shr (n : UInt8) (x : UInt64) : UInt64 := x >>> n.toUInt64

def ch (x y z : UInt64) : UInt64 := (x &&& y) ^^^ (~~~x &&& z)

def maj (x y z : UInt64) : UInt64 := (x &&& y) ^^^ (x &&& z) ^^^ (y &&& z)

def uppercaseSigma0 (x : UInt64) : UInt64 := rotr 28 x ^^^ rotr 34 x ^^^ rotr 39 x

def uppercaseSigma1 (x : UInt64) : UInt64 := rotr 14 x ^^^ rotr 18 x ^^^ rotr 41 x

def lowercaseSigma0 (x : UInt64) : UInt64 := rotr 1 x ^^^ rotr 8 x ^^^ shr 7 x

def lowercaseSigma1 (x : UInt64) : UInt64 := rotr 19 x ^^^ rotr 61 x ^^^ shr 6 x

def halves : List UInt64 :=
  [0x428A2F98, 0xD728AE22, 0x71374491, 0x23EF65CD, 0xB5C0FBCF, 0xEC4D3B2F, 0xE9B5DBA5, 0x8189DBBC,
    0x3956C25B, 0xF348B538, 0x59F111F1, 0xB605D019, 0x923F82A4, 0xAF194F9B, 0xAB1C5ED5, 0xDA6D8118,
    0xD807AA98, 0xA3030242, 0x12835B01, 0x45706FBE, 0x243185BE, 0x4EE4B28C, 0x550C7DC3, 0xD5FFB4E2,
    0x72BE5D74, 0xF27B896F, 0x80DEB1FE, 0x3B1696B1, 0x9BDC06A7, 0x25C71235, 0xC19BF174, 0xCF692694,
    0xE49B69C1, 0x9EF14AD2, 0xEFBE4786, 0x384F25E3, 0x0FC19DC6, 0x8B8CD5B5, 0x240CA1CC, 0x77AC9C65,
    0x2DE92C6F, 0x592B0275, 0x4A7484AA, 0x6EA6E483, 0x5CB0A9DC, 0xBD41FBD4, 0x76F988DA, 0x831153B5,
    0x983E5152, 0xEE66DFAB, 0xA831C66D, 0x2DB43210, 0xB00327C8, 0x98FB213F, 0xBF597FC7, 0xBEEF0EE4,
    0xC6E00BF3, 0x3DA88FC2, 0xD5A79147, 0x930AA725, 0x06CA6351, 0xE003826F, 0x14292967, 0x0A0E6E70,
    0x27B70A85, 0x46D22FFC, 0x2E1B2138, 0x5C26C926, 0x4D2C6DFC, 0x5AC42AED, 0x53380D13, 0x9D95B3DF,
    0x650A7354, 0x8BAF63DE, 0x766A0ABB, 0x3C77B2A8, 0x81C2C92E, 0x47EDAEE6, 0x92722C85, 0x1482353B,
    0xA2BFE8A1, 0x4CF10364, 0xA81A664B, 0xBC423001, 0xC24B8B70, 0xD0F89791, 0xC76C51A3, 0x0654BE30,
    0xD192E819, 0xD6EF5218, 0xD6990624, 0x5565A910, 0xF40E3585, 0x5771202A, 0x106AA070, 0x32BBD1B8,
    0x19A4C116, 0xB8D2D0C8, 0x1E376C08, 0x5141AB53, 0x2748774C, 0xDF8EEB99, 0x34B0BCB5, 0xE19B48A8,
    0x391C0CB3, 0xC5C95A63, 0x4ED8AA4A, 0xE3418ACB, 0x5B9CCA4F, 0x7763E373, 0x682E6FF3, 0xD6B2B8A3,
    0x748F82EE, 0x5DEFB2FC, 0x78A5636F, 0x43172F60, 0x84C87814, 0xA1F0AB72, 0x8CC70208, 0x1A6439EC,
    0x90BEFFFA, 0x23631E28, 0xA4506CEB, 0xDE82BDE9, 0xBEF9A3F7, 0xB2C67915, 0xC67178F2, 0xE372532B,
    0xCA273ECE, 0xEA26619C, 0xD186B8C7, 0x21C0C207, 0xEADA7DD6, 0xCDE0EB1E, 0xF57D4F7F, 0xEE6ED178,
    0x06F067AA, 0x72176FBA, 0x0A637DC5, 0xA2C898A6, 0x113F9804, 0xBEF90DAE, 0x1B710B35, 0x131C471B,
    0x28DB77F5, 0x23047D84, 0x32CAAB7B, 0x40C72493, 0x3C9EBE0A, 0x15C9BEBC, 0x431D67C4, 0x9C100D4C,
    0x4CC5D4BE, 0xCB3E42B6, 0x597F299C, 0xFC657E2A, 0x5FCB6FAB, 0x3AD6FAEC, 0x6C44198C, 0x4A475817]

def pair (high low : UInt64) : UInt64 := high <<< 32 + low

def loadK : List UInt64 :=
  (List.range 80).map fun i => pair (halves.getD (2 * i) 0) (halves.getD (2 * i + 1) 0)

def at_ (s : List UInt8) (position : UInt32) : Option UInt8 := s[position.toNat]?

def joined (b0 b1 b2 b3 b4 b5 b6 b7 : UInt8) : UInt64 :=
  b0.toUInt64 <<< 56 + b1.toUInt64 <<< 48 + b2.toUInt64 <<< 40 + b3.toUInt64 <<< 32 +
    b4.toUInt64 <<< 24 + b5.toUInt64 <<< 16 + b6.toUInt64 <<< 8 + b7.toUInt64

def packWord (s : List UInt8) (position : UInt32) : Option UInt64 := do
  let b0 ← at_ s (position + 0)
  let b1 ← at_ s (position + 1)
  let b2 ← at_ s (position + 2)
  let b3 ← at_ s (position + 3)
  let b4 ← at_ s (position + 4)
  let b5 ← at_ s (position + 5)
  let b6 ← at_ s (position + 6)
  let b7 ← at_ s (position + 7)
  return joined b0 b1 b2 b3 b4 b5 b6 b7

def packWords (s : List UInt8) (position : UInt32) : Nat → Option (List UInt64)
  | 0 => some []
  | count + 1 => do
      let word ← packWord s position
      let rest ← packWords s (position + 8) count
      return word :: rest

def packMBlock (s : List UInt8) (index : UInt32) : Option (List UInt64) := packWords s index 16

def distance (len : UInt64) : UInt32 :=
  let remainder := (len % 1024).toUInt32
  if remainder ≥ 896 then 1024 - remainder + 896 - 1 - 7 else 896 - remainder - 1 - 7

def lengthBytes (len : UInt64) : List UInt8 :=
  ([7, 6, 5, 4, 3, 2, 1, 0] : List UInt64).map fun i => (len >>> (i * 8) &&& 0xFF).toUInt8

def padMessage (message : List UInt8) : List UInt8 :=
  let len := UInt64.ofNat message.length <<< 3
  message ++ [(1 : UInt8) <<< 7] ++ List.replicate (distance len >>> 3).toNat 0 ++
    List.replicate 8 0 ++ lengthBytes len

def initialHash : Digest512 :=
  ⟨pair 0x6A09E667 0xF3BCC908, pair 0xBB67AE85 0x84CAA73B, pair 0x3C6EF372 0xFE94F82B,
    pair 0xA54FF53A 0x5F1D36F1, pair 0x510E527F 0xADE682D1, pair 0x9B05688C 0x2B3E6C1F,
    pair 0x1F83D9AB 0xFB41BD6B, pair 0x5BE0CD19 0x137E2179⟩

def scheduleEntry (w : List UInt64) (t : Nat) : UInt64 :=
  lowercaseSigma1 (w.getD (t - 2) 0) + w.getD (t - 7) 0 + lowercaseSigma0 (w.getD (t - 15) 0) +
    w.getD (t - 16) 0

def messageSchedule (m : List UInt64) : Nat → List UInt64
  | 0 => m
  | count + 1 =>
      let w := messageSchedule m count
      w ++ [scheduleEntry w (16 + count)]

def processEntry (k w : UInt64) (v : Digest512) : Digest512 :=
  let t1 := v.h + uppercaseSigma1 v.e + ch v.e v.f v.g + k + w
  let t2 := uppercaseSigma0 v.a + maj v.a v.b v.c
  ⟨t1 + t2, v.a, v.b, v.c, v.d + t1, v.e, v.f, v.g⟩

def processSchedule (w : List UInt64) (v : Digest512) : Digest512 :=
  (List.range 80).foldl (fun v t => processEntry (loadK.getD t 0) (w.getD t 0) v) v

def processBlock (m : List UInt64) (hash : Digest512) : Digest512 :=
  hash.add (processSchedule (messageSchedule m 64) hash)

def blockLoop (message : List UInt8) : Nat → UInt32 → Digest512 → Option Digest512
  | 0, _, hash => some hash
  | left + 1, i, hash => do
      let m ← packMBlock message (i <<< 7)
      blockLoop message left (i + 1) (processBlock m hash)

def getMessageDigest (message : List UInt8) : Option (Digest512 × List UInt8) :=
  let padded := padMessage message
  let blocks := UInt64.ofNat padded.length >>> 7
  if blocks.toNat < 2 ^ 32 then
    (blockLoop padded blocks.toNat 0 initialHash).map fun hash => (hash, padded)
  else none

/-! ### Words against the standard -/

def words (eight : Digest512) : Eight Word := eight.map UInt64.toBitVec

theorem rotr_toBitVec (n : UInt8) (x : UInt64) (positive : 0 < n.toNat) (within : n.toNat < 64) :
    (rotr n x).toBitVec = x.toBitVec.rotateRight n.toNat := by
  have right : n.toUInt64.toBitVec.toNat = n.toNat := UInt8.toNat_toUInt64 n
  have left : (wBits - n).toUInt64.toBitVec.toNat = 64 - n.toNat := by
    have moved : (wBits - n).toUInt64.toBitVec.toNat = (wBits - n).toNat := UInt8.toNat_toUInt64 _
    rw [moved, UInt8.toNat_sub]
    change (2 ^ 8 - n.toNat + 64) % 2 ^ 8 = 64 - n.toNat
    omega
  have reduced : ∀ shift : BitVec 64, shift.toNat < 64 → (shift % 64).toNat = shift.toNat := by
    intro shift small
    rw [BitVec.toNat_umod]
    exact Nat.mod_eq_of_lt small
  have shiftRight : x.toBitVec >>> (n.toUInt64.toBitVec % 64) = x.toBitVec >>> n.toNat := by
    rw [BitVec.ushiftRight_eq', reduced _ (by omega), right]
  have shiftLeft : x.toBitVec <<< ((wBits - n).toUInt64.toBitVec % 64) =
      x.toBitVec <<< (64 - n.toNat) := by
    rw [BitVec.shiftLeft_eq', reduced _ (by omega), left]
  rw [rotr, UInt64.toBitVec_or, UInt64.toBitVec_shiftRight, UInt64.toBitVec_shiftLeft, shiftRight,
    shiftLeft, BitVec.rotateRight_def, Nat.mod_eq_of_lt within]

theorem uppercaseSigma0_toBitVec (x : UInt64) :
    (uppercaseSigma0 x).toBitVec = bigSigma0 x.toBitVec := by
  simp (disch := decide) only [uppercaseSigma0, UInt64.toBitVec_xor, rotr_toBitVec]
  rfl

theorem uppercaseSigma1_toBitVec (x : UInt64) :
    (uppercaseSigma1 x).toBitVec = bigSigma1 x.toBitVec := by
  simp (disch := decide) only [uppercaseSigma1, UInt64.toBitVec_xor, rotr_toBitVec]
  rfl

theorem lowercaseSigma0_toBitVec (x : UInt64) :
    (lowercaseSigma0 x).toBitVec = smallSigma0 x.toBitVec := by
  simp (disch := decide) only [lowercaseSigma0, UInt64.toBitVec_xor, rotr_toBitVec]
  rfl

theorem lowercaseSigma1_toBitVec (x : UInt64) :
    (lowercaseSigma1 x).toBitVec = smallSigma1 x.toBitVec := by
  simp (disch := decide) only [lowercaseSigma1, UInt64.toBitVec_xor, rotr_toBitVec]
  rfl

/-! ### Constants -/

def IsRoot (power radicand root : Nat) : Prop :=
  root ^ power ≤ radicand * 2 ^ (64 * power) ∧ radicand * 2 ^ (64 * power) < (root + 1) ^ power

instance isRootDecidable (power radicand root : Nat) : Decidable (IsRoot power radicand root) :=
  inferInstanceAs (Decidable (_ ∧ _))

def rootOf (power radicand : Nat) (fraction : UInt64) : Nat :=
  ((List.range 7).countP fun n => (n + 1) ^ power ≤ radicand) * 2 ^ 64 + fraction.toNat

theorem toBitVec_of_isRoot (power radicand : Nat) (fraction : UInt64) (positive : power ≠ 0)
    (isRoot : IsRoot power radicand (rootOf power radicand fraction)) :
    fraction.toBitVec = fractionBits power radicand := by
  rw [fractionBits_eq power radicand _ positive isRoot.1 isRoot.2]
  apply BitVec.eq_of_toNat_eq
  rw [BitVec.toNat_ofNat, rootOf, Nat.mul_add_mod_of_lt fraction.toNat_lt]
  rfl

theorem loadK_roots :
    ∀ t < 80, IsRoot 3 (primes.getD t 0) (rootOf 3 (primes.getD t 0) (loadK.getD t 0)) := by
  decide +kernel

theorem loadK_toBitVec (t : Nat) (within : t < 80) : (loadK.getD t 0).toBitVec = constant t :=
  toBitVec_of_isRoot 3 _ _ (Nat.succ_ne_zero 2) (loadK_roots t within)

theorem initialHash_words : words initialHash = initial := by
  have root : ∀ radicand fraction, IsRoot 2 radicand (rootOf 2 radicand fraction) →
      fraction.toBitVec = fractionBits 2 radicand := fun radicand fraction =>
    toBitVec_of_isRoot 2 radicand fraction (Nat.succ_ne_zero 1)
  simp only [words, initialHash, Eight.map, initial]
  rw [root 2 _ (by decide +kernel), root 3 _ (by decide +kernel), root 5 _ (by decide +kernel),
    root 7 _ (by decide +kernel), root 11 _ (by decide +kernel), root 13 _ (by decide +kernel),
    root 17 _ (by decide +kernel), root 19 _ (by decide +kernel)]

/-! ### One block -/

theorem processEntry_words (k w : UInt64) (v : Digest512) :
    words (processEntry k w v) = Sha512.round k.toBitVec w.toBitVec (words v) := by
  simp only [words, Eight.map, processEntry, Sha512.round, UInt64.toBitVec_add,
    uppercaseSigma0_toBitVec, uppercaseSigma1_toBitVec]
  rfl

theorem messageSchedule_spec (m : List UInt64) (block : Nat → Word) (sixteen : m.length = 16)
    (agrees : ∀ t < 16, (m.getD t 0).toBitVec = block t) (count : Nat) :
    (messageSchedule m count).length = 16 + count ∧
      ∀ t < 16 + count, ((messageSchedule m count).getD t 0).toBitVec = schedule block t := by
  induction count with
  | zero =>
      refine ⟨sixteen, fun t inside => ?_⟩
      rw [schedule, if_pos inside]
      exact agrees t inside
  | succ count ih =>
      obtain ⟨length, entries⟩ := ih
      constructor
      · rw [messageSchedule, List.length_append, length]
        rfl
      · intro t inside
        simp only [messageSchedule]
        by_cases earlier : t < 16 + count
        · rw [List.getD_append _ _ _ _ (by omega)]
          exact entries t earlier
        · have last : t = 16 + count := by omega
          rw [List.getD_append_right _ _ _ _ (by omega), length, last, Nat.sub_self,
            List.getD_cons_zero, schedule, if_neg (by omega), scheduleEntry]
          simp only [UInt64.toBitVec_add, lowercaseSigma0_toBitVec, lowercaseSigma1_toBitVec]
          rw [entries _ (by omega), entries _ (by omega), entries _ (by omega),
            entries _ (by omega)]

theorem processSchedule_words (w : List UInt64) (block : Nat → Word) (v : Digest512)
    (entries : ∀ t < 80, (w.getD t 0).toBitVec = schedule block t) :
    words (processSchedule w v) = rounds block (words v) := by
  have steps : ∀ (ts : List Nat) (v : Digest512), (∀ t ∈ ts, t < 80) →
      words (ts.foldl (fun v t => processEntry (loadK.getD t 0) (w.getD t 0) v) v) =
        ts.foldl (fun v t => Sha512.round (constant t) (schedule block t) v) (words v) := by
    intro ts
    induction ts with
    | nil =>
        intro v _
        rfl
    | cons t rest ih =>
        intro v inside
        have atHead := inside t List.mem_cons_self
        rw [List.foldl_cons, List.foldl_cons,
          ih _ fun other member => inside other (List.mem_cons_of_mem t member),
          processEntry_words, loadK_toBitVec t atHead, entries t atHead]
  exact steps (List.range 80) v fun t member => List.mem_range.mp member

theorem processBlock_words (m : List UInt64) (block : Nat → Word) (hash : Digest512)
    (sixteen : m.length = 16) (agrees : ∀ t < 16, (m.getD t 0).toBitVec = block t) :
    words (processBlock m hash) = next (words hash) block := by
  have entries := (messageSchedule_spec m block sixteen agrees 64).2
  have processed := processSchedule_words (messageSchedule m 64) block hash entries
  rw [processBlock, next, ← processed]
  rfl

/-! ### Reading the blocks -/

def wordAt (s : List UInt8) (position : Nat) : UInt64 :=
  UInt64.ofNat (number (bits ((s.drop position).take 8)))

theorem shifted_byte (b : UInt8) (shift : UInt64) (within : shift.toNat < 64) :
    b.toUInt64 <<< shift = UInt64.ofNat (b.toNat * 2 ^ shift.toNat) := by
  apply UInt64.toNat_inj.mp
  rw [UInt64.toNat_shiftLeft, UInt8.toNat_toUInt64, Nat.mod_eq_of_lt within,
    Nat.shiftLeft_eq, UInt64.toNat_ofNat']

theorem number_bits_cons (b : UInt8) (rest : List UInt8) :
    number (bits (b :: rest)) = b.toNat * 2 ^ (8 * rest.length) + number (bits rest) := by
  rw [bits_cons, number_append, number_binary, bits_length, Nat.mod_eq_of_lt b.toNat_lt]

theorem joined_eq (b0 b1 b2 b3 b4 b5 b6 b7 : UInt8) :
    joined b0 b1 b2 b3 b4 b5 b6 b7 =
      UInt64.ofNat (number (bits [b0, b1, b2, b3, b4, b5, b6, b7])) := by
  have last : b7.toUInt64 = UInt64.ofNat (b7.toNat * 2 ^ 0) := by
    apply UInt64.toNat_inj.mp
    rw [UInt8.toNat_toUInt64, UInt64.toNat_ofNat', Nat.pow_zero, Nat.mul_one]
    exact (Nat.mod_eq_of_lt (Nat.lt_trans b7.toNat_lt (by decide))).symm
  have nothing : UInt64.ofNat (number (bits [])) = 0 := rfl
  simp only [number_bits_cons, List.length_cons, List.length_nil, UInt64.ofNat_add]
  simp (disch := decide) only [joined, shifted_byte, last, nothing, UInt64.add_zero]
  simp only [UInt64.add_assoc, Nat.zero_add, Nat.reduceAdd, Nat.reduceMul, UInt64.reduceToNat]

theorem eight_bytes (s : List UInt8) (p : Nat) (there : p + 8 ≤ s.length) :
    (s.drop p).take 8 =
      [s[p], s[p + 1], s[p + 2], s[p + 3], s[p + 4], s[p + 5], s[p + 6], s[p + 7]] := by
  rw [List.drop_eq_getElem_cons (show p < s.length by omega), List.take_succ_cons,
    List.drop_eq_getElem_cons (show p + 1 < s.length by omega), List.take_succ_cons,
    List.drop_eq_getElem_cons (show p + 2 < s.length by omega), List.take_succ_cons,
    List.drop_eq_getElem_cons (show p + 3 < s.length by omega), List.take_succ_cons,
    List.drop_eq_getElem_cons (show p + 4 < s.length by omega), List.take_succ_cons,
    List.drop_eq_getElem_cons (show p + 5 < s.length by omega), List.take_succ_cons,
    List.drop_eq_getElem_cons (show p + 6 < s.length by omega), List.take_succ_cons,
    List.drop_eq_getElem_cons (show p + 7 < s.length by omega), List.take_succ_cons,
    List.take_zero]

theorem packWord_eq (s : List UInt8) (position : UInt32)
    (there : position.toNat + 8 ≤ s.length) (small : s.length < 2 ^ 32) :
    packWord s position = some (wordAt s position.toNat) := by
  have read : ∀ (offset : UInt32) (inside : offset.toNat < 8),
      at_ s (position + offset) = some (s[position.toNat + offset.toNat]) := by
    intro offset inside
    rw [at_, UInt32.toNat_add, Nat.mod_eq_of_lt (by omega), List.getElem?_eq_getElem]
  unfold packWord
  simp (disch := decide) only [read]
  rw [wordAt, eight_bytes s position.toNat there, ← joined_eq]
  rfl

theorem packWords_eq (s : List UInt8) (count : Nat) (position : UInt32)
    (there : position.toNat + 8 * count ≤ s.length) (small : s.length < 2 ^ 32) :
    packWords s position count =
      some ((List.range count).map fun t => wordAt s (position.toNat + 8 * t)) := by
  induction count generalizing position with
  | zero => rfl
  | succ count ih =>
      have moved : (position + 8).toNat = position.toNat + 8 := by
        rw [UInt32.toNat_add]
        exact Nat.mod_eq_of_lt (by change position.toNat + 8 < 2 ^ 32; omega)
      have rest := ih (position + 8) (by omega)
      rw [packWords, packWord_eq s position (by omega) small, rest, moved,
        List.range_succ_eq_map, List.map_cons, List.map_map]
      simp only [Option.bind_eq_bind, Option.bind_some, Option.pure_def, Option.some.injEq,
        List.cons.injEq]
      refine ⟨rfl, List.map_congr_left fun t _ => ?_⟩
      rw [Function.comp_apply, Nat.mul_succ, Nat.add_assoc, Nat.add_comm 8]

theorem wordAt_toBitVec (s : List UInt8) (i t : Nat) (there : 128 * i + 8 * t + 8 ≤ s.length) :
    (wordAt s (128 * i + 8 * t)).toBitVec = Sha512.word (bits s) i t := by
  have place : 1024 * i + 64 * t = 8 * (128 * i + 8 * t) := by omega
  have enough : 8 ≤ (s.drop (128 * i + 8 * t)).length := by
    rw [List.length_drop]
    omega
  have front := bits_take (s.drop (128 * i + 8 * t)) 8 enough
  rw [Sha512.word, place, bits_drop s _ (by omega), front]
  rfl

theorem packMBlock_eq (s : List UInt8) (i : UInt32) (there : 128 * i.toNat + 128 ≤ s.length)
    (small : s.length < 2 ^ 32) :
    ∃ m, packMBlock s (i <<< 7) = some m ∧ m.length = 16 ∧
      ∀ t < 16, (m.getD t 0).toBitVec = Sha512.word (bits s) i.toNat t := by
  have index : (i <<< 7).toNat = 128 * i.toNat := by
    rw [UInt32.toNat_shiftLeft, Nat.shiftLeft_eq, Nat.mul_comm]
    exact Nat.mod_eq_of_lt (by change 128 * i.toNat < 2 ^ 32; omega)
  refine ⟨_, packWords_eq s 16 (i <<< 7) (by omega) small, ?_, ?_⟩
  · rw [List.length_map, List.length_range]
  · intro t inside
    rw [List.getD_eq_getElem _ _ (by rw [List.length_map, List.length_range]; exact inside),
      List.getElem_map, List.getElem_range, index]
    exact wordAt_toBitVec s i.toNat t (by omega)

theorem blockLoop_spec (message : List UInt8) (small : message.length < 2 ^ 32) (left : Nat)
    (i : UInt32) (hash : Digest512) (there : 128 * (i.toNat + left) ≤ message.length) :
    ∃ final, blockLoop message left i hash = some final ∧
      words final = (List.range' i.toNat left).foldl
        (fun hash i => next hash (Sha512.word (bits message) i)) (words hash) := by
  induction left generalizing i hash with
  | zero => exact ⟨hash, rfl, rfl⟩
  | succ left ih =>
      obtain ⟨m, packed, sixteen, agrees⟩ := packMBlock_eq message i (by omega) small
      have moved : (i + 1).toNat = i.toNat + 1 := by
        rw [UInt32.toNat_add]
        exact Nat.mod_eq_of_lt (by change i.toNat + 1 < 2 ^ 32; omega)
      obtain ⟨final, looped, isFinal⟩ := ih (i + 1) (processBlock m hash) (by omega)
      refine ⟨final, ?_, ?_⟩
      · rw [blockLoop, packed]
        exact looped
      · rw [isFinal, moved, List.range'_succ, List.foldl_cons,
          processBlock_words m (Sha512.word (bits message) i.toNat) hash sixteen agrees]

/-! ### Padding -/

/-- Both branches leave seven zero bits to the byte of the one bit. -/
theorem zeros_bytes (length : Nat) (small : length < 2 ^ 61) :
    zeros (8 * length) = 7 + 8 * (distance (UInt64.ofNat length <<< 3) >>> 3).toNat := by
  have len : (UInt64.ofNat length <<< 3).toNat = 8 * length := by
    rw [UInt64.toNat_shiftLeft, UInt64.toNat_ofNat', Nat.shiftLeft_eq]
    change length % 2 ^ 64 * 2 ^ 3 % 2 ^ 64 = 8 * length
    omega
  have remainder : ((UInt64.ofNat length <<< 3) % 1024).toUInt32.toNat = 8 * length % 1024 := by
    rw [UInt64.toNat_toUInt32, UInt64.toNat_mod, len]
    change 8 * length % 1024 % 2 ^ 32 = 8 * length % 1024
    omega
  have distanceValue : (distance (UInt64.ofNat length <<< 3)).toNat =
      if 896 ≤ 8 * length % 1024 then 1912 - 8 * length % 1024 else 888 - 8 * length % 1024 := by
    unfold distance
    simp only [ge_iff_le, UInt32.le_iff_toNat_le, remainder]
    split
    · rename_i beyond
      change 896 ≤ 8 * length % 1024 at beyond
      rw [if_pos beyond]
      simp only [UInt32.toNat_sub, UInt32.toNat_add, remainder]
      change (2 ^ 32 - 7 + (2 ^ 32 - 1 + ((2 ^ 32 - 8 * length % 1024 + 1024) % 2 ^ 32 + 896) %
        2 ^ 32) % 2 ^ 32) % 2 ^ 32 = _
      omega
    · rename_i before
      change ¬ 896 ≤ 8 * length % 1024 at before
      rw [if_neg before]
      simp only [UInt32.toNat_sub, remainder]
      change (2 ^ 32 - 7 + (2 ^ 32 - 1 + (2 ^ 32 - 8 * length % 1024 + 896) % 2 ^ 32) %
        2 ^ 32) % 2 ^ 32 = _
      omega
  have bytes : (distance (UInt64.ofNat length <<< 3) >>> 3).toNat =
      (distance (UInt64.ofNat length <<< 3)).toNat / 8 := by
    rw [UInt32.toNat_shiftRight]
    exact Nat.shiftRight_eq_div_pow _ 3
  rw [bytes, distanceValue]
  apply (Nat.find_eq_iff _).mpr
  unfold PadsTo
  constructor
  · split <;> omega
  · intro other less
    split at less <;> omega

theorem lengthBytes_eq (len : UInt64) : lengthBytes len = bytesOf 8 len.toNat := by
  have byte : ∀ i : UInt64, i.toNat < 8 →
      (len >>> (i * 8) &&& 0xFF).toUInt8 = UInt8.ofNat (len.toNat / 2 ^ (8 * i.toNat)) := by
    intro i within
    have shift : (i * 8).toNat = 8 * i.toNat := by
      rw [UInt64.toNat_mul]
      change i.toNat * 8 % 2 ^ 64 = 8 * i.toNat
      omega
    apply UInt8.toNat_inj.mp
    rw [UInt64.toNat_toUInt8, UInt64.toNat_and, UInt64.toNat_shiftRight, shift,
      Nat.mod_eq_of_lt (show 8 * i.toNat < 64 by omega), Nat.shiftRight_eq_div_pow,
      UInt8.toNat_ofNat']
    change (len.toNat / 2 ^ (8 * i.toNat) &&& 2 ^ 8 - 1) % 2 ^ 8 = _
    rw [Nat.and_two_pow_sub_one_eq_mod, Nat.mod_mod]
  simp (disch := decide) only [lengthBytes, List.map_cons, List.map_nil, bytesOf, byte]
  rfl

/-- The padding of the standard, byte by byte. -/
theorem bits_padMessage (message : List UInt8) (small : message.length < 2 ^ 61) :
    bits (padMessage message) = pad (bits message) := by
  have len : (UInt64.ofNat message.length <<< 3).toNat = 8 * message.length := by
    rw [UInt64.toNat_shiftLeft, UInt64.toNat_ofNat', Nat.shiftLeft_eq]
    change message.length % 2 ^ 64 * 2 ^ 3 % 2 ^ 64 = 8 * message.length
    omega
  have field : bits (List.replicate 8 (0 : UInt8) ++
      lengthBytes (UInt64.ofNat message.length <<< 3)) = binary 128 (8 * message.length) := by
    rw [lengthBytes_eq, len, ← bytesOf_append 8 8 _ (by omega), bits_bytesOf]
  have one : bits [(1 : UInt8) <<< 7] = [true] ++ List.replicate 7 false := rfl
  rw [padMessage, List.append_assoc _ (List.replicate 8 (0 : UInt8)), bits_append, bits_append,
    bits_append, field, one, bits_replicate, pad, bits_length,
    zeros_bytes message.length small, List.replicate_add]
  simp only [List.append_assoc]

theorem padMessage_length_le (message : List UInt8) (small : message.length < 2 ^ 61) :
    (padMessage message).length ≤ message.length + 256 := by
  have zerosLe : zeros (8 * message.length) ≤ 1919 - 8 * message.length % 1024 := by
    apply Nat.find_min'
    unfold PadsTo
    omega
  rw [zeros_bytes message.length small] at zerosLe
  have eight : (lengthBytes (UInt64.ofNat message.length <<< 3)).length = 8 := rfl
  simp only [padMessage, List.length_append, List.length_replicate, List.length_singleton, eight]
  omega

/-- The digest of the standard, for every message whose padded length can be
counted in 32 bits. -/
theorem getMessageDigest_spec (message : List UInt8)
    (small : (padMessage message).length < 2 ^ 32) :
    ∃ hash, getMessageDigest message = some (hash, padMessage message) ∧
      words hash = digest (bits message) := by
  have shorter : message.length ≤ (padMessage message).length := by
    simp only [padMessage, List.length_append, Nat.add_assoc]
    exact Nat.le_add_right _ _
  have blocks : (UInt64.ofNat (padMessage message).length >>> 7).toNat =
      (padMessage message).length / 128 := by
    rw [UInt64.toNat_shiftRight, UInt64.toNat_ofNat', Nat.mod_eq_of_lt (by omega)]
    exact Nat.shiftRight_eq_div_pow _ 7
  have padded := bits_padMessage message (by omega)
  obtain ⟨final, looped, isFinal⟩ := blockLoop_spec (padMessage message) small
    ((padMessage message).length / 128) 0 initialHash (by
      change 128 * (0 + (padMessage message).length / 128) ≤ (padMessage message).length
      omega)
  refine ⟨final, ?_, ?_⟩
  · unfold getMessageDigest
    simp only
    rw [blocks, if_pos (by omega), looped]
    rfl
  · have count : (pad (bits message)).length / 1024 = (padMessage message).length / 128 := by
      rw [← padded, bits_length]
      omega
    rw [isFinal, initialHash_words, padded, digest, count, List.range_eq_range']
    rfl

end Sha512Impl

end AuthServer
