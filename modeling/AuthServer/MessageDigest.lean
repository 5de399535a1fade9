/-
The class `MD5`: a digest of messages that come in pieces.

`Update` reads its piece from memory.  Its loop compares in 32 bits, and where the sum runs
over, it does not end.
-/

import AuthServer.Lib.LinearMemory
import AuthServer.Lib.Md5

set_option autoImplicit false

namespace AuthServer

open LinearMemory Md5

structure MD5 where
  state : Four UInt32
  count0 : UInt32
  count1 : UInt32
  buffer : Nat → UInt8

namespace MD5

/-! ### `MD5Transform` -/

def F (x y z : UInt32) : UInt32 := (x &&& y) ||| (~~~x &&& z)

def G (x y z : UInt32) : UInt32 := (x &&& z) ||| (y &&& ~~~z)

def H (x y z : UInt32) : UInt32 := x ^^^ y ^^^ z

def I (x y z : UInt32) : UInt32 := y ^^^ (x ||| ~~~z)

def rotateLeft (x n : UInt32) : UInt32 := (x <<< n) ||| (x >>> (32 - n))

def mixed (function : UInt32 → UInt32 → UInt32 → UInt32) (a b c d x s ac : UInt32) : UInt32 :=
  rotateLeft (a + (function b c d + x + ac)) s + b

def FF : UInt32 → UInt32 → UInt32 → UInt32 → UInt32 → UInt32 → UInt32 → UInt32 := mixed F

def GG : UInt32 → UInt32 → UInt32 → UInt32 → UInt32 → UInt32 → UInt32 → UInt32 := mixed G

def HH : UInt32 → UInt32 → UInt32 → UInt32 → UInt32 → UInt32 → UInt32 → UInt32 := mixed H

def II : UInt32 → UInt32 → UInt32 → UInt32 → UInt32 → UInt32 → UInt32 → UInt32 := mixed I

def lines (change : UInt32 → UInt32 → UInt32 → UInt32 → UInt32 → UInt32 → UInt32 → UInt32)
    (s1 s2 s3 s4 : UInt32) (x : Nat → UInt32) : List (Nat × UInt32) → Four UInt32 → Four UInt32
  | line1 :: line2 :: line3 :: line4 :: rest, v =>
      let a := change v.a v.b v.c v.d (x line1.1) s1 line1.2
      let d := change v.d a v.b v.c (x line2.1) s2 line2.2
      let c := change v.c d a v.b (x line3.1) s3 line3.2
      let b := change v.b c d a (x line4.1) s4 line4.2
      lines change s1 s2 s3 s4 x rest ⟨a, b, c, d⟩
  | _, v => v

def round1 : List (Nat × UInt32) :=
  [(0, 0xd76aa478), (1, 0xe8c7b756), (2, 0x242070db), (3, 0xc1bdceee),
    (4, 0xf57c0faf), (5, 0x4787c62a), (6, 0xa8304613), (7, 0xfd469501),
    (8, 0x698098d8), (9, 0x8b44f7af), (10, 0xffff5bb1), (11, 0x895cd7be),
    (12, 0x6b901122), (13, 0xfd987193), (14, 0xa679438e), (15, 0x49b40821)]

def round2 : List (Nat × UInt32) :=
  [(1, 0xf61e2562), (6, 0xc040b340), (11, 0x265e5a51), (0, 0xe9b6c7aa),
    (5, 0xd62f105d), (10, 0x2441453), (15, 0xd8a1e681), (4, 0xe7d3fbc8),
    (9, 0x21e1cde6), (14, 0xc33707d6), (3, 0xf4d50d87), (8, 0x455a14ed),
    (13, 0xa9e3e905), (2, 0xfcefa3f8), (7, 0x676f02d9), (12, 0x8d2a4c8a)]

def round3 : List (Nat × UInt32) :=
  [(5, 0xfffa3942), (8, 0x8771f681), (11, 0x6d9d6122), (14, 0xfde5380c),
    (1, 0xa4beea44), (4, 0x4bdecfa9), (7, 0xf6bb4b60), (10, 0xbebfbc70),
    (13, 0x289b7ec6), (0, 0xeaa127fa), (3, 0xd4ef3085), (6, 0x4881d05),
    (9, 0xd9d4d039), (12, 0xe6db99e5), (15, 0x1fa27cf8), (2, 0xc4ac5665)]

def round4 : List (Nat × UInt32) :=
  [(0, 0xf4292244), (7, 0x432aff97), (14, 0xab9423a7), (5, 0xfc93a039),
    (12, 0x655b59c3), (3, 0x8f0ccc92), (10, 0xffeff47d), (1, 0x85845dd1),
    (8, 0x6fa87e4f), (15, 0xfe2ce6e0), (6, 0xa3014314), (13, 0x4e0811a1),
    (4, 0xf7537e82), (11, 0xbd3af235), (2, 0x2ad7d2bb), (9, 0xeb86d391)]

def decode (input : Nat → UInt8) (i : Nat) : UInt32 :=
  (input (4 * i)).toUInt32 ||| (input (4 * i + 1)).toUInt32 <<< 8 |||
    (input (4 * i + 2)).toUInt32 <<< 16 ||| (input (4 * i + 3)).toUInt32 <<< 24

def encodeWord (input : UInt32) : List UInt8 :=
  [(input &&& 0xff).toUInt8, (input >>> 8 &&& 0xff).toUInt8, (input >>> 16 &&& 0xff).toUInt8,
    (input >>> 24 &&& 0xff).toUInt8]

def transform (state : Four UInt32) (block : Nat → UInt8) : Four UInt32 :=
  let x := decode block
  let v := lines FF 7 12 17 22 x round1 state
  let v := lines GG 5 9 14 20 x round2 v
  let v := lines HH 4 11 16 23 x round3 v
  let v := lines II 6 10 15 21 x round4 v
  state.add v

/-! ### The class -/

/-- `MD5()`, which leaves the buffer as it is. -/
def construct (buffer : Nat → UInt8) : MD5 :=
  ⟨⟨0x67452301, 0xefcdab89, 0x98badcfe, 0x10325476⟩, 0, 0, buffer⟩

def transformLoop (input : Nat → UInt8) (inputLen : UInt32) :
    Nat → UInt32 → Four UInt32 → Option (UInt32 × Four UInt32)
  | 0, _, _ => none
  | turns + 1, i, state =>
      if i + 63 < inputLen then
        transformLoop input inputLen turns (i + 64)
          (transform state fun offset => input (i.toNat + offset))
      else some (i, state)

def update (md5 : MD5) (input : Nat → UInt8) (inputLen : UInt32) : Option MD5 :=
  let index := (md5.count0 >>> 3) &&& 0x3f
  let count0 := md5.count0 + inputLen <<< 3
  let carried := if count0 < inputLen <<< 3 then md5.count1 + 1 else md5.count1
  let count1 := carried + inputLen >>> 29
  let partLen := 64 - index
  if inputLen ≥ partLen then
    let buffer := store md5.buffer index.toNat (slice input 0 partLen.toNat)
    (transformLoop input inputLen (inputLen.toNat + 1) partLen (transform md5.state buffer)).map
      fun (i, state) =>
        ⟨state, count0, count1, store buffer 0 (slice input i.toNat (inputLen - i).toNat)⟩
  else
    some ⟨md5.state, count0, count1, store md5.buffer index.toNat (slice input 0 inputLen.toNat)⟩

def padding : Nat → UInt8 := fun position => if position = 0 then 0x80 else 0

def zeroized : MD5 := ⟨⟨0, 0, 0, 0⟩, 0, 0, fun _ => 0⟩

def final (md5 : MD5) : Option (List UInt8 × MD5) :=
  let bits := encodeWord md5.count0 ++ encodeWord md5.count1
  let index := (md5.count0 >>> 3) &&& 0x3f
  let padLen := if index < 56 then 56 - index else 120 - index
  (md5.update padding padLen).bind fun padded =>
    (padded.update (fun position => bits.getD position 0) 8).map fun closed =>
      (closed.state.toList.flatMap encodeWord, zeroized)

structure Piece where
  input : Nat → UInt8
  inputLen : UInt32

def Piece.bytes (piece : Piece) : List UInt8 := slice piece.input 0 piece.inputLen.toNat

def updates (md5 : MD5) (pieces : List Piece) : Option MD5 :=
  pieces.foldlM (fun md5 piece => md5.update piece.input piece.inputLen) md5

/-! ### Words against the standard -/

def words (state : Four UInt32) : Four Word := state.map UInt32.toBitVec

theorem rotateLeft_toBitVec (x n : UInt32) (positive : 0 < n.toNat) (within : n.toNat < 32) :
    (rotateLeft x n).toBitVec = x.toBitVec.rotateLeft n.toNat := by
  have other : (32 - n).toNat = 32 - n.toNat := by
    rw [UInt32.toNat_sub]
    change (2 ^ 32 - n.toNat + 32) % 2 ^ 32 = 32 - n.toNat
    omega
  have reduced : ∀ shift : UInt32, shift.toNat < 32 →
      (shift.toBitVec % 32).toNat = shift.toNat := by
    intro shift small
    rw [BitVec.toNat_umod]
    exact Nat.mod_eq_of_lt small
  have left : x.toBitVec <<< (n.toBitVec % 32) = x.toBitVec <<< n.toNat := by
    rw [BitVec.shiftLeft_eq', reduced n within]
  have right : x.toBitVec >>> ((32 - n).toBitVec % 32) = x.toBitVec >>> (32 - n.toNat) := by
    rw [BitVec.ushiftRight_eq', reduced (32 - n) (by omega), other]
  rw [rotateLeft, UInt32.toBitVec_or, UInt32.toBitVec_shiftLeft, UInt32.toBitVec_shiftRight, left,
    right, BitVec.rotateLeft_def, Nat.mod_eq_of_lt within]

/-- A line of a round does what a step of the standard does. -/
theorem mixed_toBitVec (function : UInt32 → UInt32 → UInt32 → UInt32) (round : Nat)
    (agrees : ∀ x y z, (function x y z).toBitVec = mix round x.toBitVec y.toBitVec z.toBitVec)
    (a b c d x s ac : UInt32) (positive : 0 < s.toNat) (within : s.toNat < 32) :
    (mixed function a b c d x s ac).toBitVec =
      b.toBitVec + (a.toBitVec + mix round b.toBitVec c.toBitVec d.toBitVec + x.toBitVec +
        ac.toBitVec).rotateLeft s.toNat := by
  rw [mixed, UInt32.toBitVec_add, rotateLeft_toBitVec _ _ positive within, UInt32.toBitVec_add,
    UInt32.toBitVec_add, UInt32.toBitVec_add, agrees, BitVec.add_comm _ b.toBitVec,
    BitVec.add_assoc (a.toBitVec + _), BitVec.add_assoc a.toBitVec,
    BitVec.add_assoc (mix round _ _ _)]

theorem or_byte (low count : UInt32) (byte : UInt8) (bits : Nat) (shifts : count.toNat = bits)
    (within : bits + 8 ≤ 32) (small : low.toNat < 2 ^ bits) :
    (low ||| byte.toUInt32 <<< count).toNat = low.toNat + 2 ^ bits * byte.toNat := by
  have fits : 2 ^ bits * byte.toNat < 2 ^ 32 := by
    calc 2 ^ bits * byte.toNat < 2 ^ bits * 2 ^ 8 :=
          Nat.mul_lt_mul_of_pos_left byte.toNat_lt (Nat.two_pow_pos bits)
      _ = 2 ^ (bits + 8) := (Nat.pow_add 2 bits 8).symm
      _ ≤ 2 ^ 32 := Nat.pow_le_pow_right (by decide) within
  rw [UInt32.toNat_or, UInt32.toNat_shiftLeft, shifts, UInt8.toNat_toUInt32,
    Nat.mod_eq_of_lt (show bits < 32 by omega), Nat.shiftLeft_eq, Nat.mul_comm byte.toNat,
    Nat.mod_eq_of_lt fits, Nat.or_comm, ← Nat.two_pow_add_eq_or_of_lt small, Nat.add_comm]

theorem decode_toNat (input : Nat → UInt8) (i : Nat) :
    (decode input i).toNat = number (slice input (4 * i) 4) := by
  have size := fun offset => (input (4 * i + offset)).toNat_lt
  have zeroth : (input (4 * i)).toUInt32.toNat = (input (4 * i)).toNat := UInt8.toNat_toUInt32 _
  have size0 := size 0
  have size1 := size 1
  have size2 := size 2
  rw [Nat.add_zero] at size0
  have first := or_byte (input (4 * i)).toUInt32 8 (input (4 * i + 1)) 8 rfl (by decide)
    (by omega)
  have second := or_byte _ 16 (input (4 * i + 2)) 16 rfl (by decide) (by rw [first]; omega)
  have third := or_byte _ 24 (input (4 * i + 3)) 24 rfl (by decide) (by rw [second, first]; omega)
  rw [decode, third, second, first, zeroth]
  change _ = (input (4 * i)).toNat + 256 * ((input (4 * i + 1)).toNat + 256 *
    ((input (4 * i + 2)).toNat + 256 * ((input (4 * i + 3)).toNat + 256 * 0)))
  omega

theorem decode_toBitVec (input : Nat → UInt8) (i : Nat) (within : i < 16) :
    (decode input i).toBitVec = Md5.word (slice input 0 64) i := by
  rw [Md5.word, slice_drop input 0 64 (4 * i) (by omega), slice_take _ _ _ _ (by omega),
    Nat.zero_add, ← decode_toNat]
  exact (BitVec.ofNat_toNat 32 (decode input i).toBitVec).symm

theorem shifted_byte (input count : UInt32) (bits : Nat) (shifts : count.toNat = bits)
    (within : bits < 32) :
    (input >>> count &&& 0xff).toUInt8 = UInt8.ofNat (input.toNat / 2 ^ bits) := by
  apply UInt8.toNat_inj.mp
  rw [UInt32.toNat_toUInt8, UInt32.toNat_and, UInt32.toNat_shiftRight, shifts,
    Nat.mod_eq_of_lt within, Nat.shiftRight_eq_div_pow, UInt8.toNat_ofNat']
  change (_ &&& (2 ^ 8 - 1)) % 2 ^ 8 = _
  rw [Nat.and_two_pow_sub_one_eq_mod, Nat.mod_mod]

theorem encodeWord_eq (input : UInt32) : encodeWord input = bytesOf 4 input.toNat := by
  have lowest : (input &&& 0xff).toUInt8 = UInt8.ofNat (input.toNat / 1) := by
    have same := shifted_byte input 0 0 rfl (by decide)
    rw [UInt32.shiftRight_zero] at same
    exact same
  rw [encodeWord, lowest, shifted_byte input 8 8 rfl (by decide),
    shifted_byte input 16 16 rfl (by decide), shifted_byte input 24 24 rfl (by decide)]
  rfl

theorem encode_words (state : Four UInt32) :
    state.toList.flatMap encodeWord = encode (words state) := by
  rw [funext encodeWord_eq]
  rfl

/-! ### Rounds -/

/-- The line of the source that stands for a step. -/
def Stands (step : Nat) (line : Nat × UInt32) : Prop :=
  line.1 = place step ∧ IsSine (step + 1) line.2.toNat

instance standsDecidable (step : Nat) (line : Nat × UInt32) : Decidable (Stands step line) := by
  unfold Stands
  infer_instance

theorem rounds_stand :
    (∀ index, ∀ inside : index < round1.length, Stands index round1[index]) ∧
    (∀ index, ∀ inside : index < round2.length, Stands (16 + index) round2[index]) ∧
    (∀ index, ∀ inside : index < round3.length, Stands (32 + index) round3[index]) ∧
    (∀ index, ∀ inside : index < round4.length, Stands (48 + index) round4[index]) := by
  decide +kernel

theorem Stands.operation {step : Nat} {line : Nat × UInt32} (stands : Stands step line)
    (function : UInt32 → UInt32 → UInt32 → UInt32)
    (agrees : ∀ x y z, (function x y z).toBitVec =
      mix (step / 16) x.toBitVec y.toBitVec z.toBitVec)
    (s : UInt32) (same : s.toNat = shift step) (input : Nat → UInt8)
    (a b c d : UInt32) :
    Md5.operation (slice input 0 64) (words ⟨a, b, c, d⟩) step =
      words ⟨d, mixed function a b c d (decode input line.1) s line.2, b, c⟩ := by
  obtain ⟨takes, isSine⟩ := stands
  have below : place step < 16 := by
    unfold place
    split <;> exact Nat.mod_lt _ (by decide)
  have constant : sine (step + 1) = line.2.toBitVec := by
    rw [sine_eq _ _ isSine]
    exact BitVec.ofNat_toNat 32 line.2.toBitVec
  obtain ⟨positive, within⟩ := shift_bounds step
  have mixes := mixed_toBitVec function (step / 16) agrees a b c d (decode input line.1) s line.2
    (same ▸ positive) (same ▸ within)
  rw [takes, decode_toBitVec input _ below, same, ← constant] at mixes
  simp only [Md5.operation, words, Four.map, takes, mixes]

/-- The function and the shifts that the lines of a round are written with. -/
structure Round (round : Nat) (function : UInt32 → UInt32 → UInt32 → UInt32)
    (s1 s2 s3 s4 : UInt32) : Prop where
  agrees : ∀ x y z, (function x y z).toBitVec = mix round x.toBitVec y.toBitVec z.toBitVec
  shifts : shifts round = [s1.toNat, s2.toNat, s3.toNat, s4.toNat]

/-- The lines from step `start` on do what the steps do. -/
theorem lines_eq (round : Nat) (function : UInt32 → UInt32 → UInt32 → UInt32)
    (s1 s2 s3 s4 : UInt32) (isRound : Round round function s1 s2 s3 s4) (input : Nat → UInt8)
    (rows : List (Nat × UInt32)) (v : Four UInt32) (start : Nat) (aligned : start % 4 = 0)
    (fours : rows.length % 4 = 0)
    (own : ∀ index, index < rows.length → (start + index) / 16 = round)
    (stand : ∀ index, ∀ inside : index < rows.length, Stands (start + index) rows[index]) :
    words (lines (mixed function) s1 s2 s3 s4 (decode input) rows v) =
      (List.range' start rows.length).foldl (Md5.operation (slice input 0 64)) (words v) := by
  fun_induction lines (mixed function) s1 s2 s3 s4 (decode input) rows v generalizing start with
  | case1 line1 line2 line3 line4 rest v a d c b ih =>
      have long : (line1 :: line2 :: line3 :: line4 :: rest).length = rest.length + 4 := rfl
      rw [long] at fours own
      have agrees : ∀ turn, turn < 4 → ∀ x y z, (function x y z).toBitVec =
          mix ((start + turn) / 16) x.toBitVec y.toBitVec z.toBitVec := by
        intro turn below
        rw [own turn (by omega)]
        exact isRound.agrees
      have shifted : ∀ turn, turn < 4 →
          [s1.toNat, s2.toNat, s3.toNat, s4.toNat].getD turn 0 = shift (start + turn) := by
        intro turn below
        rw [shift, own turn (by omega), isRound.shifts, show (start + turn) % 4 = turn by omega]
      have stands := fun turn (below : turn < 4) => stand turn (by rw [long]; omega)
      have first := (stands 0 (by decide)).operation function (agrees 0 (by decide)) s1
        (shifted 0 (by decide)) input v.a v.b v.c v.d
      have second := (stands 1 (by decide)).operation function (agrees 1 (by decide)) s2
        (shifted 1 (by decide)) input v.d a v.b v.c
      have third := (stands 2 (by decide)).operation function (agrees 2 (by decide)) s3
        (shifted 2 (by decide)) input v.c d a v.b
      have fourth := (stands 3 (by decide)).operation function (agrees 3 (by decide)) s4
        (shifted 3 (by decide)) input v.b c d a
      change _ = (List.range' (start + 4) rest.length).foldl (Md5.operation (slice input 0 64))
        (Md5.operation _ (Md5.operation _ (Md5.operation _ (Md5.operation _
          (words ⟨v.a, v.b, v.c, v.d⟩) (start + 0)) (start + 1)) (start + 2)) (start + 3))
      rw [first]
      change _ = List.foldl _ (Md5.operation _ (Md5.operation _ (Md5.operation _
        (words ⟨v.d, a, v.b, v.c⟩) (start + 1)) (start + 2)) (start + 3)) _
      rw [second]
      change _ = List.foldl _ (Md5.operation _ (Md5.operation _ (words ⟨v.c, d, a, v.b⟩)
        (start + 2)) (start + 3)) _
      rw [third]
      change _ = List.foldl _ (Md5.operation _ (words ⟨v.b, c, d, a⟩) (start + 3)) _
      rw [fourth]
      refine ih (start + 4) (by omega) (by omega) (fun index below => ?_) (fun index inside => ?_)
      · rw [Nat.add_right_comm start 4 index]
        exact own (index + 4) (by omega)
      · have behind := stand (index + 4) (by rw [long]; omega)
        rw [← Nat.add_assoc, Nat.add_right_comm] at behind
        exact behind
  | case2 rows v short =>
      rcases rows with _ | ⟨line1, _ | ⟨line2, _ | ⟨line3, _ | ⟨line4, rest⟩⟩⟩⟩
      · rfl
      · exact absurd fours (Nat.succ_ne_zero 0)
      · exact absurd fours (Nat.succ_ne_zero 1)
      · exact absurd fours (Nat.succ_ne_zero 2)
      · exact absurd rfl (short line1 line2 line3 line4 rest)

theorem transform_compress (state : Four UInt32) (block : Nat → UInt8) :
    words (transform state block) = scheme.compress (words state) (slice block 0 64) := by
  obtain ⟨stand1, stand2, stand3, stand4⟩ := rounds_stand
  let steps := fun (start : Nat) (v : Four Word) =>
    (List.range' start 16).foldl (Md5.operation (slice block 0 64)) v
  have first : ∀ v, words (lines FF 7 12 17 22 (decode block) round1 v) = steps 0 (words v) :=
    fun v => lines_eq 0 F 7 12 17 22 ⟨fun _ _ _ => rfl, rfl⟩ block round1 v 0 rfl rfl (by decide)
      (fun index inside => by rw [Nat.zero_add]; exact stand1 index inside)
  have second : ∀ v, words (lines GG 5 9 14 20 (decode block) round2 v) = steps 16 (words v) :=
    fun v => lines_eq 1 G 5 9 14 20 ⟨fun _ _ _ => rfl, rfl⟩ block round2 v 16 rfl rfl (by decide)
      stand2
  have third : ∀ v, words (lines HH 4 11 16 23 (decode block) round3 v) = steps 32 (words v) :=
    fun v => lines_eq 2 H 4 11 16 23 ⟨fun _ _ _ => rfl, rfl⟩ block round3 v 32 rfl rfl (by decide)
      stand3
  have fourth : ∀ v, words (lines II 6 10 15 21 (decode block) round4 v) = steps 48 (words v) :=
    fun v => lines_eq 3 I 6 10 15 21 ⟨fun _ _ _ => rfl, rfl⟩ block round4 v 48 rfl rfl (by decide)
      stand4
  have sum : ∀ left right : Four UInt32,
      words (left.add right) = (words left).add (words right) := fun _ _ => rfl
  have all : List.range 64 =
      List.range' 0 16 ++ List.range' 16 16 ++ List.range' 32 16 ++ List.range' 48 16 := rfl
  simp only [transform, scheme, compress, all, List.foldl_append, sum, first, second, third,
    fourth, steps]

/-! ### `Update` -/

/-- The loop takes in whole blocks up to less than a block before the end. -/
theorem transformLoop_absorb (input : Nat → UInt8) (inputLen : UInt32)
    (bound : inputLen.toNat + 64 ≤ 2 ^ 32) (turns : Nat) (i : UInt32) (state : Four UInt32)
    (within : i.toNat ≤ inputLen.toNat) (enough : (inputLen.toNat - i.toNat) / 64 < turns) :
    ∃ last final, transformLoop input inputLen turns i state = some (last, final) ∧
      i.toNat ≤ last.toNat ∧ last.toNat ≤ inputLen.toNat ∧ inputLen.toNat - last.toNat < 64 ∧
      64 ∣ last.toNat - i.toNat ∧
      words final = scheme.absorb (words state) (slice input i.toNat (last.toNat - i.toNat)) := by
  induction turns generalizing i state with
  | zero => exact absurd enough (Nat.not_lt_zero _)
  | succ turns ih =>
      have sum63 : (i + 63).toNat = i.toNat + 63 := by
        rw [UInt32.toNat_add]
        exact Nat.mod_eq_of_lt (by change i.toNat + 63 < 2 ^ 32; omega)
      rw [transformLoop]
      split
      next more =>
        rw [UInt32.lt_iff_toNat_lt, sum63] at more
        have sum64 : (i + 64).toNat = i.toNat + 64 := by
          rw [UInt32.toNat_add]
          exact Nat.mod_eq_of_lt (by change i.toNat + 64 < 2 ^ 32; omega)
        obtain ⟨last, final, reached, after, inside, rest, divides, absorbed⟩ :=
          ih (i + 64) (transform state fun offset => input (i.toNat + offset))
            (by rw [sum64]; omega) (by rw [sum64]; omega)
        rw [sum64] at after divides absorbed
        refine ⟨last, final, reached, by omega, inside, rest, by omega, ?_⟩
        have block : slice (fun offset => input (i.toNat + offset)) 0 64 =
            slice input i.toNat 64 := by
          unfold slice
          simp only [Nat.zero_add]
        have text : slice input i.toNat (last.toNat - i.toNat) =
            slice input i.toNat 64 ++ slice input (i.toNat + 64) (last.toNat - (i.toNat + 64)) := by
          rw [← slice_append]
          congr 1
          omega
        have length : (slice input i.toNat 64).length = scheme.size := slice_length _ _ _
        rw [absorbed, transform_compress, block, text, scheme.absorb_cons _ _ _ length]
      next less =>
        rw [UInt32.lt_iff_toNat_lt, sum63] at less
        refine ⟨i, state, rfl, Nat.le_refl _, within, by omega, ?_, ?_⟩
        · rw [Nat.sub_self]
          exact Nat.dvd_zero _
        · rw [Nat.sub_self, slice_zero]
          exact (scheme.absorb_short _ [] scheme.positive).symm

/-- What a context that has been fed a text keeps of it. -/
structure Reads (md5 : MD5) (text : List UInt8) : Prop where
  holds : scheme.Holds initial text (words md5.state) (slice md5.buffer 0 (text.length % 64))
  count : md5.count0.toNat + 2 ^ 32 * md5.count1.toNat = 8 * text.length % 2 ^ 64

theorem construct_reads (buffer : Nat → UInt8) : Reads (construct buffer) [] :=
  ⟨scheme.holds_nil initial, rfl⟩

theorem index_eq (count0 count1 : UInt32) (length : Nat)
    (count : count0.toNat + 2 ^ 32 * count1.toNat = 8 * length % 2 ^ 64) :
    ((count0 >>> 3) &&& 0x3f).toNat = length % 64 := by
  have shifted : (count0 >>> 3).toNat = count0.toNat / 8 := by
    rw [UInt32.toNat_shiftRight]
    exact Nat.shiftRight_eq_div_pow _ 3
  have below := count0.toNat_lt
  rw [UInt32.toNat_and, shifted]
  change count0.toNat / 8 &&& (2 ^ 6 - 1) = _
  rw [Nat.and_two_pow_sub_one_eq_mod]
  omega

/-- The two words count bits modulo 2^64. -/
theorem count_add (count0 count1 inputLen : UInt32) (length : Nat)
    (count : count0.toNat + 2 ^ 32 * count1.toNat = 8 * length % 2 ^ 64) :
    (count0 + inputLen <<< 3).toNat + 2 ^ 32 *
      ((if count0 + inputLen <<< 3 < inputLen <<< 3 then count1 + 1 else count1) +
        inputLen >>> 29).toNat = 8 * (length + inputLen.toNat) % 2 ^ 64 := by
  have low : (inputLen <<< 3).toNat = 8 * inputLen.toNat % 2 ^ 32 := by
    rw [UInt32.toNat_shiftLeft, Nat.mul_comm]
    exact congrArg (· % 2 ^ 32) (Nat.shiftLeft_eq _ 3)
  have high : (inputLen >>> 29).toNat = inputLen.toNat / 2 ^ 29 := by
    rw [UInt32.toNat_shiftRight]
    exact Nat.shiftRight_eq_div_pow _ 29
  have one : (1 : UInt32).toNat = 1 := rfl
  have below := count0.toNat_lt
  have inputBelow := inputLen.toNat_lt
  split
  next carry =>
    rw [UInt32.lt_iff_toNat_lt, UInt32.toNat_add, low] at carry
    rw [UInt32.toNat_add, UInt32.toNat_add, UInt32.toNat_add, low, high, one]
    omega
  next noCarry =>
    rw [UInt32.lt_iff_toNat_lt, UInt32.toNat_add, low] at noCarry
    rw [UInt32.toNat_add, UInt32.toNat_add, low, high]
    omega

theorem Reads.short {md5 : MD5} {text : List UInt8} (reads : Reads md5 text) (piece : List UInt8)
    (short : text.length % 64 + piece.length < 64) (count0 count1 : UInt32)
    (count : count0.toNat + 2 ^ 32 * count1.toNat = 8 * (text.length + piece.length) % 2 ^ 64) :
    Reads ⟨md5.state, count0, count1, store md5.buffer (text.length % 64) piece⟩
      (text ++ piece) := by
  have held : (text ++ piece).length % 64 = text.length % 64 + piece.length := by
    rw [List.length_append]
    omega
  refine ⟨?_, ?_⟩
  · change scheme.Holds initial (text ++ piece) (words md5.state) (slice (store _ _ piece) 0 _)
    rw [held, slice_store_extend]
    refine reads.holds.keep piece ?_
    rw [slice_length]
    exact short
  · rw [List.length_append]
    exact count

/-- A piece that fills the buffer: the loop goes on behind it, and what is left begins the
buffer anew. -/
theorem Reads.filled {md5 : MD5} {text : List UInt8} (reads : Reads md5 text)
    (input : Nat → UInt8) (inputLen : UInt32) (bound : inputLen.toNat + 64 ≤ 2 ^ 32)
    (partLen : UInt32) (part : partLen.toNat = 64 - text.length % 64)
    (filled : 64 - text.length % 64 ≤ inputLen.toNat) (count0 count1 : UInt32)
    (count : count0.toNat + 2 ^ 32 * count1.toNat =
      8 * (text.length + inputLen.toNat) % 2 ^ 64) :
    ∃ last final, transformLoop input inputLen (inputLen.toNat + 1) partLen
        (transform md5.state (store md5.buffer (text.length % 64)
          (slice input 0 (64 - text.length % 64)))) = some (last, final) ∧
      Reads ⟨final, count0, count1, store (store md5.buffer (text.length % 64)
          (slice input 0 (64 - text.length % 64))) 0
          (slice input last.toNat (inputLen - last).toNat)⟩
        (text ++ slice input 0 inputLen.toNat) := by
  let buffer := store md5.buffer (text.length % 64) (slice input 0 (64 - text.length % 64))
  have begun : text.length % 64 < 64 := Nat.mod_lt _ (by decide)
  have whole : slice buffer 0 64 =
      slice md5.buffer 0 (text.length % 64) ++ slice input 0 (64 - text.length % 64) := by
    have extended := slice_store_extend md5.buffer (text.length % 64)
      (slice input 0 (64 - text.length % 64))
    rw [slice_length, Nat.add_sub_cancel' begun.le] at extended
    exact extended
  have completed := reads.holds.complete (slice input 0 (64 - text.length % 64)) (by
    rw [slice_length, slice_length, Nat.add_sub_cancel' begun.le]
    rfl)
  rw [← whole, ← transform_compress] at completed
  obtain ⟨last, final, reached, after, inside, rest, divides, absorbed⟩ :=
    transformLoop_absorb input inputLen bound (inputLen.toNat + 1) partLen
      (transform md5.state buffer) (part ▸ filled) (by omega)
  have left : (inputLen - last).toNat = inputLen.toNat - last.toNat :=
    UInt32.toNat_sub_of_le _ _ (UInt32.le_iff_toNat_le.mpr inside)
  have fed := completed.blocks rfl (slice input partLen.toNat (last.toNat - partLen.toNat))
    (slice input last.toNat (inputLen.toNat - last.toNat))
    (by rw [slice_length]; exact divides) (by rw [slice_length]; exact rest)
  rw [← absorbed] at fed
  have parts : slice input 0 inputLen.toNat = slice input 0 (64 - text.length % 64) ++
      (slice input partLen.toNat (last.toNat - partLen.toNat) ++
        slice input last.toNat (inputLen.toNat - last.toNat)) := by
    have end_ : partLen.toNat + (last.toNat - partLen.toNat) = last.toNat := by omega
    have behind := slice_append input partLen.toNat (last.toNat - partLen.toNat)
      (inputLen.toNat - last.toNat)
    rw [end_] at behind
    have front := slice_append input 0 partLen.toNat
      ((last.toNat - partLen.toNat) + (inputLen.toNat - last.toNat))
    rw [Nat.zero_add, behind, part] at front
    rw [← part] at front ⊢
    refine Eq.trans ?_ front
    congr 1
    omega
  rw [List.append_assoc, ← parts] at fed
  have held : inputLen.toNat - last.toNat = (text ++ slice input 0 inputLen.toNat).length % 64 :=
    (slice_length input last.toNat _).symm.trans fed.length
  refine ⟨last, final, reached, ?_, ?_⟩
  · change scheme.Holds initial _ (words final) (slice (store buffer 0 _) 0 _)
    rw [left, ← held, slice_store_slice]
    exact fed
  · rw [List.length_append, slice_length]
    exact count

theorem free_eq (index : UInt32) (below : index.toNat < 64) :
    (64 - index).toNat = 64 - index.toNat := by
  rw [UInt32.toNat_sub]
  change (2 ^ 32 - index.toNat + 64) % 2 ^ 32 = _
  omega

theorem update_reads (md5 : MD5) (text : List UInt8) (reads : Reads md5 text)
    (input : Nat → UInt8) (inputLen : UInt32) (bound : inputLen.toNat + 64 ≤ 2 ^ 32) :
    ∃ next, md5.update input inputLen = some next ∧
      Reads next (text ++ slice input 0 inputLen.toNat) := by
  have index := index_eq md5.count0 md5.count1 text.length reads.count
  have count := count_add md5.count0 md5.count1 inputLen text.length reads.count
  have begun : text.length % 64 < 64 := Nat.mod_lt _ (by decide)
  have partLen := free_eq _ (index ▸ begun)
  rw [index] at partLen
  simp only [update, index]
  split
  next filled =>
    rw [ge_iff_le, UInt32.le_iff_toNat_le, partLen] at filled
    rw [partLen]
    obtain ⟨last, final, reached, next⟩ := reads.filled input inputLen bound _ partLen filled _ _
      count
    rw [reached]
    exact ⟨_, rfl, next⟩
  next less =>
    rw [ge_iff_le, UInt32.le_iff_toNat_le, partLen] at less
    refine ⟨_, rfl, reads.short _ ?_ _ _ ?_⟩
    · rw [slice_length]
      omega
    · rw [slice_length]
      exact count

/-! ### `Final` -/

theorem bits_eq (count0 count1 : UInt32) (length : Nat)
    (count : count0.toNat + 2 ^ 32 * count1.toNat = 8 * length % 2 ^ 64) :
    encodeWord count0 ++ encodeWord count1 = bytesOf 8 (8 * length) := by
  have below := count0.toNat_lt
  have low : (8 * length % 256 ^ 8) % 256 ^ 4 = count0.toNat := by omega
  have high : (8 * length % 256 ^ 8) / 256 ^ 4 = count1.toNat := by omega
  rw [encodeWord_eq, encodeWord_eq, ← bytesOf_mod 8, bytesOf_add 4 4, ← bytesOf_mod 4 (_ % _),
    low, high]

theorem padLen_eq (index : UInt32) (length : Nat) (same : index.toNat = length % 64) :
    (if index < 56 then 56 - index else 120 - index).toNat = zeros length + 1 := by
  have begun : length % 64 < 64 := Nat.mod_lt _ (by decide)
  split
  next less =>
    rw [UInt32.lt_iff_toNat_lt, same] at less
    change length % 64 < 56 at less
    have value : (56 - index).toNat = 56 - length % 64 := by
      rw [UInt32.toNat_sub, same]
      change (2 ^ 32 - length % 64 + 56) % 2 ^ 32 = _
      omega
    rw [value, zeros_eq length (55 - length % 64) (by unfold PadsTo; omega) (by omega)]
    omega
  next more =>
    rw [UInt32.lt_iff_toNat_lt, same] at more
    change ¬ length % 64 < 56 at more
    have value : (120 - index).toNat = 120 - length % 64 := by
      rw [UInt32.toNat_sub, same]
      change (2 ^ 32 - length % 64 + 120) % 2 ^ 32 = _
      omega
    rw [value, zeros_eq length (119 - length % 64) (by unfold PadsTo; omega) (by omega)]
    omega

theorem padding_slice (count : Nat) :
    slice padding 0 (count + 1) = 0x80 :: List.replicate count 0 := by
  rw [slice_head, List.eq_replicate_iff.mpr ⟨slice_length _ _ _, fun byte member => ?_⟩]
  · rfl
  · obtain ⟨index, _, same⟩ := List.mem_map.mp member
    rw [← same, padding, if_neg (by omega)]

theorem final_digest (md5 : MD5) (text : List UInt8) (reads : Reads md5 text) :
    md5.final = some (digest text, zeroized) := by
  have index := index_eq md5.count0 md5.count1 text.length reads.count
  have padLen := padLen_eq _ text.length index
  have least := zeros_lt text.length
  obtain ⟨padded, pads, readsPadded⟩ := update_reads md5 text reads padding _
    (by rw [padLen]; omega)
  obtain ⟨closed, closes, readsClosed⟩ := update_reads padded _ readsPadded
    (fun position => (encodeWord md5.count0 ++ encodeWord md5.count1).getD position 0) 8 (by decide)
  have bits : slice (fun position =>
      (encodeWord md5.count0 ++ encodeWord md5.count1).getD position 0) 0 (8 : UInt32).toNat =
        bytesOf 8 (8 * text.length) := bits_eq md5.count0 md5.count1 text.length reads.count
  have whole : text ++ slice padding 0 (zeros text.length + 1) ++ bytesOf 8 (8 * text.length) =
      pad text := by
    rw [padding_slice, pad, List.append_assoc text [0x80]]
    rfl
  rw [padLen, bits, whole] at readsClosed
  have absorbed := readsClosed.holds.done (pad_length text)
  rw [final]
  simp only [pads, closes, Option.bind_some, Option.map_some]
  rw [encode_words, absorbed]
  rfl

/-! ### Messages in pieces -/

theorem updates_reads (pieces : List Piece)
    (bounded : ∀ piece ∈ pieces, piece.inputLen.toNat + 64 ≤ 2 ^ 32) (md5 : MD5)
    (text : List UInt8) (reads : Reads md5 text) :
    ∃ next, md5.updates pieces = some next ∧ Reads next (text ++ pieces.flatMap Piece.bytes) := by
  induction pieces generalizing md5 text with
  | nil =>
      refine ⟨md5, rfl, ?_⟩
      rw [List.flatMap_nil, List.append_nil]
      exact reads
  | cons piece rest ih =>
      have own := bounded piece List.mem_cons_self
      obtain ⟨between, updated, readsBetween⟩ :=
        update_reads md5 text reads piece.input piece.inputLen own
      obtain ⟨next, updatedRest, readsNext⟩ := ih
        (fun other member => bounded other (List.mem_cons_of_mem piece member)) between _
        readsBetween
      refine ⟨next, ?_, ?_⟩
      · rw [updates, List.foldlM_cons, updated]
        exact updatedRest
      · rw [List.flatMap_cons, ← List.append_assoc]
        exact readsNext

/-- However a message is cut into pieces, and whatever the buffer held at first, `Final` gives
the digest of the whole message and leaves nothing of it behind. -/
theorem final_pieces (buffer : Nat → UInt8) (pieces : List Piece)
    (bounded : ∀ piece ∈ pieces, piece.inputLen.toNat + 64 ≤ 2 ^ 32) :
    ((construct buffer).updates pieces).bind final =
      some (digest (pieces.flatMap Piece.bytes), zeroized) := by
  obtain ⟨md5, updated, reads⟩ :=
    updates_reads pieces bounded (construct buffer) [] (construct_reads buffer)
  rw [updated]
  exact final_digest md5 _ reads

theorem final_pieces_abc :
    ((construct fun _ => 0xaa).updates
        [⟨fun position => [0x61].getD position 0, 1⟩,
          ⟨fun position => [0x62, 0x63].getD position 0, 2⟩]).bind final =
      some (digest [0x61, 0x62, 0x63], zeroized) :=
  final_pieces (fun _ => 0xaa) _ (List.forall_mem_cons.mpr ⟨by decide,
    List.forall_mem_cons.mpr ⟨by decide, List.forall_mem_nil _⟩⟩)

example :
    (((construct fun _ => 0xaa).updates
        [⟨fun position => [0x61].getD position 0, 1⟩,
          ⟨fun position => [0x62, 0x63].getD position 0, 2⟩]).bind final).map Prod.fst =
      some [0x90, 0x01, 0x50, 0x98, 0x3c, 0xd2, 0x4f, 0xb0, 0xd6, 0x96, 0x3f, 0x7d, 0x28, 0xe1,
        0x7f, 0x72] := by
  decide +kernel

end MD5

end AuthServer
