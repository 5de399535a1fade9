/-
The key schedule of Blowfish.

`InitializeBlowfish` fills the arrays of the ciphers once, when the program starts;
`InitializeBlowfishLocal` does the same to the arrays it is given.  The tables of the
source are parameters, since what is proved does not depend on the words in them.
-/

import AuthServer.Lib.CFormat
import AuthServer.Lib.Feedback
import AuthServer.PacketCiphers

set_option autoImplicit false

namespace AuthServer

open Feedback

/-- `bf_PSource` and `bf_SSource`. -/
structure BlowfishSource where
  bfPSource : Fin 18 → UInt32
  bfSSource : Fin 4 → UInt8 → UInt32

/-- `sizeof(blowFishKey)` counts the zero behind the text. -/
def blowFishKey : List UInt8 := CFormat.ascii "[;'.]94-31==-%&@!^+]" ++ [0]

namespace BlowfishMatrix

def keyWord (key : Nat → UInt8) (keybytes j : Nat) : UInt32 :=
  word (key j) (key ((j + 1) % keybytes)) (key ((j + 2) % keybytes)) (key ((j + 3) % keybytes))

def xorKeyTurn (key : Nat → UInt8) (keybytes : Nat) (state : (Fin 18 → UInt32) × Nat)
    (i : Fin 18) : (Fin 18 → UInt32) × Nat :=
  (Function.update state.1 i (state.1 i ^^^ keyWord key keybytes state.2),
    (state.2 + 4) % keybytes)

def expandPTurn (state : BlowfishMatrix × (UInt32 × UInt32)) (turn : Fin 9) :
    BlowfishMatrix × (UInt32 × UInt32) :=
  let data := state.1.encipher state.2.1 state.2.2
  ({ state.1 with
    p := Function.update (Function.update state.1.p ⟨2 * turn.val, by omega⟩ data.1)
      ⟨2 * turn.val + 1, by omega⟩ data.2 }, data)

def expandSTurn (i : Fin 4) (state : BlowfishMatrix × (UInt32 × UInt32)) (turn : Fin 128) :
    BlowfishMatrix × (UInt32 × UInt32) :=
  let data := state.1.encipher state.2.1 state.2.2
  let row := Function.update (Function.update (state.1.s i) (UInt8.ofNat (2 * turn.val)) data.1)
    (UInt8.ofNat (2 * turn.val + 1)) data.2
  ({ state.1 with s := Function.update state.1.s i row }, data)

def initializeBlowfish (source : BlowfishSource) (key : Nat → UInt8) (keybytes : Nat) :
    BlowfishMatrix :=
  let keyed := (List.finRange 18).foldl (xorKeyTurn key keybytes) (source.bfPSource, 0)
  let expandedP := (List.finRange 9).foldl expandPTurn (⟨source.bfSSource, keyed.1⟩, (0, 0))
  ((List.finRange 4).foldl (fun state i => (List.finRange 128).foldl (expandSTurn i) state)
    expandedP).1

def ofTable (table : Nat → UInt32) : BlowfishMatrix where
  s i byte := table (18 + 256 * i.val + byte.toNat)
  p i := table i.val

/-- The tables of the source with the key mixed in, word by word: the bytes of the key are
taken in order, highest first, and over again from the start when they run out. -/
def keyedTable (source : BlowfishSource) (key : Nat → UInt8) (keybytes place : Nat) : UInt32 :=
  if within : place < 18 then
    source.bfPSource ⟨place, within⟩ ^^^
      word (key (4 * place % keybytes)) (key ((4 * place + 1) % keybytes))
        (key ((4 * place + 2) % keybytes)) (key ((4 * place + 3) % keybytes))
  else
    source.bfSSource ⟨(place - 18) / 256 % 4, Nat.mod_lt _ (by decide)⟩
      (UInt8.ofNat ((place - 18) % 256))

/-! ### The loops -/

theorem foldl_finRange_reaches {State : Type} (turns : Nat) (turn : State → Fin turns → State)
    (reached : Nat → State)
    (steps : ∀ i : Fin turns, turn (reached i.val) i = reached (i.val + 1)) :
    (List.finRange turns).foldl turn (reached 0) = reached turns := by
  induction turns with
  | zero => rfl
  | succ turns ih =>
      rw [List.finRange_succ_last, List.foldl_append, List.foldl_map]
      rw [ih (fun state i => turn state i.castSucc) fun i => steps i.castSucc]
      exact steps (Fin.last turns)

theorem keyWord_mod (key : Nat → UInt8) (keybytes j : Nat) :
    keyWord key keybytes (j % keybytes) =
      word (key (j % keybytes)) (key ((j + 1) % keybytes)) (key ((j + 2) % keybytes))
        (key ((j + 3) % keybytes)) := by
  rw [keyWord, Nat.mod_add_mod, Nat.mod_add_mod, Nat.mod_add_mod]

def keyedUpTo (source : BlowfishSource) (key : Nat → UInt8) (keybytes turns : Nat)
    (i : Fin 18) : UInt32 :=
  if i.val < turns then keyedTable source key keybytes i.val else source.bfPSource i

theorem xorKeyTurn_keyedUpTo (source : BlowfishSource) (key : Nat → UInt8) (keybytes : Nat)
    (i : Fin 18) :
    xorKeyTurn key keybytes (keyedUpTo source key keybytes i.val, 4 * i.val % keybytes) i =
      (keyedUpTo source key keybytes (i.val + 1), 4 * (i.val + 1) % keybytes) := by
  refine Prod.ext (funext fun other => ?_) ?_
  · rw [xorKeyTurn]
    dsimp only
    by_cases same : other = i
    · rw [same, Function.update_self, keyedUpTo, keyedUpTo, if_neg (Nat.lt_irrefl _),
        if_pos (Nat.lt_succ_self _), keyWord_mod, keyedTable, dif_pos i.isLt]
    · have apart : other.val ≠ i.val := fun equal => same (Fin.ext equal)
      rw [Function.update_of_ne same, keyedUpTo, keyedUpTo]
      by_cases before : other.val < i.val
      · rw [if_pos before, if_pos (Nat.lt_succ_of_lt before)]
      · have after : ¬ other.val < i.val + 1 := by omega
        rw [if_neg before, if_neg after]
  · rw [xorKeyTurn]
    dsimp only
    rw [Nat.mod_add_mod, Nat.mul_succ]

theorem xorKey_eq (source : BlowfishSource) (key : Nat → UInt8) (keybytes : Nat) :
    ((List.finRange 18).foldl (xorKeyTurn key keybytes) (source.bfPSource, 0)).1 =
      fun i => keyedTable source key keybytes i.val := by
  have reached := foldl_finRange_reaches 18 (xorKeyTurn key keybytes)
    (fun turns => (keyedUpTo source key keybytes turns, 4 * turns % keybytes))
    (xorKeyTurn_keyedUpTo source key keybytes)
  have start : (source.bfPSource, 0) =
      (keyedUpTo source key keybytes 0, 4 * 0 % keybytes) := by
    rw [Nat.mul_zero, Nat.zero_mod]
    exact congrArg (fun p => (p, 0)) (funext fun i => (if_neg (Nat.not_lt_zero _)).symm)
  rw [start, reached]
  exact funext fun i => if_pos i.isLt

theorem ofTable_keyedTable (source : BlowfishSource) (key : Nat → UInt8) (keybytes : Nat) :
    ofTable (keyedTable source key keybytes) =
      ⟨source.bfSSource, fun i => keyedTable source key keybytes i.val⟩ := by
  have rows : (fun (i : Fin 4) (byte : UInt8) =>
      keyedTable source key keybytes (18 + 256 * i.val + byte.toNat)) = source.bfSSource := by
    funext i byte
    have small := byte.toNat_lt
    have outside : ¬ 18 + 256 * i.val + byte.toNat < 18 := by omega
    have row : (18 + 256 * i.val + byte.toNat - 18) / 256 = i.val := by omega
    have column : (18 + 256 * i.val + byte.toNat - 18) % 256 = byte.toNat := by omega
    rw [keyedTable, dif_neg outside, column, UInt8.ofNat_toNat]
    exact congrArg (fun row => source.bfSSource row byte)
      (Fin.ext ((congrArg (· % 4) row).trans (Nat.mod_eq_of_lt i.isLt)))
  rw [ofTable, rows]

def cipher (table : Nat → UInt32) (block : UInt32 × UInt32) : UInt32 × UInt32 :=
  (ofTable table).encipher block.1 block.2

def fed (table : Nat → UInt32) (turns : Nat) : BlowfishMatrix × (UInt32 × UInt32) :=
  (ofTable (feed cipher table (0, 0) turns).1, (feed cipher table (0, 0) turns).2)

theorem ofTable_write_p (table : Nat → UInt32) (turn : Fin 9) (block : UInt32 × UInt32) :
    ofTable (write table turn.val block) =
      { ofTable table with
        p := Function.update (Function.update (ofTable table).p ⟨2 * turn.val, by omega⟩ block.1)
          ⟨2 * turn.val + 1, by omega⟩ block.2 } := by
  have p : (ofTable (write table turn.val block)).p =
      Function.update (Function.update (ofTable table).p ⟨2 * turn.val, by omega⟩ block.1)
        ⟨2 * turn.val + 1, by omega⟩ block.2 := by
    funext i
    change write table turn.val block i.val = _
    rw [write]
    by_cases odd : i = ⟨2 * turn.val + 1, by omega⟩
    · rw [odd, Function.update_self, Function.update_self]
    · have notOdd : i.val ≠ 2 * turn.val + 1 := fun equal => odd (Fin.ext equal)
      rw [Function.update_of_ne odd, Function.update_of_ne notOdd]
      by_cases even : i = ⟨2 * turn.val, by omega⟩
      · rw [even, Function.update_self, Function.update_self]
      · have notEven : i.val ≠ 2 * turn.val := fun equal => even (Fin.ext equal)
        rw [Function.update_of_ne even, Function.update_of_ne notEven]
        rfl
  have s : (ofTable (write table turn.val block)).s = (ofTable table).s := by
    funext i byte
    have elsewhere : ¬ (18 + 256 * i.val + byte.toNat) / 2 = turn.val := by omega
    change write table turn.val block (18 + 256 * i.val + byte.toNat) = _
    rw [write_apply, if_neg elsewhere]
    rfl
  exact congrArg₂ BlowfishMatrix.mk s p

theorem ofTable_write_s (table : Nat → UInt32) (i : Fin 4) (turn : Fin 128)
    (block : UInt32 × UInt32) :
    ofTable (write table (9 + 128 * i.val + turn.val) block) =
      { ofTable table with
        s := Function.update (ofTable table).s i
          (Function.update
            (Function.update ((ofTable table).s i) (UInt8.ofNat (2 * turn.val)) block.1)
            (UInt8.ofNat (2 * turn.val + 1)) block.2) } := by
  have p : (ofTable (write table (9 + 128 * i.val + turn.val) block)).p = (ofTable table).p := by
    funext j
    have elsewhere : ¬ j.val / 2 = 9 + 128 * i.val + turn.val := by omega
    change write table (9 + 128 * i.val + turn.val) block j.val = _
    rw [write_apply, if_neg elsewhere]
    rfl
  have even : (UInt8.ofNat (2 * turn.val)).toNat = 2 * turn.val :=
    UInt8.toNat_ofNat_of_lt' (show 2 * turn.val < 256 by omega)
  have odd : (UInt8.ofNat (2 * turn.val + 1)).toNat = 2 * turn.val + 1 :=
    UInt8.toNat_ofNat_of_lt' (show 2 * turn.val + 1 < 256 by omega)
  have s : (ofTable (write table (9 + 128 * i.val + turn.val) block)).s =
      Function.update (ofTable table).s i
        (Function.update
          (Function.update ((ofTable table).s i) (UInt8.ofNat (2 * turn.val)) block.1)
          (UInt8.ofNat (2 * turn.val + 1)) block.2) := by
    funext row byte
    have small := byte.toNat_lt
    change write table (9 + 128 * i.val + turn.val) block (18 + 256 * row.val + byte.toNat) = _
    by_cases here : row = i
    · subst here
      rw [Function.update_self, write]
      by_cases isOdd : byte = UInt8.ofNat (2 * turn.val + 1)
      · have place : 18 + 256 * row.val + byte.toNat =
            2 * (9 + 128 * row.val + turn.val) + 1 := by
          rw [isOdd, odd]
          omega
        rw [place, isOdd, Function.update_self, Function.update_self]
      · have notOdd : 18 + 256 * row.val + byte.toNat ≠
            2 * (9 + 128 * row.val + turn.val) + 1 := by
          intro equal
          have same : byte.toNat = 2 * turn.val + 1 := by omega
          exact isOdd (UInt8.toNat_inj.mp (same.trans odd.symm))
        rw [Function.update_of_ne notOdd, Function.update_of_ne isOdd]
        by_cases isEven : byte = UInt8.ofNat (2 * turn.val)
        · have place : 18 + 256 * row.val + byte.toNat = 2 * (9 + 128 * row.val + turn.val) := by
            rw [isEven, even]
            omega
          rw [place, isEven, Function.update_self, Function.update_self]
        · have notEven : 18 + 256 * row.val + byte.toNat ≠ 2 * (9 + 128 * row.val + turn.val) := by
            intro equal
            have same : byte.toNat = 2 * turn.val := by omega
            exact isEven (UInt8.toNat_inj.mp (same.trans even.symm))
          rw [Function.update_of_ne notEven, Function.update_of_ne isEven]
          rfl
    · have apart : row.val ≠ i.val := fun equal => here (Fin.ext equal)
      have elsewhere : ¬ (18 + 256 * row.val + byte.toNat) / 2 = 9 + 128 * i.val + turn.val := by
        omega
      rw [Function.update_of_ne here, write_apply, if_neg elsewhere]
      rfl
  exact congrArg₂ BlowfishMatrix.mk s p

theorem expandPTurn_fed (table : Nat → UInt32) (turn : Fin 9) :
    expandPTurn (fed table turn.val) turn = fed table (turn.val + 1) :=
  Prod.ext (ofTable_write_p _ turn _).symm rfl

theorem expandSTurn_fed (table : Nat → UInt32) (i : Fin 4) (turn : Fin 128) :
    expandSTurn i (fed table (9 + 128 * i.val + turn.val)) turn =
      fed table (9 + 128 * i.val + (turn.val + 1)) :=
  Prod.ext (ofTable_write_s _ i turn _).symm rfl

/-- The three loops feed the table with the key in it, 521 blocks of two words. -/
theorem initializeBlowfish_fed (source : BlowfishSource) (key : Nat → UInt8) (keybytes : Nat) :
    initializeBlowfish source key keybytes = (fed (keyedTable source key keybytes) 521).1 := by
  let table := keyedTable source key keybytes
  have p : (List.finRange 9).foldl expandPTurn (fed table 0) = fed table 9 :=
    foldl_finRange_reaches 9 expandPTurn (fed table) (expandPTurn_fed table)
  have row (i : Fin 4) : (List.finRange 128).foldl (expandSTurn i) (fed table (9 + 128 * i.val)) =
      fed table (9 + 128 * (i.val + 1)) :=
    foldl_finRange_reaches 128 (expandSTurn i) (fun turns => fed table (9 + 128 * i.val + turns))
      (expandSTurn_fed table i)
  have rows : (List.finRange 4).foldl
      (fun state i => (List.finRange 128).foldl (expandSTurn i) state) (fed table 9) =
      fed table 521 :=
    foldl_finRange_reaches 4 _ (fun turns => fed table (9 + 128 * turns)) row
  have start : (⟨source.bfSSource, fun i => table i.val⟩, (0, 0)) = fed table 0 :=
    congrArg (fun matrix => (matrix, _)) (ofTable_keyedTable source key keybytes).symm
  rw [initializeBlowfish, xorKey_eq]
  rw [start, p, rows]

/-! ### Results -/

/-- The arrays hold nothing but cipher output: block after block, each one the block in
front enciphered while the words of the blocks so far stand in front of the keyed tables.
The division by the length of the key is why there must be a key. -/
theorem initializeBlowfish_chained (source : BlowfishSource) (key : Nat → UInt8) (keybytes : Nat)
    (_nonempty : 0 < keybytes) :
    ∃ blocks : Nat → UInt32 × UInt32,
      blocks 0 = (0, 0) ∧
      (∀ turn < 521, blocks (turn + 1) =
        (ofTable (overlay (keyedTable source key keybytes) blocks turn)).encipher
          (blocks turn).1 (blocks turn).2) ∧
      (∀ i, (initializeBlowfish source key keybytes).p i = half (blocks (i.val / 2 + 1)) i.val) ∧
      ∀ i byte, (initializeBlowfish source key keybytes).s i byte =
        half (blocks (9 + 128 * i.val + byte.toNat / 2 + 1)) byte.toNat := by
  let table := keyedTable source key keybytes
  let blocks (turn : Nat) := (feed cipher table (0, 0) turn).2
  have whole := initializeBlowfish_fed source key keybytes
  rw [fed, feed_table] at whole
  refine ⟨blocks, rfl, fun turn _ => feed_block cipher table (0, 0) turn, fun i => ?_,
    fun i byte => ?_⟩
  · have within : i.val < 2 * 521 := by omega
    rw [whole]
    exact if_pos within
  · have small := byte.toNat_lt
    have within : 18 + 256 * i.val + byte.toNat < 2 * 521 := by omega
    have block : (18 + 256 * i.val + byte.toNat) / 2 = 9 + 128 * i.val + byte.toNat / 2 := by omega
    have side : (18 + 256 * i.val + byte.toNat) % 2 = byte.toNat % 2 := by omega
    rw [whole]
    refine (if_pos within).trans ?_
    rw [block, half, half, side]

theorem initializeBlowfish_chained_server :
    ∃ blocks : Nat → UInt32 × UInt32,
      blocks 0 = (0, 0) ∧
      (initializeBlowfish ⟨fun _ => 0, fun _ _ => 0⟩ (blowFishKey.getD · 0) 21).p 17 =
        (blocks 9).2 := by
  obtain ⟨blocks, first, _, p, _⟩ := initializeBlowfish_chained ⟨fun _ => 0, fun _ _ => 0⟩
    (blowFishKey.getD · 0) 21 (by decide)
  exact ⟨blocks, first, p 17⟩

/-- The key goes into the tables by its first 72 bytes, run through in a circle. -/
theorem keyedTable_eq_iff (source : BlowfishSource) (key other : Nat → UInt8)
    (keybytes otherbytes : Nat) :
    keyedTable source key keybytes = keyedTable source other otherbytes ↔
      ∀ i < 72, key (i % keybytes) = other (i % otherbytes) := by
  constructor
  · intro same i within
    have place : i / 4 < 18 := by omega
    have split_ : i = 4 * (i / 4) + i % 4 := by omega
    have words := congrFun same (i / 4)
    rw [keyedTable, keyedTable, dif_pos place, dif_pos place, UInt32.xor_right_inj] at words
    obtain ⟨first, second, third, fourth⟩ := word_injective _ _ _ _ _ _ _ _ words
    rw [split_]
    have side : i % 4 = 0 ∨ i % 4 = 1 ∨ i % 4 = 2 ∨ i % 4 = 3 := by omega
    rcases side with zero | one | two | three
    · rw [zero]
      exact first
    · rw [one]
      exact second
    · rw [two]
      exact third
    · rw [three]
      exact fourth
  · intro agree
    funext place
    rw [keyedTable, keyedTable]
    by_cases within : place < 18
    · rw [dif_pos within, dif_pos within, agree (4 * place) (by omega),
        agree (4 * place + 1) (by omega), agree (4 * place + 2) (by omega),
        agree (4 * place + 3) (by omega)]
    · rw [dif_neg within, dif_neg within]

/-- Keys of any lengths that agree on 72 bytes, each run through in a circle, are the same
key: a key and the key twice over, or a key of more than 72 bytes and its front. -/
theorem initializeBlowfish_cyclic (source : BlowfishSource) (key other : Nat → UInt8)
    (keybytes otherbytes : Nat) (_keyed : 0 < keybytes) (_otherKeyed : 0 < otherbytes)
    (agree : ∀ i < 72, key (i % keybytes) = other (i % otherbytes)) :
    initializeBlowfish source key keybytes = initializeBlowfish source other otherbytes := by
  have tables := (keyedTable_eq_iff source key other keybytes otherbytes).mpr agree
  rw [initializeBlowfish_fed, initializeBlowfish_fed, tables]

theorem initializeBlowfish_cyclic_twice :
    initializeBlowfish ⟨fun _ => 0, fun _ _ => 0⟩ (blowFishKey.getD · 0) 21 =
      initializeBlowfish ⟨fun _ => 0, fun _ _ => 0⟩ ((blowFishKey ++ blowFishKey).getD · 0) 42 :=
  initializeBlowfish_cyclic _ _ _ 21 42 (by decide) (by decide) (by decide)

end BlowfishMatrix

end AuthServer
