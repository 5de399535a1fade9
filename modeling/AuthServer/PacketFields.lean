/-
What `Assemble` makes of any format.

The bytes of each field are given by the values of its arguments, without the
cursor and its checks, and those of a format are the bytes of its fields one
behind the other.
-/

import AuthServer.PacketReader

set_option autoImplicit false

namespace AuthServer

open LinearMemory

def littleEndian (count value : Nat) : List UInt8 :=
  (List.range count).map fun index => UInt8.ofNat (value / 256 ^ index)

def letters : List Char := ['S', 's', 'b', 'c', 'h', 'd']

/-- A character of the format, the arguments it stands for, and their bytes. -/
inductive FieldBytes : Char → List Arg → List UInt8 → Prop where
  | wide (wp : CString UInt16) :
      FieldBytes 'S' [.wide (some wp)]
        ((wp.chars ++ [0]).flatMap fun (unit : UInt16) => littleEndian 2 unit.toNat)
  | noWide : FieldBytes 'S' [.wide none] [0, 0]
  | text (p : CString UInt8) : FieldBytes 's' [.text (some p)] (p.chars ++ [0])
  | noText : FieldBytes 's' [.text none] [0]
  | block (len : Int32) (p : List UInt8) (nonnegative : 0 ≤ len.toInt)
      (there : len.toInt ≤ p.length) :
      FieldBytes 'b' [.int len, .block p] (p.take len.toInt.toNat)
  | char (i : Int32) : FieldBytes 'c' [.int i] (littleEndian 1 i.toUInt32.toNat)
  | short (i : Int32) : FieldBytes 'h' [.int i] (littleEndian 2 i.toUInt32.toNat)
  | int (i : Int32) : FieldBytes 'd' [.int i] (littleEndian 4 i.toUInt32.toNat)
  | other (t : Char) (unknown : t ∉ letters) : FieldBytes t [] []

/-- Arguments of the right kinds for a format, and the bytes of all fields;
arguments behind the last field are not looked at. -/
inductive FormatBytes : List Char → List Arg → List UInt8 → Prop where
  | done (args : List Arg) : FormatBytes [] args []
  | next (t : Char) (own : List Arg) (bytes : List UInt8) (format : List Char)
      (args : List Arg) (more : List UInt8) (field : FieldBytes t own bytes)
      (rest : FormatBytes format args more) :
      FormatBytes (t :: format) (own ++ args) (bytes ++ more)

theorem shiftedChar_eq (i shift : Int32) (count : Nat)
    (shifts : (shift.toBitVec.smod 32).toNat = count) (within : count + 8 ≤ 32) :
    shiftedChar i shift = UInt8.ofNat (i.toUInt32.toNat / 2 ^ count) := by
  apply UInt8.toNat_inj.mp
  rw [PacketReader.shiftedChar_toNat i shift count shifts within, UInt8.toNat_ofNat']

theorem wideUnit_eq (unit : UInt16) :
    [unit.toUInt8, (unit >>> 8).toUInt8] = littleEndian 2 unit.toNat := by
  have low : unit.toUInt8 = UInt8.ofNat (unit.toNat / 1) := by
    apply UInt8.toNat_inj.mp
    rw [UInt8.toNat_ofNat', UInt16.toNat_toUInt8, Nat.div_one]
  have high : (unit >>> 8).toUInt8 = UInt8.ofNat (unit.toNat / 256) := by
    apply UInt8.toNat_inj.mp
    rw [UInt8.toNat_ofNat', UInt16.toNat_toUInt8, UInt16.toNat_shiftRight]
    exact congrArg (· % 2 ^ 8) (Nat.shiftRight_eq_div_pow unit.toNat 8)
  rw [low, high]
  rfl

theorem wideBytes_eq (wp : CString UInt16) :
    wideBytes wp = (wp.chars ++ [0]).flatMap fun (unit : UInt16) => littleEndian 2 unit.toNat := by
  unfold wideBytes
  exact congrArg (fun encode => (wp.chars ++ [0]).flatMap encode) (funext wideUnit_eq)

theorem take_other (t : Char) (args : List Arg) (unknown : t ∉ letters) :
    take t args = .skipped := by
  unfold take
  split
  all_goals
    first
      | rfl
      | exact absurd (by decide) unknown

theorem encoding_next (t : Char) (own : List Arg) (bytes : List UInt8) (format : List Char)
    (args : List Arg) (field : FieldBytes t own bytes) :
    encoding (t :: format) (own ++ args) =
      (encoding format args).map fun more => bytes ++ more := by
  have shifted := fun (i shift : Int32) (count : Nat) => shiftedChar_eq i shift count
  cases field with
  | wide wp =>
      rw [← wideBytes_eq]
      rfl
  | noWide => rfl
  | text p => rfl
  | noText => rfl
  | block len p nonnegative there =>
      rw [List.cons_append, List.cons_append, List.nil_append, encoding]
      simp only [take, takeBlock, if_pos (And.intro nonnegative there)]
  | char i =>
      have first := shifted i 0 0 rfl (Nat.le_of_ble_eq_true rfl)
      change (encoding format args).map (fun more => [shiftedChar i 0] ++ more) = _
      rw [first]
      rfl
  | short i =>
      have first := shifted i 0 0 rfl (Nat.le_of_ble_eq_true rfl)
      have second := shifted i 8 8 rfl (Nat.le_of_ble_eq_true rfl)
      change (encoding format args).map (fun more =>
        [shiftedChar i 0, shiftedChar i 8] ++ more) = _
      rw [first, second]
      rfl
  | int i =>
      have first := shifted i 0 0 rfl (Nat.le_of_ble_eq_true rfl)
      have second := shifted i 8 8 rfl (Nat.le_of_ble_eq_true rfl)
      have third := shifted i 16 16 rfl (Nat.le_of_ble_eq_true rfl)
      have fourth := shifted i 24 24 rfl (Nat.le_of_ble_eq_true rfl)
      change (encoding format args).map (fun more =>
        [shiftedChar i 0, shiftedChar i 8, shiftedChar i 16, shiftedChar i 24] ++ more) = _
      rw [first, second, third, fourth]
      rfl
  | other _ unknown =>
      rw [List.nil_append, encoding, take_other t args unknown]
      simp only [List.nil_append, Option.map_id']

theorem encoding_of_formatBytes (format : List Char) (args : List Arg) (bytes : List UInt8)
    (whole : FormatBytes format args bytes) : encoding format args = some bytes := by
  induction whole with
  | done args => rfl
  | next t own bytes format args more field rest ih =>
      rw [encoding_next t own bytes format args field, ih]
      rfl

structure Assembled (cells written : Nat → UInt8) (start bufLen : Nat) (bytes : List UInt8)
    (n : Nat) : Prop where
  returned : n = if bytes.length ≤ bufLen then bytes.length else 0
  filled : bytes.length ≤ bufLen → slice written start bytes.length = bytes
  exactly : bytes.length ≤ bufLen → ∀ position, start + bytes.length ≤ position →
    written position = cells position
  within : ∀ position, position < start ∨ start + bufLen ≤ position →
    written position = cells position

theorem assemble_formatBytes (format : List Char) (args : List Arg) (bytes : List UInt8)
    (whole : FormatBytes format args bytes) (cells : Nat → UInt8) (start bufLen : Nat) :
    ∃ written n, assemble cells start bufLen format args = some (written, n) ∧
      Assembled cells written start bufLen bytes n := by
  have encoded := encoding_of_formatBytes format args bytes whole
  obtain ⟨_, inside, all⟩ := fitted_spec bufLen format args bytes encoded
  refine ⟨_, _, assemble_fitted cells start bufLen format args bytes encoded, ?_⟩
  constructor
  · rfl
  · intro room
    rw [all room]
    exact slice_store_same cells start bytes
  · intro room position behind
    rw [all room]
    exact store_above cells start position bytes behind
  · intro position outside
    rcases outside with below | above
    · exact store_below cells start position _ below
    · exact store_above cells start position _
        (Nat.le_trans (Nat.add_le_add_left inside start) above)

theorem small_formatBytes :
    FormatBytes ['s', ' ', 'b', 'h'] [.text none, .int 2, .block [7, 8, 9], .int (-2)]
      [0, 7, 8, 254, 255] :=
  .next 's' [.text none] [0] _ _ [7, 8, 254, 255] .noText
    (.next ' ' [] [] _ _ [7, 8, 254, 255] (.other ' ' (by decide))
      (.next 'b' [.int 2, .block [7, 8, 9]] [7, 8] _ _ [254, 255]
        (.block 2 [7, 8, 9] (by decide) (by decide))
        (.next 'h' [.int (-2)] [254, 255] [] [] [] (.short (-2)) (.done []))))

theorem small_format_assembled :
    ∃ written n, assemble (fun _ => 9) 2 4 ['s', ' ', 'b', 'h']
        [.text none, .int 2, .block [7, 8, 9], .int (-2)] = some (written, n) ∧
      Assembled (fun _ => 9) written 2 4 [0, 7, 8, 254, 255] n :=
  assemble_formatBytes _ _ _ small_formatBytes (fun _ => 9) 2 4

end AuthServer
