/-
Reading the fields of a packet, and that reading undoes `Assemble`.

The readers of util.h take a value from where `packet` points and move the
pointer behind it.  Strings are copied by `LNStrNCpy`, which stops at the zero
of the source or after as many characters as its length allows, and answers by
how much the pointer moves.
-/

import AuthServer.Assemble
import AuthServer.PacketCiphers

set_option autoImplicit false

namespace AuthServer

open LinearMemory

namespace PacketReader

def getCharFromPacket (cells : Nat → UInt8) (packet : Nat) : Int8 × Nat :=
  ((cells packet).toInt8, packet + 1)

def getShortFromPacket (cells : Nat → UInt8) (packet : Nat) : Int16 × Nat :=
  (((cells packet).toUInt16 ||| (cells (packet + 1)).toUInt16 <<< 8).toInt16, packet + 2)

def getIntFromPacket (cells : Nat → UInt8) (packet : Nat) : Int32 × Nat :=
  ((loadWord cells packet).toInt32, packet + 4)

def lnStrNCpyLoop (len : Int) (source : Nat → UInt8) (cells : Nat → UInt8)
    (dst src copyLen : Nat) : (Nat → UInt8) × Nat :=
  if source src = 0 then (store cells dst [0], copyLen)
  else
    let copied := store cells dst [source src]
    if ((copyLen + 1 : Nat) : Int) > len then (store copied dst [0], copyLen + 1)
    else lnStrNCpyLoop len source copied (dst + 1) (src + 1) (copyLen + 1)
termination_by (len - copyLen).toNat
decreasing_by omega

def lnStrNCpy (cells : Nat → UInt8) (source : Nat → UInt8) (src : Nat) (len : Int) :
    (Nat → UInt8) × Nat :=
  lnStrNCpyLoop len source cells 0 src 1

def getStrFromPacket (cells : Nat → UInt8) (packet : Nat) (dstLen : Int)
    (dst : Nat → UInt8) : (Nat → UInt8) × Nat :=
  let copied := lnStrNCpy dst cells packet dstLen
  (copied.1, packet + copied.2)

/-! ### One field on both sides -/

/-- A field of a packet: the argument of `Assemble`, and for a string and a block
where the reader puts it or how much it copies. -/
inductive Field where
  | char (i : Int32)
  | short (i : Int32)
  | int (i : Int32)
  | str (p : CString UInt8) (dst : Nat → UInt8) (dstLen : Int)
      (larger : (p.chars.length : Int) < dstLen)
  | block (len : Int32) (p : List UInt8) (there : 0 ≤ len.toInt ∧ len.toInt ≤ p.length)

inductive Value where
  | char (c : Int8)
  | short (h : Int16)
  | int (d : Int32)
  | str (dst : Nat → UInt8)
  | block (bytes : List UInt8)

namespace Field

def letter : Field → Char
  | .char _ => 'c'
  | .short _ => 'h'
  | .int _ => 'd'
  | .str .. => 's'
  | .block .. => 'b'

def args : Field → List Arg
  | .char i => [.int i]
  | .short i => [.int i]
  | .int i => [.int i]
  | .str p .. => [.text (some p)]
  | .block len p _ => [.int len, .block p]

def read (cells : Nat → UInt8) (packet : Nat) : Field → Value × Nat
  | .char _ => (getCharFromPacket cells packet).map .char id
  | .short _ => (getShortFromPacket cells packet).map .short id
  | .int _ => (getIntFromPacket cells packet).map .int id
  | .str _ dst dstLen _ => (getStrFromPacket cells packet dstLen dst).map .str id
  | .block len .. => (.block (slice cells packet len.toInt.toNat), packet + len.toInt.toNat)

/-- The value read is the argument given, narrowed to the width of its letter. -/
def Returns : Field → Value → Prop
  | .char i, .char c => c = i.toInt8
  | .short i, .short h => h = i.toInt16
  | .int i, .int d => d = i
  | .str p .., .str dst => slice dst 0 (p.chars.length + 1) = p.chars ++ [0]
  | .block len p _, .block bytes => bytes = p.take len.toInt.toNat
  | _, _ => False

def bytes : Field → List UInt8
  | .char i => [shiftedChar i 0]
  | .short i => [shiftedChar i 0, shiftedChar i 8]
  | .int i => [shiftedChar i 0, shiftedChar i 8, shiftedChar i 16, shiftedChar i 24]
  | .str p .. => p.chars ++ [0]
  | .block len p _ => p.take len.toInt.toNat

end Field

def readAll (cells : Nat → UInt8) : List Field → Nat → List Value × Nat
  | [], packet => ([], packet)
  | field :: rest, packet =>
      let first := field.read cells packet
      let others := readAll cells rest first.2
      (first.1 :: others.1, others.2)

theorem take_field (field : Field) (more : List Arg) :
    take field.letter (field.args ++ more) =
      .field field.bytes.length (some field.bytes) more := by
  cases field with
  | char i => rfl
  | short i => rfl
  | int i => rfl
  | str p dst dstLen larger => rfl
  | block len p there =>
      have inside : len.toInt = (p.take len.toInt.toNat).length := by
        rw [List.length_take]
        omega
      simp only [Field.letter, Field.args, Field.bytes, List.cons_append, List.nil_append, take,
        takeBlock, if_pos there]
      rw [← inside]

theorem encoding_fields (fields : List Field) (more : List Arg) :
    encoding (fields.map Field.letter) (fields.flatMap Field.args ++ more) =
      some (fields.flatMap Field.bytes) := by
  induction fields with
  | nil => rfl
  | cons field rest ih =>
      rw [List.map_cons, List.flatMap_cons, List.append_assoc]
      unfold encoding
      rw [take_field]
      simp only
      rw [ih]
      rfl

/-! ### Reading one field back -/

theorem shiftedChar_toNat (i shift : Int32) (count : Nat)
    (shifts : (shift.toBitVec.smod 32).toNat = count) (within : count + 8 ≤ 32) :
    (shiftedChar i shift).toNat = i.toUInt32.toNat / 2 ^ count % 256 := by
  have low : (shiftedChar i shift).toBitVec = (i.toBitVec >>> count).setWidth 8 := by
    apply BitVec.eq_of_getLsbD_eq
    intro bit small
    -- The bits that an arithmetic shift fills in are above the low byte.
    have inside : count + bit < 32 := by omega
    have notHigh : ¬ 32 ≤ bit := by omega
    simp only [shiftedChar, Int8.toBitVec_toUInt8, Int32.toBitVec_toInt8,
      Int32.toBitVec_shiftRight, BitVec.sshiftRight', shifts,
      BitVec.signExtend_eq_setWidth_of_le _ (show 8 ≤ 32 by decide), BitVec.getLsbD_setWidth,
      BitVec.getLsbD_sshiftRight, BitVec.getLsbD_ushiftRight, inside, notHigh, if_true,
      decide_false, Bool.not_false, Bool.true_and]
  have value := congrArg BitVec.toNat low
  rw [BitVec.toNat_setWidth, BitVec.toNat_ushiftRight, Nat.shiftRight_eq_div_pow] at value
  exact value

theorem short_toNat (low high : UInt8) :
    (low.toUInt16 ||| high.toUInt16 <<< 8).toNat = low.toNat + 256 * high.toNat := by
  have lowLt := low.toNat_lt
  have highLt := high.toNat_lt
  have joined := Nat.shiftLeft_add_eq_or_of_lt lowLt high.toNat
  rw [UInt16.toNat_or, UInt16.toNat_shiftLeft, UInt8.toNat_toUInt16, UInt8.toNat_toUInt16,
    Nat.or_comm]
  change (high.toNat <<< 8) % 2 ^ 16 ||| low.toNat = _
  rw [Nat.mod_eq_of_lt (by rw [Nat.shiftLeft_eq]; omega), ← joined, Nat.shiftLeft_eq]
  omega

theorem char_narrowed (i : Int32) : (shiftedChar i 0).toInt8 = i.toInt8 := by
  have value := shiftedChar_toNat i 0 0 rfl (by decide)
  apply Int8.toBitVec_inj.mp
  apply BitVec.eq_of_toNat_eq
  rw [Int32.toBitVec_toInt8, BitVec.signExtend_eq_setWidth_of_le _ (by decide),
    BitVec.toNat_setWidth]
  change (shiftedChar i 0).toNat = i.toUInt32.toNat % 2 ^ 8
  omega

theorem short_narrowed (i : Int32) :
    ((shiftedChar i 0).toUInt16 ||| (shiftedChar i 8).toUInt16 <<< 8).toInt16 = i.toInt16 := by
  have lower := shiftedChar_toNat i 0 0 rfl (by decide)
  have upper := shiftedChar_toNat i 8 8 rfl (by decide)
  apply Int16.toBitVec_inj.mp
  apply BitVec.eq_of_toNat_eq
  rw [Int32.toBitVec_toInt16, BitVec.signExtend_eq_setWidth_of_le _ (by decide),
    BitVec.toNat_setWidth]
  change ((shiftedChar i 0).toUInt16 ||| (shiftedChar i 8).toUInt16 <<< 8).toNat =
    i.toUInt32.toNat % 2 ^ 16
  rw [short_toNat]
  omega

theorem int_restored (i : Int32) :
    (word (shiftedChar i 24) (shiftedChar i 16) (shiftedChar i 8) (shiftedChar i 0)).toInt32 =
      i := by
  have first := shiftedChar_toNat i 0 0 rfl (by decide)
  have second := shiftedChar_toNat i 8 8 rfl (by decide)
  have third := shiftedChar_toNat i 16 16 rfl (by decide)
  have fourth := shiftedChar_toNat i 24 24 rfl (by decide)
  have bound := i.toUInt32.toNat_lt
  have same : word (shiftedChar i 24) (shiftedChar i 16) (shiftedChar i 8) (shiftedChar i 0) =
      i.toUInt32 := by
    apply UInt32.toNat_inj.mp
    rw [word_toNat]
    omega
  rw [same]
  rfl

/-- Where the destination is larger than the string, all of it is copied, with
its zero, and the pointer moves behind that. -/
theorem lnStrNCpyLoop_whole (len : Int) (source cells : Nat → UInt8) (chars : List UInt8)
    (dst src copyLen : Nat) (nonzero : 0 ∉ chars)
    (there : slice source src (chars.length + 1) = chars ++ [0])
    (fits : ((copyLen + chars.length : Nat) : Int) ≤ len) :
    lnStrNCpyLoop len source cells dst src copyLen =
      (store cells dst (chars ++ [0]), copyLen + chars.length) := by
  induction chars generalizing cells dst src copyLen with
  | nil =>
      rw [List.length_nil, slice_head] at there
      have atEnd : source src = 0 := (List.cons.inj there).1
      rw [lnStrNCpyLoop, if_pos atEnd]
      rfl
  | cons char rest ih =>
      rw [List.length_cons, slice_head] at there
      rw [List.length_cons] at fits
      obtain ⟨head, later⟩ := List.cons.inj there
      have notZero : source src ≠ 0 := fun zero =>
        nonzero (by rw [← zero, head]; exact List.mem_cons_self)
      rw [lnStrNCpyLoop, if_neg notZero]
      simp only
      rw [if_neg (by omega), ih _ _ _ _ (fun member => nonzero (List.mem_cons_of_mem char member))
        later (by omega), head]
      have joined := store_append cells dst [char] (rest ++ [0])
      rw [List.length_singleton] at joined
      rw [joined, List.length_cons]
      simp only [List.cons_append, List.nil_append, Prod.mk.injEq, true_and]
      omega

theorem Field.read_spec (field : Field) (cells : Nat → UInt8) (packet : Nat)
    (there : slice cells packet field.bytes.length = field.bytes) :
    field.Returns (field.read cells packet).1 ∧
      (field.read cells packet).2 = packet + field.bytes.length := by
  have at_ := cell_of_slice cells packet field.bytes there
  cases field with
  | char i =>
      have byte : cells packet = shiftedChar i 0 := at_ 0 (Nat.le_of_ble_eq_true rfl)
      refine ⟨?_, rfl⟩
      change (cells packet).toInt8 = i.toInt8
      rw [byte, char_narrowed]
  | short i =>
      have low : cells packet = shiftedChar i 0 := at_ 0 (Nat.le_of_ble_eq_true rfl)
      have high : cells (packet + 1) = shiftedChar i 8 := at_ 1 (Nat.le_of_ble_eq_true rfl)
      refine ⟨?_, rfl⟩
      change ((cells packet).toUInt16 ||| (cells (packet + 1)).toUInt16 <<< 8).toInt16 =
        i.toInt16
      rw [low, high, short_narrowed]
  | int i =>
      have first : cells packet = shiftedChar i 0 := at_ 0 (Nat.le_of_ble_eq_true rfl)
      have second : cells (packet + 1) = shiftedChar i 8 := at_ 1 (Nat.le_of_ble_eq_true rfl)
      have third : cells (packet + 2) = shiftedChar i 16 := at_ 2 (Nat.le_of_ble_eq_true rfl)
      have fourth : cells (packet + 3) = shiftedChar i 24 := at_ 3 (Nat.le_of_ble_eq_true rfl)
      refine ⟨?_, rfl⟩
      change (word (cells (packet + 3)) (cells (packet + 2)) (cells (packet + 1))
        (cells packet)).toInt32 = i
      rw [first, second, third, fourth, int_restored]
  | str p dst dstLen larger =>
      have length : (Field.str p dst dstLen larger).bytes.length = p.chars.length + 1 := by
        rw [Field.bytes, List.length_append, List.length_singleton]
      rw [length] at there ⊢
      have copied := lnStrNCpyLoop_whole dstLen cells dst p.chars 0 packet 1 p.terminated there
        (by omega)
      have read : getStrFromPacket cells packet dstLen dst =
          (store dst 0 (p.chars ++ [0]), packet + (1 + p.chars.length)) := by
        rw [getStrFromPacket, lnStrNCpy, copied]
      simp only [Field.read, read, Prod.map]
      refine ⟨?_, by rw [id_eq]; omega⟩
      have stored := slice_store_same dst 0 (p.chars ++ [0])
      rw [List.length_append, List.length_singleton] at stored
      exact stored
  | block len p inside =>
      have length : (Field.block len p inside).bytes.length = len.toInt.toNat := by
        rw [Field.bytes, List.length_take]
        omega
      rw [length] at there ⊢
      exact ⟨there, rfl⟩

theorem readAll_spec (fields : List Field) (cells : Nat → UInt8) (packet : Nat)
    (there : slice cells packet (fields.flatMap Field.bytes).length =
      fields.flatMap Field.bytes) :
    List.Forall₂ Field.Returns fields (readAll cells fields packet).1 ∧
      (readAll cells fields packet).2 = packet + (fields.flatMap Field.bytes).length := by
  induction fields generalizing packet with
  | nil => exact ⟨List.Forall₂.nil, rfl⟩
  | cons field rest ih =>
      rw [List.flatMap_cons, List.length_append, slice_append] at there
      obtain ⟨first, later⟩ := List.append_inj there (slice_length _ _ _)
      obtain ⟨returned, moved⟩ := field.read_spec cells packet first
      rw [← moved] at later
      obtain ⟨others, behind⟩ := ih _ later
      refine ⟨List.Forall₂.cons returned others, ?_⟩
      change (readAll cells rest (field.read cells packet).2).2 = _
      rw [behind, moved, List.flatMap_cons, List.length_append, Nat.add_assoc]

/-- What `Assemble` has written comes back argument by argument, and the pointer
moves by the length that `Assemble` returned. -/
theorem readAll_assembled (fields : List Field) (more : List Arg) (cells written : Nat → UInt8)
    (start bufLen stop : Nat)
    (assembled : assembleLoop (start + bufLen) (fields.map Field.letter)
      (fields.flatMap Field.args ++ more) cells start = some (.finished written stop)) :
    ∃ n, assemble cells start bufLen (fields.map Field.letter)
        (fields.flatMap Field.args ++ more) = some (written, n) ∧
      List.Forall₂ Field.Returns fields (readAll written fields start).1 ∧
      (readAll written fields start).2 = start + n := by
  refine ⟨stop - start, by rw [assemble, assembled]; rfl, ?_⟩
  have encoded := encoding_fields fields more
  rcases assembleLoop_spec (start + bufLen) _ _ _ encoded cells start
    (Nat.le_add_right start bufLen) with ⟨_, finished⟩ | ⟨_, _, _, _, overflow⟩
  · rw [finished, Option.some.injEq, Assembling.finished.injEq] at assembled
    obtain ⟨rfl, rfl⟩ := assembled
    rw [Nat.add_sub_cancel_left]
    exact readAll_spec fields _ start (slice_store_same cells start _)
  · rw [overflow] at assembled
    cases assembled

def greeting : List Field :=
  [.char 300, .short (-2), .str ⟨[104, 105], by decide⟩ (fun _ => 7) 3 (by decide)]

theorem greeting_read_back : ∃ written n,
    assemble (fun _ => 9) 2 20478 ['c', 'h', 's']
      [.int 300, .int (-2), .text (some ⟨[104, 105], by decide⟩)] = some (written, n) ∧
    List.Forall₂ Field.Returns greeting (readAll written greeting 2).1 ∧
    (readAll written greeting 2).2 = 2 + n := by
  obtain ⟨n, read⟩ := readAll_assembled greeting [] (fun _ => 9) _ 2 20478 _ rfl
  exact ⟨_, n, read⟩

/-! ### Strings of any length -/

/-- Where the string reaches the length, the last character that fits is
replaced by the zero, and the count ends one above the length. -/
theorem lnStrNCpyLoop_cut (len : Int) (source cells : Nat → UInt8) (chars : List UInt8)
    (dst src copyLen room : Nat) (nonzero : 0 ∉ chars)
    (there : slice source src (chars.length + 1) = chars ++ [0])
    (left : len = ((copyLen + room : Nat) : Int)) (longer : room < chars.length) :
    lnStrNCpyLoop len source cells dst src copyLen =
      (store cells dst (chars.take room ++ [0]), copyLen + room + 1) := by
  induction chars generalizing cells dst src copyLen room with
  | nil => cases longer
  | cons char rest ih =>
      rw [List.length_cons, slice_head] at there
      obtain ⟨head, later⟩ := List.cons.inj there
      have notZero : source src ≠ 0 := fun zero =>
        nonzero (by rw [← zero, head]; exact List.mem_cons_self)
      rw [lnStrNCpyLoop, if_neg notZero]
      cases room with
      | zero =>
          simp only
          rw [if_pos (by omega), store_store cells dst [source src] [0] rfl]
          rfl
      | succ more =>
          rw [List.length_cons] at longer
          simp only
          rw [if_neg (by omega), ih _ _ _ _ more
            (fun member => nonzero (List.mem_cons_of_mem char member)) later (by omega) (by omega),
            head]
          have joined := store_append cells dst [char] (rest.take more ++ [0])
          rw [List.length_singleton] at joined
          rw [joined, List.take_succ_cons]
          simp only [List.cons_append, List.nil_append, Prod.mk.injEq, true_and]
          omega

/-- A destination of `dstLen` bytes, a string in a packet, and what is expected
of reading it: the memory afterwards, and the pointer. -/
structure ReadsString (dst : Nat → UInt8) (dstLen : Int) (packet : Nat) (p : CString UInt8)
    (result : (Nat → UInt8) × Nat) : Prop where
  copied : slice result.1 0 ((p.chars.take (dstLen - 1).toNat).length + 1) =
    p.chars.take (dstLen - 1).toNat ++ [0]
  within : ∀ position : Nat, dstLen ≤ (position : Int) → result.1 position = dst position
  behind : result.2 = packet + p.chars.length + 1

section ReadString

variable (cells dst : Nat → UInt8) (packet : Nat) (dstLen : Int) (p : CString UInt8)

theorem getStrFromPacket_eq (positive : 1 ≤ dstLen)
    (there : slice cells packet (p.chars.length + 1) = p.chars ++ [0]) :
    getStrFromPacket cells packet dstLen dst =
      (store dst 0 (p.chars.take (dstLen - 1).toNat ++ [0]),
        packet + min (p.chars.length + 1) (dstLen.toNat + 1)) := by
  unfold getStrFromPacket lnStrNCpy
  by_cases whole : p.chars.length ≤ (dstLen - 1).toNat
  · rw [lnStrNCpyLoop_whole dstLen cells dst p.chars 0 packet 1 p.terminated there (by omega),
      List.take_of_length_le whole]
    simp only [Prod.mk.injEq, true_and]
    omega
  · rw [lnStrNCpyLoop_cut dstLen cells dst p.chars 0 packet 1 (dstLen - 1).toNat p.terminated
      there (by omega) (by omega)]
    simp only [Prod.mk.injEq, true_and]
    omega

/-- The characters that fit are copied whatever the length of the string; the
pointer gets behind its zero exactly when the string is no longer than the
destination. -/
theorem readsString_iff (positive : 1 ≤ dstLen)
    (there : slice cells packet (p.chars.length + 1) = p.chars ++ [0]) :
    ReadsString dst dstLen packet p (getStrFromPacket cells packet dstLen dst) ↔
      (p.chars.length : Int) ≤ dstLen := by
  rw [getStrFromPacket_eq cells dst packet dstLen p positive there]
  constructor
  · intro reads
    have behind := reads.behind
    simp only at behind
    omega
  · intro short
    have fits : (p.chars.take (dstLen - 1).toNat ++ [0]).length ≤ dstLen.toNat := by
      rw [List.length_append, List.length_take, List.length_singleton]
      omega
    constructor
    · have stored := slice_store_same dst 0 (p.chars.take (dstLen - 1).toNat ++ [0])
      rw [List.length_append, List.length_singleton] at stored
      exact stored
    · intro position outside
      exact store_above dst 0 position _ (by omega)
    · simp only
      omega

end ReadString

def longName : CString UInt8 := ⟨[110, 97, 109, 101], by decide⟩

def namePacket (position : Nat) : UInt8 := (longName.chars[position]?).getD 0

theorem short_name_read :
    ReadsString (fun _ => 7) 4 0 longName (getStrFromPacket namePacket 0 4 fun _ => 7) ↔
      ((4 : Nat) : Int) ≤ 4 :=
  readsString_iff namePacket (fun _ => 7) 0 4 longName (by decide) rfl

/-- The pointer stops at the last character. -/
theorem long_name_resumed :
    ¬ ReadsString (fun _ => 7) 2 0 longName (getStrFromPacket namePacket 0 2 fun _ => 7) := by
  intro reads
  have behind := reads.behind
  rw [getStrFromPacket_eq namePacket (fun _ => 7) 0 2 longName (by decide) rfl] at behind
  cases behind

end PacketReader

end AuthServer
