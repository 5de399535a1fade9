/-
The packet assembler.

`Assemble` walks a format string and takes an argument for each letter it
knows.  Reading an argument of another kind, or copying bytes that are not
there, has no meaning and no result here.  Lengths are those of objects in
memory and fit an `int`.
-/

import AuthServer.IOBuffer

set_option autoImplicit false

namespace AuthServer

open LinearMemory

structure CString (Unit : Type) [OfNat Unit 0] where
  chars : List Unit
  terminated : 0 ∉ chars

inductive Arg where
  | wide (wp : Option (CString UInt16))
  | text (p : Option (CString UInt8))
  | block (p : List UInt8)
  | int (i : Int32)

def shiftedChar (i shift : Int32) : UInt8 := (i >>> shift).toInt8.toUInt8

theorem shiftedChar_byte (byte : UInt8) : shiftedChar byte.toUInt32.toInt32 0 = byte := by
  have low : BitVec.signExtend 8 (BitVec.setWidth 32 byte.toBitVec) = byte.toBitVec := by
    rw [BitVec.signExtend_eq_setWidth_of_le _ (by decide)]
    exact BitVec.setWidth_setWidth_of_le _ (by decide)
  unfold shiftedChar
  apply UInt8.toBitVec_inj.mp
  simpa using low

def wideBytes (wp : CString UInt16) : List UInt8 :=
  (wp.chars ++ [0]).flatMap fun (unit : UInt16) => [unit.toUInt8, (unit >>> 8).toUInt8]

/-- What a letter does to the argument list: the length that is checked, the
bytes that are then copied where they exist, and the arguments left. -/
inductive Taken where
  | skipped
  | wrongKind
  | field (len : Int) (bytes : Option (List UInt8)) (rest : List Arg)

def Taken.copy (bytes : List UInt8) (rest : List Arg) : Taken :=
  .field bytes.length (some bytes) rest

def takeWide : List Arg → Taken
  | .wide (some wp) :: rest => .copy (wideBytes wp) rest
  | .wide none :: rest => .copy [0, 0] rest
  | _ => .wrongKind

def takeText : List Arg → Taken
  | .text (some p) :: rest => .copy (p.chars ++ [0]) rest
  | .text none :: rest => .copy [0] rest
  | _ => .wrongKind

/-- The blind copy, of as many bytes as the `int` in front says. -/
def takeBlock : List Arg → Taken
  | .int len :: .block p :: rest =>
      .field len.toInt
        (if 0 ≤ len.toInt ∧ len.toInt ≤ p.length then some (p.take len.toInt.toNat) else none)
        rest
  | _ => .wrongKind

def takeInt (shifts : List Int32) : List Arg → Taken
  | .int i :: rest => .copy (shifts.map (shiftedChar i)) rest
  | _ => .wrongKind

def take (t : Char) (args : List Arg) : Taken :=
  match t with
  | 'S' => takeWide args
  | 's' => takeText args
  | 'b' => takeBlock args
  | 'c' => takeInt [0] args
  | 'h' => takeInt [0, 8] args
  | 'd' => takeInt [0, 8, 16, 24] args
  | _ => .skipped

inductive Assembling where
  | overflow (cells : Nat → UInt8)
  | finished (cells : Nat → UInt8) (buf : Nat)

def assembleLoop (last : Nat) :
    List Char → List Arg → (Nat → UInt8) → Nat → Option Assembling
  | [], _, cells, buf => some (.finished cells buf)
  | t :: format, args, cells, buf =>
      match take t args with
      | .skipped => assembleLoop last format args cells buf
      | .wrongKind => none
      | .field len bytes rest =>
          if buf + len > last then some (.overflow cells)
          else
            match bytes with
            | none => none
            | some bytes =>
                assembleLoop last format rest (store cells buf bytes) (buf + bytes.length)

/-- `Assemble(buf, bufLen, format, ap)` with `buf` at an offset into memory: the
memory after it, and what it returns. -/
def assemble (cells : Nat → UInt8) (start bufLen : Nat) (format : List Char)
    (args : List Arg) : Option ((Nat → UInt8) × Nat) :=
  (assembleLoop (start + bufLen) format args cells start).map fun assembling =>
    match assembling with
    | .overflow cells => (cells, 0)
    | .finished cells buf => (cells, buf - start)

/-- All fields of a packet one behind the other, when the arguments are of the
right kinds. -/
def encoding : List Char → List Arg → Option (List UInt8)
  | [], _ => some []
  | t :: format, args =>
      match take t args with
      | .skipped => encoding format args
      | .wrongKind => none
      | .field _ none _ => none
      | .field _ (some bytes) rest => (encoding format rest).map fun more => bytes ++ more

/-- The fields in front of the first one that does not fit any more. -/
def fitted (room : Nat) : List Char → List Arg → List UInt8
  | [], _ => []
  | t :: format, args =>
      match take t args with
      | .field _ (some bytes) rest =>
          if bytes.length ≤ room then bytes ++ fitted (room - bytes.length) format rest else []
      | .skipped => fitted room format args
      | _ => []

theorem take_length (t : Char) (args rest : List Arg) (len : Int) (bytes : List UInt8)
    (taken : take t args = .field len (some bytes) rest) : len = bytes.length := by
  have copied : ∀ (source : List UInt8) (others : List Arg),
      Taken.copy source others = .field len (some bytes) rest → len = bytes.length := by
    intro source others same
    cases same
    rfl
  unfold take at taken
  split at taken
  · unfold takeWide at taken
    split at taken
    · exact copied _ _ taken
    · exact copied _ _ taken
    · contradiction
  · unfold takeText at taken
    split at taken
    · exact copied _ _ taken
    · exact copied _ _ taken
    · contradiction
  · unfold takeBlock at taken
    split at taken
    · rename_i count p others
      split at taken
      · rename_i inside
        cases taken
        rw [List.length_take]
        omega
      · cases taken
    · contradiction
  all_goals
    first
      | contradiction
      | unfold takeInt at taken
        split at taken
        · exact copied _ _ taken
        · contradiction

theorem fitted_spec (room : Nat) (format : List Char) (args : List Arg)
    (bytes : List UInt8) (encoded : encoding format args = some bytes) :
    fitted room format args <+: bytes ∧ (fitted room format args).length ≤ room ∧
      (bytes.length ≤ room → fitted room format args = bytes) := by
  induction format generalizing args bytes room with
  | nil =>
      cases encoded
      exact ⟨List.nil_prefix, Nat.zero_le room, fun _ => rfl⟩
  | cons t format ih =>
      unfold encoding at encoded
      unfold fitted
      cases taken : take t args with
      | skipped =>
          rw [taken] at encoded
          exact ih room args bytes encoded
      | wrongKind =>
          rw [taken] at encoded
          contradiction
      | field len source rest =>
          rw [taken] at encoded
          cases source with
          | none => contradiction
          | some first =>
              obtain ⟨more, encodedMore, whole⟩ := Option.map_eq_some_iff.mp encoded
              subst whole
              simp only
              by_cases fits : first.length ≤ room
              · obtain ⟨part, within, all⟩ := ih (room - first.length) rest more encodedMore
                rw [if_pos fits]
                refine ⟨(List.prefix_append_right_inj first).mpr part, ?_, ?_⟩
                · rw [List.length_append]
                  omega
                · intro enough
                  rw [List.length_append] at enough
                  rw [all (by omega)]
              · rw [if_neg fits]
                refine ⟨List.nil_prefix, Nat.zero_le room, ?_⟩
                intro enough
                rw [List.length_append] at enough
                omega

/-- Whether or not the fields fit, the loop writes those in front of the first
that does not. -/
theorem assembleLoop_fitted (last : Nat) (format : List Char) (args : List Arg)
    (bytes : List UInt8) (encoded : encoding format args = some bytes)
    (cells : Nat → UInt8) (buf : Nat) (within : buf ≤ last) :
    assembleLoop last format args cells buf =
      some (if buf + bytes.length ≤ last then
          .finished (store cells buf (fitted (last - buf) format args)) (buf + bytes.length)
        else .overflow (store cells buf (fitted (last - buf) format args))) := by
  induction format generalizing args bytes cells buf with
  | nil =>
      cases encoded
      rw [fitted, store_nil, if_pos (show buf + [].length ≤ last from within)]
      rfl
  | cons t format ih =>
      unfold encoding at encoded
      unfold assembleLoop fitted
      cases taken : take t args with
      | skipped =>
          rw [taken] at encoded
          exact ih args bytes encoded cells buf within
      | wrongKind =>
          rw [taken] at encoded
          contradiction
      | field len source rest =>
          rw [taken] at encoded
          cases source with
          | none => contradiction
          | some first =>
              have length := take_length t args rest len first taken
              obtain ⟨more, encodedMore, whole⟩ := Option.map_eq_some_iff.mp encoded
              subst whole
              rw [List.length_append]
              simp only
              by_cases fits : buf + first.length ≤ last
              · have later := ih rest more encodedMore (store cells buf first)
                  (buf + first.length) fits
                have room : last - (buf + first.length) = last - buf - first.length := by omega
                rw [store_append, room, Nat.add_assoc] at later
                have enough : first.length ≤ last - buf := by omega
                rw [if_neg (by omega), if_pos enough, later]
              · rw [if_pos (by omega), if_neg (by omega), if_neg (by omega), store_nil]

/-- The loop writes all fields where they fit; where they do not, it stops at a
field boundary with what did fit. -/
theorem assembleLoop_spec (last : Nat) (format : List Char) (args : List Arg)
    (bytes : List UInt8) (encoded : encoding format args = some bytes)
    (cells : Nat → UInt8) (buf : Nat) (within : buf ≤ last) :
    (buf + bytes.length ≤ last ∧ assembleLoop last format args cells buf =
        some (.finished (store cells buf bytes) (buf + bytes.length))) ∨
      (last < buf + bytes.length ∧ ∃ written, written <+: bytes ∧
        buf + written.length ≤ last ∧
          assembleLoop last format args cells buf =
            some (.overflow (store cells buf written))) := by
  have loop := assembleLoop_fitted last format args bytes encoded cells buf within
  obtain ⟨part, inside, all⟩ := fitted_spec (last - buf) format args bytes encoded
  by_cases room : buf + bytes.length ≤ last
  · rw [if_pos room, all (by omega)] at loop
    exact Or.inl ⟨room, loop⟩
  · rw [if_neg room] at loop
    exact Or.inr ⟨by omega, _, part, by omega, loop⟩

/-- What `Assemble` returns, and that it leaves everything outside its region
alone. -/
theorem assemble_spec (cells : Nat → UInt8) (start bufLen : Nat) (format : List Char)
    (args : List Arg) (bytes : List UInt8) (encoded : encoding format args = some bytes) :
    (bytes.length ≤ bufLen ∧ assemble cells start bufLen format args =
        some (store cells start bytes, bytes.length)) ∨
      (bufLen < bytes.length ∧ ∃ written, written <+: bytes ∧ written.length ≤ bufLen ∧
        assemble cells start bufLen format args = some (store cells start written, 0)) := by
  unfold assemble
  rcases assembleLoop_spec (start + bufLen) format args bytes encoded cells start
    (Nat.le_add_right start bufLen) with ⟨room, finished⟩ |
      ⟨excess, written, part, inside, overflow⟩
  · rw [finished, Option.map_some]
    refine Or.inl ⟨by omega, ?_⟩
    simp only [Nat.add_sub_cancel_left]
  · rw [overflow, Option.map_some]
    exact Or.inr ⟨by omega, written, part, by omega, rfl⟩

theorem assemble_fitted (cells : Nat → UInt8) (start bufLen : Nat) (format : List Char)
    (args : List Arg) (bytes : List UInt8) (encoded : encoding format args = some bytes) :
    assemble cells start bufLen format args =
      some (store cells start (fitted bufLen format args),
        if bytes.length ≤ bufLen then bytes.length else 0) := by
  unfold assemble
  rw [assembleLoop_fitted (start + bufLen) format args bytes encoded cells start
    (Nat.le_add_right start bufLen), Nat.add_sub_cancel_left]
  by_cases room : bytes.length ≤ bufLen
  · rw [if_pos (by omega), if_pos room]
    simp only [Option.map_some, Nat.add_sub_cancel_left]
  · rw [if_neg (by omega), if_neg room]
    rfl

end AuthServer
