/-
The length-prefixed readers of the socket classes.

`CSocketServerEx::OnRead`, `CSocketServer::OnRead` and `CIPSocket::OnRead` share
one loop.  They differ in how many bytes must be present before the two length
bytes are read, in how a packet length is computed from them, and in how many
opcodes are known.  The loop is modelled turn by turn on the memory of the
current read buffer.  `CIOSocket.read` is the part of `CIOSocket::Read` that
works on the buffer; posting the receive is left to the modules that have a
socket.
-/

import AuthServer.IOBuffer
import AuthServer.Lib.Framing

set_option autoImplicit false

namespace AuthServer

open LinearMemory

inductive SocketMode where
  | readLen
  | readBody
  | close
  deriving DecidableEq, Repr

/-- Why the socket is closed by its own reader: `errorNum` 1, 2 and 3. -/
inductive ReadError where
  | badPacketSize (packetLen : Int)
  | unknownProtocol (opcode : UInt8)
  | invalidMode
  deriving DecidableEq, Repr

structure LengthRule where
  headerBytes : Nat
  packetLen : UInt8 → UInt8 → Int
  opcodes : Nat
  lengthBytesPresent : 2 ≤ headerBytes
  headerFits : headerBytes ≤ bufferSize

def CSocketServerEx.lengthRule : LengthRule where
  headerBytes := 2
  packetLen low high := ((low.toNat + 256 * high.toNat : Nat) : Int) - 2
  opcodes := aqMax
  lengthBytesPresent := by decide
  headerFits := by decide

def CSocketServer.lengthRule : LengthRule where
  headerBytes := 3
  packetLen low high := low.toNat + (high.toNat : Int) * 256 + 1 - packetSizeType
  opcodes := asMax
  lengthBytesPresent := by decide
  headerFits := by decide

def CIPSocket.lengthRule : LengthRule where
  headerBytes := 3
  packetLen low high := low.toNat + (high.toNat : Int) * 256 + 1
  opcodes := iaMax
  lengthBytesPresent := by decide
  headerFits := by decide

/-- What survives from one call of `OnRead` to the next. -/
structure ReadState where
  mode : SocketMode
  packetLen : Int
  deriving DecidableEq, Repr

/-- A packet as its handler gets it: the opcode selects the handler, which is
given a pointer to the bytes behind it. -/
structure Packet where
  opcode : UInt8
  body : List UInt8
  deriving DecidableEq, Repr

inductive Turn where
  | read (left : Nat)
  | header (packetLen : Int)
  | dispatch
  | leave (error : ReadError)
  deriving DecidableEq, Repr

inductive Exit where
  | read (left : Nat)
  | closeSocket (error : ReadError)
  deriving DecidableEq, Repr

structure Posted where
  offset : Nat
  length : Int
  deriving DecidableEq, Repr

structure LoopResult where
  posted : List Posted
  state : ReadState
  exit : Exit

structure WsaBuf where
  offset : Nat
  len : Nat
  deriving DecidableEq, Repr

/-- Keep the last `left` bytes and bring them to the front: of a fresh buffer
when a packet still points into this one, else in place. -/
def CIOSocket.read (buf : CIOBuffer) (left : Nat) (recycled : Nat → UInt8) : CIOBuffer :=
  let size := buf.size - left
  let kept := slice buf.buffer size left
  if buf.ref ≠ 1 then
    { CIOBuffer.alloc recycled with
      buffer := store (CIOBuffer.alloc recycled).buffer 0 kept, size := left }
  else
    { buf with buffer := store buf.buffer 0 kept, size := left }

def CIOSocket.wsaBuf (buf : CIOBuffer) : WsaBuf :=
  { offset := buf.size, len := dword ((bufferSize : Int) - buf.size) }

@[simp] theorem CIOSocket.read_size (buf : CIOBuffer) (left : Nat)
    (recycled : Nat → UInt8) : (CIOSocket.read buf left recycled).size = left := by
  unfold CIOSocket.read
  split <;> rfl

theorem CIOSocket.read_contents (buf : CIOBuffer) (left : Nat)
    (recycled : Nat → UInt8) :
    (CIOSocket.read buf left recycled).contents =
      slice buf.buffer (buf.size - left) left := by
  unfold CIOSocket.read CIOBuffer.contents
  split
  · exact slice_store_slice _ _ 0 _ left
  · exact slice_store_slice _ _ 0 _ left

theorem CIOSocket.wsaBuf_room (buf : CIOBuffer) (within : buf.size < bufferSize) :
    0 < (CIOSocket.wsaBuf buf).len ∧
      (CIOSocket.wsaBuf buf).offset + (CIOSocket.wsaBuf buf).len = bufferSize := by
  have length : (CIOSocket.wsaBuf buf).len = bufferSize - buf.size :=
    dword_sub bufferSize buf.size (Nat.le_of_lt within) (by decide)
  rw [length]
  change 0 < bufferSize - buf.size ∧ buf.size + (bufferSize - buf.size) = bufferSize
  omega

namespace LengthRule

/-- One turn of the `for ( ; ; )` loop, its tests in the order of the source. -/
def turn (rule : LengthRule) (inBuf : Nat → UInt8) (ri : Nat)
    (state : ReadState) (pi : Nat) : Turn :=
  if ri ≤ pi then .read 0
  else
    match state.mode with
    | .readLen =>
        if pi + rule.headerBytes ≤ ri then
          let packetLen := rule.packetLen (inBuf pi) (inBuf (pi + 1))
          if packetLen ≤ 0 ∨ packetLen > bufferSize then .leave (.badPacketSize packetLen)
          else .header packetLen
        else .read (ri - pi)
    | .readBody =>
        if (pi : Int) + state.packetLen ≤ ri then
          if rule.opcodes ≤ (inBuf pi).toNat then .leave (.unknownProtocol (inBuf pi))
          else .dispatch
        else .read (ri - pi)
    | .close => .leave .invalidMode

/-- The loop.  A turn that does not leave it moves `pi` forward, so one unit of
fuel more than there are bytes is enough. -/
def loop (rule : LengthRule) (inBuf : Nat → UInt8) (ri : Nat) :
    Nat → ReadState → Nat → Option LoopResult
  | 0, _, _ => none
  | fuel + 1, state, pi =>
      match rule.turn inBuf ri state pi with
      | .read left => some ⟨[], state, .read left⟩
      | .leave error => some ⟨[], state, .closeSocket error⟩
      | .header packetLen =>
          rule.loop inBuf ri fuel ⟨.readBody, packetLen⟩ (pi + 2)
      | .dispatch =>
          (rule.loop inBuf ri fuel ⟨.readLen, state.packetLen⟩
            (pi + state.packetLen.toNat)).map fun result =>
              { result with posted := ⟨pi, state.packetLen⟩ :: result.posted }

def onRead (rule : LengthRule) (buf : CIOBuffer) (state : ReadState) :
    Option LoopResult :=
  if state.mode = .close then some ⟨[], state, .closeSocket .invalidMode⟩
  else rule.loop buf.buffer buf.size (buf.size + 1) state 0

def packetAt (inBuf : Nat → UInt8) (posted : Posted) : Packet :=
  { opcode := inBuf posted.offset
    body := slice inBuf (posted.offset + 1) (posted.length.toNat - 1) }

/-! ### The length rule as a framing rule -/

/-- What the class's length rule says about the bytes at the front of a
stream, whatever buffer they lie in. -/
def verdict (rule : LengthRule) (state : ReadState) (input : List UInt8) :
    Framing.Verdict ReadState Packet ReadError :=
  match state.mode, input with
  | .readLen, low :: high :: _ =>
      if input.length < rule.headerBytes then .wait
      else
        let packetLen := rule.packetLen low high
        if packetLen ≤ 0 ∨ packetLen > bufferSize then .reject (.badPacketSize packetLen)
        else .advance 2 none ⟨.readBody, packetLen⟩
  | .readBody, opcode :: rest =>
      if state.packetLen ≤ 0 ∨ (input.length : Int) < state.packetLen then .wait
      else if rule.opcodes ≤ opcode.toNat then .reject (.unknownProtocol opcode)
      else
        .advance state.packetLen.toNat
          (some ⟨opcode, rest.take (state.packetLen.toNat - 1)⟩)
          ⟨.readLen, state.packetLen⟩
  | .close, _ :: _ => .reject .invalidMode
  | _, _ => .wait

theorem verdict_progress (rule : LengthRule) (state : ReadState) (input : List UInt8)
    (count : Nat) (frame : Option Packet) (next : ReadState)
    (advances : rule.verdict state input = .advance count frame next) :
    0 < count ∧ count ≤ input.length := by
  unfold verdict at advances
  split at advances
  · rename_i low high rest _mode
    split at advances
    · contradiction
    · simp only at advances
      split at advances
      · contradiction
      · cases advances
        simp only [List.length_cons]
        omega
  · rename_i opcode rest _mode
    split at advances
    · contradiction
    · rename_i enough
      split at advances
      · contradiction
      · cases advances
        omega
  · contradiction
  · contradiction

theorem verdict_stable (rule : LengthRule) (state : ReadState)
    (input more : List UInt8) (decided : rule.verdict state input ≠ .wait) :
    rule.verdict state (input ++ more) = rule.verdict state input := by
  rcases state with ⟨mode, packetLen⟩
  cases mode with
  | readLen =>
      match input with
      | [] => exact absurd rfl decided
      | [_] => exact absurd rfl decided
      | low :: high :: rest =>
          simp only [verdict] at decided ⊢
          by_cases short : (low :: high :: rest).length < rule.headerBytes
          · rw [if_pos short] at decided
            exact absurd rfl decided
          · have long : ¬ (low :: high :: rest ++ more).length < rule.headerBytes := by
              rw [List.length_append]
              omega
            simp only [List.cons_append] at long ⊢
            rw [if_neg short, if_neg long]
  | readBody =>
      match input with
      | [] => exact absurd rfl decided
      | opcode :: rest =>
          simp only [verdict] at decided ⊢
          by_cases short : packetLen ≤ 0 ∨ ((opcode :: rest).length : Int) < packetLen
          · rw [if_pos short] at decided
            exact absurd rfl decided
          · have long : ¬ (packetLen ≤ 0 ∨
                ((opcode :: rest ++ more).length : Int) < packetLen) := by
              rw [List.length_append]
              omega
            have sameBody :
                (rest ++ more).take (packetLen.toNat - 1) =
                  rest.take (packetLen.toNat - 1) := by
              apply List.take_append_of_le_length
              simp only [List.length_cons] at short
              omega
            simp only [List.cons_append] at long ⊢
            rw [if_neg short, if_neg long, sameBody]
  | close =>
      cases input with
      | nil => exact absurd rfl decided
      | cons byte rest => rfl

def framing (rule : LengthRule) : Framing.Rule UInt8 ReadState Packet ReadError where
  verdict := rule.verdict
  progress := rule.verdict_progress
  stable := rule.verdict_stable

end LengthRule

/-- The states an open connection can be in between two calls of `OnRead`. -/
def ReadState.Open (state : ReadState) : Prop :=
  match state.mode with
  | .readLen => True
  | .readBody => 0 < state.packetLen ∧ state.packetLen ≤ bufferSize
  | .close => False

end AuthServer
