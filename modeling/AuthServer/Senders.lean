/-
The formatted senders.

Each assembles a packet behind the two length bytes of a fresh buffer and
passes the buffer to `Write`.  `inUse` lists the buffers that are out of the
pool.  Of `Write` only what it does to the queue and the buffer is kept; the
send it may start is another module's.  A call through an unset `EncPacket` and
a cipher that writes behind the buffer have no result.
-/

import AuthServer.Assemble
import AuthServer.OutputQueue
import AuthServer.PacketCiphers
import AuthServer.SocketReader

set_option autoImplicit false

namespace AuthServer

open LinearMemory

structure Outgoing where
  output : OutputQueue
  inUse : List Nat

/-- What a call is made with: its format and arguments, and the buffer object
with the memory that `Alloc` hands out. -/
structure SendInput where
  object : Nat
  recycled : Nat → UInt8
  format : List Char
  args : List Arg

inductive UserMode where
  | preLogin
  | login
  | playRequest
  | playOk
  | inGame
  deriving DecidableEq, Repr

structure ClientLink where
  mode : SocketMode
  umMode : UserMode
  encOneTimeKey : UInt64
  encPacket : Option EncPacketType
  lastIO : Nat
  outgoing : Outgoing

structure IPLink where
  mode : SocketMode
  ipServerReconnect : Bool
  outgoing : Outgoing

def acPlayOk : UInt8 := 7

namespace Outgoing

def alloc (outgoing : Outgoing) (object : Nat) : Outgoing :=
  { outgoing with inUse := object :: outgoing.inUse }

def free (outgoing : Outgoing) (object : Nat) : Outgoing :=
  { outgoing with inUse := outgoing.inUse.erase object }

/-- `Write(CIOBuffer *)`; nothing is known about bytes behind the buffer. -/
def write (outgoing : Outgoing) (object : Nat) (buf : CIOBuffer) : Option Outgoing :=
  if buf.size = 0 then some (outgoing.free object)
  else if within : buf.size ≤ bufferSize then
    let queued := outgoing.output.enqueue
      { object := object
        bytes := buf.contents
        within := by
          rw [CIOBuffer.contents_length]
          exact within }
    let outgoing := { outgoing with output := queued.1 }
    match queued.2 with
    | .started => some outgoing
    | .coalesced => some (outgoing.free object)
    | .appended => some outgoing
  else none

end Outgoing

def SendInput.assembled (input : SendInput) : Option ((Nat → UInt8) × Nat) :=
  assemble input.recycled 2 (bufferSize - 2) input.format input.args

def storeLength (cells : Nat → UInt8) (len : Int) : Nat → UInt8 :=
  store cells 0 [UInt8.ofInt len, UInt8.ofInt (len >>> (8 : Nat))]

def sendFrame (sizeType : Int) (outgoing : Outgoing) (input : SendInput) : Option Outgoing :=
  input.assembled.bind fun assembled =>
    let len : Int := if assembled.2 = 0 then 0 else (assembled.2 : Int) - 1 + sizeType
    let cells := if assembled.2 = 0 then assembled.1 else storeLength assembled.1 len
    (outgoing.alloc input.object).write input.object
      { buffer := cells, size := dword (len + 3 - sizeType), ref := 1 }

def CSocketServer.send (mode : SocketMode) (outgoing : Outgoing) (input : SendInput) :
    Option Outgoing :=
  if mode = .close then some outgoing else sendFrame packetSizeType outgoing input

def sendSocket (pSocket : Option Outgoing) (input : SendInput) :
    Option (Bool × Option Outgoing) :=
  match pSocket with
  | none => some (false, none)
  | some outgoing =>
      (sendFrame packetSizeType outgoing input).map fun after => (true, some after)

def sendSocketEx (config : CipherConfig) (pSocket : Option ClientLink) (input : SendInput) :
    Option (Bool × Option ClientLink) :=
  match pSocket with
  | none => some (false, none)
  | some client =>
      input.assembled.bind fun assembled =>
        let len : Int := if assembled.2 = 0 then 0 else (assembled.2 : Int) - 1
        let umMode := if assembled.1 2 = acPlayOk then .playOk else client.umMode
        let tmplen := (len + 1).toNat
        match client.encPacket with
        | none => none
        | some encPacket =>
            let encrypted := encPacket.apply config assembled.1 2 client.encOneTimeKey tmplen
            let tmplen := encrypted.2.2
            if 2 + tmplen > bufferSize then none
            else
              let len2 : Int := (tmplen : Int) - 1 + packetSizeType
              ((client.outgoing.alloc input.object).write input.object
                { buffer := storeLength encrypted.1 len2
                  size := dword ((tmplen : Int) + 2), ref := 1 }).map fun after =>
                (true, some { client with
                  umMode := umMode, encOneTimeKey := encrypted.2.1, outgoing := after })

/-- The assembled packet is written only where it fits. -/
def CSocketServerEx.send (tick : Nat) (client : ClientLink) (input : SendInput) :
    Option ClientLink :=
  if client.mode = .close then some client
  else
    input.assembled.bind fun assembled =>
      let outgoing := client.outgoing.alloc input.object
      if assembled.2 = 0 then some { client with outgoing := outgoing }
      else
        let len : Int := (assembled.2 : Int) - 1 + packetSizeType
        let tmplen := len + 1 - packetSizeType
        let len := tmplen - 1 + packetSizeType
        (outgoing.write input.object
          { buffer := storeLength assembled.1 len
            size := dword (tmplen + 2), ref := 1 }).map fun after =>
          { client with outgoing := after, lastIO := tick }

def CSocketServerEx.nonEncSend (tick : Nat) (client : ClientLink) (input : SendInput) :
    Option ClientLink :=
  if client.mode = .close then some client
  else
    (sendFrame packetSizeType client.outgoing input).map fun after =>
      { client with outgoing := after, lastIO := tick }

/-- `CIPSocket::Send`, whose frames carry the length without `PacketSizeType`. -/
def CIPSocket.send (useIPServer : Bool) (link : IPLink) (input : SendInput) :
    Option (Bool × IPLink) :=
  if link.mode = .close ∨ link.ipServerReconnect = true ∨ useIPServer = false then
    some (false, link)
  else
    (sendFrame 0 link.outgoing input).map fun after => (true, { link with outgoing := after })

/-- A call of one of the senders on the connection it is for. -/
inductive SendCall where
  | serverSend (mode : SocketMode) (outgoing : Outgoing)
  | sendSocket (pSocket : Option Outgoing)
  | sendSocketEx (config : CipherConfig) (pSocket : Option ClientLink)
  | clientSend (tick : Nat) (client : ClientLink)
  | nonEncSend (tick : Nat) (client : ClientLink)
  | ipSend (useIPServer : Bool) (link : IPLink)

namespace SendCall

def target : SendCall → Option Outgoing
  | .serverSend mode outgoing => if mode = .close then none else some outgoing
  | .sendSocket pSocket => pSocket
  | .sendSocketEx _ pSocket => pSocket.map ClientLink.outgoing
  | .clientSend _ client => if client.mode = .close then none else some client.outgoing
  | .nonEncSend _ client => if client.mode = .close then none else some client.outgoing
  | .ipSend useIPServer link =>
      if link.mode = .close ∨ link.ipServerReconnect = true ∨ useIPServer = false then none
      else some link.outgoing

def run (call : SendCall) (input : SendInput) : Option Outgoing :=
  match call with
  | .serverSend mode outgoing => CSocketServer.send mode outgoing input
  | .sendSocket pSocket => (AuthServer.sendSocket pSocket input).bind Prod.snd
  | .sendSocketEx config pSocket =>
      ((AuthServer.sendSocketEx config pSocket input).bind Prod.snd).map ClientLink.outgoing
  | .clientSend tick client =>
      (CSocketServerEx.send tick client input).map ClientLink.outgoing
  | .nonEncSend tick client =>
      (CSocketServerEx.nonEncSend tick client input).map ClientLink.outgoing
  | .ipSend useIPServer link =>
      (CIPSocket.send useIPServer link input).map fun result => result.2.outgoing

def rule : SendCall → LengthRule
  | .serverSend _ _ => CSocketServer.lengthRule
  | .sendSocket _ => CSocketServer.lengthRule
  | .sendSocketEx _ _ => CSocketServerEx.lengthRule
  | .clientSend _ _ => CSocketServerEx.lengthRule
  | .nonEncSend _ _ => CSocketServerEx.lengthRule
  | .ipSend _ _ => CIPSocket.lengthRule

/-- One frame behind what was queued, with the length its receiver expects. -/
def FrameQueued (rule : LengthRule) (before after : Outgoing) : Prop :=
  ∃ low high body, after.output.bytes = before.output.bytes ++ low :: high :: body ∧
    rule.packetLen low high = (body.length : Int)

/-- A packet that does not fit leaves the queue and the pool as they were; any
other packet is queued as one frame. -/
def Delivers (call : SendCall) (input : SendInput) : Prop :=
  ∀ before, call.target = some before → ∀ cells len, input.assembled = some (cells, len) →
    ∃ after, call.run input = some after ∧ (len = 0 → after = before) ∧
      (len ≠ 0 → FrameQueued call.rule before after)

/-- For how many bytes of fields the call is right, when it gets as far as
`Assemble`. -/
def Fits (call : SendCall) (size : Nat) : Prop :=
  call.target.isSome = true →
    match call with
    | .serverSend _ _ => True
    | .sendSocket _ => True
    | .nonEncSend _ _ => True
    | .clientSend _ _ => 0 < size ∧ size ≤ 20478
    | .ipSend _ _ => 0 < size ∧ size ≤ 20478
    | .sendSocketEx _ pSocket =>
        match pSocket.bind ClientLink.encPacket with
        | none => False
        | some .encrypt => 0 < size ∧ size ≤ 20478
        | some .blowFishEncryptPacket => 0 < size ∧ size ≤ 20464

end SendCall

theorem lengthBytes_value (value : Nat) (bound : value < 65536) :
    (UInt8.ofInt value).toNat + 256 * (UInt8.ofInt ((value : Int) >>> (8 : Nat))).toNat = value := by
  rw [UInt8.ofInt, UInt8.ofInt, UInt8.toNat_ofNat', UInt8.toNat_ofNat',
    Int.shiftRight_eq_div_pow]
  omega

theorem frame_contents (cells : Nat → UInt8) (len : Int) (count : Nat) :
    ({ buffer := storeLength cells len, size := count + 2, ref := 1 } : CIOBuffer).contents =
      UInt8.ofInt len :: UInt8.ofInt (len >>> (8 : Nat)) :: slice cells 2 count := by
  unfold CIOBuffer.contents storeLength
  rw [Nat.add_comm count 2, slice_append, Nat.zero_add]
  have front := slice_store_same cells 0 [UInt8.ofInt len, UInt8.ofInt (len >>> (8 : Nat))]
  have behind := slice_store_after cells 2 count 0
    [UInt8.ofInt len, UInt8.ofInt (len >>> (8 : Nat))] (Nat.le_refl 2)
  rw [show slice _ 0 2 = _ from front, behind]
  rfl

namespace Outgoing

theorem write_empty (outgoing : Outgoing) (object : Nat) (buf : CIOBuffer)
    (empty : buf.size = 0) : (outgoing.alloc object).write object buf = some outgoing := by
  rw [write, if_pos empty]
  simp only [free, alloc, List.erase_cons_head]

theorem write_bytes (outgoing : Outgoing) (object : Nat) (buf : CIOBuffer)
    (filled : buf.size ≠ 0) (within : buf.size ≤ bufferSize) :
    ∃ after, outgoing.write object buf = some after ∧
      after.output.bytes = outgoing.output.bytes ++ buf.contents := by
  unfold write
  rw [if_neg filled, dif_pos within]
  simp only
  split
  · exact ⟨_, rfl, OutputQueue.enqueue_bytes _ _⟩
  · exact ⟨_, rfl, OutputQueue.enqueue_bytes _ _⟩
  · exact ⟨_, rfl, OutputQueue.enqueue_bytes _ _⟩

theorem write_changes (outgoing after : Outgoing) (object : Nat) (buf : CIOBuffer)
    (filled : buf.size ≠ 0) (wrote : (outgoing.alloc object).write object buf = some after) :
    after ≠ outgoing := by
  intro same
  by_cases within : buf.size ≤ bufferSize
  · obtain ⟨other, written, bytes⟩ :=
      (outgoing.alloc object).write_bytes object buf filled within
    rw [wrote, Option.some.injEq] at written
    rw [← written, same] at bytes
    have lengths := congrArg List.length bytes
    rw [List.length_append, CIOBuffer.contents_length] at lengths
    have kept : (outgoing.alloc object).output = outgoing.output := rfl
    rw [kept] at lengths
    omega
  · rw [write, if_neg filled, dif_neg within] at wrote
    contradiction

/-- The frame of `count` bytes is queued with its length bytes in front. -/
theorem write_frame (outgoing : Outgoing) (object : Nat) (cells : Nat → UInt8) (len : Int)
    (count : Nat) (fits : count + 2 ≤ bufferSize) :
    ∃ after, (outgoing.alloc object).write object
        { buffer := storeLength cells len, size := count + 2, ref := 1 } = some after ∧
      after.output.bytes = outgoing.output.bytes ++
        UInt8.ofInt len :: UInt8.ofInt (len >>> (8 : Nat)) :: slice cells 2 count := by
  obtain ⟨after, wrote, bytes⟩ := (outgoing.alloc object).write_bytes object
    { buffer := storeLength cells len, size := count + 2, ref := 1 } (Nat.succ_ne_zero _) fits
  rw [frame_contents] at bytes
  exact ⟨after, wrote, bytes⟩

end Outgoing

/-- Both classes with `PacketSizeType` in their lengths read this length back. -/
theorem frameQueued_of_bytes (rule : LengthRule) (before after : Outgoing)
    (cells : Nat → UInt8) (len : Int) (count : Nat)
    (bytes : after.output.bytes = before.output.bytes ++
      UInt8.ofInt len :: UInt8.ofInt (len >>> (8 : Nat)) :: slice cells 2 count)
    (readBack : rule.packetLen (UInt8.ofInt len) (UInt8.ofInt (len >>> (8 : Nat))) = count) :
    SendCall.FrameQueued rule before after :=
  ⟨_, _, _, bytes, by rw [readBack, slice_length]⟩

theorem serverRule_readBack (count : Nat) (fits : count + 2 ≤ bufferSize) (len : Int)
    (value : len = count + 2) :
    CSocketServer.lengthRule.packetLen (UInt8.ofInt len) (UInt8.ofInt (len >>> (8 : Nat))) = count := by
  have exact_ := lengthBytes_value (count + 2) (by unfold bufferSize at fits; omega)
  rw [value, show ((count : Int) + 2) = ((count + 2 : Nat) : Int) from rfl]
  simp only [CSocketServer.lengthRule, packetSizeType]
  omega

theorem clientRule_readBack (count : Nat) (fits : count + 2 ≤ bufferSize) (len : Int)
    (value : len = count + 2) :
    CSocketServerEx.lengthRule.packetLen (UInt8.ofInt len) (UInt8.ofInt (len >>> (8 : Nat))) =
      count := by
  have exact_ := lengthBytes_value (count + 2) (by unfold bufferSize at fits; omega)
  rw [value, show ((count : Int) + 2) = ((count + 2 : Nat) : Int) from rfl]
  simp only [CSocketServerEx.lengthRule]
  omega

theorem ipRule_readBack (count : Nat) (positive : count ≠ 0) (fits : count + 2 ≤ bufferSize)
    (len : Int) (value : len = count - 1) :
    CIPSocket.lengthRule.packetLen (UInt8.ofInt len) (UInt8.ofInt (len >>> (8 : Nat))) = count := by
  have exact_ := lengthBytes_value (count - 1) (by unfold bufferSize at fits; omega)
  rw [value, show ((count : Int) - 1) = ((count - 1 : Nat) : Int) by omega]
  simp only [CIPSocket.lengthRule]
  omega

/-- `Assemble` returns the length of all fields where they fit, else zero. -/
theorem SendInput.assembled_spec (input : SendInput) (bytes : List UInt8)
    (encoded : encoding input.format input.args = some bytes) :
    ∃ cells len, input.assembled = some (cells, len) ∧ len ≤ 20478 ∧
      (len = 0 ∧ ¬ (0 < bytes.length ∧ bytes.length ≤ 20478) ∨
        len = bytes.length ∧ 0 < bytes.length) := by
  rcases assemble_spec input.recycled 2 (bufferSize - 2) input.format input.args bytes encoded
    with ⟨room, finished⟩ | ⟨excess, _, _, _, overflow⟩
  · refine ⟨_, bytes.length, finished, room, ?_⟩
    rcases Nat.eq_zero_or_pos bytes.length with empty | positive
    · exact Or.inl ⟨empty, by omega⟩
    · exact Or.inr ⟨rfl, positive⟩
  · refine ⟨_, 0, overflow, Nat.zero_le _, Or.inl ⟨rfl, ?_⟩⟩
    change 20478 < bytes.length at excess
    omega

theorem dword_of_nat (value : Nat) (bound : value < 4294967296) :
    dword (value : Int) = value := by
  unfold dword
  omega

section SendFrame

variable (outgoing : Outgoing) (input : SendInput) (cells : Nat → UInt8)

theorem sendFrame_filled (sizeType : Int) (len : Nat)
    (assembled : input.assembled = some (cells, len)) (filled : len ≠ 0)
    (fits : len + 2 ≤ bufferSize) :
    ∃ after, sendFrame sizeType outgoing input = some after ∧
      after.output.bytes = outgoing.output.bytes ++
        UInt8.ofInt ((len : Int) - 1 + sizeType) ::
          UInt8.ofInt (((len : Int) - 1 + sizeType) >>> (8 : Nat)) :: slice cells 2 len := by
  have size : dword ((len : Int) - 1 + sizeType + 3 - sizeType) = len + 2 := by
    rw [show (len : Int) - 1 + sizeType + 3 - sizeType = ((len + 2 : Nat) : Int) by omega]
    unfold bufferSize at fits
    exact dword_of_nat (len + 2) (by omega)
  unfold sendFrame
  rw [assembled]
  simp only [Option.bind_some, if_neg filled, size]
  exact outgoing.write_frame input.object cells _ len fits

theorem sendFrame_empty (sizeType : Int) (assembled : input.assembled = some (cells, 0)) :
    sendFrame sizeType outgoing input =
      (outgoing.alloc input.object).write input.object
        { buffer := cells, size := dword (3 - sizeType), ref := 1 } := by
  unfold sendFrame
  rw [assembled]
  simp only [Option.bind_some, if_true, Int.zero_add]

/-- With `PacketSizeType` in the length the size of a failed packet comes out
as zero, and `Write` frees its buffer. -/
theorem sendFrame_delivers (rule : LengthRule) (len : Nat)
    (assembled : input.assembled = some (cells, len)) (fits : len + 2 ≤ bufferSize)
    (readBack : ∀ value : Int, value = len + 2 →
      rule.packetLen (UInt8.ofInt value) (UInt8.ofInt (value >>> (8 : Nat))) = len) :
    ∃ after, sendFrame packetSizeType outgoing input = some after ∧
      (len = 0 → after = outgoing) ∧
      (len ≠ 0 → SendCall.FrameQueued rule outgoing after) := by
  by_cases failed : len = 0
  · subst failed
    have freed := sendFrame_empty outgoing input cells packetSizeType assembled
    rw [outgoing.write_empty input.object _ rfl] at freed
    exact ⟨outgoing, freed, fun _ => rfl, fun filled => absurd rfl filled⟩
  · obtain ⟨after, sent, bytes⟩ :=
      sendFrame_filled outgoing input cells packetSizeType len assembled failed fits
    have value : (len : Int) - 1 + packetSizeType = len + 2 := by
      unfold packetSizeType
      omega
    exact ⟨after, sent, fun empty => absurd empty failed, fun _ =>
      frameQueued_of_bytes rule outgoing after cells _ len bytes (readBack _ value)⟩

/-- Without it three bytes of the recycled memory are queued. -/
theorem sendFrame_leftovers (after : Outgoing) (assembled : input.assembled = some (cells, 0))
    (sent : sendFrame 0 outgoing input = some after) : after ≠ outgoing := by
  rw [sendFrame_empty outgoing input cells 0 assembled] at sent
  exact outgoing.write_changes after input.object _ (Nat.succ_ne_zero 2) sent

end SendFrame

theorem CSocketServerEx.send_filled (tick : Nat) (client : ClientLink) (input : SendInput)
    (cells : Nat → UInt8) (len : Nat) (assembled : input.assembled = some (cells, len))
    (isOpen : ¬ client.mode = .close) (filled : len ≠ 0) (fits : len + 2 ≤ bufferSize) :
    ∃ after, CSocketServerEx.send tick client input =
        some { client with outgoing := after, lastIO := tick } ∧
      after.output.bytes = client.outgoing.output.bytes ++
        UInt8.ofInt ((len : Int) + 2) :: UInt8.ofInt (((len : Int) + 2) >>> (8 : Nat)) ::
          slice cells 2 len := by
  have value : (len : Int) - 1 + packetSizeType + 1 - packetSizeType - 1 + packetSizeType =
      len + 2 := by
    unfold packetSizeType
    omega
  have size : dword ((len : Int) - 1 + packetSizeType + 1 - packetSizeType + 2) =
      len + 2 := by
    rw [show (len : Int) - 1 + packetSizeType + 1 - packetSizeType + 2 =
      ((len + 2 : Nat) : Int) by omega]
    exact dword_of_nat (len + 2) (by unfold bufferSize at fits; omega)
  obtain ⟨after, sent, bytes⟩ :=
    client.outgoing.write_frame input.object cells ((len : Int) + 2) len fits
  refine ⟨after, ?_, bytes⟩
  unfold CSocketServerEx.send
  simp only [if_neg isOpen, assembled, Option.bind_some, if_neg filled, size, value, sent,
    Option.map_some]

/-- A packet that does not fit is treated as one byte. -/
theorem tmplen_value (len : Nat) :
    ((if len = 0 then (0 : Int) else (len : Int) - 1) + 1).toNat = if len = 0 then 1 else len := by
  split
  · rfl
  · omega

section SendSocketEx

variable (config : CipherConfig) (client : ClientLink) (input : SendInput)
  (cells : Nat → UInt8) (len : Nat) (assembled : input.assembled = some (cells, len))

include assembled

theorem sendSocketEx_beyond (encPacket : EncPacketType)
    (selected : client.encPacket = some encPacket)
    (beyond : bufferSize < 2 + encPacket.length (if len = 0 then 1 else len)) :
    sendSocketEx config (some client) input = none := by
  unfold sendSocketEx
  simp only [assembled, Option.bind_some, selected, tmplen_value, EncPacketType.apply_length]
  rw [if_pos beyond]

theorem sendSocketEx_frame (encPacket : EncPacketType)
    (selected : client.encPacket = some encPacket) (count : Nat)
    (made : count = encPacket.length (if len = 0 then 1 else len))
    (fits : count + 2 ≤ bufferSize) :
    let encrypted := encPacket.apply config cells 2 client.encOneTimeKey
      (if len = 0 then 1 else len)
    ∃ after, sendSocketEx config (some client) input =
        some (true, some { client with
          umMode := if cells 2 = acPlayOk then .playOk else client.umMode
          encOneTimeKey := encrypted.2.1
          outgoing := after }) ∧
      after ≠ client.outgoing ∧
      after.output.bytes = client.outgoing.output.bytes ++
        UInt8.ofInt ((count : Int) + 2) :: UInt8.ofInt (((count : Int) + 2) >>> (8 : Nat)) ::
          slice encrypted.1 2 count := by
  have size : dword ((count : Int) + 2) = count + 2 :=
    dword_of_nat (count + 2) (by unfold bufferSize at fits; omega)
  have value : (count : Int) - 1 + packetSizeType = count + 2 := by
    unfold packetSizeType
    omega
  have within : ¬ 2 + count > bufferSize := by omega
  obtain ⟨after, sent, bytes⟩ := client.outgoing.write_frame input.object
    (encPacket.apply config cells 2 client.encOneTimeKey (if len = 0 then 1 else len)).1
    ((count : Int) + 2) count fits
  refine ⟨after, ?_, client.outgoing.write_changes after input.object _ (Nat.succ_ne_zero _)
    sent, bytes⟩
  unfold sendSocketEx
  simp only [assembled, Option.bind_some, selected, tmplen_value, EncPacketType.apply_length,
    ← made]
  rw [if_neg within, value, size, sent, Option.map_some]

theorem sendSocketEx_cases (encPacket : EncPacketType)
    (selected : client.encPacket = some encPacket) (count : Nat)
    (made : count = encPacket.length (if len = 0 then 1 else len)) :
    (bufferSize < 2 + count ∧ (SendCall.sendSocketEx config (some client)).run input = none) ∨
      (2 + count ≤ bufferSize ∧ ∃ after,
        (SendCall.sendSocketEx config (some client)).run input = some after ∧
          after ≠ client.outgoing ∧
          SendCall.FrameQueued CSocketServerEx.lengthRule client.outgoing after) := by
  by_cases excess : bufferSize < 2 + count
  · refine Or.inl ⟨excess, ?_⟩
    rw [SendCall.run, sendSocketEx_beyond config client input cells len assembled encPacket
      selected (made ▸ excess)]
    rfl
  · refine Or.inr ⟨Nat.le_of_not_lt excess, ?_⟩
    have fits : count + 2 ≤ bufferSize := by omega
    obtain ⟨after, sent, changed, bytes⟩ := sendSocketEx_frame config client input cells
      len assembled encPacket selected count made fits
    refine ⟨after, ?_, changed, ?_⟩
    · rw [SendCall.run, sent]
      rfl
    · exact frameQueued_of_bytes _ client.outgoing after _ _ count bytes
        (clientRule_readBack count fits _ rfl)

end SendSocketEx

namespace SendCall

/-- What a call owes, once it is known what `Assemble` gave. -/
def Outcome (call : SendCall) (input : SendInput) (before : Outgoing) (len : Nat) : Prop :=
  ∃ after, call.run input = some after ∧ (len = 0 → after = before) ∧
    (len ≠ 0 → FrameQueued call.rule before after)

theorem delivers_iff_outcome (call : SendCall) (input : SendInput) (cells : Nat → UInt8)
    (len : Nat) (assembled : input.assembled = some (cells, len)) :
    call.Delivers input ↔ ∀ before, call.target = some before →
      call.Outcome input before len := by
  constructor
  · intro delivers before target
    exact delivers before target cells len assembled
  · intro outcome before target other count same
    rw [assembled, Option.some.injEq, Prod.mk.injEq] at same
    obtain ⟨_, rfl⟩ := same
    exact outcome before target

/-- A call that queues something although `Assemble` failed is wrong. -/
theorem not_outcome_of_changed (call : SendCall) (input : SendInput) (before : Outgoing)
    (changed : ∀ after, call.run input = some after → after ≠ before) :
    ¬ call.Outcome input before 0 := by
  intro outcome
  obtain ⟨after, ran, unchanged, _⟩ := outcome
  exact changed after ran (unchanged rfl)

theorem open_of_target {closed : Prop} [Decidable closed] {outgoing before : Outgoing}
    (target : (if closed then none else some outgoing) = some before) :
    ¬ closed ∧ outgoing = before := by
  split at target
  · contradiction
  · rename_i isOpen
    exact ⟨isOpen, Option.some.inj target⟩

theorem serverSend_outcome (mode : SocketMode) (outgoing before : Outgoing)
    (input : SendInput) (cells : Nat → UInt8) (len : Nat)
    (assembled : input.assembled = some (cells, len)) (fits : len + 2 ≤ bufferSize)
    (target : (serverSend mode outgoing).target = some before) :
    (serverSend mode outgoing).Outcome input before len := by
  obtain ⟨isOpen, rfl⟩ := open_of_target target
  unfold Outcome run CSocketServer.send
  simp only [if_neg isOpen]
  exact sendFrame_delivers outgoing input cells CSocketServer.lengthRule len assembled fits
    (serverRule_readBack len fits)

theorem sendSocket_outcome (outgoing : Outgoing) (input : SendInput) (cells : Nat → UInt8)
    (len : Nat) (assembled : input.assembled = some (cells, len))
    (fits : len + 2 ≤ bufferSize) :
    (sendSocket (some outgoing)).Outcome input outgoing len := by
  obtain ⟨after, sent, holds⟩ := sendFrame_delivers outgoing input cells
    CSocketServer.lengthRule len assembled fits (serverRule_readBack len fits)
  refine ⟨after, ?_, holds⟩
  simp only [run, AuthServer.sendSocket, sent, Option.map_some, Option.bind_some]

theorem nonEncSend_outcome (tick : Nat) (client : ClientLink) (before : Outgoing)
    (input : SendInput) (cells : Nat → UInt8) (len : Nat)
    (assembled : input.assembled = some (cells, len)) (fits : len + 2 ≤ bufferSize)
    (target : (nonEncSend tick client).target = some before) :
    (nonEncSend tick client).Outcome input before len := by
  obtain ⟨isOpen, rfl⟩ := open_of_target target
  obtain ⟨after, sent, holds⟩ := sendFrame_delivers client.outgoing input cells
    CSocketServerEx.lengthRule len assembled fits (clientRule_readBack len fits)
  refine ⟨after, ?_, holds⟩
  simp only [run, CSocketServerEx.nonEncSend, if_neg isOpen, sent, Option.map_some]

/-- The buffer of a packet that does not fit stays out of the pool. -/
theorem clientSend_outcome_iff (tick : Nat) (client : ClientLink) (before : Outgoing)
    (input : SendInput) (cells : Nat → UInt8) (len : Nat)
    (assembled : input.assembled = some (cells, len)) (fits : len + 2 ≤ bufferSize)
    (target : (clientSend tick client).target = some before) :
    (clientSend tick client).Outcome input before len ↔ len ≠ 0 := by
  obtain ⟨isOpen, rfl⟩ := open_of_target target
  constructor
  · intro outcome empty
    subst empty
    apply not_outcome_of_changed (clientSend tick client) input client.outgoing ?_ outcome
    intro after ran same
    unfold run CSocketServerEx.send at ran
    simp only [if_neg isOpen, assembled, Option.bind_some, if_true, Option.map_some,
      Option.some.injEq] at ran
    have lengths := congrArg (fun state : Outgoing => state.inUse.length) (ran.trans same)
    simp only [Outgoing.alloc, List.length_cons] at lengths
    omega
  · intro filled
    obtain ⟨after, sent, bytes⟩ :=
      CSocketServerEx.send_filled tick client input cells len assembled isOpen filled fits
    refine ⟨after, ?_, fun empty => absurd empty filled, fun _ =>
      frameQueued_of_bytes _ client.outgoing after cells _ len bytes
        (clientRule_readBack len fits _ rfl)⟩
    rw [run, sent, Option.map_some]

theorem ipSend_outcome_iff (useIPServer : Bool) (link : IPLink) (before : Outgoing)
    (input : SendInput) (cells : Nat → UInt8) (len : Nat)
    (assembled : input.assembled = some (cells, len)) (fits : len + 2 ≤ bufferSize)
    (target : (ipSend useIPServer link).target = some before) :
    (ipSend useIPServer link).Outcome input before len ↔ len ≠ 0 := by
  obtain ⟨isOpen, rfl⟩ := open_of_target target
  have ran : (ipSend useIPServer link).run input = sendFrame 0 link.outgoing input := by
    unfold run CIPSocket.send
    simp only [if_neg isOpen]
    cases sendFrame 0 link.outgoing input with
    | none => rfl
    | some after => rfl
  constructor
  · intro outcome empty
    subst empty
    apply not_outcome_of_changed (ipSend useIPServer link) input link.outgoing ?_ outcome
    intro after sent
    rw [ran] at sent
    exact sendFrame_leftovers link.outgoing input cells after assembled sent
  · intro filled
    obtain ⟨after, sent, bytes⟩ :=
      sendFrame_filled link.outgoing input cells 0 len assembled filled fits
    exact ⟨after, ran.trans sent, fun empty => absurd empty filled, fun _ =>
      frameQueued_of_bytes _ link.outgoing after cells _ len bytes
        (ipRule_readBack len filled fits _ (Int.add_zero _))⟩

theorem sendSocketEx_outcome_iff (config : CipherConfig) (client : ClientLink)
    (input : SendInput) (cells : Nat → UInt8) (len : Nat)
    (assembled : input.assembled = some (cells, len)) :
    (sendSocketEx config (some client)).Outcome input client.outgoing len ↔
      len ≠ 0 ∧ ∃ encPacket, client.encPacket = some encPacket ∧
        2 + encPacket.length len ≤ bufferSize := by
  cases selected : client.encPacket with
  | none =>
      constructor
      · intro outcome
        obtain ⟨after, ran, _⟩ := outcome
        unfold run AuthServer.sendSocketEx at ran
        simp only [assembled, Option.bind_some, selected, Option.bind_none,
          Option.map_none] at ran
        contradiction
      · intro holds
        obtain ⟨_, encPacket, impossible, _⟩ := holds
        contradiction
  | some encPacket =>
      have ways := sendSocketEx_cases config client input cells len assembled
        encPacket selected _ rfl
      by_cases empty : len = 0
      · subst empty
        constructor
        · refine fun outcome => absurd outcome (not_outcome_of_changed _ input _ ?_)
          intro after ran
          rcases ways with ⟨_, undefined⟩ | ⟨_, other, ranOther, changed, _⟩
          · rw [undefined] at ran
            contradiction
          · rw [ran, Option.some.injEq] at ranOther
            rw [ranOther]
            exact changed
        · exact fun holds => absurd rfl holds.1
      · rw [if_neg empty] at ways
        constructor
        · intro outcome
          obtain ⟨after, ran, _⟩ := outcome
          rcases ways with ⟨_, undefined⟩ | ⟨fits, _⟩
          · rw [undefined] at ran
            contradiction
          · exact ⟨empty, encPacket, rfl, fits⟩
        · intro holds
          obtain ⟨_, other, same, fits⟩ := holds
          cases same
          rcases ways with ⟨excess, _⟩ | ⟨_, after, ran, _, queued⟩
          · omega
          · exact ⟨after, ran, fun none => absurd none empty, fun _ => queued⟩

/-- Each sender is right for exactly these sizes of a packet. -/
theorem delivers_iff (call : SendCall) (input : SendInput) (bytes : List UInt8)
    (encoded : encoding input.format input.args = some bytes) :
    call.Delivers input ↔ call.Fits bytes.length := by
  obtain ⟨cells, len, assembled, bound, size⟩ := input.assembled_spec bytes encoded
  have fits : len + 2 ≤ bufferSize := by
    unfold bufferSize
    omega
  have filled : len ≠ 0 ↔ 0 < bytes.length ∧ bytes.length ≤ 20478 := by omega
  rw [delivers_iff_outcome call input cells len assembled]
  cases target : call.target with
  | none =>
      constructor
      · intro _ reached
        rw [target] at reached
        contradiction
      · intro _ before impossible
        contradiction
  | some before =>
      have only : (∀ other, some before = some other → call.Outcome input other len) ↔
          call.Outcome input before len :=
        ⟨fun all => all before rfl, fun holds other same => Option.some.inj same ▸ holds⟩
      rw [only]
      unfold Fits
      rw [target, forall_prop_of_true Option.isSome_some]
      cases call with
      | serverSend mode outgoing =>
          exact iff_of_true
            (serverSend_outcome mode outgoing before input cells len assembled fits target)
            trivial
      | sendSocket pSocket =>
          change pSocket = some before at target
          subst target
          exact iff_of_true (sendSocket_outcome before input cells len assembled fits) trivial
      | nonEncSend tick client =>
          exact iff_of_true
            (nonEncSend_outcome tick client before input cells len assembled fits target)
            trivial
      | clientSend tick client =>
          rw [clientSend_outcome_iff tick client before input cells len assembled fits target]
          exact filled
      | ipSend useIPServer link =>
          rw [ipSend_outcome_iff useIPServer link before input cells len assembled fits target]
          exact filled
      | sendSocketEx config pSocket =>
          obtain ⟨client, found, own⟩ := Option.map_eq_some_iff.mp target
          subst found own
          rw [sendSocketEx_outcome_iff config client input cells len assembled]
          simp only [Option.bind_some]
          cases selected : client.encPacket with
          | none => simp
          | some encPacket =>
              simp only [Option.some.injEq, exists_eq_left']
              cases encPacket with
              | encrypt =>
                  simp only [EncPacketType.length]
                  rw [filled]
                  omega
              | blowFishEncryptPacket =>
                  simp only [EncPacketType.length, bufferSize]
                  omega

/-- `Send("cc", 255, 15)` to a client that has just connected. -/
theorem small_reply_delivered :
    (clientSend 0 ⟨.readLen, .preLogin, 0, none, 0, ⟨OutputQueue.empty, []⟩⟩).Delivers
      ⟨0, fun _ => 0, ['c', 'c'], [.int 255, .int 15]⟩ := by
  apply (delivers_iff _ _ [255, 15] rfl).mpr
  intro _
  exact ⟨by decide, by decide⟩

def oversizedInput : SendInput :=
  ⟨0, fun _ => 0, ['b'], [.int 20479, .block (List.replicate 20479 0)]⟩

theorem oversizedInput_encoding :
    encoding oversizedInput.format oversizedInput.args = some (List.replicate 20479 0) := by
  have room : (0 : Int) ≤ (20479 : Int32).toInt ∧
      (20479 : Int32).toInt ≤ ((List.replicate 20479 (0 : UInt8)).length : Int) := by
    rw [List.length_replicate]
    decide
  have whole : (List.replicate 20479 (0 : UInt8)).take (20479 : Int32).toInt.toNat =
      List.replicate 20479 0 := by
    rw [List.take_replicate]
    rfl
  have taken : take 'b' oversizedInput.args =
      .field 20479 (some (List.replicate 20479 0)) [] := by
    change takeBlock [.int 20479, .block (List.replicate 20479 0)] = _
    unfold takeBlock
    simp only [if_pos room, whole]
    rfl
  rw [show oversizedInput.format = ['b'] from rfl, encoding, taken]
  simp only [encoding, Option.map_some, List.append_nil]

/-- `CSocketServerEx::Send` queues nothing of it, but its buffer does not go
back to the pool. -/
theorem oversized_packet_leaks :
    ¬ ∀ (call : SendCall) (input : SendInput) (bytes : List UInt8),
      encoding input.format input.args = some bytes → call.Delivers input := by
  intro claimed
  let client : ClientLink := ⟨.readLen, .preLogin, 0, none, 0, ⟨OutputQueue.empty, []⟩⟩
  obtain ⟨cells, len, assembled, bound, size⟩ :=
    oversizedInput.assembled_spec _ oversizedInput_encoding
  rw [List.length_replicate] at size
  have failed : len = 0 := by omega
  have delivers := claimed (clientSend 0 client) oversizedInput _ oversizedInput_encoding
  have outcome := (delivers_iff_outcome _ _ cells len assembled).mp delivers _ rfl
  exact (clientSend_outcome_iff 0 client _ oversizedInput cells len assembled
    (by unfold bufferSize; omega) rfl).mp outcome failed

end SendCall

end AuthServer
