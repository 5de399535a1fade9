/-
A connection from its senders to its reader.

Any threads pass formatted packets to one connection, their frames wait in its output queue,
`WSASend` hands them to the network piece by piece, and the network delivers them to a reader
of the same class, cut in any way.  A frame counts as sent when the section of `Write` under
the lock is done; `sent` is a history variable.
-/

import AuthServer.ClientFrames
import AuthServer.StreamReader
import AuthServer.WriteSide

set_option autoImplicit false

namespace AuthServer

open LinearMemory

structure WireKind where
  rule : LengthRule
  sizeType : Int
  header : rule.headerBytes ≤ 3
  readBack : ∀ (count : Nat) (len : Int), count ≠ 0 → count + 2 ≤ bufferSize →
    len = count - 1 + sizeType →
      rule.packetLen (UInt8.ofInt len) (UInt8.ofInt (len >>> (8 : Nat))) = count

def CSocketServer.wireKind : WireKind where
  rule := CSocketServer.lengthRule
  sizeType := packetSizeType
  header := by decide
  readBack count len _ fits value :=
    serverRule_readBack count fits len (by rw [value]; unfold packetSizeType; omega)

def CSocketServerEx.wireKind : WireKind where
  rule := CSocketServerEx.lengthRule
  sizeType := packetSizeType
  header := by decide
  readBack count len _ fits value :=
    clientRule_readBack count fits len (by rw [value]; unfold packetSizeType; omega)

def CIPSocket.wireKind : WireKind where
  rule := CIPSocket.lengthRule
  sizeType := 0
  header := by decide
  readBack count len positive fits value :=
    ipRule_readBack count positive fits len (by omega)

/-- A call that `Assemble` accepts, with an opcode that the reader knows. -/
structure WireMessage (kind : WireKind) where
  input : SendInput
  packet : Packet
  encoded : encoding input.format input.args = some (packet.opcode :: packet.body)
  room : packet.body.length < 20478
  known : packet.opcode.toNat < kind.rule.opcodes

/-- The buffer that `sendFrame` passes to `Write`. -/
def frameBuffer (sizeType : Int) (input : SendInput) : Option CIOBuffer :=
  input.assembled.map fun assembled =>
    let len : Int := if assembled.2 = 0 then 0 else (assembled.2 : Int) - 1 + sizeType
    let cells := if assembled.2 = 0 then assembled.1 else storeLength assembled.1 len
    { buffer := cells, size := dword (len + 3 - sizeType), ref := 1 }

theorem sendFrame_frameBuffer (sizeType : Int) (outgoing : Outgoing) (input : SendInput) :
    sendFrame sizeType outgoing input =
      (frameBuffer sizeType input).bind fun buf =>
        (outgoing.alloc input.object).write input.object buf := by
  rw [sendFrame, frameBuffer]
  cases input.assembled with
  | none => rfl
  | some assembled => rfl

structure WireSystem where
  sender : WriteSide
  delivered : Nat
  reader : Connection
  sent : List Packet

inductive WireEvent (kind : WireKind) where
  | send (thread : Nat) (message : WireMessage kind)
  | wsaSend (thread : Nat) (accepted : Bool)
  | completed (thread : Nat) (dwTransferred : Nat)
  | sendFailed
  | closeSocket
  | deliver (count : Nat) (ref : Int) (recycled : Nat → UInt8)

namespace WireSystem

def moveSender (system : WireSystem) (event : WriteEvent) : Option WireSystem :=
  (system.sender.step event).map fun sender => { system with sender := sender }

def underway (system : WireSystem) : List UInt8 := system.sender.handed.drop system.delivered

def step (kind : WireKind) (system : WireSystem) : WireEvent kind → Option WireSystem
  | .send thread message =>
      (frameBuffer kind.sizeType message.input).bind fun buf =>
        (system.sender.step (.call thread buf.contents)).bind fun called =>
          (called.step (.write thread)).map fun sender =>
            { system with sender := sender, sent := system.sent ++ [message.packet] }
  | .wsaSend thread accepted => system.moveSender (.send thread accepted)
  | .completed thread dwTransferred => system.moveSender (.sent thread dwTransferred)
  | .sendFailed => system.moveSender .sendFailed
  | .closeSocket => system.moveSender .closeSocket
  | .deliver count ref recycled =>
      if arrived : system.underway.take count ≠ [] then
        (system.reader.onReadCallback kind.rule
          ⟨system.underway.take count, arrived, ref, recycled⟩).map fun reader =>
            { system with
              delivered := system.delivered + (system.underway.take count).length
              reader := reader }
      else none

def machine (kind : WireKind) : EventRuns.Machine WireSystem (WireEvent kind) := ⟨step kind⟩

end WireSystem

/-! ### Frames -/

namespace WireKind

variable (kind : WireKind)

def frame (packet : Packet) : List UInt8 :=
  let len : Int := packet.body.length + kind.sizeType
  UInt8.ofInt len :: UInt8.ofInt (len >>> (8 : Nat)) :: packet.opcode :: packet.body

/-- The packets that the reader of the class has a place and a handler for. -/
structure Takes (packet : Packet) : Prop where
  room : packet.body.length < 20478
  known : packet.opcode.toNat < kind.rule.opcodes

theorem frame_length (packet : Packet) : (kind.frame packet).length = packet.body.length + 3 := rfl

/-- What the senders pass to `Write` is the frame. -/
theorem frameBuffer_frame (message : WireMessage kind) :
    ∃ buf, frameBuffer kind.sizeType message.input = some buf ∧
      buf.contents = kind.frame message.packet := by
  let bytes := message.packet.opcode :: message.packet.body
  have room := message.room
  have length : bytes.length = message.packet.body.length + 1 := rfl
  have assembled := assembled_accepted message.input bytes message.encoded (by omega)
  have filled : bytes.length ≠ 0 := by omega
  have value : (bytes.length : Int) - 1 + kind.sizeType =
      message.packet.body.length + kind.sizeType := by omega
  have size : dword ((message.packet.body.length : Int) + kind.sizeType + 3 - kind.sizeType) =
      bytes.length + 2 := by
    rw [show (message.packet.body.length : Int) + kind.sizeType + 3 - kind.sizeType =
      ((bytes.length + 2 : Nat) : Int) by omega]
    exact dword_of_nat _ (by omega)
  rw [frameBuffer, assembled, Option.map_some]
  refine ⟨_, rfl, ?_⟩
  simp only [if_neg filled, value, size]
  rw [frame_contents, slice_store_same]
  rfl

theorem verdict_length (state : ReadState) (packet : Packet) (more : List UInt8)
    (isReady : state.mode = .readLen) (takes : kind.Takes packet) :
    kind.rule.verdict state (kind.frame packet ++ more) =
      .advance 2 none ⟨.readBody, ((packet.body.length + 1 : Nat) : Int)⟩ := by
  have room := takes.room
  have header := kind.header
  have readBack := kind.readBack (packet.body.length + 1) (packet.body.length + kind.sizeType)
    (Nat.succ_ne_zero _) (by unfold bufferSize; omega) (by omega)
  have long : ¬ (kind.frame packet ++ more).length < kind.rule.headerBytes := by
    rw [List.length_append, frame_length]
    omega
  have fits : ¬ (((packet.body.length + 1 : Nat) : Int) ≤ 0 ∨
      ((packet.body.length + 1 : Nat) : Int) > bufferSize) := by
    unfold bufferSize
    omega
  rcases state with ⟨mode, packetLen⟩
  cases (isReady : mode = .readLen)
  simp only [frame, List.cons_append] at long ⊢
  simp only [LengthRule.verdict, if_neg long, readBack, if_neg fits]

theorem verdict_body (packet : Packet) (more : List UInt8) (takes : kind.Takes packet) :
    kind.rule.verdict ⟨.readBody, ((packet.body.length + 1 : Nat) : Int)⟩
        (packet.opcode :: packet.body ++ more) =
      .advance (packet.body.length + 1) (some packet)
        ⟨.readLen, ((packet.body.length + 1 : Nat) : Int)⟩ := by
  have known := Nat.not_le_of_lt takes.known
  have long : ¬ (((packet.body.length + 1 : Nat) : Int) ≤ 0 ∨
      ((packet.opcode :: (packet.body ++ more)).length : Int) <
        ((packet.body.length + 1 : Nat) : Int)) := by
    rw [List.length_cons, List.length_append]
    omega
  have body : (packet.body ++ more).take (packet.body.length + 1 - 1) = packet.body :=
    List.take_left
  simp only [List.cons_append, LengthRule.verdict, if_neg long, if_neg known, Int.toNat_natCast,
    body]

theorem decodes : kind.rule.framing.Decodes (fun state => state.mode = .readLen) kind.Takes
    kind.frame := by
  intro state packet more isReady takes
  let between : ReadState := ⟨.readBody, ((packet.body.length + 1 : Nat) : Int)⟩
  let next : ReadState := ⟨.readLen, ((packet.body.length + 1 : Nat) : Int)⟩
  refine ⟨next, rfl, ?_⟩
  have behind : (packet.opcode :: packet.body ++ more).drop (packet.body.length + 1) = more :=
    List.drop_left
  have first := kind.rule.framing.parse_of_advance state _ 2 none between
    (kind.verdict_length state packet more isReady takes)
  have second := kind.rule.framing.parse_of_advance between
    (packet.opcode :: packet.body ++ more) (packet.body.length + 1) (some packet) next
    (kind.verdict_body packet more takes)
  rw [behind] at second
  rw [first, show (kind.frame packet ++ more).drop 2 = packet.opcode :: packet.body ++ more from rfl,
    second]
  rfl

theorem idle (last : ReadState) (isReady : last.mode = .readLen) :
    kind.rule.framing.verdict last [] = .wait := by
  rcases last with ⟨mode, packetLen⟩
  cases (isReady : mode = .readLen)
  rfl

end WireKind

/-! ### What the sender's steps leave -/

namespace WriteSide

/-- Only `Write` under its lock adds to what has been written, and nothing handed to the
network is taken back. -/
theorem step_history (side next : WriteSide) (event : WriteEvent)
    (other : ∀ thread, event ≠ .write thread) (stepped : side.step event = some next) :
    next.written = side.written ∧ side.handed <+: next.handed := by
  cases event with
  | call thread buf =>
      simp only [step] at stepped
      split at stepped
      · cases stepped
        exact ⟨rfl, List.prefix_refl _⟩
      · cases stepped
  | write thread => exact absurd rfl (other thread)
  | send thread accepted =>
      simp only [step] at stepped
      split at stepped
      · cases stepped
      · obtain ⟨buf, _, rfl⟩ := Option.map_eq_some_iff.mp stepped
        exact ⟨rfl, List.prefix_append _ _⟩
  | sent thread dwTransferred =>
      simp only [step] at stepped
      split at stepped
      · cases stepped
      · obtain ⟨dequeued, _, rfl⟩ := Option.map_eq_some_iff.mp stepped
        dsimp only
        split
        · exact ⟨rfl, List.prefix_refl _⟩
        · exact ⟨rfl, List.prefix_refl _⟩
        · exact ⟨rfl, List.prefix_refl _⟩
  | sendFailed =>
      simp only [step] at stepped
      split at stepped
      · cases stepped
      · cases stepped
        exact ⟨rfl, List.prefix_refl _⟩
  | closeSocket =>
      cases stepped
      exact ⟨rfl, List.prefix_refl _⟩

/-- A frame fits into one buffer, so it is written in one piece. -/
theorem write_frame (side called next : WriteSide) (thread : Nat) (frame : List UInt8)
    (filled : frame ≠ []) (fits : frame.length ≤ bufferSize)
    (calls : side.step (.call thread frame) = some called)
    (writes : called.step (.write thread) = some next) :
    allBytes next.written = allBytes side.written ++ frame ∧ next.handed = side.handed := by
  simp only [step] at calls
  split at calls
  · cases calls
    obtain ⟨first, rest, isCons⟩ := List.exists_cons_of_ne_nil filled
    simp only [step, setCall_same, isCons] at writes
    cases writes
    refine ⟨?_, rfl⟩
    rw [allBytes_append, ← isCons, List.take_of_length_le fits]
  · cases calls

end WriteSide

/-! ### Runs -/

namespace WireSystem

variable {kind : WireKind}

/-- What the reader has of the packets sent. -/
structure InOrder (kind : WireKind) (system : WireSystem) : Prop where
  /-- The reader never gives up and has room for more. -/
  receiving : ∃ posted, system.reader.link = .receiving posted ∧ 0 < posted.len
  /-- No packet is lost, doubled, changed or out of turn. -/
  front : system.reader.dispatched <+: system.sent
  /-- A packet is dispatched as soon as its last byte has arrived. -/
  prompt : ∀ count, ((system.sent.take count).flatMap kind.frame).length ≤ system.delivered →
    system.sent.take count <+: system.reader.dispatched

structure Carried (kind : WireKind) (packetLen : Int) (system : WireSystem) : Prop where
  side : system.sender.Invariant
  written : allBytes system.sender.written = system.sent.flatMap kind.frame
  takes : ∀ packet ∈ system.sent, kind.Takes packet
  within : system.delivered ≤ system.sender.handed.length
  ready : system.reader.Ready
  outcome : system.reader.outcome = kind.rule.framing.parse ⟨.readLen, packetLen⟩
    (system.sender.handed.take system.delivered)

section Steps

variable {packetLen : Int} {system : WireSystem} (carried : Carried kind packetLen system)

include carried

theorem Carried.inOrder : InOrder kind system := by
  have arrived : system.sender.handed.take system.delivered <+:
      system.sent.flatMap kind.frame := by
    rw [← carried.written]
    exact (List.take_prefix _ _).trans carried.side.safe.prefixHanded
  have length : (system.sender.handed.take system.delivered).length = system.delivered :=
    List.length_take_of_le carried.within
  obtain ⟨⟨last, rest, waiting⟩, front, prompt⟩ := kind.decodes.parse_arrived system.sent
    ⟨.readLen, packetLen⟩ _ rfl carried.takes kind.idle arrived
  rw [← carried.outcome] at waiting front prompt
  rw [length] at prompt
  refine ⟨?_, front, prompt⟩
  cases linked : system.reader.link with
  | receiving posted =>
      obtain ⟨_, room, region⟩ := carried.ready posted linked
      refine ⟨posted, rfl, ?_⟩
      rw [region]
      exact (CIOSocket.wsaBuf_room system.reader.readBuf room).1
  | closed error =>
      simp only [Connection.outcome, linked] at waiting
      cases waiting

theorem Carried.moveSender (event : WriteEvent) (other : ∀ thread, event ≠ .write thread)
    (next : WireSystem) (moved : system.moveSender event = some next) :
    Carried kind packetLen next := by
  obtain ⟨sender, stepped, rfl⟩ := Option.map_eq_some_iff.mp moved
  obtain ⟨written, handed⟩ := WriteSide.step_history system.sender sender event other stepped
  obtain ⟨side, _⟩ := WriteSide.step_keeps system.sender sender event carried.side stepped
  refine ⟨side, (congrArg allBytes written).trans carried.written, carried.takes,
    carried.within.trans handed.length_le, carried.ready, ?_⟩
  obtain ⟨more, extended⟩ := handed
  have same : sender.handed.take system.delivered =
      system.sender.handed.take system.delivered := by
    rw [← extended, List.take_append_of_le_length carried.within]
  exact carried.outcome.trans (congrArg _ same.symm)

theorem Carried.send (thread : Nat) (message : WireMessage kind) (next : WireSystem)
    (stepped : step kind system (.send thread message) = some next) :
    Carried kind packetLen next := by
  obtain ⟨buf, found, contents⟩ := kind.frameBuffer_frame message
  have takes : kind.Takes message.packet := ⟨message.room, message.known⟩
  have room := message.room
  simp only [step, found, Option.bind_some] at stepped
  obtain ⟨called, calls, rest⟩ := Option.bind_eq_some_iff.mp stepped
  obtain ⟨sender, writes, rfl⟩ := Option.map_eq_some_iff.mp rest
  rw [contents] at calls
  have fits : (kind.frame message.packet).length ≤ bufferSize := by
    rw [kind.frame_length]
    unfold bufferSize
    omega
  obtain ⟨written, handed⟩ := WriteSide.write_frame system.sender called sender thread
    (kind.frame message.packet) (List.cons_ne_nil _ _) fits calls writes
  obtain ⟨between, _⟩ := WriteSide.step_keeps system.sender called _ carried.side calls
  obtain ⟨side, _⟩ := WriteSide.step_keeps called sender _ between writes
  refine ⟨side, ?_, fun packet member => ?_, ?_, carried.ready, ?_⟩
  · rw [written, carried.written, List.flatMap_append, List.flatMap_cons, List.flatMap_nil,
      List.append_nil]
  · rcases List.mem_append.mp member with before | new
    · exact carried.takes packet before
    · rw [List.mem_singleton.mp new]
      exact takes
  · rw [handed]
    exact carried.within
  · rw [handed]
    exact carried.outcome

theorem Carried.deliver (count : Nat) (ref : Int) (recycled : Nat → UInt8) (next : WireSystem)
    (stepped : step kind system (.deliver count ref recycled) = some next) :
    Carried kind packetLen next := by
  simp only [step] at stepped
  split at stepped
  · obtain ⟨reader, received, rfl⟩ := Option.map_eq_some_iff.mp stepped
    obtain ⟨ready, fed⟩ := Connection.onReadCallback_feed kind.rule system.reader reader _
      carried.ready received
    have whole : system.underway.take count =
        (system.sender.handed.drop system.delivered).take (system.underway.take count).length :=
      List.prefix_iff_eq_take.mp (List.take_prefix count system.underway)
    have behind : (system.underway.take count).length ≤
        system.sender.handed.length - system.delivered := by
      have less := List.length_take_le' count system.underway
      rw [underway, List.length_drop] at less
      exact less
    have within := carried.within
    refine ⟨carried.side, carried.written, carried.takes, ?_, ready, ?_⟩
    · change system.delivered + (system.underway.take count).length ≤ system.sender.handed.length
      omega
    · change reader.outcome = kind.rule.framing.parse ⟨.readLen, packetLen⟩
        (system.sender.handed.take (system.delivered + (system.underway.take count).length))
      rw [fed, carried.outcome, ← Framing.Rule.parse_append, List.take_add, ← whole]
  · cases stepped

end Steps

theorem step_carried (packetLen : Int) (system : WireSystem) (event : WireEvent kind)
    (next : WireSystem) (carried : Carried kind packetLen system)
    (stepped : (machine kind).step system event = some next) : Carried kind packetLen next := by
  cases event with
  | send thread message => exact carried.send thread message next stepped
  | wsaSend thread accepted =>
      exact carried.moveSender (.send thread accepted) (fun _ same => WriteEvent.noConfusion same)
        next stepped
  | completed thread dwTransferred =>
      exact carried.moveSender (.sent thread dwTransferred)
        (fun _ same => WriteEvent.noConfusion same) next stepped
  | sendFailed =>
      exact carried.moveSender .sendFailed (fun _ same => WriteEvent.noConfusion same) next stepped
  | closeSocket =>
      exact carried.moveSender .closeSocket (fun _ same => WriteEvent.noConfusion same) next stepped
  | deliver count ref recycled => exact carried.deliver count ref recycled next stepped

/-- Whatever the threads, the completions and the network do: what the reader dispatches are
the packets sent, in their order, each one when it is there. -/
theorem in_order (kind : WireKind) (packetLen : Int) (recycled fresh : Nat → UInt8)
    (events : List (WireEvent kind)) :
    ∃ reader, Connection.onCreate kind.rule packetLen recycled fresh = some reader ∧
      (machine kind).Throughout (InOrder kind) ⟨WriteSide.start, 0, reader, []⟩ events := by
  obtain ⟨reader, created, ready, outcome⟩ := Connection.onRead_parse kind.rule
    ⟨.readLen, packetLen⟩ [] (CIOBuffer.alloc recycled) fresh trivial
  refine ⟨reader, created, ?_⟩
  have carried : Carried kind packetLen ⟨WriteSide.start, 0, reader, []⟩ :=
    ⟨WriteSide.start_invariant, rfl, List.forall_mem_nil _, Nat.le_refl 0, ready, outcome⟩
  exact (machine kind).throughout_of_guarded (Carried kind packetLen) (InOrder kind)
    (fun _ _ => True)
    (fun system event next carried _ => step_carried packetLen system event next carried)
    (fun _ carried => carried.inOrder) events _ carried
    ((machine kind).guarded_of_step _ (fun _ _ _ _ => trivial) events _)

end WireSystem

end AuthServer
