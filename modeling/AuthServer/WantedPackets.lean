/-
The packets of the link to the wanted server.

`OnRead` takes whatever one receive brings for a packet and posts it; its length
is kept in the socket, where the handler looks it up when it runs.  Handlers,
later receives and the pool move in between, as in ReadBuffers.  The array that a
handler copies to is static, so all handlers share it: clearing it, looking up the
length, copying and logging are four steps.  `chunk` records what the receive
brought.
-/

import AuthServer.ConfigFile
import AuthServer.Lib.CFormat
import AuthServer.ReadBuffers
import Mathlib.Data.List.TakeWhile

set_option autoImplicit false

namespace AuthServer

open LinearMemory

/-- What `DummyPacket` does: how many characters it writes to its array, and the
text it logs, if that ends inside the array and fits the log. -/
structure DummyLog where
  written : Nat
  logged : Option (List UInt8)
  deriving DecidableEq

def dummyBufSize : Nat := 1024

def clearedBuf : List UInt8 := List.replicate dummyBufSize 0

/-- The bytes that `strncpy(buf, packet, size)` writes. -/
def strncpyBytes (packet : Nat → UInt8) (size : Nat) : List UInt8 :=
  let text := cString (slice packet 0 size)
  text ++ List.replicate (size - text.length) 0

def strncpy (buf : List UInt8) (packet : Nat → UInt8) (size : Nat) : List UInt8 :=
  (strncpyBytes packet size ++ buf.drop size).take dummyBufSize

def timeStampLen : Nat := (CFormat.ascii "yyyy.mm.dd hh:mm.ss: ").length

/-- The line that `CLog::AddLog` writes to the log file; of its copy for the window only
510 characters are kept, the time among them.  Both `vsprintf_s` end the program where
the line does not fit: the file's has two characters less than its array, the window's
comes behind the time. -/
def CLog.addLog (format : List UInt8) (args : List CFormat.Arg) : Option (List UInt8) :=
  (CFormat.vsprintf format args).filter fun line =>
    decide (line.length < 1024 - 2 ∧ line.length < 1024 - timeStampLen)

def dummyLine (size : Nat) (text : List UInt8) : Option (List UInt8) :=
  CLog.addLog (CFormat.ascii "Call DummyPacket len: %d What What %s")
    [.int (Int32.ofNat size), .str text]

def dummyLogged (size : Nat) (buf : List UInt8) : Option (List UInt8) :=
  if 0 ∈ buf then (dummyLine size (cString buf)).map fun _ => cString buf else none

def dummyPacket (packet : Nat → UInt8) (size : Nat) : DummyLog where
  written := (strncpyBytes packet size).length
  logged := dummyLogged size (strncpy clearedBuf packet size)

/-- The copy stays in the array, and the text is the chunk's. -/
structure LogsChunk (log : DummyLog) (chunk : List UInt8) : Prop where
  inside : log.written ≤ dummyBufSize
  text : log.logged = some (cString chunk)

instance LogsChunk.instDecidable (log : DummyLog) (chunk : List UInt8) :
    Decidable (LogsChunk log chunk) :=
  decidable_of_iff (log.written ≤ dummyBufSize ∧ log.logged = some (cString chunk))
    ⟨fun ⟨inside, text⟩ => ⟨inside, text⟩, fun ⟨inside, text⟩ => ⟨inside, text⟩⟩

/-- The size covers the chunk's text, and either ends with it or a zero does; the
log has room for the line. -/
structure SizeFits (packet : Nat → UInt8) (chunk : List UInt8) (size : Nat) : Prop where
  covers : (cString chunk).length ≤ size
  inside : size ≤ dummyBufSize
  terminated : (cString chunk).length < dummyBufSize
  ends : size = (cString chunk).length ∨ packet (cString chunk).length = 0
  line : (dummyLine size (cString chunk)).isSome = true

instance SizeFits.instDecidable (packet : Nat → UInt8) (chunk : List UInt8) (size : Nat) :
    Decidable (SizeFits packet chunk size) :=
  decidable_of_iff
    (((cString chunk).length ≤ size ∧ size ≤ dummyBufSize ∧
      (cString chunk).length < dummyBufSize) ∧
      (size = (cString chunk).length ∨ packet (cString chunk).length = 0) ∧
      (dummyLine size (cString chunk)).isSome = true)
    ⟨fun ⟨⟨covers, inside, terminated⟩, ends, line⟩ => ⟨covers, inside, terminated, ends, line⟩,
      fun ⟨covers, inside, terminated, ends, line⟩ =>
        ⟨⟨covers, inside, terminated⟩, ends, line⟩⟩

theorem cString_length_le (buf : List UInt8) : (cString buf).length ≤ buf.length :=
  (List.takeWhile_prefix _).length_le

theorem cString_append (text rest : List UInt8) (noZero : 0 ∉ text)
    (ends : ∀ c ∈ rest.head?, c = 0) : cString (text ++ rest) = text := by
  apply CText.takeWhile_span
  · intro c member
    exact decide_eq_true fun zero => noZero (zero ▸ member)
  · intro c first
    rw [ends c first]
    rfl

theorem zero_not_mem_cString (buf : List UInt8) : 0 ∉ cString buf := by
  intro member
  unfold cString at member
  have kept := List.mem_takeWhile_imp member
  exact absurd rfl (of_decide_eq_true kept)

theorem cString_slice (packet : Nat → UInt8) (length : Nat) :
    cString (slice packet 0 length) =
        slice packet 0 (cString (slice packet 0 length)).length ∧
      ((cString (slice packet 0 length)).length = length ∨
        packet (cString (slice packet 0 length)).length = 0) := by
  have short := cString_length_le (slice packet 0 length)
  rw [slice_length] at short
  constructor
  · rw [← slice_take packet 0 length _ short]
    exact List.prefix_iff_eq_take.mp (List.takeWhile_prefix _)
  · have split : slice packet 0 length = cString (slice packet 0 length) ++
        (slice packet 0 length).dropWhile fun c => decide (c ≠ 0) :=
      List.takeWhile_append_dropWhile.symm
    have first := List.head?_dropWhile_not (fun c => decide (c ≠ 0)) (slice packet 0 length)
    cases rest : (slice packet 0 length).dropWhile fun c => decide (c ≠ 0) with
    | nil =>
        have lengths := congrArg List.length split
        rw [rest, List.append_nil, slice_length] at lengths
        exact Or.inl lengths.symm
    | cons c more =>
        rw [rest] at first split
        have zero : c = 0 := not_not.mp (of_decide_eq_false first)
        have inside : (cString (slice packet 0 length)).length < length := by
          have lengths := congrArg List.length split
          rw [slice_length, List.length_append, List.length_cons] at lengths
          omega
        have cell := congrArg (fun block => block[(cString (slice packet 0 length)).length]?) split
        rw [List.getElem?_eq_getElem (by rw [slice_length]; exact inside), slice_getElem,
          List.getElem?_append_right (Nat.le_refl _), Nat.sub_self, Nat.zero_add] at cell
        exact Or.inr ((Option.some.inj cell).trans zero)

theorem cString_same_iff (packet : Nat → UInt8) (chunk : List UInt8) (size : Nat)
    (there : slice packet 0 chunk.length = chunk) :
    cString (slice packet 0 size) = cString chunk ↔
      (cString chunk).length ≤ size ∧
        (size = (cString chunk).length ∨ packet (cString chunk).length = 0) := by
  constructor
  · intro same
    have short := cString_length_le (slice packet 0 size)
    have stops := (cString_slice packet size).2
    rw [slice_length] at short
    rw [same] at short stops
    exact ⟨short, stops.imp_left Eq.symm⟩
  · rintro ⟨short, ends⟩
    have text := (cString_slice packet chunk.length).1
    rw [there] at text
    have split : slice packet 0 size =
        cString chunk ++ slice packet (cString chunk).length (size - (cString chunk).length) := by
      have pieces := slice_append packet 0 (cString chunk).length (size - (cString chunk).length)
      rw [Nat.add_sub_cancel' short, ← text, Nat.zero_add] at pieces
      exact pieces
    rw [split]
    refine cString_append _ _ (zero_not_mem_cString chunk) fun c first => ?_
    rcases ends with full | zero
    · rw [full, Nat.sub_self] at first
      exact absurd first (Option.not_mem_none c)
    · cases left : size - (cString chunk).length with
      | zero =>
          rw [left] at first
          exact absurd first (Option.not_mem_none c)
      | succ more =>
          rw [left, slice_head] at first
          exact (Option.mem_some.mp first).symm.trans zero

theorem strncpyBytes_length (packet : Nat → UInt8) (size : Nat) :
    (strncpyBytes packet size).length = size := by
  have short := cString_length_le (slice packet 0 size)
  rw [slice_length] at short
  simp only [strncpyBytes, List.length_append, List.length_replicate]
  omega

theorem strncpy_cleared (packet : Nat → UInt8) (size : Nat) (inside : size ≤ dummyBufSize) :
    strncpy clearedBuf packet size = cString (slice packet 0 size) ++
      List.replicate (dummyBufSize - (cString (slice packet 0 size)).length) 0 := by
  have short := cString_length_le (slice packet 0 size)
  rw [slice_length] at short
  rw [strncpy, strncpyBytes, clearedBuf, List.drop_replicate, List.append_assoc,
    List.replicate_append_replicate, List.take_of_length_le]
  · congr 2
    omega
  · simp only [List.length_append, List.length_replicate]
    omega

theorem strncpy_terminated (packet : Nat → UInt8) (size : Nat) (inside : size ≤ dummyBufSize) :
    0 ∈ strncpy clearedBuf packet size ↔
      (cString (slice packet 0 size)).length < dummyBufSize := by
  rw [strncpy_cleared packet size inside, List.mem_append, List.mem_replicate]
  constructor
  · rintro (inText | ⟨room, _⟩)
    · exact absurd inText (zero_not_mem_cString _)
    · omega
  · intro room
    exact Or.inr ⟨by omega, rfl⟩

theorem strncpy_text (packet : Nat → UInt8) (size : Nat) (inside : size ≤ dummyBufSize) :
    cString (strncpy clearedBuf packet size) = cString (slice packet 0 size) := by
  rw [strncpy_cleared packet size inside]
  exact cString_append _ _ (zero_not_mem_cString _)
    fun c first => List.eq_of_mem_replicate (List.mem_of_mem_head? first)

theorem dummyLogged_iff (size : Nat) (buf text : List UInt8) :
    dummyLogged size buf = some text ↔
      0 ∈ buf ∧ (dummyLine size text).isSome = true ∧ cString buf = text := by
  unfold dummyLogged
  constructor
  · intro logged
    split at logged
    · rename_i terminated
      obtain ⟨line, taken, same⟩ := Option.map_eq_some_iff.mp logged
      refine ⟨terminated, ?_, same⟩
      rw [← same, taken]
      rfl
    · contradiction
  · rintro ⟨terminated, fits, same⟩
    obtain ⟨line, taken⟩ := Option.isSome_iff_exists.mp fits
    rw [if_pos terminated, same, taken]
    rfl

/-- The handler logs the chunk and stays in its array for exactly these sizes. -/
theorem logsChunk_iff (packet : Nat → UInt8) (chunk : List UInt8) (size : Nat)
    (there : slice packet 0 chunk.length = chunk) :
    LogsChunk (dummyPacket packet size) chunk ↔ SizeFits packet chunk size := by
  constructor
  · rintro ⟨inside, text⟩
    rw [dummyPacket, strncpyBytes_length] at inside
    obtain ⟨terminated, line, same⟩ := (dummyLogged_iff _ _ _).mp text
    have shorter := (strncpy_terminated packet size inside).mp terminated
    rw [strncpy_text packet size inside] at same
    rw [same] at shorter
    obtain ⟨covers, ends⟩ := (cString_same_iff packet chunk size there).mp same
    exact ⟨covers, inside, shorter, ends, line⟩
  · rintro ⟨covers, inside, terminated, ends, line⟩
    have same := (cString_same_iff packet chunk size there).mpr ⟨covers, ends⟩
    constructor
    · rw [dummyPacket, strncpyBytes_length]
      exact inside
    · refine (dummyLogged_iff _ _ _).mpr ⟨?_, line, ?_⟩
      · rw [strncpy_terminated packet size inside, same]
        exact terminated
      · rw [strncpy_text packet size inside, same]

/-! ### The receive side of the link -/

inductive WantedReader where
  | looping (pi ri : Nat)
  | testing
  | copying
  | switching (fresh : Nat)
  | moving
  | posting
  deriving DecidableEq

inductive HandlerStage where
  | posted
  | cleared
  | sized (size : Nat)
  | copied (size written : Nat)
  | logged
  deriving DecidableEq

def HandlerStage.working : HandlerStage → Bool
  | .posted | .logged => false
  | .cleared | .sized _ | .copied _ _ => true

def HandlerStage.written : HandlerStage → Nat
  | .copied _ written => written
  | .posted | .cleared | .sized _ | .logged => 0

/-- A posted packet until its handler has given the buffer back. -/
structure WantedPacket where
  buffer : Nat
  offset : Nat
  chunk : List UInt8
  stage : HandlerStage
  deriving DecidableEq

def WantedPacket.bytes (packet : WantedPacket) (cells : Nat → Nat → UInt8) : Nat → UInt8 :=
  fun position => cells packet.buffer (packet.offset + position)

/-- `current` is `m_pReadBuf`, `arrived` what the last receive brought, `buf` the
static array, and `logs` what the handlers have done for which chunk. -/
structure WantedSide where
  pool : RefPool.Pool Nat
  cells : Nat → Nat → UInt8
  size : Nat → Nat
  current : Nat
  mode : SocketMode
  packetLen : Nat
  reader : Option WantedReader
  receive : Option PostedReceive
  arrived : List UInt8
  packets : List WantedPacket
  buf : List UInt8
  logs : List (List UInt8 × DummyLog)

inductive WantedEvent where
  | deviceWrites (bytes : List UInt8)
  | received (dwTransferred : Nat)
  | turn
  | testRef
  | copy (fresh : Nat)
  | switch
  | move
  | post (accepted : Bool)
  | handle (packet : Nat)
  | close
  | reuse (buffer : Nat) (cells : Nat → UInt8)

theorem WantedPacket.bytes_update (packet : WantedPacket) (cells : Nat → Nat → UInt8)
    (buffer : Nat) (next : Nat → UInt8) (apart : packet.buffer ≠ buffer) :
    packet.bytes (Function.update cells buffer next) = packet.bytes cells := by
  funext position
  rw [bytes, Function.update_of_ne apart, bytes]

namespace WantedSide

def start (packetLen : Nat) (cells : Nat → Nat → UInt8) : WantedSide where
  pool := RefPool.Pool.acquire ⟨fun _ => 0, fun _ => 0, fun _ => 0⟩ 0
  cells := cells
  size := fun _ => 0
  current := 0
  mode := .readLen
  packetLen := packetLen
  reader := some (.looping 0 0)
  receive := none
  arrived := []
  packets := []
  buf := clearedBuf
  logs := []

def postPacket (side : WantedSide) (pi ri : Nat) : WantedSide :=
  { side with
    pool := side.pool.retain side.current
    packets := side.packets ++
      [{ buffer := side.current, offset := pi, chunk := side.arrived, stage := .posted }]
    mode := .readLen
    reader := some (.looping (pi + side.packetLen) ri) }

/-- One turn of the loop in `OnRead`.  A body that is not all there leaves
everything as it is. -/
def loopTurn (side : WantedSide) (pi ri : Nat) : WantedSide :=
  if ri ≤ pi then { side with reader := some .testing }
  else
    match side.mode with
    | .readLen => { side with mode := .readBody, packetLen := ri }
    | .readBody => if pi + side.packetLen ≤ ri then side.postPacket pi ri else side
    | .close => { side with reader := none }

def postReceive (side : WantedSide) (accepted : Bool) : WantedSide :=
  if accepted then
    { side with
      reader := none
      receive := some
        { buffer := side.current
          region :=
            { offset := side.size side.current
              len := dword ((bufferSize : Int) - side.size side.current) } } }
  else { side with reader := none, mode := .close }

def onReadCallback (side : WantedSide) (posted : PostedReceive) (dwTransferred : Nat) :
    WantedSide :=
  if dwTransferred = 0 then { side with receive := none, mode := .close }
  else
    let filled := side.size side.current + dwTransferred
    { side with
      receive := none
      size := Function.update side.size side.current filled
      arrived := slice (side.cells posted.buffer) posted.region.offset dwTransferred
      reader := if side.mode = .close then none else some (.looping 0 filled) }

def handlerStep (side : WantedSide) (packet : Nat) (posted : WantedPacket) : WantedSide :=
  match posted.stage with
  | .posted =>
      { side with
        packets := side.packets.set packet { posted with stage := .cleared }
        buf := clearedBuf }
  | .cleared =>
      { side with packets := side.packets.set packet { posted with stage := .sized side.packetLen } }
  | .sized size =>
      let written := (strncpyBytes (posted.bytes side.cells) size).length
      { side with
        packets := side.packets.set packet { posted with stage := .copied size written }
        buf := strncpy side.buf (posted.bytes side.cells) size }
  | .copied size written =>
      { side with
        packets := side.packets.set packet { posted with stage := .logged }
        logs := side.logs ++
          [(posted.chunk, { written := written, logged := dummyLogged size side.buf })] }
  | .logged =>
      { side with
        pool := side.pool.release posted.buffer
        packets := side.packets.eraseIdx packet }

def step (side : WantedSide) : WantedEvent → Option WantedSide
  | .deviceWrites bytes =>
      match side.receive with
      | none => none
      | some posted =>
          if bytes.length ≤ posted.region.len then
            some { side with
              cells := Function.update side.cells posted.buffer
                (store (side.cells posted.buffer) posted.region.offset bytes) }
          else none
  | .received dwTransferred =>
      match side.receive with
      | none => none
      | some posted =>
          if dwTransferred ≤ posted.region.len then
            some (side.onReadCallback posted dwTransferred)
          else none
  | .turn =>
      match side.reader with
      | some (.looping pi ri) => some (side.loopTurn pi ri)
      | _ => none
  | .testRef =>
      match side.reader with
      | some .testing =>
          if side.pool.ref side.current ≠ 1 then some { side with reader := some .copying }
          else some { side with reader := some .moving }
      | _ => none
  | .copy fresh =>
      match side.reader with
      | some .copying =>
          if side.pool.ref fresh = 0 then
            some { side with
              pool := side.pool.acquire fresh
              reader := some (.switching fresh) }
          else none
      | _ => none
  | .switch =>
      match side.reader with
      | some (.switching fresh) =>
          some { side with
            pool := side.pool.release side.current
            current := fresh
            size := Function.update side.size fresh 0
            reader := some .posting }
      | _ => none
  | .move =>
      match side.reader with
      | some .moving =>
          some { side with
            size := Function.update side.size side.current 0
            reader := some .posting }
      | _ => none
  | .post accepted =>
      match side.reader with
      | some .posting => some (side.postReceive accepted)
      | _ => none
  | .handle packet =>
      match side.packets[packet]? with
      | none => none
      | some posted => some (side.handlerStep packet posted)
  | .close => some { side with mode := .close }
  | .reuse buffer cells =>
      if side.pool.ref buffer = 0 then
        some { side with cells := Function.update side.cells buffer cells }
      else none

def machine : EventRuns.Machine WantedSide WantedEvent := ⟨step⟩

/-- Every handler has stayed in the array and has logged its own chunk. -/
structure Faithful (side : WantedSide) : Prop where
  copies : ∀ packet ∈ side.packets, packet.stage.written ≤ dummyBufSize
  logs : ∀ entry ∈ side.logs, LogsChunk entry.2 entry.1

instance Faithful.instDecidable (side : WantedSide) : Decidable side.Faithful :=
  decidable_of_iff ((∀ packet ∈ side.packets, packet.stage.written ≤ dummyBufSize) ∧
      ∀ entry ∈ side.logs, LogsChunk entry.2 entry.1)
    ⟨fun ⟨copies, logs⟩ => ⟨copies, logs⟩, fun ⟨copies, logs⟩ => ⟨copies, logs⟩⟩

/-- A handler starts when no other one uses the array, and finds a length in the
socket that fits its chunk. -/
def HandledInTime (side : WantedSide) : WantedEvent → Prop
  | .handle packet =>
      ∀ posted ∈ side.packets[packet]?,
        (posted.stage = .posted → ∀ other ∈ side.packets, other.stage.working = false) ∧
        (posted.stage = .cleared →
          SizeFits (posted.bytes side.cells) posted.chunk side.packetLen)
  | _ => True

instance HandledInTime.instDecidable (side : WantedSide) (event : WantedEvent) :
    Decidable (side.HandledInTime event) :=
  match event with
  | .handle _ => Option.decidableForallMem _
  | .deviceWrites _ | .received _ | .turn | .testRef | .copy _ | .switch | .move | .post _
  | .close | .reuse _ _ => instDecidableTrue

/-! ### What packets rely on -/

def fresh (side : WantedSide) : Option Nat :=
  match side.reader with
  | some (.switching fresh) => some fresh
  | _ => none

def references (side : WantedSide) : List Nat :=
  side.packets.map WantedPacket.buffer ++ (side.current :: side.fresh.toList)

def Exposed (side : WantedSide) : Prop :=
  side.receive ≠ none ∨ side.reader = some .moving ∨ side.reader = some .posting

structure Buffers (side : WantedSide) : Prop where
  counted : RefPool.Counted side.references side.pool
  intact : ∀ packet ∈ side.packets,
    slice (packet.bytes side.cells) 0 packet.chunk.length = packet.chunk
  clear : side.Exposed → ∀ packet ∈ side.packets, packet.buffer ≠ side.current
  newborn : ∀ fresh, side.fresh = some fresh → ∀ packet ∈ side.packets, packet.buffer ≠ fresh

structure Reading (side : WantedSide) : Prop where
  posted : ∀ posted, side.receive = some posted →
    posted.buffer = side.current ∧ posted.region.offset = 0 ∧ side.size side.current = 0 ∧
      side.reader = none
  emptied : side.reader = some .posting → side.size side.current = 0
  filled : ∀ pi ri, side.reader = some (.looping pi ri) →
    (pi = 0 ∨ ri ≤ pi) ∧ slice (side.cells side.current) 0 ri = side.arrived
  body : side.mode = .readBody →
    ∃ ri, side.reader = some (.looping 0 ri) ∧ side.packetLen = ri ∧ 0 < ri

def Kept (side : WantedSide) : Prop := side.Buffers ∧ side.Reading

theorem not_exposed {side : WantedSide} (idle : side.receive = none)
    (notMoving : side.reader ≠ some .moving) (notPosting : side.reader ≠ some .posting) :
    ¬ side.Exposed := by
  rintro (receiving | moving | posting)
  · exact receiving idle
  · exact notMoving moving
  · exact notPosting posting

theorem Reading.idle {side : WantedSide} (reading : side.Reading) (reader : WantedReader)
    (at_ : side.reader = some reader) : side.receive = none := by
  cases receiving : side.receive with
  | none => rfl
  | some posted =>
      have absent := (reading.posted posted receiving).2.2.2
      rw [at_] at absent
      contradiction

theorem Reading.noBody {side : WantedSide} (reading : side.Reading)
    (outside : ∀ pi ri, side.reader ≠ some (.looping pi ri)) : side.mode ≠ .readBody := by
  intro body
  obtain ⟨ri, looping, _⟩ := reading.body body
  exact outside 0 ri looping

/-- Outside the loop, and without a receive, little is to be known. -/
theorem Reading.of_outside {side : WantedSide} (idle : side.receive = none)
    (outside : ∀ pi ri, side.reader ≠ some (.looping pi ri)) (noBody : side.mode ≠ .readBody)
    (emptied : side.reader = some .posting → side.size side.current = 0) : side.Reading := by
  refine ⟨fun posted given => ?_, emptied, fun pi ri looping => ?_, fun body => ?_⟩
  · rw [idle] at given
    cases given
  · exact absurd looping (outside pi ri)
  · exact absurd body noBody

theorem Buffers.of_same {side next : WantedSide} (buffers : side.Buffers)
    (pool : next.pool = side.pool) (cells : next.cells = side.cells)
    (current : next.current = side.current) (packets : next.packets = side.packets)
    (fresh : next.fresh = side.fresh) (covered : next.Exposed → side.Exposed) : next.Buffers := by
  have references : next.references = side.references := by
    rw [WantedSide.references, packets, current, fresh, WantedSide.references]
  refine ⟨?_, ?_, ?_, ?_⟩
  · rw [references, pool]
    exact buffers.counted
  · rw [packets, cells]
    exact buffers.intact
  · intro exposed
    rw [packets, current]
    exact buffers.clear (covered exposed)
  · rw [packets, fresh]
    exact buffers.newborn

/-- What nobody refers to is neither the read buffer nor a packet's. -/
theorem Buffers.unreferenced {side : WantedSide} (buffers : side.Buffers) (buffer : Nat)
    (free : side.pool.ref buffer = 0) :
    side.current ≠ buffer ∧ ∀ packet ∈ side.packets, packet.buffer ≠ buffer := by
  have absent := (buffers.counted.ref_eq_zero_iff buffer).mp free
  unfold references at absent
  rw [List.mem_append, not_or, List.mem_cons, not_or] at absent
  refine ⟨Ne.symm absent.2.1, fun packet member same => absent.1 ?_⟩
  exact List.mem_map.mpr ⟨packet, member, same⟩

theorem Buffers.clear_of_single {side : WantedSide} (buffers : side.Buffers)
    (single : side.pool.ref side.current = 1) :
    ∀ packet ∈ side.packets, packet.buffer ≠ side.current := by
  intro packet member same
  have counted := buffers.counted.ref side.current
  have present : 0 < (side.packets.map WantedPacket.buffer).count side.current :=
    List.count_pos_iff.mpr (List.mem_map.mpr ⟨packet, member, same⟩)
  rw [single, references, List.count_append, List.count_cons_self] at counted
  omega

section Steps

variable {side : WantedSide}

theorem deviceWrites_kept (kept : side.Kept) (posted : PostedReceive) (bytes : List UInt8)
    (receiving : side.receive = some posted) :
    Kept { side with
      cells := Function.update side.cells posted.buffer
        (store (side.cells posted.buffer) posted.region.offset bytes) } := by
  obtain ⟨buffers, reading⟩ := kept
  obtain ⟨isCurrent, _, _, absent⟩ := reading.posted posted receiving
  have clear := buffers.clear (Or.inl (receiving ▸ Option.some_ne_none posted))
  refine ⟨⟨buffers.counted, ?_, buffers.clear, buffers.newborn⟩, ⟨reading.posted, reading.emptied,
    ?_, reading.body⟩⟩
  · intro packet member
    have apart : packet.buffer ≠ posted.buffer := isCurrent ▸ clear packet member
    rw [packet.bytes_update _ _ _ apart]
    exact buffers.intact packet member
  · intro pi ri looping
    rw [absent] at looping
    contradiction

theorem onReadCallback_kept (kept : side.Kept) (posted : PostedReceive) (dwTransferred : Nat)
    (receiving : side.receive = some posted) : (side.onReadCallback posted dwTransferred).Kept := by
  obtain ⟨buffers, reading⟩ := kept
  obtain ⟨isCurrent, atStart, empty, absent⟩ := reading.posted posted receiving
  have outside : ∀ pi ri, side.reader ≠ some (.looping pi ri) := absent ▸ nofun
  have noBody := reading.noBody outside
  have nothing : side.fresh = none := by
    rw [fresh, absent]
  unfold onReadCallback
  split
  · refine ⟨buffers.of_same rfl rfl rfl rfl rfl fun exposed => ?_,
      Reading.of_outside rfl outside nofun reading.emptied⟩
    exact Or.inr (exposed.resolve_left fun given => given rfl)
  · by_cases closed : side.mode = .close
    · simp only [if_pos closed]
      exact ⟨buffers.of_same rfl rfl rfl rfl nothing.symm fun exposed =>
          absurd exposed (not_exposed rfl nofun nofun),
        Reading.of_outside rfl nofun noBody nofun⟩
    · simp only [if_neg closed]
      refine ⟨buffers.of_same rfl rfl rfl rfl nothing.symm fun exposed =>
          absurd exposed (not_exposed rfl nofun nofun),
        ⟨nofun, nofun, fun pi ri looping => ?_, fun body => absurd body noBody⟩⟩
      cases looping
      refine ⟨Or.inl rfl, ?_⟩
      rw [isCurrent, atStart, empty, Nat.zero_add]

theorem postPacket_kept (kept : side.Kept) (ri : Nat)
    (at_ : side.reader = some (.looping 0 ri))
    (whole : side.packetLen = ri) : (side.postPacket 0 ri).Kept := by
  obtain ⟨buffers, reading⟩ := kept
  have idle := reading.idle _ at_
  have nothing : side.fresh = none := by
    rw [fresh, at_]
  obtain ⟨_, filled⟩ := reading.filled 0 ri at_
  have length : side.arrived.length = ri := by rw [← filled, slice_length]
  refine ⟨⟨?_, ?_, fun exposed => absurd exposed (not_exposed idle nofun nofun), nofun⟩,
    ⟨fun posted given => absurd (idle.symm.trans given) nofun, nofun, ?_, nofun⟩⟩
  · have retained := buffers.counted.retain side.current
      (List.mem_append_right _ List.mem_cons_self)
    refine retained.perm _ ?_
    unfold references
    rw [nothing]
    simp only [postPacket, fresh, List.map_append, List.map_singleton, Option.toList_none,
      List.append_assoc, List.singleton_append]
    exact List.perm_middle.symm
  · intro packet member
    rcases List.mem_append.mp member with old | new
    · exact buffers.intact packet old
    · rw [List.mem_singleton.mp new]
      have bytes : WantedPacket.bytes ⟨side.current, 0, side.arrived, .posted⟩ side.cells =
          side.cells side.current := by
        funext position
        rw [WantedPacket.bytes, Nat.zero_add]
      simp only [postPacket, length]
      rw [bytes]
      exact filled
  · intro pi other looping
    cases looping
    exact ⟨Or.inr (by omega), filled⟩

theorem loopTurn_kept (kept : side.Kept) (pi ri : Nat)
    (at_ : side.reader = some (.looping pi ri)) : (side.loopTurn pi ri).Kept := by
  have idle := kept.2.idle _ at_
  have nothing : side.fresh = none := by
    rw [fresh, at_]
  unfold loopTurn
  split
  · rename_i finished
    have noBody : side.mode ≠ .readBody := by
      intro body
      obtain ⟨whole, looping, _, positive⟩ := kept.2.body body
      rw [at_] at looping
      cases looping
      omega
    exact ⟨kept.1.of_same rfl rfl rfl rfl nothing.symm fun exposed =>
        absurd exposed (not_exposed idle nofun nofun),
      Reading.of_outside idle nofun noBody nofun⟩
  · rename_i going
    obtain ⟨front, filled⟩ := kept.2.filled pi ri at_
    have atStart : pi = 0 := front.resolve_right going
    split
    · refine ⟨kept.1.of_same rfl rfl rfl rfl rfl fun exposed => exposed,
        ⟨kept.2.posted, kept.2.emptied, kept.2.filled, fun _ => ?_⟩⟩
      exact ⟨ri, atStart ▸ at_, rfl, by omega⟩
    · rename_i body
      obtain ⟨whole, looping, length, _⟩ := kept.2.body body
      rw [at_] at looping
      cases looping
      rw [if_pos (by omega)]
      exact postPacket_kept kept ri at_ length
    · rename_i closed
      exact ⟨kept.1.of_same rfl rfl rfl rfl nothing.symm fun exposed =>
          absurd exposed (not_exposed idle nofun nofun),
        Reading.of_outside idle nofun (closed ▸ nofun) nofun⟩

theorem testRef_kept (kept : side.Kept) (at_ : side.reader = some .testing) :
    (side.pool.ref side.current ≠ 1 → Kept { side with reader := some .copying }) ∧
      (side.pool.ref side.current = 1 → Kept { side with reader := some .moving }) := by
  have nothing : side.fresh = none := by
    rw [fresh, at_]
  have idle := kept.2.idle _ at_
  have noBody := kept.2.noBody (at_ ▸ nofun)
  constructor
  · intro _
    exact ⟨kept.1.of_same rfl rfl rfl rfl nothing.symm fun exposed =>
        absurd exposed (not_exposed idle nofun nofun),
      Reading.of_outside idle nofun noBody nofun⟩
  · intro single
    refine ⟨⟨?_, kept.1.intact, fun _ => kept.1.clear_of_single single, nofun⟩,
      Reading.of_outside idle nofun noBody nofun⟩
    have counted := kept.1.counted
    unfold references at counted
    rw [nothing] at counted
    exact counted

theorem copy_kept (kept : side.Kept) (fresh : Nat) (at_ : side.reader = some .copying)
    (free : side.pool.ref fresh = 0) :
    Kept { side with
      pool := side.pool.acquire fresh
      reader := some (.switching fresh) } := by
  have nothing : side.fresh = none := by
    rw [WantedSide.fresh, at_]
  have idle := kept.2.idle _ at_
  refine ⟨⟨?_, kept.1.intact, fun exposed => absurd exposed (not_exposed idle nofun nofun),
    fun other given => ?_⟩, Reading.of_outside idle nofun (kept.2.noBody (at_ ▸ nofun)) nofun⟩
  · have acquired := kept.1.counted.acquire fresh free
    refine acquired.perm _ ?_
    unfold references
    rw [nothing]
    simp only [WantedSide.fresh, Option.toList_some, Option.toList_none]
    exact (List.perm_append_singleton fresh _).symm.trans (by
      rw [List.append_assoc]
      exact List.Perm.refl _)
  · obtain rfl := Option.some.inj given
    exact (kept.1.unreferenced fresh free).2

theorem switch_kept (kept : side.Kept) (fresh : Nat)
    (at_ : side.reader = some (.switching fresh)) :
    Kept { side with
      pool := side.pool.release side.current
      current := fresh
      size := Function.update side.size fresh 0
      reader := some .posting } := by
  have isFresh : side.fresh = some fresh := by
    rw [WantedSide.fresh, at_]
  have idle := kept.2.idle _ at_
  refine ⟨⟨?_, kept.1.intact, fun _ => kept.1.newborn fresh isFresh, nofun⟩,
    Reading.of_outside idle nofun (kept.2.noBody (at_ ▸ nofun))
      fun _ => Function.update_self _ _ _⟩
  have counted := kept.1.counted
  unfold references at counted
  rw [isFresh] at counted
  exact (counted.perm _ List.perm_middle).release

theorem move_kept (kept : side.Kept) (at_ : side.reader = some .moving) :
    Kept { side with
      size := Function.update side.size side.current 0
      reader := some .posting } := by
  have nothing : side.fresh = none := by
    rw [fresh, at_]
  have idle := kept.2.idle _ at_
  exact ⟨kept.1.of_same rfl rfl rfl rfl nothing.symm fun _ => Or.inr (Or.inl at_),
    Reading.of_outside idle nofun (kept.2.noBody (at_ ▸ nofun))
      fun _ => Function.update_self _ _ _⟩

theorem postReceive_kept (kept : side.Kept) (accepted : Bool)
    (at_ : side.reader = some .posting) : (side.postReceive accepted).Kept := by
  have nothing : side.fresh = none := by
    rw [fresh, at_]
  have idle := kept.2.idle _ at_
  have emptied := kept.2.emptied at_
  unfold postReceive
  split
  · refine ⟨kept.1.of_same rfl rfl rfl rfl nothing.symm fun _ => Or.inr (Or.inr at_),
      ⟨fun posted given => ?_, nofun, nofun,
        fun body => absurd body (kept.2.noBody (at_ ▸ nofun))⟩⟩
    cases given
    exact ⟨rfl, emptied, emptied, rfl⟩
  · exact ⟨kept.1.of_same rfl rfl rfl rfl nothing.symm fun exposed =>
        absurd exposed (not_exposed idle nofun nofun),
      Reading.of_outside idle nofun nofun nofun⟩

/-- A handler that goes on leaves buffers and reader alone. -/
theorem stage_kept (kept : side.Kept) (packet : Nat) (posted : WantedPacket)
    (found : side.packets[packet]? = some posted) (stage : HandlerStage) (buf : List UInt8)
    (logs : List (List UInt8 × DummyLog)) :
    Kept { side with
      packets := side.packets.set packet { posted with stage := stage }
      buf := buf
      logs := logs } := by
  obtain ⟨before, after, packets, _, replaced⟩ :=
    ReadSide.split_at side.packets packet posted found
  rw [replaced { posted with stage := stage }]
  -- The packet keeps its place, its buffer and its chunk.
  have member : ∀ other ∈ before ++ { posted with stage := stage } :: after,
      ∃ old ∈ side.packets, old.buffer = other.buffer ∧ old.bytes = other.bytes ∧
        old.chunk = other.chunk := by
    intro other isOther
    obtain ⟨old, isOld, same⟩ := ReadSide.mem_replaced
      (fun packet => (packet.buffer, packet.bytes, packet.chunk))
      before after posted { posted with stage := stage } rfl other isOther
    simp only [Prod.mk.injEq] at same
    exact ⟨old, packets ▸ isOld, same⟩
  refine ⟨⟨?_, ?_, ?_, ?_⟩, ⟨kept.2.posted, kept.2.emptied, kept.2.filled, kept.2.body⟩⟩
  · have counted := kept.1.counted
    unfold references at counted ⊢
    rw [packets, List.map_append, List.map_cons] at counted
    rw [List.map_append, List.map_cons]
    exact counted
  · intro other isOther
    obtain ⟨old, isOld, _, bytes, chunk⟩ := member other isOther
    have same := kept.1.intact old isOld
    rw [bytes, chunk] at same
    exact same
  · intro exposed other isOther
    obtain ⟨old, isOld, buffer, _⟩ := member other isOther
    exact buffer ▸ kept.1.clear exposed old isOld
  · intro fresh isFresh other isOther
    obtain ⟨old, isOld, buffer, _⟩ := member other isOther
    exact buffer ▸ kept.1.newborn fresh isFresh old isOld

theorem release_kept (kept : side.Kept) (packet : Nat) (posted : WantedPacket)
    (found : side.packets[packet]? = some posted) :
    Kept { side with
      pool := side.pool.release posted.buffer
      packets := side.packets.eraseIdx packet } := by
  obtain ⟨before, after, packets, erased, _⟩ :=
    ReadSide.split_at side.packets packet posted found
  rw [erased]
  have member : ∀ other ∈ before ++ after, other ∈ side.packets := fun _ isOther =>
    packets ▸ (ReadSide.others_sublist before after posted).subset isOther
  refine ⟨⟨?_, fun other isOther => kept.1.intact other (member other isOther),
    fun exposed other isOther => kept.1.clear exposed other (member other isOther),
    fun fresh isFresh other isOther => kept.1.newborn fresh isFresh other (member other isOther)⟩,
    ⟨kept.2.posted, kept.2.emptied, kept.2.filled, kept.2.body⟩⟩
  apply RefPool.Counted.release (kept.1.counted.perm _ ?_)
  unfold references
  rw [packets, List.map_append, List.map_cons, List.map_append]
  simp only [List.append_assoc, List.cons_append]
  exact List.perm_middle

theorem handlerStep_kept (kept : side.Kept) (packet : Nat) (posted : WantedPacket)
    (found : side.packets[packet]? = some posted) : (side.handlerStep packet posted).Kept := by
  unfold handlerStep
  split
  · exact stage_kept kept packet posted found .cleared clearedBuf side.logs
  · exact stage_kept kept packet posted found (.sized side.packetLen) side.buf side.logs
  · exact stage_kept kept packet posted found _ _ side.logs
  · exact stage_kept kept packet posted found .logged side.buf _
  · exact release_kept kept packet posted found

theorem close_kept (kept : side.Kept) : Kept { side with mode := .close } := by
  refine ⟨kept.1.of_same rfl rfl rfl rfl rfl fun exposed => exposed,
    ⟨kept.2.posted, kept.2.emptied, kept.2.filled, fun body => ?_⟩⟩
  cases body

theorem reuse_kept (kept : side.Kept) (buffer : Nat) (cells : Nat → UInt8)
    (free : side.pool.ref buffer = 0) :
    Kept { side with cells := Function.update side.cells buffer cells } := by
  obtain ⟨notCurrent, notPackets⟩ := kept.1.unreferenced buffer free
  refine ⟨⟨kept.1.counted, fun packet member => ?_, kept.1.clear, kept.1.newborn⟩,
    ⟨kept.2.posted, kept.2.emptied, fun pi ri looping => ?_, kept.2.body⟩⟩
  · rw [packet.bytes_update _ _ _ (notPackets packet member)]
    exact kept.1.intact packet member
  · simp only [Function.update_of_ne notCurrent]
    exact kept.2.filled pi ri looping

end Steps

/-- No handler moves: the reader may post packets, and what the packets hold stays. -/
structure Calm (side next : WantedSide) : Prop where
  buf : next.buf = side.buf
  logs : next.logs = side.logs
  packets : ∃ new, next.packets = side.packets ++ new ∧ ∀ packet ∈ new, packet.stage = .posted
  bytes : ∀ packet ∈ side.packets, packet.bytes next.cells = packet.bytes side.cells

theorem Calm.of_same {side next : WantedSide} (buf : next.buf = side.buf)
    (logs : next.logs = side.logs) (packets : next.packets = side.packets)
    (cells : next.cells = side.cells) : Calm side next := by
  refine ⟨buf, logs, ⟨[], ?_, List.forall_mem_nil _⟩, fun packet _ => ?_⟩
  · rw [packets, List.append_nil]
  · rw [cells]

theorem loopTurn_calm (side : WantedSide) (pi ri : Nat) : Calm side (side.loopTurn pi ri) := by
  unfold loopTurn
  split
  · exact Calm.of_same rfl rfl rfl rfl
  · split
    · exact Calm.of_same rfl rfl rfl rfl
    · split
      · refine ⟨rfl, rfl, ⟨_, rfl, fun packet member => ?_⟩, fun _ _ => rfl⟩
        rw [List.mem_singleton.mp member]
      · exact Calm.of_same rfl rfl rfl rfl
    · exact Calm.of_same rfl rfl rfl rfl

theorem onReadCallback_calm (side : WantedSide) (posted : PostedReceive) (dwTransferred : Nat) :
    Calm side (side.onReadCallback posted dwTransferred) := by
  unfold onReadCallback
  split
  · exact Calm.of_same rfl rfl rfl rfl
  · exact Calm.of_same rfl rfl rfl rfl

theorem postReceive_calm (side : WantedSide) (accepted : Bool) :
    Calm side (side.postReceive accepted) := by
  unfold postReceive
  split
  · exact Calm.of_same rfl rfl rfl rfl
  · exact Calm.of_same rfl rfl rfl rfl

theorem cells_calm (side : WantedSide) (buffer : Nat) (next : Nat → UInt8)
    (apart : ∀ packet ∈ side.packets, packet.buffer ≠ buffer) :
    Calm side { side with cells := Function.update side.cells buffer next } := by
  refine ⟨rfl, rfl, ⟨[], (List.append_nil _).symm, List.forall_mem_nil _⟩, fun packet member => ?_⟩
  exact packet.bytes_update side.cells buffer next (apart packet member)

/-- A handler goes on, or the step keeps what packets rely on and moves none. -/
theorem step_cases (side next : WantedSide) (event : WantedEvent) (kept : side.Kept)
    (stepped : side.step event = some next) :
    (∃ packet posted, event = .handle packet ∧ side.packets[packet]? = some posted ∧
      next = side.handlerStep packet posted) ∨ next.Kept ∧ Calm side next := by
  cases event with
  | deviceWrites bytes =>
      simp only [step] at stepped
      split at stepped
      · contradiction
      · rename_i posted receiving
        have isCurrent := (kept.2.posted posted receiving).1
        have clear := kept.1.clear (Or.inl (receiving ▸ Option.some_ne_none posted))
        split at stepped
        · cases stepped
          exact Or.inr ⟨deviceWrites_kept kept posted bytes receiving,
            cells_calm side _ _ (isCurrent ▸ clear)⟩
        · contradiction
  | received dwTransferred =>
      simp only [step] at stepped
      split at stepped
      · contradiction
      · rename_i posted receiving
        split at stepped
        · cases stepped
          exact Or.inr ⟨onReadCallback_kept kept posted dwTransferred receiving,
            onReadCallback_calm side posted dwTransferred⟩
        · contradiction
  | turn =>
      simp only [step] at stepped
      split at stepped
      · rename_i pi ri at_
        cases stepped
        exact Or.inr ⟨loopTurn_kept kept pi ri at_, loopTurn_calm side pi ri⟩
      · contradiction
  | testRef =>
      simp only [step] at stepped
      split at stepped
      · rename_i at_
        split at stepped
        · rename_i several
          cases stepped
          exact Or.inr ⟨(testRef_kept kept at_).1 several, Calm.of_same rfl rfl rfl rfl⟩
        · rename_i single
          cases stepped
          exact Or.inr ⟨(testRef_kept kept at_).2 (not_not.mp single),
            Calm.of_same rfl rfl rfl rfl⟩
      · contradiction
  | copy fresh =>
      simp only [step] at stepped
      split at stepped
      · rename_i at_
        split at stepped
        · rename_i free
          cases stepped
          exact Or.inr ⟨copy_kept kept fresh at_ free, Calm.of_same rfl rfl rfl rfl⟩
        · contradiction
      · contradiction
  | switch =>
      simp only [step] at stepped
      split at stepped
      · rename_i fresh at_
        cases stepped
        exact Or.inr ⟨switch_kept kept fresh at_, Calm.of_same rfl rfl rfl rfl⟩
      · contradiction
  | move =>
      simp only [step] at stepped
      split at stepped
      · rename_i at_
        cases stepped
        exact Or.inr ⟨move_kept kept at_, Calm.of_same rfl rfl rfl rfl⟩
      · contradiction
  | post accepted =>
      simp only [step] at stepped
      split at stepped
      · rename_i at_
        cases stepped
        exact Or.inr ⟨postReceive_kept kept accepted at_, postReceive_calm side accepted⟩
      · contradiction
  | handle packet =>
      simp only [step] at stepped
      split at stepped
      · contradiction
      · rename_i posted found
        exact Or.inl ⟨packet, posted, rfl, found, (Option.some.inj stepped).symm⟩
  | close =>
      cases stepped
      exact Or.inr ⟨close_kept kept, Calm.of_same rfl rfl rfl rfl⟩
  | reuse buffer cells =>
      simp only [step] at stepped
      split at stepped
      · rename_i free
        cases stepped
        exact Or.inr ⟨reuse_kept kept buffer cells free,
          cells_calm side buffer cells (kept.1.unreferenced buffer free).2⟩
      · contradiction

/-! ### Handlers that run one after the other -/

/-- What a handler has done so far. -/
def Progress (side : WantedSide) (packet : WantedPacket) : Prop :=
  match packet.stage with
  | .posted | .logged => True
  | .cleared => side.buf = clearedBuf
  | .sized size =>
      side.buf = clearedBuf ∧ SizeFits (packet.bytes side.cells) packet.chunk size
  | .copied size written =>
      written = (strncpyBytes (packet.bytes side.cells) size).length ∧
        side.buf = strncpy clearedBuf (packet.bytes side.cells) size ∧
        SizeFits (packet.bytes side.cells) packet.chunk size

structure Handling (side : WantedSide) : Prop where
  alone : side.packets.countP (fun packet => packet.stage.working) ≤ 1
  progress : ∀ packet ∈ side.packets, side.Progress packet
  logs : ∀ entry ∈ side.logs, LogsChunk entry.2 entry.1

theorem progress_of_idle (side : WantedSide) (packet : WantedPacket)
    (idle : packet.stage.working = false) : side.Progress packet := by
  unfold Progress
  cases stage : packet.stage with
  | posted => trivial
  | logged => trivial
  | cleared => exact absurd idle (by rw [stage]; exact Bool.noConfusion)
  | sized size => exact absurd idle (by rw [stage]; exact Bool.noConfusion)
  | copied size written => exact absurd idle (by rw [stage]; exact Bool.noConfusion)

theorem Handling.calm {side next : WantedSide} (handling : side.Handling)
    (calm : Calm side next) : next.Handling := by
  obtain ⟨new, packets, posted⟩ := calm.packets
  have idle : ∀ packet ∈ new, packet.stage.working = false := by
    intro packet member
    rw [posted packet member]
    rfl
  refine ⟨?_, ?_, ?_⟩
  · have none_ : new.countP (fun packet => packet.stage.working) = 0 := by
      refine List.countP_eq_zero.mpr fun packet member working => ?_
      exact Bool.false_ne_true ((idle packet member).symm.trans working)
    rw [packets, List.countP_append, none_, Nat.add_zero]
    exact handling.alone
  · intro packet member
    rw [packets] at member
    rcases List.mem_append.mp member with old | isNew
    · have progress := handling.progress packet old
      unfold Progress at progress ⊢
      rw [calm.buf, calm.bytes packet old]
      exact progress
    · exact progress_of_idle next packet (idle packet isNew)
  · rw [calm.logs]
    exact handling.logs

theorem Handling.sound {side : WantedSide} (handling : side.Handling) : side.Faithful := by
  refine ⟨fun packet member => ?_, handling.logs⟩
  have progress := handling.progress packet member
  unfold Progress at progress
  cases stage : packet.stage with
  | copied size written =>
      rw [stage] at progress
      obtain ⟨length, _, fits⟩ := progress
      rw [strncpyBytes_length] at length
      exact length ▸ fits.inside
  | posted | cleared | sized size | logged => exact Nat.zero_le dummyBufSize

theorem Handling.of_one {next : WantedSide} (before after : List WantedPacket)
    (packet : WantedPacket) (packets : next.packets = before ++ packet :: after)
    (idle : ∀ other ∈ before ++ after, other.stage.working = false)
    (progress : next.Progress packet)
    (logs : ∀ entry ∈ next.logs, LogsChunk entry.2 entry.1) : next.Handling := by
  have none_ : (before ++ after).countP (fun packet => packet.stage.working) = 0 := by
    refine List.countP_eq_zero.mpr fun other member working => ?_
    exact Bool.false_ne_true ((idle other member).symm.trans working)
  refine ⟨?_, ?_, logs⟩
  · rw [List.countP_append] at none_
    rw [packets, List.countP_append, List.countP_cons]
    split
    · omega
    · omega
  · intro other member
    rw [packets] at member
    rcases List.mem_append.mp member with early | late
    · exact progress_of_idle next other (idle other (List.mem_append_left _ early))
    · rcases List.mem_cons.mp late with rfl | later
      · exact progress
      · exact progress_of_idle next other (idle other (List.mem_append_right _ later))

/-- Beside a handler at work there is no other one. -/
theorem Handling.others_idle {side : WantedSide} (handling : side.Handling)
    (before after : List WantedPacket) (packet : WantedPacket)
    (packets : side.packets = before ++ packet :: after)
    (working : packet.stage.working = true) :
    ∀ other ∈ before ++ after, other.stage.working = false := by
  have alone := handling.alone
  rw [packets, List.countP_append, List.countP_cons, if_pos working] at alone
  have none_ : (before ++ after).countP (fun packet => packet.stage.working) = 0 := by
    rw [List.countP_append]
    omega
  intro other member
  exact Bool.eq_false_of_not_eq_true (List.countP_eq_zero.mp none_ other member)

theorem handlerStep_handling (side : WantedSide) (packet : Nat) (posted : WantedPacket)
    (kept : side.Kept) (handling : side.Handling) (found : side.packets[packet]? = some posted)
    (inTime : side.HandledInTime (.handle packet)) : (side.handlerStep packet posted).Handling := by
  obtain ⟨before, after, packets, erased, replaced⟩ :=
    ReadSide.split_at side.packets packet posted found
  have member : posted ∈ side.packets := List.mem_of_getElem? found
  have others : (before ++ after).Sublist side.packets :=
    packets ▸ ReadSide.others_sublist before after posted
  have progress := handling.progress posted member
  obtain ⟨free, fits⟩ := inTime posted found
  unfold Progress at progress
  unfold handlerStep
  cases stage : posted.stage with
  | posted =>
      have idle : ∀ other ∈ before ++ after, other.stage.working = false := fun other isOther =>
        free stage other (others.subset isOther)
      exact Handling.of_one before after _ (replaced _) idle rfl handling.logs
  | cleared =>
      rw [stage] at progress
      have idle := handling.others_idle before after posted packets (stage ▸ rfl)
      exact Handling.of_one before after _ (replaced _) idle ⟨progress, fits stage⟩ handling.logs
  | sized size =>
      rw [stage] at progress
      have idle := handling.others_idle before after posted packets (stage ▸ rfl)
      refine Handling.of_one before after _ (replaced _) idle ⟨rfl, ?_, progress.2⟩ handling.logs
      simp only
      rw [progress.1]
      rfl
  | copied size written =>
      rw [stage] at progress
      obtain ⟨length, copied, sizeFits⟩ := progress
      have idle := handling.others_idle before after posted packets (stage ▸ rfl)
      refine Handling.of_one before after _ (replaced _) idle trivial fun entry isEntry => ?_
      rcases List.mem_append.mp isEntry with old | new
      · exact handling.logs entry old
      · have logs := (logsChunk_iff (posted.bytes side.cells) posted.chunk size
          (kept.1.intact posted member)).mpr sizeFits
        rw [List.mem_singleton.mp new, length, copied]
        exact logs
  | logged =>
      simp only [erased]
      refine ⟨others.countP_le.trans handling.alone, fun other isOther => ?_, handling.logs⟩
      exact handling.progress other (others.subset isOther)

theorem start_kept (packetLen : Nat) (cells : Nat → Nat → UInt8) :
    (start packetLen cells).Kept := by
  have empty : RefPool.Counted ([] : List Nat) ⟨fun _ => 0, fun _ => 0, fun _ => 0⟩ :=
    ⟨fun _ => rfl, fun _ => rfl⟩
  refine ⟨⟨empty.acquire 0 rfl, List.forall_mem_nil _, fun _ => List.forall_mem_nil _,
    fun _ _ => List.forall_mem_nil _⟩, ⟨nofun, nofun, fun pi ri looping => ?_, nofun⟩⟩
  cases looping
  exact ⟨Or.inl rfl, rfl⟩

theorem start_handling (packetLen : Nat) (cells : Nat → Nat → UInt8) :
    (start packetLen cells).Handling :=
  ⟨Nat.zero_le 1, List.forall_mem_nil _, List.forall_mem_nil _⟩

theorem step_handling (side : WantedSide) (event : WantedEvent) (next : WantedSide)
    (holds : side.Kept ∧ side.Handling) (inTime : side.HandledInTime event)
    (stepped : side.step event = some next) : next.Kept ∧ next.Handling := by
  obtain ⟨kept, handling⟩ := holds
  rcases step_cases side next event kept stepped with ⟨packet, posted, rfl, found, rfl⟩ | other
  · exact ⟨handlerStep_kept kept packet posted found,
      handlerStep_handling side packet posted kept handling found inTime⟩
  · exact ⟨other.1, handling.calm other.2⟩

/-- Handlers that start one at a time, each with a length that fits its chunk,
stay in their array and log what they were posted for. -/
theorem handled_in_time (packetLen : Nat) (cells : Nat → Nat → UInt8) (events : List WantedEvent)
    (inTime : machine.Guarded HandledInTime (start packetLen cells) events) :
    machine.Throughout Faithful (start packetLen cells) events :=
  machine.throughout_of_guarded (fun side => side.Kept ∧ side.Handling) Faithful HandledInTime
    step_handling (fun _ holds => holds.2.sound) events _
    ⟨start_kept packetLen cells, start_handling packetLen cells⟩ inTime

def handledAtOnce : List WantedEvent :=
  [.turn, .testRef, .move, .post true, .deviceWrites [97, 98, 99], .received 3, .turn, .turn,
    .handle 0, .handle 0, .handle 0, .handle 0, .handle 0]

theorem handledAtOnce_faithful :
    machine.Throughout Faithful (start 0 fun _ _ => 0) handledAtOnce :=
  handled_in_time 0 (fun _ _ => 0) handledAtOnce ((machine.guarded_iff_taken _ _ _).mpr (by decide))

def handledLate : List WantedEvent :=
  [.turn, .testRef, .move, .post true, .deviceWrites [97, 98, 99], .received 3, .turn, .turn,
    .turn, .testRef, .copy 1, .switch, .post true, .deviceWrites [100], .received 1, .turn,
    .handle 0, .handle 0, .handle 0, .handle 0]

theorem late_handler_cuts_chunk :
    ¬ ∀ (packetLen : Nat) (cells : Nat → Nat → UInt8) (events : List WantedEvent),
      machine.Throughout Faithful (start packetLen cells) events := by
  intro claimed
  have faithful := claimed 0 (fun _ _ => 0) handledLate
  rw [machine.throughout_iff_trace] at faithful
  exact absurd faithful (by decide)

end WantedSide

end AuthServer
