/-
What a client's packet is answered, over all the streams it can arrive in.

A handler gets a pointer behind the opcode into the read buffer, which no
receive touches before it is done.  Its outcome is what it queued and whether
it asks to close the connection; a null pointer access and a write behind an
array have none.  The connection may have been closed before the handler runs.
-/

import AuthServer.ClientVersion
import AuthServer.IPList
import AuthServer.PacketReader
import AuthServer.StreamReader

set_option autoImplicit false

namespace AuthServer

open LinearMemory

/-- A packet posted to its handler, and the memory the handler's pointer leads to. -/
structure PostedCall where
  packet : Packet
  memory : Nat → UInt8

def LengthRule.postedCalls (rule : LengthRule) (buf : CIOBuffer) (read : ReadState) :
    List PostedCall :=
  match rule.onRead buf read with
  | none => []
  | some result =>
      result.posted.map fun posted =>
        { packet := LengthRule.packetAt buf.buffer posted
          memory := fun index => buf.buffer (posted.offset + 1 + index) }

/-- A connection together with the calls it has posted so far. -/
structure Reading where
  connection : Connection
  calls : List PostedCall

namespace Reading

def onCreate (rule : LengthRule) (packetLen : Int) (recycled fresh : Nat → UInt8) :
    Option Reading :=
  (Connection.onCreate rule packetLen recycled fresh).map fun connection =>
    { connection := connection
      calls := rule.postedCalls (CIOBuffer.alloc recycled) ⟨.readLen, packetLen⟩ }

def received (connection : Connection) (posted : WsaBuf) (receive : Receive) : CIOBuffer :=
  { buffer := store connection.readBuf.buffer posted.offset receive.bytes
    size := connection.readBuf.size + receive.bytes.length
    ref := receive.ref }

def onReadCallback (rule : LengthRule) (reading : Reading) (receive : Receive) :
    Option Reading :=
  (reading.connection.onReadCallback rule receive).map fun connection =>
    { connection := connection
      calls := reading.calls ++
        match reading.connection.link with
        | .closed _ => []
        | .receiving posted =>
            rule.postedCalls (received reading.connection posted receive)
              reading.connection.read }

def machine (rule : LengthRule) : EventRuns.Machine Reading Receive where
  step := onReadCallback rule

/-- In some run of a connection the call is posted. -/
def Posts (rule : LengthRule) (call : PostedCall) : Prop :=
  ∃ (packetLen : Int) (recycled fresh : Nat → UInt8) (receives : List Receive)
    (reading : Reading),
    ((onCreate rule packetLen recycled fresh).bind fun start =>
      (machine rule).run start receives) = some reading ∧ call ∈ reading.calls

end Reading

def acLoginFail : UInt8 := 1

def sBlockedIP : UInt8 := 22

/-- What a client packet is handled with besides the packet. -/
structure ClientService where
  config : Config
  useForbiddenIPList : Bool
  forbiddenIPList : List IPRecord

/-- The circumstances of one call of a handler. -/
structure Handling where
  tick : Nat
  client : ClientLink
  object : Nat
  recycled : Nat → UInt8

def greeting (config : Config) (handling : Handling) : SendInput :=
  ⟨handling.object, handling.recycled, ['c', 'h'],
    [.int 0, .int (Int32.ofInt config.serverVersion)]⟩

def clientVersion (service : ClientService) (address : InAddr) (handling : Handling)
    (_packet : Nat → UInt8) : Option (ClientLink × Bool) :=
  let welcome :=
    (CSocketServerEx.send handling.tick { handling.client with lastIO := handling.tick }
      (greeting service.config handling)).map fun client => (client, false)
  if service.useForbiddenIPList then
    match CIPList.ipExists service.forbiddenIPList address with
    | none => none
    | some true =>
        (CSocketServerEx.send handling.tick handling.client
          (reply handling.object handling.recycled acLoginFail sBlockedIP)).map
          fun client => (client, false)
    | some false => welcome
  else welcome

def serverPacketEx (service : ClientService) (address : InAddr) (opcode : UInt8)
    (handling : Handling) (packet : Nat → UInt8) : Option (ClientLink × Bool) :=
  match opcode.toNat with
  | 0 => clientVersion service address handling packet
  | 1 =>
      selectClientVersion service.config handling.tick handling.client handling.object
        handling.recycled packet
  | _ => none

def outcome (service : ClientService) (address : InAddr) (call : PostedCall)
    (handling : Handling) : Option (List UInt8 × Bool) :=
  (serverPacketEx service address call.packet.opcode handling call.memory).map fun handled =>
    (handled.1.outgoing.output.bytes.drop handling.client.outgoing.output.bytes.length,
      handled.2)

def Handling.isOpen (handling : Handling) : Bool := handling.client.mode != .close

/-- Wherever the packet arrives, its handler does the same; the flags say
whether the two connections are still open then. -/
def SameReply (service : ClientService) (address : InAddr) (firstOpen secondOpen : Bool)
    (packet : Packet) : Prop :=
  ∀ first second : PostedCall,
    Reading.Posts CSocketServerEx.lengthRule first →
    Reading.Posts CSocketServerEx.lengthRule second →
    first.packet = packet → second.packet = packet →
    ∀ here there : Handling, here.isOpen = firstOpen → there.isOpen = secondOpen →
      outcome service address first here = outcome service address second there

/-! ### The condition -/

/-- The keys that `SelectClientVersion` can read where the body has these bytes. -/
def KeyOf (body : List UInt8) (key : UInt16) : Prop :=
  ∃ memory : Nat → UInt8, slice memory 0 body.length = body ∧ getShortFromPacket memory = key

/-- The handler of the key is left without a result: there is no resource, or
none that fits the buffer of a connection that is open. -/
def Lost (files : FileSystem) (serverVersion : Int) (isOpen : Bool) (key : UInt16) : Prop :=
  (key.toNat : Int) ≤ serverVersion ∧
    ∀ file, Config.fileFor files serverVersion key.toNat = some file →
      isOpen = true ∧ 20475 < file.length

/-- The address cannot be looked up in the list of forbidden ones. -/
def Unlisted (service : ClientService) (address : InAddr) : Prop :=
  service.useForbiddenIPList = true ∧
    CIPList.ipExists service.forbiddenIPList address = none

/-- The bytes of the body settle what `SelectClientVersion` does. -/
def BodySettles (files : FileSystem) (serverVersion : Int) (isOpen : Bool)
    (body : List UInt8) : Prop :=
  2 ≤ body.length ∨ (∀ key, KeyOf body key → serverVersion < (key.toNat : Int)) ∨
    (isOpen = false ∧ ∀ key, KeyOf body key →
      (Config.fileFor files serverVersion key.toNat).isSome = true)

def Determined (files : FileSystem) (service : ClientService) (address : InAddr)
    (firstOpen secondOpen : Bool) (packet : Packet) : Prop :=
  if packet.opcode = 0 then firstOpen = secondOpen ∨ Unlisted service address
  else
    (firstOpen = secondOpen ∧
      BodySettles files service.config.serverVersion firstOpen packet.body) ∨
    ∀ key, KeyOf packet.body key →
      Lost files service.config.serverVersion firstOpen key ∧
        Lost files service.config.serverVersion secondOpen key

/-! ### What a handler comes to -/

theorem queued_of_append (before after reply : List UInt8) (appended : after = before ++ reply) :
    after.drop before.length = reply := by
  rw [appended, List.drop_left]

theorem send_closed (tick : Nat) (client : ClientLink) (input : SendInput)
    (closed : client.mode = .close) : CSocketServerEx.send tick client input = some client := by
  unfold CSocketServerEx.send
  rw [if_pos closed]

theorem Handling.isOpen_iff (handling : Handling) :
    handling.isOpen = true ↔ ¬ handling.client.mode = .close :=
  bne_iff_ne

theorem Handling.closed_iff (handling : Handling) :
    handling.isOpen = false ↔ handling.client.mode = .close :=
  bne_eq_false_iff_eq

def shortReply (isOpen : Bool) (command code : UInt8) : List UInt8 :=
  if isOpen then [4, 0, command, code] else []

def resourceFrame (key : UInt16) (file : List UInt8) : List UInt8 :=
  UInt8.ofInt ((file.length + 5 : Nat) : Int) ::
    UInt8.ofInt (((file.length + 5 : Nat) : Int) >>> (8 : Nat)) ::
      1 :: key.toUInt8 :: (key >>> 8).toUInt8 :: file

def welcomeReply (config : Config) (isOpen : Bool) : List UInt8 :=
  if isOpen then
    [5, 0, 0, shiftedChar (Int32.ofInt config.serverVersion) 0,
      shiftedChar (Int32.ofInt config.serverVersion) 8]
  else []

def versionOutcome (service : ClientService) (address : InAddr) (isOpen : Bool) :
    Option (List UInt8 × Bool) :=
  if service.useForbiddenIPList then
    match CIPList.ipExists service.forbiddenIPList address with
    | none => none
    | some true => some (shortReply isOpen acLoginFail sBlockedIP, false)
    | some false => some (welcomeReply service.config isOpen, false)
  else some (welcomeReply service.config isOpen, false)

def keyOutcome (files : FileSystem) (serverVersion : Int) (isOpen : Bool) (key : UInt16) :
    Option (List UInt8 × Bool) :=
  if serverVersion < (key.toNat : Int) then some (shortReply isOpen 255 sLimitExceed, true)
  else
    match Config.fileFor files serverVersion key.toNat with
    | none => none
    | some file =>
        if isOpen then
          if file.length ≤ 20475 then some (resourceFrame key file, false) else none
        else some ([], false)

theorem reply_queued (handling : Handling) (tick since : Nat) (command code : UInt8) :
    ∃ after, CSocketServerEx.send tick { handling.client with lastIO := since }
        (reply handling.object handling.recycled command code) = some after ∧
      after.outgoing.output.bytes.drop handling.client.outgoing.output.bytes.length =
        shortReply handling.isOpen command code := by
  by_cases isOpen : handling.isOpen = true
  · obtain ⟨after, sent, bytes⟩ := reply_sent tick { handling.client with lastIO := since }
      handling.object handling.recycled command code (handling.isOpen_iff.mp isOpen)
    refine ⟨_, sent, ?_⟩
    rw [queued_of_append _ _ _ bytes, shortReply, if_pos isOpen]
  · have closed := handling.closed_iff.mp (Bool.eq_false_iff.mpr isOpen)
    refine ⟨_, send_closed tick { handling.client with lastIO := since } _ closed, ?_⟩
    rw [List.drop_length, shortReply, if_neg isOpen]

theorem greeting_queued (config : Config) (handling : Handling) (tick since : Nat) :
    ∃ after, CSocketServerEx.send tick { handling.client with lastIO := since }
        (greeting config handling) = some after ∧
      after.outgoing.output.bytes.drop handling.client.outgoing.output.bytes.length =
        welcomeReply config handling.isOpen := by
  by_cases isOpen : handling.isOpen = true
  · obtain ⟨after, sent, bytes⟩ := encoded_sent tick { handling.client with lastIO := since }
      (greeting config handling) [0, shiftedChar (Int32.ofInt config.serverVersion) 0,
        shiftedChar (Int32.ofInt config.serverVersion) 8] 3 rfl rfl
      (handling.isOpen_iff.mp isOpen) (by decide) (by decide)
    refine ⟨_, sent, ?_⟩
    rw [queued_of_append _ _ _ bytes, welcomeReply, if_pos isOpen]
    rfl
  · have closed := handling.closed_iff.mp (Bool.eq_false_iff.mpr isOpen)
    refine ⟨_, send_closed tick { handling.client with lastIO := since } _ closed, ?_⟩
    rw [List.drop_length, welcomeReply, if_neg isOpen]

theorem resource_queued (handling : Handling) (since : Nat) (key : UInt16) (file : List UInt8) :
    ((CSocketServerEx.sendResource { handling.client with lastIO := since } handling.object
      handling.recycled 1 key file file.length).map fun after =>
        (after.outgoing.output.bytes.drop handling.client.outgoing.output.bytes.length, false)) =
      if handling.isOpen then
        if file.length ≤ 20475 then some (resourceFrame key file, false) else none
      else some ([], false) := by
  by_cases isOpen : handling.isOpen = true
  · have notClosed := handling.isOpen_iff.mp isOpen
    rw [if_pos isOpen]
    by_cases fits : file.length ≤ 20475
    · have room : file.length + 5 ≤ bufferSize := by
        unfold bufferSize
        omega
      obtain ⟨after, sent, bytes⟩ := resource_sent { handling.client with lastIO := since }
        handling.object handling.recycled key file notClosed room
      rw [if_pos fits, sent, Option.map_some, queued_of_append _ _ _ bytes]
      rfl
    · unfold CSocketServerEx.sendResource
      rw [if_neg fits, if_neg notClosed, if_pos (by unfold bufferSize; omega)]
      rfl
  · have closed := handling.closed_iff.mp (Bool.eq_false_iff.mpr isOpen)
    unfold CSocketServerEx.sendResource
    rw [if_neg isOpen, if_pos closed, Option.map_some, List.drop_length]

section Outcomes

variable (files : FileSystem) (service : ClientService) (address : InAddr)

theorem select_outcome
    (loaded : Config.load files service.config.serverVersion = some service.config)
    (call : PostedCall) (handling : Handling) (opcode : call.packet.opcode = 1) :
    outcome service address call handling =
      keyOutcome files service.config.serverVersion handling.isOpen
        (getShortFromPacket call.memory) := by
  have entry := Config.entry_of_load files service.config.serverVersion service.config loaded
    (getShortFromPacket call.memory).toNat
  unfold outcome keyOutcome
  rw [opcode]
  change (selectClientVersion service.config handling.tick handling.client handling.object
    handling.recycled call.memory).map _ = _
  unfold selectClientVersion
  by_cases beyond : service.config.serverVersion < ((getShortFromPacket call.memory).toNat : Int)
  · obtain ⟨after, sent, queued⟩ := reply_queued handling handling.tick handling.tick 255
      sLimitExceed
    simp only [if_pos beyond, gt_iff_lt, sent, Option.map_some, queued]
  · simp only [gt_iff_lt, if_neg beyond]
    cases found : Config.fileFor files service.config.serverVersion
        (getShortFromPacket call.memory).toNat with
    | none =>
        rw [found, Option.map_none] at entry
        simp only [entry, Option.map_none]
    | some file =>
        rw [found, Option.map_some] at entry
        simp only [entry, Option.map_map]
        exact resource_queued handling handling.tick (getShortFromPacket call.memory) file

theorem version_outcome (call : PostedCall) (handling : Handling)
    (opcode : call.packet.opcode = 0) :
    outcome service address call handling =
      versionOutcome service address handling.isOpen := by
  obtain ⟨greeted, greetingSent, greetingQueued⟩ := greeting_queued service.config handling
    handling.tick handling.tick
  obtain ⟨refused, replySent, replyQueued⟩ := reply_queued handling handling.tick
    (ClientLink.lastIO handling.client) acLoginFail sBlockedIP
  unfold outcome
  rw [opcode]
  change (clientVersion service address handling call.memory).map _ = _
  unfold clientVersion versionOutcome
  cases service.useForbiddenIPList with
  | false => simp only [Bool.false_eq_true, if_false, greetingSent, Option.map_some, greetingQueued]
  | true =>
      simp only [if_true]
      cases CIPList.ipExists service.forbiddenIPList address with
      | none => rfl
      | some listed =>
          cases listed with
          | true => simp only [replySent, Option.map_some, replyQueued]
          | false => simp only [greetingSent, Option.map_some, greetingQueued]

end Outcomes

/-! ### The calls of all runs -/

namespace Reading

/-- The handler finds the body behind its pointer. -/
def Agrees (call : PostedCall) : Prop :=
  slice call.memory 0 call.packet.body.length = call.packet.body

theorem postedCalls_agree (rule : LengthRule) (buf : CIOBuffer) (read : ReadState)
    (call : PostedCall) (member : call ∈ rule.postedCalls buf read) : Agrees call := by
  unfold LengthRule.postedCalls at member
  split at member
  · cases member
  · obtain ⟨posted, _, rfl⟩ := List.mem_map.mp member
    change slice _ 0 (slice buf.buffer (posted.offset + 1) _).length =
      slice buf.buffer (posted.offset + 1) _
    rw [slice_length]
    apply (slice_eq_iff _ _ _ _ _).mpr
    intro index _
    rw [Nat.zero_add]

theorem posts_agrees (rule : LengthRule) (call : PostedCall) (posts : Posts rule call) :
    Agrees call := by
  obtain ⟨packetLen, recycled, fresh, receives, reading, ran, member⟩ := posts
  obtain ⟨start, created, ran⟩ := Option.bind_eq_some_iff.mp ran
  have kept : ∀ call ∈ reading.calls, Agrees call := by
    apply (machine rule).run_invariant (fun reading => ∀ call ∈ reading.calls, Agrees call) ?_
      receives start reading ?_ ran
    · intro before receive next agree stepped
      obtain ⟨connection, _, rfl⟩ := Option.map_eq_some_iff.mp stepped
      intro other inside
      rcases List.mem_append.mp inside with earlier | here
      · exact agree other earlier
      · split at here
        · cases here
        · exact postedCalls_agree rule _ _ other here
    · obtain ⟨connection, _, rfl⟩ := Option.map_eq_some_iff.mp created
      exact fun other inside =>
        postedCalls_agree rule (CIOBuffer.alloc recycled) ⟨.readLen, packetLen⟩ other inside
  exact kept call member

theorem loop_end (rule : LengthRule) (inBuf : Nat → UInt8) (ri fuel : Nat) (state : ReadState)
    (pi : Nat) (past : ri ≤ pi) :
    rule.loop inBuf ri (fuel + 1) state pi = some ⟨[], state, .read 0⟩ := by
  rw [LengthRule.loop, LengthRule.turn, if_pos past]

theorem onRead_empty (rule : LengthRule) (buf : CIOBuffer) (packetLen : Int)
    (empty : buf.size = 0) :
    rule.onRead buf ⟨.readLen, packetLen⟩ = some ⟨[], ⟨.readLen, packetLen⟩, .read 0⟩ := by
  rw [LengthRule.onRead, if_neg SocketMode.noConfusion, loop_end]
  exact Nat.le_of_eq empty

theorem onRead_header (buf : CIOBuffer) (previous : Int) (low high : UInt8) (packetLen : Nat)
    (filled : buf.size = 2) (first : buf.buffer 0 = low) (second : buf.buffer 1 = high)
    (value : low.toNat + 256 * high.toNat = packetLen + 2) (positive : 0 < packetLen)
    (fits : packetLen ≤ bufferSize) :
    CSocketServerEx.lengthRule.onRead buf ⟨.readLen, previous⟩ =
      some ⟨[], ⟨.readBody, packetLen⟩, .read 0⟩ := by
  have length : CSocketServerEx.lengthRule.packetLen low high = packetLen := by
    simp only [CSocketServerEx.lengthRule]
    omega
  have turns : CSocketServerEx.lengthRule.turn buf.buffer 2 ⟨.readLen, previous⟩ 0 =
      .header packetLen := by
    rw [LengthRule.turn, if_neg (by omega)]
    simp only [first, second, length]
    rw [if_pos (by decide), if_neg (by omega)]
  rw [LengthRule.onRead, if_neg SocketMode.noConfusion, filled, LengthRule.loop, turns]
  exact loop_end _ _ _ _ _ _ (Nat.le_refl 2)

theorem onRead_packet (rule : LengthRule) (buf : CIOBuffer) (packetLen : Nat)
    (filled : buf.size = packetLen) (positive : 0 < packetLen)
    (known : (buf.buffer 0).toNat < rule.opcodes) :
    rule.onRead buf ⟨.readBody, packetLen⟩ =
      some ⟨[⟨0, packetLen⟩], ⟨.readLen, packetLen⟩, .read 0⟩ := by
  have turns : rule.turn buf.buffer packetLen ⟨.readBody, packetLen⟩ 0 = .dispatch := by
    rw [LengthRule.turn, if_neg (by omega)]
    simp only
    rw [if_pos (by omega), if_neg (by omega)]
  rw [LengthRule.onRead, if_neg SocketMode.noConfusion, filled, LengthRule.loop, turns]
  simp only [Int.toNat_natCast, Nat.zero_add]
  obtain ⟨fuel, counted⟩ := Nat.exists_eq_succ_of_ne_zero (Nat.ne_of_gt positive)
  rw [counted, loop_end _ _ _ _ _ _ (Nat.le_refl _)]
  rfl

theorem onReadCallback_reads (rule : LengthRule) (reading : Reading) (posted : WsaBuf)
    (receive : Receive) (posts : List Posted) (state : ReadState) (left : Nat)
    (linked : reading.connection.link = .receiving posted)
    (within : receive.bytes.length ≤ posted.len)
    (read : rule.onRead (received reading.connection posted receive) reading.connection.read =
      some ⟨posts, state, .read left⟩) :
    ∃ next : Reading, reading.onReadCallback rule receive = some next ∧
      next.connection.read = state ∧
      next.connection.readBuf =
        CIOSocket.read (received reading.connection posted receive) left receive.recycled ∧
      next.connection.link = .receiving (CIOSocket.wsaBuf next.connection.readBuf) ∧
      next.calls = reading.calls ++
        rule.postedCalls (received reading.connection posted receive) reading.connection.read := by
  have stepped : reading.connection.onReadCallback rule receive =
      some ⟨state,
        CIOSocket.read (received reading.connection posted receive) left receive.recycled,
        .receiving (CIOSocket.wsaBuf
          (CIOSocket.read (received reading.connection posted receive) left receive.recycled)),
        reading.connection.dispatched ++ posts.map (LengthRule.packetAt
          (received reading.connection posted receive).buffer)⟩ := by
    unfold Connection.onReadCallback
    rw [linked]
    simp only [if_pos within]
    change Connection.onRead rule _ _ (received reading.connection posted receive) _ = _
    rw [Connection.onRead, read, Option.map_some]
  unfold onReadCallback
  rw [stepped, Option.map_some, linked]
  exact ⟨_, rfl, rfl, rfl, rfl, rfl⟩

theorem wsaBuf_empty (buf : CIOBuffer) (empty : buf.size = 0) :
    CIOSocket.wsaBuf buf = ⟨0, bufferSize⟩ := by
  rw [CIOSocket.wsaBuf, empty]
  rfl

theorem onCreate_reads (rule : LengthRule) (recycled fresh : Nat → UInt8) :
    ∃ start : Reading, onCreate rule 0 recycled fresh = some start ∧
      start.connection.read = ⟨.readLen, 0⟩ ∧ start.connection.readBuf.size = 0 ∧
      start.connection.link = .receiving ⟨0, bufferSize⟩ := by
  have read := onRead_empty rule (CIOBuffer.alloc recycled) 0 rfl
  unfold onCreate Connection.onCreate Connection.onRead
  rw [read]
  refine ⟨_, rfl, rfl, CIOSocket.read_size _ 0 fresh, ?_⟩
  exact congrArg Link.receiving (wsaBuf_empty _ (CIOSocket.read_size _ 0 fresh))

/-- Any packet the reader dispatches can arrive with any bytes behind it. -/
theorem posts_anywhere (opcode : UInt8) (body : List UInt8) (tail : Nat → UInt8)
    (known : opcode.toNat < aqMax) (sized : body.length < bufferSize) :
    ∃ call, Posts CSocketServerEx.lengthRule call ∧ call.packet = ⟨opcode, body⟩ ∧
      ∀ index, body.length ≤ index → call.memory index = tail index := by
  obtain ⟨start, created, startRead, startSize, startLink⟩ :=
    onCreate_reads CSocketServerEx.lengthRule (fun _ => 0) (fun _ => 0)
  -- The two length bytes arrive alone; a fresh buffer with the bytes of the tail follows.
  have total : body.length + 3 < 65536 := by
    unfold bufferSize at sized
    omega
  let low := UInt8.ofInt ((body.length + 3 : Nat) : Int)
  let high := UInt8.ofInt (((body.length + 3 : Nat) : Int) >>> (8 : Nat))
  let header : Receive := ⟨[low, high], List.cons_ne_nil _ _, 2, fun index => tail (index - 1)⟩
  let content : Receive := ⟨opcode :: body, List.cons_ne_nil _ _, 2, fun _ => 0⟩
  have headerBuf : (received start.connection ⟨0, bufferSize⟩ header).size = 2 := by
    change start.connection.readBuf.size + 2 = 2
    rw [startSize]
  obtain ⟨second, toSecond, secondRead, secondBuf, secondLink, _⟩ :=
    start.onReadCallback_reads CSocketServerEx.lengthRule ⟨0, bufferSize⟩ header []
      ⟨.readBody, ((body.length + 1 : Nat) : Int)⟩ 0 startLink (Nat.le_of_ble_eq_true rfl) (by
        rw [startRead]
        exact onRead_header _ 0 low high (body.length + 1) headerBuf rfl rfl
          (lengthBytes_value (body.length + 3) total) (Nat.succ_pos _) sized)
  have secondSize : second.connection.readBuf.size = 0 := by
    rw [secondBuf]
    exact CIOSocket.read_size _ 0 _
  rw [wsaBuf_empty _ secondSize] at secondLink
  have contentBuf : (received second.connection ⟨0, bufferSize⟩ content).size =
      body.length + 1 := by
    change second.connection.readBuf.size + (body.length + 1) = body.length + 1
    rw [secondSize, Nat.zero_add]
  have read := onRead_packet CSocketServerEx.lengthRule
    (received second.connection ⟨0, bufferSize⟩ content) (body.length + 1) contentBuf
    (Nat.succ_pos _) known
  obtain ⟨final, toFinal, _, _, _, calls⟩ :=
    second.onReadCallback_reads CSocketServerEx.lengthRule ⟨0, bufferSize⟩ content _ _ 0
      secondLink sized (secondRead ▸ read)
  rw [secondRead] at calls
  refine ⟨⟨LengthRule.packetAt (received second.connection ⟨0, bufferSize⟩ content).buffer
      ⟨0, ((body.length + 1 : Nat) : Int)⟩,
    fun index => (received second.connection ⟨0, bufferSize⟩ content).buffer (0 + 1 + index)⟩,
    ⟨0, fun _ => 0, fun _ => 0, [header, content], final, ?_, ?_⟩, ?_, ?_⟩
  · rw [created, Option.bind_some]
    simp only [EventRuns.Machine.run, machine, toSecond, toFinal]
  · rw [calls, LengthRule.postedCalls, read]
    exact List.mem_append_right _ List.mem_cons_self
  · have body' := slice_store_same second.connection.readBuf.buffer 0 (opcode :: body)
    rw [List.length_cons, slice_head, List.cons.injEq] at body'
    exact congrArg₂ Packet.mk body'.1 body'.2
  · intro index behind
    have above := store_above second.connection.readBuf.buffer 0 (0 + 1 + index)
      (opcode :: body) (by rw [List.length_cons]; omega)
    change store second.connection.readBuf.buffer 0 (opcode :: body) (0 + 1 + index) = _
    rw [above, secondBuf]
    change store (fun index => tail (index - 1)) 0 [] (0 + 1 + index) = _
    rw [store_nil]
    rw [show 0 + 1 + index - 1 = index by omega]

end Reading

/-! ### Keys -/

theorem key_toNat (memory : Nat → UInt8) :
    (getShortFromPacket memory).toNat = (memory 0).toNat + 256 * (memory 1).toNat :=
  PacketReader.short_toNat (memory 0) (memory 1)

theorem key_congr (first second : Nat → UInt8) (low : first 0 = second 0)
    (high : first 1 = second 1) : getShortFromPacket first = getShortFromPacket second := by
  rw [getShortFromPacket, getShortFromPacket, low, high]

theorem keyOf_exists (body : List UInt8) : ∃ key, KeyOf body key :=
  ⟨_, store (fun _ => 0) 0 body, slice_store_same _ 0 body, rfl⟩

theorem keyOf_unique (body : List UInt8) (long : 2 ≤ body.length) (first second : UInt16)
    (isFirst : KeyOf body first) (isSecond : KeyOf body second) : first = second := by
  obtain ⟨here, hereBody, rfl⟩ := isFirst
  obtain ⟨there, thereBody, rfl⟩ := isSecond
  have agree := (slice_eq_iff here there 0 0 body.length).mp (hereBody.trans thereBody.symm)
  exact key_congr here there (agree 0 (by omega)) (agree 1 (by omega))

theorem keyOf_other (body : List UInt8) (short : body.length < 2) (key : UInt16)
    (isKey : KeyOf body key) : ∃ other, KeyOf body other ∧ other ≠ key := by
  obtain ⟨memory, inside, rfl⟩ := isKey
  refine ⟨_, ⟨fun index => if index = 1 then memory 1 + 1 else memory index, ?_, rfl⟩, ?_⟩
  · rw [← inside, slice_length]
    apply (slice_eq_iff _ _ _ _ _).mpr
    intro index within
    exact if_neg (by omega)
  · intro same
    have numbers := congrArg UInt16.toNat same
    rw [key_toNat, key_toNat] at numbers
    change (memory 0).toNat + 256 * (memory 1 + 1).toNat = _ at numbers
    rw [UInt8.toNat_add] at numbers
    change (memory 0).toNat + 256 * (((memory 1).toNat + 1) % 256) = _ at numbers
    have bound := (memory 1).toNat_lt
    omega

/-- A handler can meet every key that its body leaves open. -/
theorem keyOf_posted (opcode : UInt8) (body : List UInt8) (known : opcode.toNat < aqMax)
    (sized : body.length < bufferSize) (key : UInt16) (isKey : KeyOf body key) :
    ∃ call, Reading.Posts CSocketServerEx.lengthRule call ∧ call.packet = ⟨opcode, body⟩ ∧
      getShortFromPacket call.memory = key := by
  obtain ⟨memory, inside, rfl⟩ := isKey
  obtain ⟨call, posts, packet, behind⟩ := Reading.posts_anywhere opcode body memory known sized
  have agrees := Reading.posts_agrees _ call posts
  rw [Reading.Agrees, packet] at agrees
  have front := (slice_eq_iff call.memory memory 0 0 body.length).mp (agrees.trans inside.symm)
  have same : ∀ index, call.memory index = memory index := by
    intro index
    by_cases within : index < body.length
    · have cell := front index within
      rw [Nat.zero_add] at cell
      exact cell
    · exact behind index (Nat.le_of_not_lt within)
  exact ⟨call, posts, packet, key_congr _ _ (same 0) (same 1)⟩

theorem posted_keyOf (call : PostedCall) (posts : Reading.Posts CSocketServerEx.lengthRule call) :
    KeyOf call.packet.body (getShortFromPacket call.memory) :=
  ⟨call.memory, Reading.posts_agrees _ call posts, rfl⟩

section KeyOutcomes

variable (files : FileSystem) (serverVersion : Int)

theorem keyOutcome_cases (isOpen : Bool) (key : UInt16) :
    (serverVersion < (key.toNat : Int) ∧
      keyOutcome files serverVersion isOpen key =
        some (shortReply isOpen 255 sLimitExceed, true)) ∨
    (Lost files serverVersion isOpen key ∧ keyOutcome files serverVersion isOpen key = none) ∨
    ∃ file, Config.fileFor files serverVersion key.toNat = some file ∧
      keyOutcome files serverVersion isOpen key =
        some (if isOpen then resourceFrame key file else [], false) := by
  unfold keyOutcome
  by_cases beyond : serverVersion < (key.toNat : Int)
  · exact Or.inl ⟨beyond, if_pos beyond⟩
  · have within : (key.toNat : Int) ≤ serverVersion := Int.not_lt.mp beyond
    simp only [if_neg beyond]
    cases found : Config.fileFor files serverVersion key.toNat with
    | none =>
        right
        left
        refine ⟨⟨within, fun file same => ?_⟩, rfl⟩
        rw [found] at same
        cases same
    | some file =>
        cases isOpen with
        | false => exact Or.inr (Or.inr ⟨file, rfl, rfl⟩)
        | true =>
            by_cases fits : file.length ≤ 20475
            · refine Or.inr (Or.inr ⟨file, rfl, ?_⟩)
              simp only [if_true, if_pos fits]
            · right
              left
              constructor
              · refine ⟨within, fun other same => ⟨rfl, ?_⟩⟩
                rw [found, Option.some.injEq] at same
                rw [← same]
                exact Nat.lt_of_not_le fits
              · simp only [if_true, if_neg fits]

theorem keyOutcome_lost (isOpen : Bool) (key : UInt16) (lost : Lost files serverVersion isOpen key) :
    keyOutcome files serverVersion isOpen key = none := by
  unfold keyOutcome
  rw [if_neg (Int.not_lt.mpr lost.1)]
  cases found : Config.fileFor files serverVersion key.toNat with
  | none => rfl
  | some file =>
      obtain ⟨isOpen, large⟩ := lost.2 file found
      simp only [isOpen, if_true, if_neg (Nat.not_le.mpr large)]

theorem queued_iff_open (isOpen : Bool) (frame : List UInt8) (nonempty : frame ≠ []) :
    (if isOpen then frame else []) ≠ [] ↔ isOpen = true := by
  cases isOpen with
  | false =>
      constructor
      · intro queued
        exact absurd rfl queued
      · intro impossible
        cases impossible
  | true => exact ⟨fun _ => rfl, fun _ => nonempty⟩

theorem keyOutcome_some_iff_open (isOpen : Bool) (key : UInt16) (queued : List UInt8)
    (closing : Bool) (found : keyOutcome files serverVersion isOpen key = some (queued, closing)) :
    queued ≠ [] ↔ isOpen = true := by
  rcases keyOutcome_cases files serverVersion isOpen key with
    ⟨_, value⟩ | ⟨_, value⟩ | ⟨file, _, value⟩
  · rw [found, Option.some.injEq] at value
    rw [(Prod.mk.inj value).1, shortReply]
    exact queued_iff_open isOpen _ (List.cons_ne_nil _ _)
  · rw [found] at value
    cases value
  · rw [found, Option.some.injEq] at value
    rw [(Prod.mk.inj value).1]
    exact queued_iff_open isOpen _ (List.cons_ne_nil _ _)

theorem lost_of_none (isOpen : Bool) (key : UInt16)
    (silent : keyOutcome files serverVersion isOpen key = none) :
    Lost files serverVersion isOpen key := by
  rcases keyOutcome_cases files serverVersion isOpen key with
    ⟨_, value⟩ | ⟨lost, _⟩ | ⟨file, _, value⟩
  · rw [silent] at value
    cases value
  · exact lost
  · rw [silent] at value
    cases value

theorem beyond_of_closing (isOpen : Bool) (key : UInt16) (queued : List UInt8)
    (closing : keyOutcome files serverVersion isOpen key = some (queued, true)) :
    serverVersion < (key.toNat : Int) := by
  rcases keyOutcome_cases files serverVersion isOpen key with
    ⟨beyond, _⟩ | ⟨_, value⟩ | ⟨file, _, value⟩
  · exact beyond
  · rw [closing] at value
    cases value
  · rw [closing, Option.some.injEq] at value
    cases (Prod.mk.inj value).2

/-- A socket that is kept open is answered from the file of the key. -/
theorem file_of_kept_open (isOpen : Bool) (key : UInt16) (queued : List UInt8)
    (answered : keyOutcome files serverVersion isOpen key = some (queued, false)) :
    ∃ file, Config.fileFor files serverVersion key.toNat = some file ∧
      queued = if isOpen then resourceFrame key file else [] := by
  rcases keyOutcome_cases files serverVersion isOpen key with
    ⟨_, value⟩ | ⟨_, value⟩ | ⟨file, found, value⟩
  · rw [answered, Option.some.injEq] at value
    cases (Prod.mk.inj value).2
  · rw [answered] at value
    cases value
  · rw [answered, Option.some.injEq] at value
    exact ⟨file, found, (Prod.mk.inj value).1⟩

/-- The open handler of a key with a file answers no other key in the same way. -/
theorem resourceFrame_key (first second : UInt16) (firstFile secondFile : List UInt8)
    (same : resourceFrame first firstFile = resourceFrame second secondFile) :
    first = second := by
  unfold resourceFrame at same
  simp only [List.cons.injEq] at same
  obtain ⟨_, _, _, low, high, _⟩ := same
  apply UInt16.toNat_inj.mp
  have lows := congrArg UInt8.toNat low
  have highs := congrArg UInt8.toNat high
  rw [UInt16.toNat_toUInt8, UInt16.toNat_toUInt8] at lows highs
  rw [UInt16.toNat_shiftRight, UInt16.toNat_shiftRight, Nat.shiftRight_eq_div_pow,
    Nat.shiftRight_eq_div_pow] at highs
  have firstLt := first.toNat_lt
  have secondLt := second.toNat_lt
  change first.toNat / 2 ^ 8 % 256 = second.toNat / 2 ^ 8 % 256 at highs
  omega

/-- With all keys alike on one state of the connection, a body of fewer than
two bytes settles the handler, or no key has an outcome. -/
theorem settles_of_alike (isOpen : Bool) (body : List UInt8)
    (alike : ∀ first second, KeyOf body first → KeyOf body second →
      keyOutcome files serverVersion isOpen first =
        keyOutcome files serverVersion isOpen second) :
    BodySettles files serverVersion isOpen body ∨
      ∀ key, KeyOf body key → Lost files serverVersion isOpen key := by
  by_cases long : 2 ≤ body.length
  · exact Or.inl (Or.inl long)
  obtain ⟨key, isKey⟩ := keyOf_exists body
  rcases keyOutcome_cases files serverVersion isOpen key with
    ⟨_, value⟩ | ⟨_, value⟩ | ⟨file, _, value⟩
  · left
    right
    left
    intro other isOther
    apply beyond_of_closing
    rw [alike other key isOther isKey, value]
  · right
    intro other isOther
    apply lost_of_none
    rw [alike other key isOther isKey, value]
  · have answers (other : UInt16) (isOther : KeyOf body other) :=
      file_of_kept_open files serverVersion isOpen other _
        ((alike other key isOther isKey).trans value)
    cases isOpen with
    | false =>
        refine Or.inl (Or.inr (Or.inr ⟨rfl, fun other isOther => ?_⟩))
        obtain ⟨otherFile, otherFound, _⟩ := answers other isOther
        rw [otherFound]
        rfl
    | true =>
        obtain ⟨other, isOther, differs⟩ := keyOf_other body (Nat.lt_of_not_le long) key isKey
        obtain ⟨otherFile, _, frames⟩ := answers other isOther
        exact absurd (resourceFrame_key key other file otherFile frames).symm differs

theorem alike_of_settles (isOpen : Bool) (body : List UInt8)
    (settles : BodySettles files serverVersion isOpen body) (first second : UInt16)
    (isFirst : KeyOf body first) (isSecond : KeyOf body second) :
    keyOutcome files serverVersion isOpen first = keyOutcome files serverVersion isOpen second := by
  rcases settles with long | beyond | ⟨closed, present⟩
  · rw [keyOf_unique body long first second isFirst isSecond]
  · rw [keyOutcome, keyOutcome, if_pos (beyond first isFirst), if_pos (beyond second isSecond)]
  · have value : ∀ key, KeyOf body key →
        keyOutcome files serverVersion isOpen key = some ([], false) := by
      intro key isKey
      obtain ⟨file, found⟩ := Option.isSome_iff_exists.mp (present key isKey)
      have within : ¬ serverVersion < (key.toNat : Int) := by
        intro beyond
        rw [Config.fileFor, if_neg (by omega)] at found
        cases found
      unfold keyOutcome
      simp only [if_neg within, found, closed, Bool.false_eq_true, if_false]
    rw [value first isFirst, value second isSecond]

theorem keys_alike_iff (firstOpen secondOpen : Bool) (body : List UInt8) :
    (∀ first second, KeyOf body first → KeyOf body second →
      keyOutcome files serverVersion firstOpen first =
        keyOutcome files serverVersion secondOpen second) ↔
      (firstOpen = secondOpen ∧ BodySettles files serverVersion firstOpen body) ∨
        ∀ key, KeyOf body key →
          Lost files serverVersion firstOpen key ∧ Lost files serverVersion secondOpen key := by
  constructor
  · intro alike
    by_cases same : firstOpen = secondOpen
    · subst same
      rcases settles_of_alike files serverVersion firstOpen body alike with settles | lost
      · exact Or.inl ⟨rfl, settles⟩
      · exact Or.inr fun key isKey => ⟨lost key isKey, lost key isKey⟩
    · right
      intro key isKey
      have equal := alike key key isKey isKey
      cases value : keyOutcome files serverVersion firstOpen key with
      | none =>
          rw [value] at equal
          exact ⟨lost_of_none files serverVersion firstOpen key value,
            lost_of_none files serverVersion secondOpen key equal.symm⟩
      | some result =>
          obtain ⟨queued, closing⟩ := result
          rw [value] at equal
          have first := keyOutcome_some_iff_open files serverVersion firstOpen key queued closing
            value
          have second := keyOutcome_some_iff_open files serverVersion secondOpen key queued closing
            equal.symm
          exact absurd (Bool.eq_iff_iff.mpr (first.symm.trans second)) same
  · intro condition first second isFirst isSecond
    rcases condition with ⟨same, settles⟩ | lost
    · rw [← same]
      exact alike_of_settles files serverVersion firstOpen body settles first second isFirst isSecond
    · rw [keyOutcome_lost files serverVersion firstOpen first (lost first isFirst).1,
        keyOutcome_lost files serverVersion secondOpen second (lost second isSecond).2]

end KeyOutcomes

theorem handling_exists (isOpen : Bool) : ∃ handling : Handling, handling.isOpen = isOpen := by
  cases isOpen with
  | true =>
      exact ⟨⟨0, ⟨.readLen, .preLogin, 0, none, 0, ⟨OutputQueue.empty, []⟩⟩, 0, fun _ => 0⟩, rfl⟩
  | false =>
      exact ⟨⟨0, ⟨.close, .preLogin, 0, none, 0, ⟨OutputQueue.empty, []⟩⟩, 0, fun _ => 0⟩, rfl⟩

/-- The two replies of `ClientVersion` tell an open connection from a closed one. -/
theorem versionOutcome_eq_iff (service : ClientService) (address : InAddr)
    (firstOpen secondOpen : Bool) :
    versionOutcome service address firstOpen = versionOutcome service address secondOpen ↔
      firstOpen = secondOpen ∨ Unlisted service address := by
  have short : ∀ command code, shortReply firstOpen command code =
      shortReply secondOpen command code → firstOpen = secondOpen := by
    intro command code same
    cases firstOpen <;> cases secondOpen <;> first | rfl | cases same
  have welcome : welcomeReply service.config firstOpen = welcomeReply service.config secondOpen →
      firstOpen = secondOpen := by
    intro same
    cases firstOpen <;> cases secondOpen <;> first | rfl | cases same
  constructor
  · intro same
    unfold versionOutcome at same
    cases used : service.useForbiddenIPList with
    | false =>
        rw [used] at same
        exact Or.inl (welcome (Prod.mk.inj (Option.some.inj same)).1)
    | true =>
        rw [used] at same
        cases listed : CIPList.ipExists service.forbiddenIPList address with
        | none => exact Or.inr ⟨used, listed⟩
        | some found =>
            left
            rw [listed] at same
            cases found with
            | true => exact short _ _ (Prod.mk.inj (Option.some.inj same)).1
            | false => exact welcome (Prod.mk.inj (Option.some.inj same)).1
  · intro condition
    rcases condition with same | ⟨used, unlisted⟩
    · rw [same]
    · simp only [versionOutcome, used, if_true, unlisted]

theorem version_sameReply_iff (service : ClientService) (address : InAddr)
    (firstOpen secondOpen : Bool) (packet : Packet) (version : packet.opcode = 0)
    (known : packet.opcode.toNat < aqMax) (sized : packet.body.length < bufferSize) :
    SameReply service address firstOpen secondOpen packet ↔
      versionOutcome service address firstOpen = versionOutcome service address secondOpen := by
  constructor
  · intro same
    obtain ⟨here, hereOpen⟩ := handling_exists firstOpen
    obtain ⟨there, thereOpen⟩ := handling_exists secondOpen
    obtain ⟨call, posts, isPacket, _⟩ :=
      Reading.posts_anywhere packet.opcode packet.body (fun _ => 0) known sized
    have equal := same call call posts posts isPacket isPacket here there hereOpen thereOpen
    have opcode : call.packet.opcode = 0 := by
      rw [isPacket]
      exact version
    rw [version_outcome service address call here opcode,
      version_outcome service address call there opcode, hereOpen, thereOpen] at equal
    exact equal
  · intro equal first second _ _ isFirst isSecond here there hereOpen thereOpen
    rw [version_outcome service address first here (isFirst ▸ version),
      version_outcome service address second there (isSecond ▸ version), hereOpen, thereOpen]
    exact equal

theorem select_sameReply_iff (files : FileSystem) (service : ClientService) (address : InAddr)
    (firstOpen secondOpen : Bool) (packet : Packet)
    (loaded : Config.load files service.config.serverVersion = some service.config)
    (select : packet.opcode = 1) (sized : packet.body.length < bufferSize) :
    SameReply service address firstOpen secondOpen packet ↔
      ∀ first second, KeyOf packet.body first → KeyOf packet.body second →
        keyOutcome files service.config.serverVersion firstOpen first =
          keyOutcome files service.config.serverVersion secondOpen second := by
  have known : packet.opcode.toNat < aqMax := by
    rw [select]
    decide
  constructor
  · intro same first second isFirst isSecond
    obtain ⟨here, hereOpen⟩ := handling_exists firstOpen
    obtain ⟨there, thereOpen⟩ := handling_exists secondOpen
    obtain ⟨one, onePosts, onePacket, oneKey⟩ :=
      keyOf_posted packet.opcode packet.body known sized first isFirst
    obtain ⟨two, twoPosts, twoPacket, twoKey⟩ :=
      keyOf_posted packet.opcode packet.body known sized second isSecond
    have equal := same one two onePosts twoPosts onePacket twoPacket here there hereOpen thereOpen
    rw [select_outcome files service address loaded one here (by rw [onePacket]; exact select),
      select_outcome files service address loaded two there (by rw [twoPacket]; exact select),
      hereOpen, thereOpen, oneKey, twoKey] at equal
    exact equal
  · intro alike one two onePosts twoPosts onePacket twoPacket here there hereOpen thereOpen
    rw [select_outcome files service address loaded one here (by rw [onePacket]; exact select),
      select_outcome files service address loaded two there (by rw [twoPacket]; exact select),
      hereOpen, thereOpen]
    exact alike _ _ (onePacket ▸ posted_keyOf one onePosts) (twoPacket ▸ posted_keyOf two twoPosts)

/-- A dispatched packet gets the same reply in all streams it can arrive in
exactly when its bytes, and the state of the connection, determine it. -/
theorem sameReply_iff (files : FileSystem) (service : ClientService) (address : InAddr)
    (firstOpen secondOpen : Bool) (packet : Packet)
    (loaded : Config.load files service.config.serverVersion = some service.config)
    (known : packet.opcode.toNat < aqMax) (sized : packet.body.length < bufferSize) :
    SameReply service address firstOpen secondOpen packet ↔
      Determined files service address firstOpen secondOpen packet := by
  unfold Determined
  by_cases version : packet.opcode = 0
  · rw [if_pos version, ← versionOutcome_eq_iff]
    exact version_sameReply_iff service address firstOpen secondOpen packet version known sized
  · have select : packet.opcode = 1 := by
      apply UInt8.toNat_inj.mp
      have positive : packet.opcode.toNat ≠ 0 := fun zero => version (UInt8.toNat_inj.mp zero)
      unfold aqMax at known
      change packet.opcode.toNat = 1
      omega
    rw [if_neg version, ← keys_alike_iff files service.config.serverVersion]
    exact select_sameReply_iff files service address firstOpen secondOpen packet loaded select sized

/-- A request for key 1 in two bytes, where no file was found. -/
theorem whole_key_determined :
    SameReply ⟨⟨0, OrderedMap.empty⟩, false, []⟩ ⟨10, 0, 0, 7⟩ true true ⟨1, [1, 0]⟩ :=
  (sameReply_iff (fun _ => none) ⟨⟨0, OrderedMap.empty⟩, false, []⟩ ⟨10, 0, 0, 7⟩ true true
    ⟨1, [1, 0]⟩ rfl (by decide) (by decide)).mpr (Or.inl ⟨rfl, Or.inl (by decide)⟩)

/-- A request with half a key: the other half comes from whatever lies behind it. -/
theorem half_key_undetermined :
    ¬ ∀ (files : FileSystem) (service : ClientService) (address : InAddr) (packet : Packet),
      Config.load files service.config.serverVersion = some service.config →
        SameReply service address true true packet := by
  intro claimed
  obtain ⟨config, loaded, version, _⟩ := Config.load_spec (fun _ => some [7]) 1 (by decide)
  have reloaded : Config.load (fun _ => some [7]) config.serverVersion = some config :=
    version.symm ▸ loaded
  have same := claimed (fun _ => some [7]) ⟨config, false, []⟩ ⟨10, 0, 0, 7⟩ ⟨1, [1]⟩ reloaded
  have alike := (select_sameReply_iff (fun _ => some [7]) ⟨config, false, []⟩ ⟨10, 0, 0, 7⟩ true
    true ⟨1, [1]⟩ reloaded rfl (by decide)).mp same 1 257
    ⟨fun index => if index = 0 then 1 else 0, rfl, rfl⟩ ⟨fun _ => 1, rfl, rfl⟩
  rw [version] at alike
  exact absurd alike (by decide)

end AuthServer
