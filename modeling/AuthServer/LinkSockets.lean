/-
The sockets of the three links that reconnect: `CIPSocket`, `CLogSocket` and
`CWantedSocket`.

Their `OnClose` arms the reconnect timer of the link and takes a reference, so
that `CloseSocket` leaves the count as it was.  A call sees the object it is
made on and the globals of its link; what the operating system answers is part
of the call.  Logging and the waiting sessions that `CIPSocket::OnClose` deletes
are left out.
-/

import AuthServer.ClientSocket

set_option autoImplicit false

namespace AuthServer

inductive LinkKind where
  | ip
  | log
  | wanted
  deriving DecidableEq, Repr

/-- `IPServerReconnect`, `config.UseIPServer`, `g_opFlag` and `g_hIPServerTimer`
or their siblings, and the timers of the queue that have still to fire. -/
structure LinkGlobals where
  reconnect : Bool
  useServer : Bool
  opFlag : Bool
  timer : Option Nat
  pending : List Nat
  timers : Nat
  deriving DecidableEq, Repr

/-- A call on an object; `created` records that `OnCreate` has run on it. -/
structure LinkCall where
  globals : LinkGlobals
  socket : ClientSocket
  created : Bool

/-- Without a socket `connect` fails as well. -/
inductive ConnectOutcome where
  | noSocket
  | refused
  | connected
  deriving DecidableEq, Repr

/-- One attempt to connect, and the memory its new object is made in. -/
structure Attempt where
  outcome : ConnectOutcome
  packetLen : Int
  recycled : Nat → UInt8

structure Sending where
  buf : OutBuffer
  accepted : Bool

/-- What `Initialize` meets: whether the handle can be associated, the first
receive, and what `OnCreate` sends. -/
structure Setup where
  associated : Bool
  recv : RecvCall
  first : Sending
  second : Sending

/-- A completion on an object. -/
inductive LinkIO where
  | receiveFailed
  | received (bytes : List UInt8) (recv : RecvCall)
  | sendFailed
  | sent (dwTransferred : Nat) (accepted : Bool)
  | handled (calls : List HandlerCall) (close : Bool)

/-- No opcode is known: `inBuf[pi] >= 0` holds of every byte. -/
def CLogSocket.lengthRule : LengthRule where
  headerBytes := 3
  packetLen low high := low.toNat + (high.toNat : Int) * 256 + 1 - packetSizeType
  opcodes := 0
  lengthBytesPresent := CSocketServer.lengthRule.lengthBytesPresent
  headerFits := CSocketServer.lengthRule.headerFits

/-- The loop of `CWantedSocket::OnRead`, which takes all that has arrived for
one packet.  A packet longer than that would keep it turning for ever. -/
def CWantedSocket.loop (ri : Nat) : Nat → ReadState → Nat → Option LoopResult
  | 0, _, _ => none
  | fuel + 1, state, pi =>
      if ri ≤ pi then some ⟨[], state, .read 0⟩
      else
        match state.mode with
        | .readLen => CWantedSocket.loop ri fuel ⟨.readBody, ri⟩ pi
        | .readBody =>
            if (pi : Int) + state.packetLen ≤ ri then
              (CWantedSocket.loop ri fuel ⟨.readLen, state.packetLen⟩
                (pi + state.packetLen.toNat)).map fun result =>
                  { result with posted := ⟨pi, state.packetLen⟩ :: result.posted }
            else CWantedSocket.loop ri fuel state pi
        | .close => some ⟨[], state, .closeSocket .invalidMode⟩

def CWantedSocket.onRead (buf : CIOBuffer) (state : ReadState) : Option LoopResult :=
  if state.mode = .close then some ⟨[], state, .closeSocket .invalidMode⟩
  else CWantedSocket.loop buf.size (buf.size + 4) state 0

namespace LinkKind

def onRead (kind : LinkKind) (buf : CIOBuffer) (state : ReadState) : Option LoopResult :=
  match kind with
  | .ip => CIPSocket.lengthRule.onRead buf state
  | .log => CLogSocket.lengthRule.onRead buf state
  | .wanted => CWantedSocket.onRead buf state

def resetsFlag : LinkKind → Bool
  | .ip => true
  | .log => false
  | .wanted => true

def createRefs : LinkKind → Nat
  | .ip => 1
  | .log => 0
  | .wanted => 1

end LinkKind

/-- The flag, the switch and `CreateTimerQueueTimer` of `OnClose`; the timer
fires once. -/
def LinkGlobals.arm (globals : LinkGlobals) : LinkGlobals :=
  { globals with
    reconnect := true
    useServer := false
    timer := some globals.timers
    pending := globals.pending ++ [globals.timers]
    timers := globals.timers + 1 }

namespace LinkCall

def onSocket (call : LinkCall) (change : ClientSocket → ClientSocket) : LinkCall :=
  { call with socket := change call.socket }

def addRef (call : LinkCall) : LinkCall := call.onSocket ClientSocket.addRef

def releaseRef (call : LinkCall) : LinkCall := call.onSocket ClientSocket.releaseRef

def construct (kind : LinkKind) (globals : LinkGlobals) (attempt : Attempt) : LinkCall where
  globals := if kind.resetsFlag then { globals with reconnect := false } else globals
  socket :=
    { ClientSocket.create attempt.packetLen attempt.recycled with
      handleOpen := decide (attempt.outcome ≠ .noSocket) }
  created := false

def onClose (call : LinkCall) : LinkCall :=
  addRef
    { call with
      globals := call.globals.arm
      socket := { call.socket with read := { call.socket.read with mode := .close } } }

def closeSocket (call : LinkCall) : LinkCall :=
  if call.socket.handleOpen then
    releaseRef (onClose (call.onSocket fun socket => { socket with handleOpen := false }))
  else call

def postReceive (call : LinkCall) (left : Nat) (recv : RecvCall) : LinkCall :=
  let kept := CIOSocket.read { call.socket.readBuf with ref := recv.ref } left recv.recycled
  let call := addRef (call.onSocket fun socket => { socket with readBuf := kept })
  if recv.accepted then
    call.onSocket fun socket => { socket with receives := socket.receives + 1 }
  else releaseRef (closeSocket call)

def onRead (kind : LinkKind) (call : LinkCall) (recv : RecvCall) : Option LinkCall :=
  (kind.onRead call.socket.readBuf call.socket.read).map fun result =>
    let call := call.onSocket fun socket =>
      result.posted.foldl (fun socket _ => ClientSocket.postPacket socket)
        { socket with read := result.state }
    match result.exit with
    | .read left => postReceive call left recv
    | .closeSocket _ => closeSocket call

def onReadCallback (kind : LinkKind) (call : LinkCall) (bytes : List UInt8)
    (recv : RecvCall) : Option LinkCall :=
  if bytes.length = 0 then some (closeSocket call)
  else if call.socket.refcount ≤ 0 then some call
  else
    onRead kind
      (call.onSocket fun socket =>
        { socket with
          readBuf :=
            { socket.readBuf with
              buffer := LinearMemory.store socket.readBuf.buffer socket.readBuf.size bytes
              size := socket.readBuf.size + bytes.length } })
      recv

/-- The test at the start of each class's `Send`. -/
def maySend (kind : LinkKind) (call : LinkCall) : Bool :=
  decide (call.socket.read.mode ≠ .close) && !call.globals.reconnect &&
    match kind with
    | .ip => call.globals.useServer
    | .log => call.socket.handleOpen && call.globals.opFlag
    | .wanted => call.globals.useServer && call.socket.handleOpen

/-- `CLogSocket::Send2` does not ask for `g_opFlag`. -/
def maySend2 (call : LinkCall) : Bool :=
  decide (call.socket.read.mode ≠ .close) && !call.globals.reconnect && call.socket.handleOpen

def sendIf (allowed : Bool) (call : LinkCall) (sending : Sending) : LinkCall :=
  let call := call.addRef
  if allowed then
    releaseRef (call.onSocket fun socket => socket.write sending.buf sending.accepted)
  else releaseRef call

def send (kind : LinkKind) (call : LinkCall) (sending : Sending) : LinkCall :=
  sendIf (maySend kind call) call sending

def send2 (call : LinkCall) (sending : Sending) : LinkCall :=
  sendIf (maySend2 call) call sending

def onCreate (kind : LinkKind) (call : LinkCall) (setup : Setup) : Option LinkCall :=
  let call := { call with created := true }
  match kind with
  | .ip => (onRead .ip call.addRef setup.recv).map fun call => send .ip call setup.first
  | .log =>
      let call := send2 (send2 call setup.first) setup.second
      onRead .log { call with globals := { call.globals with opFlag := true } } setup.recv
  | .wanted => onRead .wanted call.addRef setup.recv

def initializeSocket (kind : LinkKind) (call : LinkCall) (setup : Setup) : Option LinkCall :=
  let call := call.addRef
  if setup.associated then (onCreate kind call setup).map releaseRef
  else some (closeSocket call)

def perform (kind : LinkKind) (call : LinkCall) : HandlerCall → LinkCall
  | .write buf accepted => send kind call ⟨buf, accepted⟩
  | .closeSocket => closeSocket call

def handle (kind : LinkKind) (call : LinkCall) (calls : List HandlerCall) (close : Bool) :
    LinkCall :=
  let call := calls.foldl (perform kind) call
  releaseRef (if close then closeSocket call else call)

def takeReceive (call : LinkCall) : LinkCall :=
  call.onSocket fun socket => { socket with receives := socket.receives - 1 }

def takeSend (call : LinkCall) : LinkCall :=
  call.onSocket fun socket => { socket with sends := socket.sends - 1 }

def takePacket (call : LinkCall) : LinkCall :=
  call.onSocket fun socket => { socket with packets := socket.packets - 1 }

/-- A completion is taken off what is outstanding and then served by
`OnIOCallback`, which gives its reference back at the end. -/
def complete (kind : LinkKind) (call : LinkCall) : LinkIO → Option LinkCall
  | .receiveFailed =>
      if call.socket.receives = 0 then none
      else some (releaseRef (closeSocket call.takeReceive))
  | .received bytes recv =>
      if call.socket.receives = 0 then none
      else (onReadCallback kind call.takeReceive bytes recv).map releaseRef
  | .sendFailed =>
      if call.socket.sends = 0 then none
      else some (releaseRef (closeSocket call.takeSend))
  | .sent dwTransferred accepted =>
      if call.socket.sends = 0 then none
      else
        (call.takeSend.socket.onWriteCallback dwTransferred accepted).map fun socket =>
          releaseRef { call with socket := socket }
  | .handled calls close =>
      if call.socket.packets = 0 then none
      else some (handle kind call.takePacket calls close)

/-! ### What a call does to the handle, the link and the count -/

/-- Nothing happens to the handle and the link, or the open handle is closed
and the timer armed.  `g_opFlag` may change either way. -/
inductive Settles (before after : LinkCall) : Prop where
  | kept (handle : after.socket.handleOpen = before.socket.handleOpen)
      (globals : after.globals = { before.globals with opFlag := after.globals.opFlag })
  | closed (wasOpen : before.socket.handleOpen = true)
      (shut : after.socket.handleOpen = false)
      (globals : after.globals = { before.globals.arm with opFlag := after.globals.opFlag })

/-- The call keeps every count that has a reference to spare. -/
structure Serves (before after : LinkCall) : Prop where
  settles : Settles before after
  created : after.created = before.created
  keeps : ∀ kept, before.socket.Keeps (kept + 1) → after.socket.Keeps (kept + 1)

theorem Settles.trans {before middle after : LinkCall} (first : Settles before middle)
    (second : Settles middle after) : Settles before after := by
  rcases first with ⟨handle, globals⟩ | ⟨wasOpen, shut, globals⟩
  · rcases second with ⟨handle', globals'⟩ | ⟨wasOpen', shut', globals'⟩
    · exact .kept (handle'.trans handle) (globals'.trans (by rw [globals]))
    · exact .closed (handle ▸ wasOpen') shut' (globals'.trans (by rw [globals]; rfl))
  · rcases second with ⟨handle', globals'⟩ | ⟨wasOpen', _, _⟩
    · exact .closed wasOpen (handle'.trans shut) (globals'.trans (by rw [globals]))
    · rw [shut] at wasOpen'
      contradiction

theorem Serves.refl (call : LinkCall) : Serves call call :=
  ⟨.kept rfl rfl, rfl, fun _ keeps => keeps⟩

theorem Serves.trans {before middle after : LinkCall} (first : Serves before middle)
    (second : Serves middle after) : Serves before after :=
  ⟨first.settles.trans second.settles, second.created.trans first.created,
    fun kept keeps => second.keeps kept (first.keeps kept keeps)⟩

theorem Serves.between {before after : LinkCall} (serves : Serves before.addRef after) :
    Serves before after.releaseRef where
  settles := by
    rcases serves.settles with ⟨handle, globals⟩ | ⟨wasOpen, shut, globals⟩
    · exact .kept handle globals
    · exact .closed wasOpen shut globals
  created := serves.created
  keeps := by
    intro kept keeps
    have referenced := ClientSocket.Keeps.addRef keeps keeps.spare_alive
    exact ClientSocket.Keeps.releaseRef (serves.keeps (kept + 1) referenced)

theorem Serves.onSocket {call : LinkCall} {change : ClientSocket → ClientSocket}
    (handle : (change call.socket).handleOpen = call.socket.handleOpen)
    (keeps : ∀ kept, call.socket.Keeps (kept + 1) → (change call.socket).Keeps (kept + 1)) :
    Serves call (call.onSocket change) :=
  ⟨.kept handle rfl, rfl, keeps⟩

theorem closeSocket_serves (call : LinkCall) : Serves call (closeSocket call) := by
  unfold closeSocket
  split
  · rename_i isOpen
    constructor
    · exact .closed isOpen rfl rfl
    · rfl
    · intro kept keeps
      -- `OnClose` takes the reference that `CloseSocket` gives back.
      have shut : ClientSocket.Keeps { call.socket with
          handleOpen := false, read := { call.socket.read with mode := .close } } (kept + 1) :=
        keeps
      exact ClientSocket.Keeps.releaseRef (shut.addRef shut.spare_alive)
  · exact Serves.refl call

theorem closeSocket_shut (call : LinkCall) :
    (closeSocket call).socket.handleOpen = false := by
  unfold closeSocket
  split
  · rfl
  · rename_i shut
    exact Bool.eq_false_iff.mpr shut

theorem postReceive_serves (call : LinkCall) (left : Nat) (recv : RecvCall) :
    Serves call (postReceive call left recv) := by
  have moved : ∀ readBuf : CIOBuffer,
      Serves call (call.onSocket fun socket => { socket with readBuf := readBuf }) :=
    fun readBuf => Serves.onSocket rfl fun kept keeps => keeps
  unfold postReceive
  simp only
  split
  · apply (moved _).trans
    constructor
    · exact .kept rfl rfl
    · rfl
    · intro kept keeps
      exact ClientSocket.Keeps.startReceive (keeps.addRef keeps.spare_alive)
  · exact (moved _).trans (Serves.between (closeSocket_serves _))

theorem onRead_serves (kind : LinkKind) (call next : LinkCall) (recv : RecvCall)
    (ran : onRead kind call recv = some next) : Serves call next := by
  obtain ⟨result, _, same⟩ := Option.map_eq_some_iff.mp ran
  subst same
  have posted : Serves call (call.onSocket fun socket =>
      result.posted.foldl (fun socket _ => ClientSocket.postPacket socket)
        { socket with read := result.state }) := by
    apply Serves.onSocket
    · exact ClientSocket.postPackets_handleOpen _ result.posted
    · intro kept keeps
      have started : ClientSocket.Keeps { call.socket with read := result.state }
        (kept + 1) := keeps
      exact started.postPackets result.posted
  simp only
  split
  · exact posted.trans (postReceive_serves _ _ recv)
  · exact posted.trans (closeSocket_serves _)

theorem onReadCallback_serves (kind : LinkKind) (call next : LinkCall) (bytes : List UInt8)
    (recv : RecvCall) (ran : onReadCallback kind call bytes recv = some next) :
    Serves call next := by
  unfold onReadCallback at ran
  split at ran
  · cases ran
    exact closeSocket_serves call
  · split at ran
    · cases ran
      exact Serves.refl call
    · apply Serves.trans (Serves.onSocket _ _) (onRead_serves kind _ next recv ran)
      · rfl
      · exact fun kept keeps => keeps

theorem sendIf_serves (allowed : Bool) (call : LinkCall) (sending : Sending) :
    Serves call (sendIf allowed call sending) := by
  unfold sendIf
  split
  · apply Serves.between
    apply Serves.onSocket
    · exact ClientSocket.write_handleOpen _ sending.buf sending.accepted
    · intro kept keeps
      exact keeps.write keeps.spare_alive sending.buf sending.accepted
  · exact Serves.between (Serves.refl _)

theorem send_serves (kind : LinkKind) (call : LinkCall) (sending : Sending) :
    Serves call (send kind call sending) :=
  sendIf_serves _ call sending

theorem send2_serves (call : LinkCall) (sending : Sending) :
    Serves call (send2 call sending) :=
  sendIf_serves _ call sending

theorem setOpFlag_serves (call : LinkCall) :
    Serves call { call with globals := { call.globals with opFlag := true } } :=
  ⟨.kept rfl rfl, rfl, fun _ keeps => keeps⟩

theorem perform_serves (kind : LinkKind) (call : LinkCall) (calls : List HandlerCall) :
    Serves call (calls.foldl (perform kind) call) := by
  induction calls generalizing call with
  | nil => exact Serves.refl call
  | cons first rest ih =>
      apply Serves.trans _ (ih _)
      cases first with
      | write buf accepted => exact send_serves kind call ⟨buf, accepted⟩
      | closeSocket => exact closeSocket_serves call

/-- Two of the kinds take a reference at the start of `OnCreate`. -/
theorem Serves.after_addRef {call next : LinkCall}
    (serves : Serves (addRef { call with created := true }) next) :
    Settles call next ∧ next.created = true ∧
      ∀ kept, call.socket.Keeps (kept + 1) → next.socket.Keeps (kept + 1 + 1) := by
  have start : Settles call (addRef { call with created := true }) := .kept rfl rfl
  refine ⟨start.trans serves.settles, serves.created, ?_⟩
  intro kept keeps
  exact serves.keeps (kept + 1) (keeps.addRef keeps.spare_alive)

/-- Of the references that a call of `OnCreate` holds, `createRefs` stay. -/
theorem onCreate_settles (kind : LinkKind) (call next : LinkCall) (setup : Setup)
    (ran : onCreate kind call setup = some next) :
    Settles call next ∧ next.created = true ∧
      ∀ kept, call.socket.Keeps (kept + 1) →
        next.socket.Keeps (kept + 1 + kind.createRefs) := by
  cases kind with
  | ip =>
      obtain ⟨read, reads, same⟩ := Option.map_eq_some_iff.mp ran
      subst same
      have serves := (onRead_serves .ip _ read setup.recv reads).trans
        (send_serves .ip read setup.first)
      exact serves.after_addRef
  | log =>
      have sent : Serves { call with created := true }
          (send2 (send2 { call with created := true } setup.first) setup.second) :=
        (send2_serves _ setup.first).trans (send2_serves _ setup.second)
      have serves := (sent.trans (setOpFlag_serves _)).trans
        (onRead_serves .log _ next setup.recv ran)
      have start : Settles call { call with created := true } := .kept rfl rfl
      exact ⟨start.trans serves.settles, serves.created, serves.keeps⟩
  | wanted =>
      have serves := onRead_serves .wanted _ next setup.recv ran
      exact serves.after_addRef

theorem initializeSocket_settles (kind : LinkKind) (call next : LinkCall) (setup : Setup)
    (ran : initializeSocket kind call setup = some next) : Settles call next := by
  have start : Settles call call.addRef := .kept rfl rfl
  unfold initializeSocket at ran
  simp only at ran
  split at ran
  · obtain ⟨done, created, same⟩ := Option.map_eq_some_iff.mp ran
    subst same
    have body := (onCreate_settles kind _ done setup created).1
    exact start.trans (body.trans (.kept rfl rfl))
  · cases ran
    exact start.trans (closeSocket_serves call.addRef).settles

theorem initializeSocket_keeps (kind : LinkKind) (call next : LinkCall) (setup : Setup)
    (kept : Nat) (associated : setup.associated = true)
    (keeps : call.socket.Keeps (kept + 1)) (ran : initializeSocket kind call setup = some next) :
    next.created = true ∧ next.socket.Keeps (kept + 1 + kind.createRefs) := by
  unfold initializeSocket at ran
  rw [if_pos associated] at ran
  obtain ⟨done, created, same⟩ := Option.map_eq_some_iff.mp ran
  subst same
  obtain ⟨_, marked, body⟩ := onCreate_settles kind _ done setup created
  have ended := body (kept + 1) (keeps.addRef keeps.spare_alive)
  rw [Nat.add_right_comm] at ended
  exact ⟨marked, ClientSocket.Keeps.releaseRef ended⟩

theorem releaseRef_created (call done : LinkCall) (returned : some call.releaseRef = some done) :
    done.created = call.created := by
  cases returned
  rfl

theorem closeSocket_returned (call done : LinkCall)
    (returned : some call.closeSocket = some done) : Serves call done := by
  cases returned
  exact closeSocket_serves call

theorem send_returned (kind : LinkKind) (sending : Sending) (call done : LinkCall)
    (returned : some (call.send kind sending) = some done) : Serves call done := by
  cases returned
  exact send_serves kind call sending

/-- A successful send reports the size of the buffer that was sent. -/
def Regular (call : LinkCall) : LinkIO → Prop
  | .sent dwTransferred _ =>
      call.socket.output.nodes.head?.map OutBuffer.size = some dwTransferred
  | _ => True

structure Takes (before taken : LinkCall) : Prop where
  settles : Settles before taken
  created : taken.created = before.created
  keeps : ∀ kept, before.socket.Keeps kept → taken.socket.Keeps (kept + 1)

theorem takeReceive_takes (call : LinkCall) (outstanding : call.socket.receives ≠ 0) :
    Takes call call.takeReceive :=
  ⟨.kept rfl rfl, rfl, fun _ keeps => keeps.takeReceive outstanding⟩

theorem takeSend_takes (call : LinkCall) (outstanding : call.socket.sends ≠ 0) :
    Takes call call.takeSend :=
  ⟨.kept rfl rfl, rfl, fun _ keeps => keeps.takeSend outstanding⟩

theorem takePacket_takes (call : LinkCall) (outstanding : call.socket.packets ≠ 0) :
    Takes call call.takePacket :=
  ⟨.kept rfl rfl, rfl, fun _ keeps => keeps.takePacket outstanding⟩

structure Returns (before after : LinkCall) (regular : Prop) : Prop where
  settles : Settles before after
  created : after.created = before.created
  keeps : regular → ∀ kept, before.socket.Keeps kept → after.socket.Keeps kept

theorem Takes.returns {before taken after : LinkCall} {regular : Prop}
    (takes : Takes before taken) (serves : Serves taken after) :
    Returns before after.releaseRef regular where
  settles := takes.settles.trans (serves.settles.trans (.kept rfl rfl))
  created := serves.created.trans takes.created
  keeps := by
    intro _ kept keeps
    exact ClientSocket.Keeps.releaseRef (serves.keeps kept (takes.keeps kept keeps))

theorem handle_returns (kind : LinkKind) (call taken : LinkCall) (calls : List HandlerCall)
    (close : Bool) (takes : Takes call taken) :
    Returns call (handle kind taken calls close) True := by
  have performed := perform_serves kind taken calls
  apply takes.returns
  split
  · exact performed.trans (closeSocket_serves _)
  · exact performed

theorem complete_returns (kind : LinkKind) (call next : LinkCall) (event : LinkIO)
    (ran : complete kind call event = some next) :
    Returns call next (Regular call event) := by
  cases event with
  | receiveFailed =>
      obtain ⟨outstanding, served⟩ := Option.ite_none_left_eq_some.mp ran
      cases served
      exact (takeReceive_takes call outstanding).returns (closeSocket_serves _)
  | received bytes recv =>
      obtain ⟨outstanding, served⟩ := Option.ite_none_left_eq_some.mp ran
      obtain ⟨done, read, same⟩ := Option.map_eq_some_iff.mp served
      subst same
      exact (takeReceive_takes call outstanding).returns
        (onReadCallback_serves kind _ done bytes recv read)
  | sendFailed =>
      obtain ⟨outstanding, served⟩ := Option.ite_none_left_eq_some.mp ran
      cases served
      exact (takeSend_takes call outstanding).returns (closeSocket_serves _)
  | sent dwTransferred accepted =>
      obtain ⟨outstanding, served⟩ := Option.ite_none_left_eq_some.mp ran
      obtain ⟨done, written, same⟩ := Option.map_eq_some_iff.mp served
      subst same
      constructor
      · exact .kept (ClientSocket.onWriteCallback_handleOpen call.takeSend.socket done
          dwTransferred accepted written) rfl
      · rfl
      · intro regular kept keeps
        have taken := (takeSend_takes call outstanding).keeps kept keeps
        exact (taken.onWriteCallback_iff dwTransferred accepted written).mpr regular
  | handled calls close =>
      obtain ⟨outstanding, served⟩ := Option.ite_none_left_eq_some.mp ran
      cases served
      exact handle_returns kind call _ calls close (takePacket_takes call outstanding)

theorem complete_outstanding (kind : LinkKind) (call next : LinkCall) (event : LinkIO)
    (ran : complete kind call event = some next) : call.socket.outstanding ≠ 0 := by
  unfold ClientSocket.outstanding
  cases event <;>
    · obtain ⟨some_, _⟩ := Option.ite_none_left_eq_some.mp ran
      omega

end LinkCall

end AuthServer
