/-
The life of a client connection object and its reference count.

Every function of `CIOSocket` that takes or gives back a reference is
translated with all its branches, over the reader and the output queue of the
other modules.  One event is one call or one callback, run to its end; what the
operating system answers, what arrives and what a handler does are part of the
event.  Calls on the object need a live object; a completion needs an
operation that is outstanding.
-/

import AuthServer.Lib.EventRuns
import AuthServer.OutputQueue
import AuthServer.StreamReader

set_option autoImplicit false

namespace AuthServer

structure ClientSocket where
  refcount : Int
  deleted : Bool
  handleOpen : Bool
  read : ReadState
  readBuf : CIOBuffer
  output : OutputQueue
  receives : Nat
  sends : Nat
  packets : Nat

/-- What one call of `CIOSocket::Read` meets: the value of `m_ref`, the memory
of a fresh buffer, and whether `WSARecv` succeeds or is pending. -/
structure RecvCall where
  ref : Int
  recycled : Nat → UInt8
  accepted : Bool

inductive HandlerCall where
  | write (buf : OutBuffer) (accepted : Bool)
  | closeSocket

inductive SocketEvent where
  | initializeSocket (associated : Bool) (call : RecvCall)
  | write (buf : OutBuffer) (accepted : Bool)
  | read (left : Nat) (call : RecvCall)
  | receiveFailed
  | received (bytes : List UInt8) (call : RecvCall)
  | sendFailed
  | sent (dwTransferred : Nat) (accepted : Bool)
  | handled (calls : List HandlerCall) (close : Bool)
  | closeSocket

namespace ClientSocket

def create (packetLen : Int) (recycled : Nat → UInt8) : ClientSocket where
  refcount := 1
  deleted := false
  handleOpen := true
  read := ⟨.readLen, packetLen⟩
  readBuf := CIOBuffer.alloc recycled
  output := OutputQueue.empty
  receives := 0
  sends := 0
  packets := 0

def addRef (socket : ClientSocket) : ClientSocket :=
  { socket with refcount := socket.refcount + 1 }

def releaseRef (socket : ClientSocket) : ClientSocket :=
  { socket with
    refcount := socket.refcount - 1
    deleted := socket.deleted || decide (socket.refcount - 1 = 0) }

/-- `CloseSocket`; `OnClose` sets the mode. -/
def closeSocket (socket : ClientSocket) : ClientSocket :=
  if socket.handleOpen then
    releaseRef
      { socket with handleOpen := false, read := { socket.read with mode := .close } }
  else socket

def postReceive (socket : ClientSocket) (left : Nat) (call : RecvCall) : ClientSocket :=
  let kept := CIOSocket.read { socket.readBuf with ref := call.ref } left call.recycled
  let socket := addRef { socket with readBuf := kept }
  if call.accepted then { socket with receives := socket.receives + 1 }
  else releaseRef (closeSocket socket)

def postPacket (socket : ClientSocket) : ClientSocket :=
  let socket := addRef socket
  { socket with
    readBuf := { socket.readBuf with ref := socket.readBuf.ref + 1 }
    packets := socket.packets + 1 }

def onRead (socket : ClientSocket) (call : RecvCall) : Option ClientSocket :=
  (CSocketServerEx.lengthRule.onRead socket.readBuf socket.read).map fun result =>
    let socket := result.posted.foldl (fun socket _ => postPacket socket)
      { socket with read := result.state }
    match result.exit with
    | .read left => postReceive socket left call
    | .closeSocket _ => closeSocket socket

def onReadCallback (socket : ClientSocket) (bytes : List UInt8) (call : RecvCall) :
    Option ClientSocket :=
  if bytes.length = 0 then some (closeSocket socket)
  else if socket.refcount ≤ 0 then some socket
  else
    let readBuf : CIOBuffer :=
      { socket.readBuf with
        buffer := LinearMemory.store socket.readBuf.buffer socket.readBuf.size bytes
        size := socket.readBuf.size + bytes.length }
    onRead { socket with readBuf := readBuf } call

def send (socket : ClientSocket) (accepted : Bool) : ClientSocket :=
  let socket := addRef socket
  if accepted then { socket with sends := socket.sends + 1 } else releaseRef socket

def write (socket : ClientSocket) (buf : OutBuffer) (accepted : Bool) : ClientSocket :=
  if buf.size = 0 then socket
  else
    let queued := socket.output.enqueue buf
    let socket := { socket with output := queued.1 }
    match queued.2 with
    | .started => send socket accepted
    | .coalesced => socket
    | .appended => socket

def onWriteCallback (socket : ClientSocket) (dwTransferred : Nat) (accepted : Bool) :
    Option ClientSocket :=
  (socket.output.dequeue dwTransferred).map fun dequeued =>
    let socket := { socket with output := dequeued.1 }
    match dequeued.2 with
    | .differentCount => releaseRef socket
    | .sendNext => send socket accepted
    | .emptied => socket

/-- `Initialize`, which returns early when the handle cannot be associated. -/
def initializeSocket (socket : ClientSocket) (associated : Bool) (call : RecvCall) :
    Option ClientSocket :=
  let socket := addRef socket
  if associated then (onRead socket call).map releaseRef
  else some (closeSocket socket)

def perform (socket : ClientSocket) : HandlerCall → ClientSocket
  | .write buf accepted => write socket buf accepted
  | .closeSocket => closeSocket socket

def handle (socket : ClientSocket) (calls : List HandlerCall) (close : Bool) :
    ClientSocket :=
  let socket := calls.foldl perform socket
  releaseRef (if close then closeSocket socket else socket)

/-- A completion is taken off the outstanding operations and then served by
`OnIOCallback`, which gives its reference back at the end. -/
def step (socket : ClientSocket) : SocketEvent → Option ClientSocket
  | .initializeSocket associated call =>
      if socket.deleted then none else socket.initializeSocket associated call
  | .write buf accepted => if socket.deleted then none else some (socket.write buf accepted)
  | .read left call => if socket.deleted then none else some (socket.postReceive left call)
  | .closeSocket => if socket.deleted then none else some socket.closeSocket
  | .receiveFailed =>
      if socket.receives = 0 then none
      else some (releaseRef (closeSocket { socket with receives := socket.receives - 1 }))
  | .received bytes call =>
      if socket.receives = 0 then none
      else
        (onReadCallback { socket with receives := socket.receives - 1 } bytes call).map
          releaseRef
  | .sendFailed =>
      if socket.sends = 0 then none
      else some (releaseRef (closeSocket { socket with sends := socket.sends - 1 }))
  | .sent dwTransferred accepted =>
      if socket.sends = 0 then none
      else
        (onWriteCallback { socket with sends := socket.sends - 1 } dwTransferred
          accepted).map releaseRef
  | .handled calls close =>
      if socket.packets = 0 then none
      else some (handle { socket with packets := socket.packets - 1 } calls close)

def machine : EventRuns.Machine ClientSocket SocketEvent := ⟨step⟩

/-- Everything that keeps the object: its open handle and what is outstanding. -/
def holders (socket : ClientSocket) : Nat :=
  (if socket.handleOpen then 1 else 0) + socket.receives + socket.sends + socket.packets

def Balanced (socket : ClientSocket) : Prop :=
  socket.refcount = socket.holders ∧ (socket.deleted = true ↔ socket.holders = 0)

/-- `CreateIoCompletionPort` succeeds, and a successful send completion reports
the size of the buffer that was sent. -/
def Regular (socket : ClientSocket) : SocketEvent → Prop
  | .initializeSocket associated _ => associated = true
  | .sent dwTransferred _ =>
      socket.output.nodes.head?.map OutBuffer.size = some dwTransferred
  | _ => True

/-! ### The count through each function -/

/-- Inside a call the count is `extra` above what keeps the object. -/
def Holds (socket : ClientSocket) (extra : Nat) : Prop :=
  socket.refcount = socket.holders + extra ∧
    socket.deleted = decide (socket.refcount = 0)

def outstanding (socket : ClientSocket) : Nat :=
  socket.receives + socket.sends + socket.packets

/-- Apart from what is outstanding, `kept` references are held. -/
def Keeps (socket : ClientSocket) (kept : Nat) : Prop :=
  socket.refcount = socket.outstanding + kept ∧
    socket.deleted = decide (socket.refcount = 0)

theorem balanced_iff_holds (socket : ClientSocket) :
    socket.Balanced ↔ socket.Holds 0 := by
  unfold Balanced Holds
  constructor
  · intro given
    obtain ⟨counted, destroyed⟩ := given
    refine ⟨by omega, ?_⟩
    rw [counted]
    cases gone : socket.deleted with
    | false =>
        have kept : ¬ socket.holders = 0 := fun zero => by
          rw [destroyed.mpr zero] at gone
          contradiction
        exact (decide_eq_false (by omega)).symm
    | true =>
        have zero := destroyed.mp gone
        exact (decide_eq_true (by omega)).symm
  · intro given
    obtain ⟨counted, destroyed⟩ := given
    refine ⟨by omega, ?_⟩
    rw [destroyed, decide_eq_true_iff]
    omega

/-- The open handle is one of the things that a client's reference stands for. -/
theorem holds_iff_keeps (socket : ClientSocket) (extra : Nat) :
    socket.Holds extra ↔ socket.Keeps ((if socket.handleOpen then 1 else 0) + extra) := by
  have split_ : (socket.holders : Int) + (extra : Int) =
      (socket.outstanding : Int) +
        (((if socket.handleOpen then 1 else 0) + extra : Nat) : Int) := by
    unfold holders outstanding
    omega
  unfold Holds Keeps
  rw [split_]

theorem Keeps.alive {socket : ClientSocket} {kept : Nat} (keeps : socket.Keeps kept)
    (live : socket.deleted = false) : 0 < socket.refcount := by
  rcases keeps with ⟨counted, destroyed⟩
  rw [live] at destroyed
  have notZero := of_decide_eq_false destroyed.symm
  omega

theorem Keeps.spare_alive {socket : ClientSocket} {kept : Nat}
    (keeps : socket.Keeps (kept + 1)) : 0 < socket.refcount := by
  have counted := keeps.1
  omega

theorem Keeps.addRef {socket : ClientSocket} {kept : Nat} (keeps : socket.Keeps kept)
    (alive : 0 < socket.refcount) : socket.addRef.Keeps (kept + 1) := by
  rcases keeps with ⟨counted, destroyed⟩
  constructor
  · change socket.refcount + 1 = (socket.outstanding : Int) + ((kept + 1 : Nat) : Int)
    omega
  · change socket.deleted = decide (socket.refcount + 1 = 0)
    rw [destroyed, decide_eq_false (by omega), decide_eq_false (by omega)]

theorem Keeps.releaseRef {socket : ClientSocket} {kept : Nat}
    (keeps : socket.Keeps (kept + 1)) : socket.releaseRef.Keeps kept := by
  rcases keeps with ⟨counted, destroyed⟩
  constructor
  · change socket.refcount - 1 = (socket.outstanding : Int) + (kept : Int)
    omega
  · change (socket.deleted || decide (socket.refcount - 1 = 0)) =
      decide (socket.refcount - 1 = 0)
    rw [destroyed, decide_eq_false (by omega), Bool.false_or]

/-- What one operation less leaves over is one reference more than needed. -/
theorem Keeps.drop {socket other : ClientSocket} {kept : Nat} (keeps : socket.Keeps kept)
    (sameCount : other.refcount = socket.refcount) (sameFlag : other.deleted = socket.deleted)
    (fewer : other.outstanding + 1 = socket.outstanding) : other.Keeps (kept + 1) := by
  rcases keeps with ⟨counted, destroyed⟩
  constructor
  · rw [sameCount, counted, ← fewer]
    omega
  · rw [sameFlag, sameCount, destroyed]

theorem Keeps.take {socket other : ClientSocket} {kept : Nat}
    (keeps : socket.Keeps (kept + 1)) (sameCount : other.refcount = socket.refcount)
    (sameFlag : other.deleted = socket.deleted)
    (more : other.outstanding = socket.outstanding + 1) : other.Keeps kept := by
  rcases keeps with ⟨counted, destroyed⟩
  constructor
  · rw [sameCount, counted, more]
    omega
  · rw [sameFlag, sameCount, destroyed]

theorem Keeps.startReceive {socket : ClientSocket} {kept : Nat}
    (keeps : socket.Keeps (kept + 1)) :
    Keeps { socket with receives := socket.receives + 1 } kept := by
  refine keeps.take rfl rfl ?_
  simp only [outstanding]
  omega

theorem Keeps.postPacket {socket : ClientSocket} {kept : Nat} (keeps : socket.Keeps kept)
    (alive : 0 < socket.refcount) : socket.postPacket.Keeps kept :=
  (keeps.addRef alive).take rfl rfl rfl

theorem Keeps.postPackets {socket : ClientSocket} {kept : Nat}
    (keeps : socket.Keeps (kept + 1)) (posted : List Posted) :
    (posted.foldl (fun socket _ => ClientSocket.postPacket socket) socket).Keeps
      (kept + 1) := by
  induction posted generalizing socket with
  | nil => exact keeps
  | cons packet rest ih => exact ih (keeps.postPacket keeps.spare_alive)

theorem postPackets_handleOpen (socket : ClientSocket) (posted : List Posted) :
    (posted.foldl (fun socket _ => ClientSocket.postPacket socket) socket).handleOpen =
      socket.handleOpen := by
  induction posted generalizing socket with
  | nil => rfl
  | cons packet rest ih => exact ih socket.postPacket

theorem Keeps.send {socket : ClientSocket} {kept : Nat} (keeps : socket.Keeps kept)
    (alive : 0 < socket.refcount) (accepted : Bool) :
    (socket.send accepted).Keeps kept := by
  have referenced := keeps.addRef alive
  unfold ClientSocket.send
  simp only
  split
  · refine referenced.take rfl rfl ?_
    simp only [outstanding]
    omega
  · exact referenced.releaseRef

theorem send_handleOpen (socket : ClientSocket) (accepted : Bool) :
    (socket.send accepted).handleOpen = socket.handleOpen := by
  unfold ClientSocket.send
  cases accepted <;> rfl

theorem Keeps.write {socket : ClientSocket} {kept : Nat} (keeps : socket.Keeps kept)
    (alive : 0 < socket.refcount) (buf : OutBuffer) (accepted : Bool) :
    (socket.write buf accepted).Keeps kept := by
  unfold ClientSocket.write
  split
  · exact keeps
  · have queued : Keeps { socket with output := (socket.output.enqueue buf).1 } kept := keeps
    simp only
    split
    · exact queued.send alive accepted
    · exact queued
    · exact queued

theorem write_handleOpen (socket : ClientSocket) (buf : OutBuffer) (accepted : Bool) :
    (socket.write buf accepted).handleOpen = socket.handleOpen := by
  unfold ClientSocket.write
  split
  · rfl
  · simp only
    split
    · rw [send_handleOpen]
    · rfl
    · rfl

theorem Keeps.takeReceive {socket : ClientSocket} {kept : Nat} (keeps : socket.Keeps kept)
    (outstanding : socket.receives ≠ 0) :
    Keeps { socket with receives := socket.receives - 1 } (kept + 1) := by
  refine keeps.drop rfl rfl ?_
  simp only [ClientSocket.outstanding]
  omega

theorem Keeps.takeSend {socket : ClientSocket} {kept : Nat} (keeps : socket.Keeps kept)
    (outstanding : socket.sends ≠ 0) :
    Keeps { socket with sends := socket.sends - 1 } (kept + 1) := by
  refine keeps.drop rfl rfl ?_
  simp only [ClientSocket.outstanding]
  omega

theorem Keeps.takePacket {socket : ClientSocket} {kept : Nat} (keeps : socket.Keeps kept)
    (outstanding : socket.packets ≠ 0) :
    Keeps { socket with packets := socket.packets - 1 } (kept + 1) := by
  refine keeps.drop rfl rfl ?_
  simp only [ClientSocket.outstanding]
  omega

/-- `OnWriteCallback` inside `OnIOCallback`: with another count than that of the
first buffer both give the one reference back. -/
theorem Keeps.onWriteCallback_iff {socket next : ClientSocket} {kept : Nat}
    (keeps : socket.Keeps (kept + 1)) (dwTransferred : Nat) (accepted : Bool)
    (ran : socket.onWriteCallback dwTransferred accepted = some next) :
    next.releaseRef.Keeps kept ↔
      socket.output.nodes.head?.map OutBuffer.size = some dwTransferred := by
  obtain ⟨⟨output, outcome⟩, dequeued, same⟩ := Option.map_eq_some_iff.mp ran
  subst same
  obtain ⟨first, rest, nodes, cases_⟩ :=
    OutputQueue.dequeue_cases socket.output output dwTransferred outcome dequeued
  have moved : Keeps { socket with output := output } (kept + 1) := keeps
  rw [nodes, List.head?_cons, Option.map_some, Option.some.injEq]
  rcases cases_ with ⟨rfl, _, differs⟩ | ⟨notDifferent, _, same, _, _⟩
  · apply iff_of_false _ (Ne.symm differs)
    intro settled
    have once := moved.releaseRef.1
    have twice : (ClientSocket.releaseRef { socket with output := output }).refcount - 1 =
        ((ClientSocket.releaseRef { socket with output := output }).outstanding : Int) +
          (kept : Int) := settled.1
    omega
  · apply iff_of_true _ same.symm
    apply Keeps.releaseRef
    cases outcome with
    | differentCount => exact absurd rfl notDifferent
    | sendNext => exact moved.send moved.spare_alive accepted
    | emptied => exact moved

theorem onWriteCallback_handleOpen (socket next : ClientSocket) (dwTransferred : Nat)
    (accepted : Bool) (ran : socket.onWriteCallback dwTransferred accepted = some next) :
    next.handleOpen = socket.handleOpen := by
  obtain ⟨⟨output, outcome⟩, _, same⟩ := Option.map_eq_some_iff.mp ran
  subst same
  cases outcome with
  | differentCount => rfl
  | sendNext => exact send_handleOpen { socket with output := output } accepted
  | emptied => rfl

/-! ### The count of a client, its handle included -/

theorem Holds.keeps {socket : ClientSocket} {extra : Nat} (holds : socket.Holds extra) :
    socket.Keeps ((if socket.handleOpen then 1 else 0) + extra) :=
  (holds_iff_keeps socket extra).mp holds

theorem Holds.spare {socket : ClientSocket} {extra : Nat} (holds : socket.Holds (extra + 1)) :
    socket.Keeps ((if socket.handleOpen then 1 else 0) + extra + 1) :=
  holds.keeps

theorem Keeps.holds {other : ClientSocket} {extra : Nat} (socket : ClientSocket)
    (keeps : other.Keeps ((if socket.handleOpen then 1 else 0) + extra))
    (sameHandle : other.handleOpen = socket.handleOpen) : other.Holds extra := by
  rw [holds_iff_keeps, sameHandle]
  exact keeps

theorem Holds.spare_alive {socket : ClientSocket} {extra : Nat}
    (holds : socket.Holds (extra + 1)) : 0 < socket.refcount :=
  holds.spare.spare_alive

theorem Holds.addRef {socket : ClientSocket} {extra : Nat} (holds : socket.Holds extra)
    (alive : 0 < socket.refcount) : socket.addRef.Holds (extra + 1) :=
  (holds.keeps.addRef alive).holds socket rfl

theorem Holds.releaseRef {socket : ClientSocket} {extra : Nat}
    (holds : socket.Holds (extra + 1)) : socket.releaseRef.Holds extra :=
  holds.spare.releaseRef.holds socket rfl

theorem Holds.closeSocket {socket : ClientSocket} {extra : Nat}
    (holds : socket.Holds extra) : socket.closeSocket.Holds extra := by
  unfold ClientSocket.closeSocket
  split
  · rename_i isOpen
    have keeps := holds.keeps
    rw [isOpen, if_pos rfl, Nat.add_comm 1 extra] at keeps
    have shut : Keeps { socket with
        handleOpen := false, read := { socket.read with mode := .close } } (extra + 1) :=
      keeps
    rw [holds_iff_keeps, show (if (ClientSocket.releaseRef { socket with
      handleOpen := false, read := { socket.read with mode := .close } }).handleOpen
        then 1 else 0) + extra = extra from Nat.zero_add extra]
    exact shut.releaseRef
  · exact holds

theorem Holds.postReceive {socket : ClientSocket} {extra : Nat}
    (holds : socket.Holds extra) (alive : 0 < socket.refcount) (left : Nat)
    (call : RecvCall) : (socket.postReceive left call).Holds extra := by
  have referenced : ∀ readBuf : CIOBuffer,
      (ClientSocket.addRef { socket with readBuf := readBuf }).Holds (extra + 1) := by
    intro readBuf
    have moved : Holds { socket with readBuf := readBuf } extra := holds
    exact moved.addRef alive
  unfold ClientSocket.postReceive
  simp only
  split
  · exact (referenced _).spare.startReceive.holds socket rfl
  · exact Holds.releaseRef (referenced _).closeSocket

theorem Holds.onRead {socket next : ClientSocket} {extra : Nat}
    (holds : socket.Holds (extra + 1)) (call : RecvCall)
    (done : socket.onRead call = some next) : next.Holds (extra + 1) := by
  obtain ⟨result, _, same⟩ := Option.map_eq_some_iff.mp done
  subst same
  have started : Holds { socket with read := result.state } (extra + 1) := holds
  have posted : Holds (result.posted.foldl (fun socket _ => ClientSocket.postPacket socket)
      { socket with read := result.state }) (extra + 1) :=
    (started.spare.postPackets result.posted).holds { socket with read := result.state }
      (postPackets_handleOpen _ result.posted)
  simp only
  split
  · exact Holds.postReceive posted posted.spare_alive _ call
  · exact posted.closeSocket

theorem Holds.onReadCallback {socket next : ClientSocket} {extra : Nat}
    (holds : socket.Holds (extra + 1)) (bytes : List UInt8) (call : RecvCall)
    (done : socket.onReadCallback bytes call = some next) : next.Holds (extra + 1) := by
  unfold ClientSocket.onReadCallback at done
  split at done
  · cases done
    exact holds.closeSocket
  · split at done
    · cases done
      exact holds
    · apply Holds.onRead ?_ call done
      exact holds

theorem Holds.write {socket : ClientSocket} {extra : Nat} (holds : socket.Holds extra)
    (alive : 0 < socket.refcount) (buf : OutBuffer) (accepted : Bool) :
    (socket.write buf accepted).Holds extra :=
  (holds.keeps.write alive buf accepted).holds socket (write_handleOpen socket buf accepted)

theorem Holds.perform {socket : ClientSocket} {extra : Nat}
    (holds : socket.Holds (extra + 1)) (calls : List HandlerCall) :
    (calls.foldl ClientSocket.perform socket).Holds (extra + 1) := by
  induction calls generalizing socket with
  | nil => exact holds
  | cons call rest ih =>
      apply ih
      cases call with
      | write buf accepted => exact holds.write holds.spare_alive buf accepted
      | closeSocket => exact holds.closeSocket

theorem Holds.handle {socket : ClientSocket} {extra : Nat}
    (holds : socket.Holds (extra + 1)) (calls : List HandlerCall) (close : Bool) :
    (socket.handle calls close).Holds extra := by
  have performed := holds.perform calls
  unfold ClientSocket.handle
  apply Holds.releaseRef
  split
  · exact performed.closeSocket
  · exact performed

/-! ### One event -/

theorem Holds.takeReceive {socket : ClientSocket} {extra : Nat} (holds : socket.Holds extra)
    (outstanding : socket.receives ≠ 0) :
    Holds { socket with receives := socket.receives - 1 } (extra + 1) :=
  (holds.keeps.takeReceive outstanding).holds socket rfl

theorem Holds.takeSend {socket : ClientSocket} {extra : Nat} (holds : socket.Holds extra)
    (outstanding : socket.sends ≠ 0) :
    Holds { socket with sends := socket.sends - 1 } (extra + 1) :=
  (holds.keeps.takeSend outstanding).holds socket rfl

theorem Holds.takePacket {socket : ClientSocket} {extra : Nat} (holds : socket.Holds extra)
    (outstanding : socket.packets ≠ 0) :
    Holds { socket with packets := socket.packets - 1 } (extra + 1) :=
  (holds.keeps.takePacket outstanding).holds socket rfl

theorem Holds.onWriteCallback_iff {socket next : ClientSocket} (holds : socket.Holds (0 + 1))
    (dwTransferred : Nat) (accepted : Bool)
    (ran : socket.onWriteCallback dwTransferred accepted = some next) :
    next.releaseRef.Holds 0 ↔
      socket.output.nodes.head?.map OutBuffer.size = some dwTransferred := by
  have sameHandle : next.releaseRef.handleOpen = socket.handleOpen :=
    onWriteCallback_handleOpen socket next dwTransferred accepted ran
  rw [holds_iff_keeps, sameHandle]
  exact holds.spare.onWriteCallback_iff dwTransferred accepted ran

theorem Holds.initializeSocket_iff {socket next : ClientSocket} (holds : socket.Holds 0)
    (live : socket.deleted = false) (associated : Bool) (call : RecvCall)
    (ran : socket.initializeSocket associated call = some next) :
    next.Holds 0 ↔ associated = true := by
  have referenced := holds.addRef (holds.keeps.alive live)
  unfold ClientSocket.initializeSocket at ran
  simp only at ran
  split at ran
  · rename_i succeeded
    obtain ⟨done, read, same⟩ := Option.map_eq_some_iff.mp ran
    subst same
    exact iff_of_true (Holds.releaseRef (referenced.onRead call read)) succeeded
  · rename_i failed
    cases ran
    -- The reference taken at the start is still there.
    have surplus := referenced.closeSocket.1
    apply iff_of_false _ failed
    intro settled
    have counted := settled.1
    omega

/-- A regular event leaves the count as it should be; any other one does not. -/
theorem step_balanced_iff (socket next : ClientSocket) (event : SocketEvent)
    (balanced : socket.Balanced) (stepped : socket.step event = some next) :
    next.Balanced ↔ socket.Regular event := by
  have holds := (balanced_iff_holds socket).mp balanced
  rw [balanced_iff_holds next]
  cases event with
  | initializeSocket associated call =>
      obtain ⟨live, ran⟩ := Option.ite_none_left_eq_some.mp stepped
      exact holds.initializeSocket_iff (Bool.eq_false_iff.mpr live) associated call ran
  | write buf accepted =>
      obtain ⟨live, ran⟩ := Option.ite_none_left_eq_some.mp stepped
      cases ran
      exact iff_of_true
        (holds.write (holds.keeps.alive (Bool.eq_false_iff.mpr live)) buf accepted) trivial
  | read left call =>
      obtain ⟨live, ran⟩ := Option.ite_none_left_eq_some.mp stepped
      cases ran
      exact iff_of_true
        (holds.postReceive (holds.keeps.alive (Bool.eq_false_iff.mpr live)) left call) trivial
  | receiveFailed =>
      obtain ⟨outstanding, ran⟩ := Option.ite_none_left_eq_some.mp stepped
      cases ran
      have taken := holds.takeReceive outstanding
      exact iff_of_true (Holds.releaseRef taken.closeSocket) trivial
  | received bytes call =>
      obtain ⟨outstanding, ran⟩ := Option.ite_none_left_eq_some.mp stepped
      have taken := holds.takeReceive outstanding
      obtain ⟨done, served, same⟩ := Option.map_eq_some_iff.mp ran
      subst same
      exact iff_of_true (Holds.releaseRef (taken.onReadCallback bytes call served)) trivial
  | sendFailed =>
      obtain ⟨outstanding, ran⟩ := Option.ite_none_left_eq_some.mp stepped
      cases ran
      have taken := holds.takeSend outstanding
      exact iff_of_true (Holds.releaseRef taken.closeSocket) trivial
  | sent dwTransferred accepted =>
      obtain ⟨outstanding, ran⟩ := Option.ite_none_left_eq_some.mp stepped
      obtain ⟨done, served, same⟩ := Option.map_eq_some_iff.mp ran
      subst same
      exact (holds.takeSend outstanding).onWriteCallback_iff dwTransferred accepted served
  | handled calls close =>
      obtain ⟨outstanding, ran⟩ := Option.ite_none_left_eq_some.mp stepped
      cases ran
      exact iff_of_true ((holds.takePacket outstanding).handle calls close) trivial
  | closeSocket =>
      obtain ⟨_, ran⟩ := Option.ite_none_left_eq_some.mp stepped
      cases ran
      exact iff_of_true holds.closeSocket trivial

theorem create_balanced (packetLen : Int) (recycled : Nat → UInt8) :
    (create packetLen recycled).Balanced := by
  refine ⟨rfl, ?_⟩
  constructor
  · intro gone
    contradiction
  · intro none
    contradiction

/-! ### Every event that can happen has an outcome -/

/-- What the environment can do to a socket. -/
def Offered (socket : ClientSocket) : SocketEvent → Prop
  | .initializeSocket _ _ | .write _ _ | .read _ _ | .closeSocket => socket.deleted = false
  | .receiveFailed | .received _ _ => socket.receives ≠ 0
  | .sendFailed | .sent _ _ => socket.sends ≠ 0
  | .handled _ _ => socket.packets ≠ 0

/-- The reader is sound or stopped, a closed handle has stopped it, and a send
is outstanding at most once and only while its buffer is queued. -/
structure Wired (socket : ClientSocket) : Prop where
  reads : socket.read.mode = .close ∨ socket.read.Open
  stopped : socket.handleOpen = false → socket.read.mode = .close
  single : socket.sends ≤ 1
  queued : socket.output.nodes = [] → socket.sends = 0

theorem Wired.closeSocket {socket : ClientSocket} (wired : socket.Wired) :
    socket.closeSocket.Wired := by
  unfold ClientSocket.closeSocket
  split
  · exact ⟨Or.inl rfl, fun _ => rfl, wired.single, wired.queued⟩
  · exact wired

theorem Wired.releaseRef {socket : ClientSocket} (wired : socket.Wired) :
    socket.releaseRef.Wired :=
  ⟨wired.reads, wired.stopped, wired.single, wired.queued⟩

theorem Wired.postReceive {socket : ClientSocket} (wired : socket.Wired) (left : Nat)
    (call : RecvCall) : (socket.postReceive left call).Wired := by
  rcases wired with ⟨reads, stopped, single, queued⟩
  unfold ClientSocket.postReceive
  simp only
  split
  · exact ⟨reads, stopped, single, queued⟩
  · apply Wired.releaseRef (Wired.closeSocket ?_)
    exact ⟨reads, stopped, single, queued⟩

theorem Wired.postPackets {socket : ClientSocket} (wired : socket.Wired)
    (posted : List Posted) :
    (posted.foldl (fun socket _ => ClientSocket.postPacket socket) socket).Wired := by
  induction posted generalizing socket with
  | nil => exact wired
  | cons packet rest ih =>
      exact ih ⟨wired.reads, wired.stopped, wired.single, wired.queued⟩

theorem Wired.onRead {socket : ClientSocket} (wired : socket.Wired) (call : RecvCall) :
    ∃ next, socket.onRead call = some next ∧ next.Wired := by
  unfold ClientSocket.onRead LengthRule.onRead
  by_cases closed : socket.read.mode = .close
  · rw [if_pos closed, Option.map_some]
    exact ⟨_, rfl, Wired.closeSocket wired⟩
  · have isOpen := wired.reads.resolve_left closed
    obtain ⟨result, found, _, stillOpen, _⟩ :=
      CSocketServerEx.lengthRule.loop_parse socket.readBuf.buffer socket.readBuf.size
        (socket.readBuf.size + 1) socket.read 0 isOpen (Nat.zero_le _) (by omega)
    rw [if_neg closed, found, Option.map_some]
    refine ⟨_, rfl, ?_⟩
    have started : Wired { socket with read := result.state } :=
      ⟨Or.inr stillOpen, fun shut => absurd (wired.stopped shut) closed,
        wired.single, wired.queued⟩
    have posted := started.postPackets result.posted
    simp only
    split
    · exact posted.postReceive _ call
    · exact posted.closeSocket

theorem Wired.onReadCallback {socket : ClientSocket} (wired : socket.Wired)
    (bytes : List UInt8) (call : RecvCall) :
    ∃ next, socket.onReadCallback bytes call = some next ∧ next.Wired := by
  unfold ClientSocket.onReadCallback
  split
  · exact ⟨_, rfl, wired.closeSocket⟩
  · split
    · exact ⟨_, rfl, wired⟩
    · apply Wired.onRead ?_ call
      exact ⟨wired.reads, wired.stopped, wired.single, wired.queued⟩

/-- A send may start when no other one is outstanding and its buffer is queued. -/
theorem Wired.send {socket : ClientSocket} (wired : socket.Wired) (free : socket.sends = 0)
    (waiting : socket.output.nodes ≠ []) (accepted : Bool) :
    (socket.send accepted).Wired := by
  rcases wired with ⟨reads, stopped, _, _⟩
  unfold ClientSocket.send
  simp only
  split
  · refine ⟨reads, stopped, ?_, fun none => absurd none waiting⟩
    change socket.sends + 1 ≤ 1
    omega
  · refine Wired.releaseRef ⟨reads, stopped, ?_, fun none => absurd none waiting⟩
    change socket.sends ≤ 1
    omega

theorem Wired.write {socket : ClientSocket} (wired : socket.Wired) (buf : OutBuffer)
    (accepted : Bool) : (socket.write buf accepted).Wired := by
  rcases wired with ⟨reads, stopped, single, queued⟩
  unfold ClientSocket.write
  split
  · exact ⟨reads, stopped, single, queued⟩
  · have still : (socket.output.enqueue buf).1.nodes ≠ [] :=
      OutputQueue.enqueue_nodes_ne_nil socket.output buf
    have kept : Wired { socket with output := (socket.output.enqueue buf).1 } :=
      ⟨reads, stopped, single, fun none => absurd none still⟩
    simp only
    split
    · rename_i started
      have none := (OutputQueue.enqueue_started_iff socket.output buf).mp started
      exact kept.send (queued none) still accepted
    · exact kept
    · exact kept

theorem Wired.onWriteCallback {socket : ClientSocket} (wired : socket.Wired)
    (free : socket.sends = 0) (waiting : socket.output.nodes ≠ []) (dwTransferred : Nat)
    (accepted : Bool) :
    ∃ next, socket.onWriteCallback dwTransferred accepted = some next ∧ next.Wired := by
  obtain ⟨dequeued, found⟩ := OutputQueue.dequeue_defined socket.output dwTransferred waiting
  rcases dequeued with ⟨output, outcome⟩
  unfold ClientSocket.onWriteCallback
  rw [found, Option.map_some]
  refine ⟨_, rfl, ?_⟩
  have kept : Wired { socket with output := output } :=
    ⟨wired.reads, wired.stopped, wired.single, fun _ => free⟩
  cases outcome with
  | differentCount => exact kept.releaseRef
  | emptied => exact kept
  | sendNext =>
      obtain ⟨first, rest, _, cases_⟩ :=
        OutputQueue.dequeue_cases socket.output output dwTransferred .sendNext found
      rcases cases_ with ⟨different, _⟩ | ⟨_, more, _, nodes, _⟩
      · contradiction
      · apply kept.send free ?_ accepted
        rw [show ({ socket with output := output } : ClientSocket).output.nodes = rest from nodes]
        exact more.mp rfl

theorem Wired.perform {socket : ClientSocket} (wired : socket.Wired)
    (calls : List HandlerCall) : (calls.foldl ClientSocket.perform socket).Wired := by
  induction calls generalizing socket with
  | nil => exact wired
  | cons call rest ih =>
      apply ih
      cases call with
      | write buf accepted => exact wired.write buf accepted
      | closeSocket => exact wired.closeSocket

theorem Wired.initializeSocket {socket : ClientSocket} (wired : socket.Wired)
    (associated : Bool) (call : RecvCall) :
    ∃ next, socket.initializeSocket associated call = some next ∧ next.Wired := by
  have referenced : socket.addRef.Wired :=
    ⟨wired.reads, wired.stopped, wired.single, wired.queued⟩
  unfold ClientSocket.initializeSocket
  simp only
  split
  · obtain ⟨next, ran, nextWired⟩ := referenced.onRead call
    rw [ran, Option.map_some]
    exact ⟨_, rfl, nextWired.releaseRef⟩
  · exact ⟨_, rfl, referenced.closeSocket⟩

/-- What the environment can do always has an outcome, and keeps the wiring. -/
theorem Wired.step {socket : ClientSocket} (wired : socket.Wired) (event : SocketEvent)
    (offered : socket.Offered event) :
    ∃ next, socket.step event = some next ∧ next.Wired := by
  cases event with
  | initializeSocket associated call =>
      simp only [ClientSocket.step, show socket.deleted = false from offered]
      exact wired.initializeSocket associated call
  | write buf accepted =>
      simp only [ClientSocket.step, show socket.deleted = false from offered]
      exact ⟨_, rfl, wired.write buf accepted⟩
  | read left call =>
      simp only [ClientSocket.step, show socket.deleted = false from offered]
      exact ⟨_, rfl, wired.postReceive left call⟩
  | closeSocket =>
      simp only [ClientSocket.step, show socket.deleted = false from offered]
      exact ⟨_, rfl, wired.closeSocket⟩
  | receiveFailed =>
      simp only [ClientSocket.step, if_neg (show socket.receives ≠ 0 from offered)]
      exact ⟨_, rfl, Wired.releaseRef (Wired.closeSocket
        ⟨wired.reads, wired.stopped, wired.single, wired.queued⟩)⟩
  | received bytes call =>
      have taken : Wired { socket with receives := socket.receives - 1 } :=
        ⟨wired.reads, wired.stopped, wired.single, wired.queued⟩
      obtain ⟨next, ran, nextWired⟩ := taken.onReadCallback bytes call
      simp only [ClientSocket.step, if_neg (show socket.receives ≠ 0 from offered), ran,
        Option.map_some]
      exact ⟨_, rfl, nextWired.releaseRef⟩
  | sendFailed =>
      have single := wired.single
      simp only [ClientSocket.step, if_neg (show socket.sends ≠ 0 from offered)]
      refine ⟨_, rfl, Wired.releaseRef (Wired.closeSocket
        ⟨wired.reads, wired.stopped, ?_, fun _ => ?_⟩)⟩
      · change socket.sends - 1 ≤ 1
        omega
      · change socket.sends - 1 = 0
        omega
  | sent dwTransferred accepted =>
      have outstanding : socket.sends ≠ 0 := offered
      have single := wired.single
      have free : socket.sends - 1 = 0 := by omega
      have taken : Wired { socket with sends := socket.sends - 1 } :=
        ⟨wired.reads, wired.stopped, by change socket.sends - 1 ≤ 1; omega, fun _ => free⟩
      obtain ⟨next, ran, nextWired⟩ :=
        taken.onWriteCallback free (fun none => outstanding (wired.queued none))
          dwTransferred accepted
      simp only [ClientSocket.step, if_neg outstanding, ran, Option.map_some]
      exact ⟨_, rfl, nextWired.releaseRef⟩
  | handled calls close =>
      have taken : Wired { socket with packets := socket.packets - 1 } :=
        ⟨wired.reads, wired.stopped, wired.single, wired.queued⟩
      have performed := taken.perform calls
      simp only [ClientSocket.step, if_neg (show socket.packets ≠ 0 from offered)]
      refine ⟨_, rfl, ?_⟩
      unfold ClientSocket.handle
      apply Wired.releaseRef
      split
      · exact performed.closeSocket
      · exact performed

theorem step_offered (socket next : ClientSocket) (event : SocketEvent)
    (stepped : socket.step event = some next) : socket.Offered event := by
  cases event <;>
    · simp only [ClientSocket.step] at stepped
      split at stepped
      · contradiction
      · rename_i possible
        first
          | exact possible
          | exact Bool.eq_false_iff.mpr possible

/-- No run gets stuck: in each of its states every event that the environment
can produce has an outcome. -/
theorem every_event_served (packetLen : Int) (recycled : Nat → UInt8)
    (events : List SocketEvent) :
    machine.Throughout (fun socket => ∀ event, socket.Offered event →
      ∃ next, machine.step socket event = some next) (create packetLen recycled) events := by
  refine machine.throughout_of_guarded Wired _ Offered ?_ ?_ events _ ?_ ?_
  · intro socket event next wired offered stepped
    obtain ⟨other, served, otherWired⟩ := wired.step event offered
    have same : next = other := Option.some.inj (stepped.symm.trans served)
    exact same ▸ otherWired
  · intro socket wired event offered
    obtain ⟨next, served, _⟩ := wired.step event offered
    exact ⟨next, served⟩
  · exact ⟨Or.inr trivial, nofun, Nat.zero_le _, fun _ => rfl⟩
  · exact machine.guarded_of_step Offered step_offered _ _

/-- The count is right in every state of a run exactly when every event of the
run is regular. -/
theorem balanced_throughout_iff (packetLen : Int) (recycled : Nat → UInt8)
    (events : List SocketEvent) :
    machine.Throughout Balanced (create packetLen recycled) events ↔
      machine.Guarded Regular (create packetLen recycled) events :=
  machine.throughout_iff_guarded Balanced Balanced Regular
    (fun socket event next balanced regular stepped =>
      (step_balanced_iff socket next event balanced stepped).mpr regular)
    (fun _ balanced => balanced)
    (fun socket event next balanced stepped nextBalanced =>
      (step_balanced_iff socket next event balanced stepped).mp nextBalanced)
    events (create packetLen recycled) (create_balanced packetLen recycled)

/-- `Initialize` on a handle that cannot be associated: the handle is closed,
nothing is outstanding, and one reference keeps the object forever. -/
theorem failed_initialize_leaks :
    ¬ ∀ (packetLen : Int) (recycled : Nat → UInt8) (events : List SocketEvent),
      machine.Throughout Balanced (create packetLen recycled) events := by
  intro claimed
  have run := claimed 0 (fun _ => 0) [.initializeSocket false ⟨1, fun _ => 0, true⟩]
  have final : Balanced _ := run.2 _ rfl
  have counted : (1 : Int) = 0 := final.1
  contradiction

end ClientSocket

end AuthServer
