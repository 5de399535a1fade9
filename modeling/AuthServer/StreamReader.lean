/-
A connection as its reader sees it, from creation to closing.

Each event is one successful receive: the bytes the network delivers into the
posted region, the value `m_ref` holds when `CIOSocket::Read` tests it, and the
memory a fresh buffer would come with.  The run is compared with one parse of
the whole stream by the class's length rule.  A receive of zero bytes ends the
stream and closes the socket; it belongs to the socket's life cycle and is not
an event here.
-/

import AuthServer.Lib.EventRuns
import AuthServer.SocketReader

set_option autoImplicit false

namespace AuthServer

open LinearMemory

/-! ### The loop parses what the buffer holds -/

namespace LengthRule

/-- What a turn means for the stream that starts at `pi`. -/
def turnVerdict (inBuf : Nat → UInt8) (state : ReadState) (pi : Nat) :
    Turn → Framing.Verdict ReadState Packet ReadError
  | .read _ => .wait
  | .leave error => .reject error
  | .header packetLen => .advance 2 none ⟨.readBody, packetLen⟩
  | .dispatch =>
      .advance state.packetLen.toNat (some (packetAt inBuf ⟨pi, state.packetLen⟩))
        ⟨.readLen, state.packetLen⟩

private theorem slice_from (inBuf : Nat → UInt8) (pi ri : Nat) (inside : pi < ri) :
    slice inBuf pi (ri - pi) = inBuf pi :: slice inBuf (pi + 1) (ri - pi - 1) := by
  obtain ⟨count, counted⟩ := Nat.exists_eq_succ_of_ne_zero (Nat.sub_ne_zero_of_lt inside)
  rw [counted, slice_head]
  rfl

/-- The turn taken at `pi` decides as the length rule does on the bytes there. -/
theorem verdict_of_turn (rule : LengthRule) (inBuf : Nat → UInt8) (ri : Nat)
    (state : ReadState) (pi : Nat) (isOpen : state.Open) :
    rule.verdict state (slice inBuf pi (ri - pi)) =
      turnVerdict inBuf state pi (rule.turn inBuf ri state pi) := by
  rcases state with ⟨mode, packetLen⟩
  unfold turn
  by_cases exhausted : ri ≤ pi
  · rw [if_pos exhausted, Nat.sub_eq_zero_of_le exhausted, slice_zero]
    cases mode with
    | readLen => rfl
    | readBody => rfl
    | close => rfl
  · rw [if_neg exhausted, slice_from inBuf pi ri (by omega)]
    cases mode with
    | readLen =>
        have needed := rule.lengthBytesPresent
        by_cases present : pi + rule.headerBytes ≤ ri
        · have second : slice inBuf (pi + 1) (ri - pi - 1) =
              inBuf (pi + 1) :: slice inBuf (pi + 2) (ri - (pi + 1) - 1) := by
            rw [show ri - pi - 1 = ri - (pi + 1) by omega]
            exact slice_from inBuf (pi + 1) ri (by omega)
          have long : ¬ (inBuf pi :: inBuf (pi + 1) ::
              slice inBuf (pi + 2) (ri - (pi + 1) - 1)).length < rule.headerBytes := by
            simp only [List.length_cons, slice_length]
            omega
          simp only [if_pos present, second, verdict, if_neg long]
          split
          · rfl
          · rfl
        · simp only [if_neg present, turnVerdict]
          cases rest : slice inBuf (pi + 1) (ri - pi - 1) with
          | nil => rfl
          | cons high tail =>
              have counted := congrArg List.length rest
              rw [slice_length, List.length_cons] at counted
              have short : (inBuf pi :: high :: tail).length < rule.headerBytes := by
                simp only [List.length_cons]
                omega
              simp only [verdict, if_pos short]
    | readBody =>
        have bounds : 0 < packetLen ∧ packetLen ≤ bufferSize := isOpen
        have counted : (inBuf pi :: slice inBuf (pi + 1) (ri - pi - 1)).length = ri - pi := by
          simp only [List.length_cons, slice_length]
          omega
        by_cases present : (pi : Int) + packetLen ≤ ri
        · have long : ¬ (packetLen ≤ 0 ∨
              ((inBuf pi :: slice inBuf (pi + 1) (ri - pi - 1)).length : Int) < packetLen) := by
            omega
          have body : (slice inBuf (pi + 1) (ri - pi - 1)).take (packetLen.toNat - 1) =
              slice inBuf (pi + 1) (packetLen.toNat - 1) :=
            slice_take inBuf (pi + 1) (ri - pi - 1) (packetLen.toNat - 1) (by omega)
          simp only [if_pos present, verdict, if_neg long]
          split
          · rfl
          · rw [body]
            rfl
        · have short : packetLen ≤ 0 ∨
              ((inBuf pi :: slice inBuf (pi + 1) (ri - pi - 1)).length : Int) < packetLen := by
            omega
          simp only [if_neg present, verdict, if_pos short, turnVerdict]
    | close => exact absurd isOpen id

/-- How the loop's exit reads as the status of a stream parse: leaving through
`Read(left)` keeps the last `left` bytes. -/
def loopStatus (inBuf : Nat → UInt8) (ri : Nat) (result : LoopResult) :
    Framing.Status UInt8 ReadState ReadError :=
  match result.exit with
  | .read left => .waiting result.state (slice inBuf (ri - left) left)
  | .closeSocket error => .rejected error

theorem turn_read_left (rule : LengthRule) (inBuf : Nat → UInt8) (ri : Nat)
    (state : ReadState) (pi left : Nat) (isOpen : state.Open)
    (reads : rule.turn inBuf ri state pi = .read left) :
    left = ri - pi ∧ left < bufferSize := by
  rcases state with ⟨mode, packetLen⟩
  have positive : 0 < bufferSize := by decide
  unfold turn at reads
  split at reads
  · cases reads
    omega
  · cases mode with
    | readLen =>
        have fits := rule.headerFits
        simp only at reads
        split at reads
        · split at reads <;> contradiction
        · cases reads
          omega
    | readBody =>
        have bounds : 0 < packetLen ∧ packetLen ≤ bufferSize := isOpen
        simp only at reads
        split at reads
        · split at reads <;> contradiction
        · cases reads
          omega
    | close => contradiction

theorem turn_header_open (rule : LengthRule) (inBuf : Nat → UInt8) (ri : Nat)
    (state : ReadState) (pi : Nat) (packetLen : Int)
    (header : rule.turn inBuf ri state pi = .header packetLen) :
    ReadState.Open ⟨.readBody, packetLen⟩ := by
  rcases state with ⟨mode, previous⟩
  unfold turn at header
  split at header
  · contradiction
  · cases mode with
    | readLen =>
        simp only at header
        split at header
        · split at header
          · contradiction
          · cases header
            change 0 < rule.packetLen (inBuf pi) (inBuf (pi + 1)) ∧
              rule.packetLen (inBuf pi) (inBuf (pi + 1)) ≤ bufferSize
            omega
        · contradiction
    | readBody =>
        simp only at header
        split at header
        · split at header <;> contradiction
        · contradiction
    | close => contradiction

/-- The loop stops within its fuel, having parsed everything from `pi` on; if
it asks for more, what it keeps is shorter than a buffer. -/
theorem loop_parse (rule : LengthRule) (inBuf : Nat → UInt8) (ri : Nat) :
    ∀ (fuel : Nat) (state : ReadState) (pi : Nat), state.Open → pi ≤ ri →
      ri - pi < fuel →
      ∃ result, rule.loop inBuf ri fuel state pi = some result ∧
        rule.framing.parse state (slice inBuf pi (ri - pi)) =
          ⟨result.posted.map (packetAt inBuf), loopStatus inBuf ri result⟩ ∧
        result.state.Open ∧
        ∀ left, result.exit = .read left → left ≤ ri ∧ left < bufferSize := by
  intro fuel
  induction fuel with
  | zero =>
      intro state pi _isOpen _within enough
      omega
  | succ fuel ih =>
      intro state pi isOpen within enough
      have decision := rule.verdict_of_turn inBuf ri state pi isOpen
      rw [loop]
      cases taken : rule.turn inBuf ri state pi with
      | read left =>
          rw [taken] at decision
          obtain ⟨leftEq, room⟩ := rule.turn_read_left inBuf ri state pi left isOpen taken
          refine ⟨_, rfl, ?_, isOpen, ?_⟩
          · rw [rule.framing.parse_of_wait state _ decision, leftEq]
            change _ = Framing.Outcome.mk _
              (.waiting state (slice inBuf (ri - (ri - pi)) (ri - pi)))
            rw [Nat.sub_sub_self within]
            rfl
          · intro other exits
            cases exits
            exact ⟨by omega, room⟩
      | leave error =>
          rw [taken] at decision
          refine ⟨_, rfl, rule.framing.parse_of_reject state _ error decision, isOpen, ?_⟩
          intro left exits
          contradiction
      | header packetLen =>
          rw [taken] at decision
          obtain ⟨_, counted⟩ := rule.verdict_progress state _ _ _ _ decision
          rw [slice_length] at counted
          obtain ⟨result, found, parsed, stillOpen, exits⟩ :=
            ih ⟨.readBody, packetLen⟩ (pi + 2)
              (rule.turn_header_open inBuf ri state pi packetLen taken)
              (by omega) (by omega)
          refine ⟨result, found, ?_, stillOpen, exits⟩
          rw [rule.framing.parse_of_advance state _ _ _ _ decision,
            slice_drop _ _ _ _ counted, Nat.sub_sub, parsed]
          rfl
      | dispatch =>
          rw [taken] at decision
          obtain ⟨advanced, counted⟩ := rule.verdict_progress state _ _ _ _ decision
          rw [slice_length] at counted
          obtain ⟨result, found, parsed, stillOpen, exits⟩ :=
            ih ⟨.readLen, state.packetLen⟩ (pi + state.packetLen.toNat) trivial
              (by omega) (by omega)
          refine ⟨{ result with posted := ⟨pi, state.packetLen⟩ :: result.posted },
            ?_, ?_, stillOpen, exits⟩
          · simp only [found, Option.map_some]
          · rw [rule.framing.parse_of_advance state _ _ _ _ decision,
              slice_drop _ _ _ _ counted, Nat.sub_sub, parsed]
            rfl

end LengthRule

/-! ### Connections and receives -/

inductive Link where
  | receiving (posted : WsaBuf)
  | closed (error : ReadError)
  deriving DecidableEq, Repr

structure Connection where
  read : ReadState
  readBuf : CIOBuffer
  link : Link
  dispatched : List Packet

structure Receive where
  bytes : List UInt8
  arrived : bytes ≠ []
  ref : Int
  recycled : Nat → UInt8

def Connection.onRead (rule : LengthRule) (read : ReadState) (dispatched : List Packet)
    (buf : CIOBuffer) (recycled : Nat → UInt8) : Option Connection :=
  (rule.onRead buf read).map fun result =>
    let packets := dispatched ++ result.posted.map (LengthRule.packetAt buf.buffer)
    match result.exit with
    | .read left =>
        let next := CIOSocket.read buf left recycled
        ⟨result.state, next, .receiving (CIOSocket.wsaBuf next), packets⟩
    | .closeSocket error => ⟨result.state, buf, .closed error, packets⟩

/-- The constructor sets `mode` but not `packetLen`; `OnCreate` calls `OnRead`. -/
def Connection.onCreate (rule : LengthRule) (packetLen : Int)
    (recycled fresh : Nat → UInt8) : Option Connection :=
  Connection.onRead rule ⟨.readLen, packetLen⟩ [] (CIOBuffer.alloc recycled) fresh

def Connection.onReadCallback (rule : LengthRule) (connection : Connection)
    (receive : Receive) : Option Connection :=
  match connection.link with
  | .closed _ => some connection
  | .receiving posted =>
      if receive.bytes.length ≤ posted.len then
        let buf : CIOBuffer :=
          { buffer := store connection.readBuf.buffer posted.offset receive.bytes
            size := connection.readBuf.size + receive.bytes.length
            ref := receive.ref }
        Connection.onRead rule connection.read connection.dispatched buf receive.recycled
      else none

def readerMachine (rule : LengthRule) : EventRuns.Machine Connection Receive where
  step := Connection.onReadCallback rule

/-- What a connection amounts to for a reader of the stream. -/
def Connection.outcome (connection : Connection) :
    Framing.Outcome UInt8 ReadState Packet ReadError where
  frames := connection.dispatched
  status :=
    match connection.link with
    | .receiving _ => .waiting connection.read connection.readBuf.contents
    | .closed error => .rejected error

/-- An open connection has a sound parse state, and its receive is posted into
the free rest of its buffer. -/
def Connection.Ready (connection : Connection) : Prop :=
  ∀ posted, connection.link = .receiving posted →
    connection.read.Open ∧ connection.readBuf.size < bufferSize ∧
      posted = CIOSocket.wsaBuf connection.readBuf

theorem Connection.onRead_parse (rule : LengthRule) (read : ReadState)
    (dispatched : List Packet) (buf : CIOBuffer) (recycled : Nat → UInt8)
    (isOpen : read.Open) :
    ∃ next, Connection.onRead rule read dispatched buf recycled = some next ∧
      next.Ready ∧
      next.outcome =
        ⟨dispatched ++ (rule.framing.parse read buf.contents).frames,
          (rule.framing.parse read buf.contents).status⟩ := by
  have notClosed : read.mode ≠ .close := by
    intro closed
    unfold ReadState.Open at isOpen
    rw [closed] at isOpen
    exact isOpen
  obtain ⟨result, found, parsed, stillOpen, exits⟩ :=
    rule.loop_parse buf.buffer buf.size (buf.size + 1) read 0 isOpen
      (Nat.zero_le _) (by omega)
  have whole : rule.framing.parse read buf.contents =
      ⟨result.posted.map (LengthRule.packetAt buf.buffer),
        LengthRule.loopStatus buf.buffer buf.size result⟩ := parsed
  unfold Connection.onRead LengthRule.onRead
  rw [if_neg notClosed, found, Option.map_some, whole]
  refine ⟨_, rfl, ?_⟩
  cases exit : result.exit with
  | read left =>
      obtain ⟨_, room⟩ := exits left exit
      constructor
      · intro posted receiving
        cases receiving
        exact ⟨stillOpen, (CIOSocket.read_size buf left recycled).symm ▸ room, rfl⟩
      · simp only [Connection.outcome, LengthRule.loopStatus, exit,
          CIOSocket.read_contents]
  | closeSocket error =>
      constructor
      · intro posted receiving
        contradiction
      · simp only [Connection.outcome, LengthRule.loopStatus, exit]

/-- One receive feeds the stream parser with exactly the bytes received. -/
theorem Connection.onReadCallback_feed (rule : LengthRule)
    (connection next : Connection) (receive : Receive) (ready : connection.Ready)
    (stepped : connection.onReadCallback rule receive = some next) :
    next.Ready ∧
      next.outcome = rule.framing.feed connection.outcome receive.bytes := by
  unfold Connection.onReadCallback at stepped
  cases linked : connection.link with
  | closed error =>
      rw [linked] at stepped
      cases stepped
      refine ⟨ready, ?_⟩
      simp only [Connection.outcome, linked, Framing.Rule.feed]
  | receiving posted =>
      obtain ⟨isOpen, _, region⟩ := ready posted linked
      rw [linked] at stepped
      simp only at stepped
      split at stepped
      · obtain ⟨result, found, nextReady, parsed⟩ :=
          Connection.onRead_parse rule connection.read connection.dispatched _
            receive.recycled isOpen
        rw [found] at stepped
        cases stepped
        refine ⟨nextReady, ?_⟩
        have extended : ∀ ref : Int, CIOBuffer.contents
            { buffer := store connection.readBuf.buffer posted.offset receive.bytes
              size := connection.readBuf.size + receive.bytes.length
              ref := ref } = connection.readBuf.contents ++ receive.bytes := by
          intro ref
          rw [region]
          exact slice_store_extend _ _ _
        rw [parsed, extended]
        simp only [Connection.outcome, linked, Framing.Rule.feed]
      · contradiction

/-- The receive that is posted never stops the reader: whatever arrives within
its length is taken. -/
theorem Connection.onReadCallback_defined (rule : LengthRule)
    (connection : Connection) (posted : WsaBuf) (receive : Receive)
    (ready : connection.Ready) (receiving : connection.link = .receiving posted)
    (within : receive.bytes.length ≤ posted.len) :
    (connection.onReadCallback rule receive).isSome := by
  obtain ⟨isOpen, _, _⟩ := ready posted receiving
  unfold Connection.onReadCallback
  rw [receiving]
  simp only [if_pos within]
  obtain ⟨next, found, _⟩ :=
    Connection.onRead_parse rule connection.read connection.dispatched _
      receive.recycled isOpen
  rw [found]
  rfl

theorem readerMachine_run_feed (rule : LengthRule) (receives : List Receive) :
    ∀ start final : Connection, start.Ready →
      (readerMachine rule).run start receives = some final →
      final.Ready ∧
        final.outcome = (receives.map Receive.bytes).foldl rule.framing.feed start.outcome := by
  induction receives with
  | nil =>
      intro start final ready ran
      cases ran
      exact ⟨ready, rfl⟩
  | cons receive rest ih =>
      intro start final ready ran
      obtain ⟨next, stepped, tail⟩ :=
        (readerMachine rule).run_cons_cases start final receive rest ran
      obtain ⟨nextReady, fed⟩ :=
        Connection.onReadCallback_feed rule start next receive ready stepped
      rw [List.map_cons, List.foldl_cons, ← fed]
      exact ih next final nextReady tail

/-- However the network cuts the stream, the reader ends where one parse of the
whole stream ends, and while it is open its receive has room inside the
buffer and is always served. -/
theorem reader_parses_stream (rule : LengthRule) (packetLen : Int)
    (recycled fresh : Nat → UInt8) (receives : List Receive) (final : Connection)
    (ran : (Connection.onCreate rule packetLen recycled fresh).bind
      (fun start => (readerMachine rule).run start receives) = some final) :
    final.outcome =
        rule.framing.parse ⟨.readLen, packetLen⟩ (receives.map Receive.bytes).flatten ∧
      ∀ posted, final.link = .receiving posted →
        0 < posted.len ∧ posted.offset + posted.len ≤ bufferSize ∧
          ∀ receive : Receive, receive.bytes.length ≤ posted.len →
            (final.onReadCallback rule receive).isSome := by
  obtain ⟨start, created, ready, outcome⟩ :=
    Connection.onRead_parse rule ⟨.readLen, packetLen⟩ [] (CIOBuffer.alloc recycled)
      fresh trivial
  unfold Connection.onCreate at ran
  rw [created, Option.bind_some] at ran
  obtain ⟨finalReady, fed⟩ := readerMachine_run_feed rule receives start final ready ran
  constructor
  · rw [fed, outcome, List.nil_append]
    exact rule.framing.foldl_feed _ [] _
  · intro posted receiving
    obtain ⟨_, room, region⟩ := finalReady posted receiving
    obtain ⟨positive, inside⟩ := CIOSocket.wsaBuf_room final.readBuf room
    rw [← region] at positive inside
    exact ⟨positive, Nat.le_of_eq inside, fun receive within =>
      Connection.onReadCallback_defined rule final posted receive finalReady receiving within⟩

/-- A length cut between its two bytes, and a body cut behind its opcode, while
an earlier packet still holds the buffer. -/
theorem reader_parses_cut_packet :
    ∃ final : Connection,
      (Connection.onCreate CSocketServerEx.lengthRule 0 (fun _ => 204) (fun _ => 205)).bind
        (fun start => (readerMachine CSocketServerEx.lengthRule).run start
          [⟨[5], by decide, 1, fun _ => 206⟩, ⟨[0, 1], by decide, 2, fun _ => 207⟩,
            ⟨[7, 9], by decide, 1, fun _ => 208⟩]) = some final ∧
      final.outcome =
        CSocketServerEx.lengthRule.framing.parse ⟨.readLen, 0⟩ [5, 0, 1, 7, 9] ∧
      final.dispatched = [⟨1, [7, 9]⟩] :=
  ⟨_, rfl,
    (reader_parses_stream CSocketServerEx.lengthRule 0 (fun _ => 204) (fun _ => 205)
      [⟨[5], by decide, 1, fun _ => 206⟩, ⟨[0, 1], by decide, 2, fun _ => 207⟩,
        ⟨[7, 9], by decide, 1, fun _ => 208⟩] _ rfl).1,
    rfl⟩

end AuthServer
